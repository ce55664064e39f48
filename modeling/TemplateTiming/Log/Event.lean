import TemplateTiming.Settings
import TemplateTiming.Monitor
import TemplateTiming.Number.Shortest

/-! The log of a run: what happened, how important it is, and the line that says so. -/

namespace TemplateTiming

inductive LogLevel where
  | error
  | warn
  | info
  | debug
  | trace
  deriving DecidableEq, Repr

namespace LogLevel

def name : LogLevel → String
  | .error => "ERROR"
  | .warn => "WARN"
  | .info => "INFO"
  | .debug => "DEBUG"
  | .trace => "TRACE"

/-- How much a log shows that goes down to this level. -/
def detail : LogLevel → Nat
  | .error => 1
  | .warn => 2
  | .info => 3
  | .debug => 4
  | .trace => 5

end LogLevel

inductive LogEvent where
  | effectiveSettings (s : Settings)
  | unusualExtension (e : Error)
  | loaded (size : Nat) (path : Path)
  | benchmarking (path : Path) (size : Nat) (converter : String) (iterations warmup : UInt64)
  | warmingUp
  | parseWarnings (count : Nat)
  | sampled (phase : String) (stats : Stats)
  | finalStats (stats : Stats)
  | timedLoopFinished (elapsed : Duration)
  | failed (e : Error)
  deriving DecidableEq, Repr

namespace LogEvent

def level : LogEvent → LogLevel
  | .failed _ => .error
  | .unusualExtension _ => .warn
  | .benchmarking .. | .sampled .. | .finalStats _ => .info
  | .effectiveSettings _ | .loaded .. | .warmingUp | .parseWarnings _ | .timedLoopFinished _ => .debug

/-- The component that reports the event, by the name that a filter calls it. -/
def component : LogEvent → String
  | .effectiveSettings _ | .unusualExtension _ | .failed _ => "mjml_bench"
  | .loaded .. => "mjml_bench::adapters::fs"
  | .parseWarnings _ => "mjml_bench::adapters::mrml"
  | .benchmarking .. | .warmingUp | .timedLoopFinished _ => "mjml_bench::core::bench"
  | .sampled .. | .finalStats _ => "mjml_bench::utils::monitor"

/-- The lines that only a monitor writes. -/
def isMonitored : LogEvent → Bool
  | .sampled .. | .finalStats _ => true
  | _ => false

/-- A percentage with one place. -/
def percent (x : Binary64) : String := String.ofList (x.withPlaces 1)

def message : LogEvent → String
  | .effectiveSettings s => "Effective settings: " ++ s.shown
  | .unusualExtension e => e.message
  | .loaded size path => "Loaded " ++ Decimal.text size ++ " bytes from " ++ path.shown
  | .benchmarking path size converter iterations warmup =>
    "Benchmarking " ++ path.shown ++ " (" ++ Decimal.text size ++ " bytes) with " ++ converter ++ ": "
      ++ Decimal.text iterations.toNat ++ " iterations, " ++ Decimal.text warmup.toNat ++ " warm-up"
  | .warmingUp => "Warming up..."
  | .parseWarnings count => "mrml reported " ++ Decimal.text count ++ " parse warnings"
  | .sampled phase s =>
    "📊 " ++ phase ++ " - CPU: " ++ percent s.cpu ++ "%, Memory: " ++ Decimal.text s.memoryMiB ++ "MB ("
      ++ percent s.memoryPercent ++ "%), Peak: " ++ Decimal.text s.peakMiB ++ "MB, Time: " ++ s.elapsed.text
  | .finalStats s =>
    "📊 Final Stats - Total Time: " ++ s.elapsed.text ++ ", Peak Memory: " ++ Decimal.text s.peakMiB ++ "MB"
  | .timedLoopFinished elapsed => "Timed loop finished in " ++ elapsed.text
  | .failed e =>
    "❌ Benchmark failed: " ++ e.message ++ " (Category: " ++ e.category.name ++ ", Severity: "
      ++ e.severity.name ++ ")"

end LogEvent

namespace Monitor

/-- Samples before or after a phase. -/
def logStats (m : Monitor) (phase : String) (reading : Option Reading) : List LogEvent × Monitor :=
  match m.sample reading with
  | (some stats, m) => ([.sampled phase stats], m)
  | (none, m) => ([], m)

/-- Samples at the end of a run. -/
def logFinalStats (m : Monitor) (reading : Option Reading) : List LogEvent × Monitor :=
  match m.sample reading with
  | (some stats, m) => ([.finalStats stats], m)
  | (none, m) => ([], m)

end Monitor

end TemplateTiming
