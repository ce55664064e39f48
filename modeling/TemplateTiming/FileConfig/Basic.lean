import TemplateTiming.Report
import TemplateTiming.Validation

/-! The settings that a configuration file can hold. Every one is optional, except that a monitoring section
says whether monitoring is on. -/

namespace TemplateTiming

structure BenchSection where
  input : Option Path
  iterations : Option UInt64
  warmup : Option UInt64
  label : Option String
  format : Option String
  deriving DecidableEq, Repr, Inhabited

structure RenderSettings where
  disableComments : Option Bool
  socialIconOrigin : Option String
  deriving DecidableEq, Repr, Inhabited

structure Monitoring where
  enabled : Bool
  logLevel : Option String
  deriving DecidableEq, Repr

structure FileConfig where
  bench : BenchSection
  render : RenderSettings
  monitoring : Option Monitoring
  deriving DecidableEq, Repr, Inhabited

namespace FileConfig

def logLevels : List String := ["trace", "debug", "info", "warn", "error"]

/-- The report format that the file asks for. -/
def reportFormat (c : FileConfig) : Except Error (Option ReportFormat) :=
  match c.bench.format with
  | some s => (ReportFormat.parse s).map some
  | none => .ok none

def monitoringEnabled (c : FileConfig) : Bool :=
  match c.monitoring with
  | some m => m.enabled
  | none => false

def logLevel? (c : FileConfig) : Option String := c.monitoring.bind (·.logLevel)

/-- Runs a check on a value that may be missing. -/
def check {α : Type} (value : Option α) (f : α → Except Error Unit) : Except Error Unit :=
  match value with
  | some a => f a
  | none => .ok ()

/-- Checks the values that are present, one field after the other. -/
def validate (c : FileConfig) : Except Error Unit := do
  check c.bench.input (Validation.path "bench.input")
  check c.bench.iterations fun n => Validation.atLeast "bench.iterations" n 1
  check c.bench.label (Validation.notBlank "bench.label")
  check c.bench.format fun s => Validation.oneOf "bench.format" (asciiLower s) ReportFormat.names
  check c.logLevel? fun s => Validation.oneOf "monitoring.log_level" (asciiLower s) logLevels

end FileConfig

end TemplateTiming
