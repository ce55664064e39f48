import TemplateTiming.Log.Event
import TemplateTiming.Template

/-! The timed loop. An engine converts one template over and over: first a number of warm-up conversions that do
not count, then the timed ones. What a conversion yields is not looked at; the first one that fails ends the run.
A converter may depend on its own past, so it has a state that each call passes on, and it may write to the log.
The clock and the memory readings of a run are given from outside. -/

namespace TemplateTiming

/-- What one call of a converter yields. -/
structure Conversion where
  outcome : Except Error String
  log : List LogEvent

structure Converter (σ : Type) where
  name : String
  convert : σ → String → Conversion × σ

namespace Converter

variable {σ : Type}

/-- A converter whose outcomes are fixed beforehand, by the number of calls before. -/
def scripted (name : String) (outcome : Nat → Except Error String) : Converter Nat :=
  ⟨name, fun calls _ => (⟨outcome calls, []⟩, calls + 1)⟩

/-- The same converter, which also keeps the texts that it was called with, the last one first. -/
def recorded (c : Converter σ) : Converter (σ × List String) :=
  ⟨c.name, fun (s, inputs) text =>
    let (conversion, s) := c.convert s text
    (conversion, (s, text :: inputs))⟩

end Converter

/-- What the clock and the system say in the course of a run. -/
structure Measured where
  startedAt : Instant
  elapsed : Duration
  before : Option Reading
  after : Option Reading
  final : Option Reading

structure Engine (σ : Type) where
  converter : Converter σ
  state : σ
  iterations : UInt64
  warmup : UInt64
  label : String
  monitor : Monitor

/-- Some conversions in a row: the failure that ended them, what they logged, and the converter's state. -/
structure Batch (σ : Type) where
  failure : Option Error
  log : List LogEvent
  state : σ

/-- The end of a run. -/
structure Run (σ : Type) where
  result : Except Error Report
  log : List LogEvent
  engine : Engine σ

namespace Engine

variable {σ : Type}

def new (converter : Converter σ) (state : σ) : Engine σ :=
  ⟨converter, state, Settings.default.iterations, Settings.default.warmup, Settings.default.label, .new false⟩

def withIterations (e : Engine σ) (n : UInt64) : Engine σ := { e with iterations := n }
def withWarmup (e : Engine σ) (n : UInt64) : Engine σ := { e with warmup := n }
def withLabel (e : Engine σ) (label : String) : Engine σ := { e with label := label }

/-- A new monitor, which knows nothing of what the one before has seen. -/
def withMonitoring (e : Engine σ) (enabled : Bool) : Engine σ := { e with monitor := .new enabled }

def ofSettings (converter : Converter σ) (state : σ) (s : Settings) : Engine σ :=
  (((new converter state).withIterations s.iterations).withWarmup s.warmup).withLabel s.label

/-- Converts `text` a number of times, or until a conversion fails. -/
def convertTimes (c : Converter σ) (text : String) : Nat → List LogEvent → σ → Batch σ
  | 0, log, s => ⟨none, log, s⟩
  | n + 1, log, s =>
    match c.convert s text with
    | (⟨.ok _, more⟩, s) => convertTimes c text n (log ++ more) s
    | (⟨.error e, more⟩, s) => ⟨some e, log ++ more, s⟩

/-- The conversions that do not count. -/
def warmUp (e : Engine σ) (t : Template) : Batch σ :=
  convertTimes e.converter t.content e.warmup.toNat [] e.state

/-- The conversions whose time is taken, unless the warm-up has failed. -/
def timedLoop (e : Engine σ) (t : Template) (warm : Batch σ) : Batch σ :=
  match warm.failure with
  | some failure => ⟨some failure, [], warm.state⟩
  | none => convertTimes e.converter t.content e.iterations.toNat [] warm.state

/-- The log of a run up to the end of the warm-up. -/
def opening (e : Engine σ) (t : Template) (warm : Batch σ) : List LogEvent :=
  [.benchmarking t.path t.size e.converter.name e.iterations e.warmup]
    ++ (if e.warmup = 0 then [] else [.warmingUp]) ++ warm.log

def report (e : Engine σ) (t : Template) (m : Measured) : Report where
  label := e.label
  converter := e.converter.name
  input := t.path
  inputBytes := t.size
  iterations := e.iterations
  warmup := e.warmup
  elapsed := m.elapsed
  startedAt := m.startedAt

/-- What a run amounts to once its conversions are done. -/
def conclude (e : Engine σ) (t : Template) (warm timed : Batch σ) (m : Measured) : Run σ :=
  match warm.failure with
  | some failure => ⟨.error failure, e.opening t warm, { e with state := warm.state }⟩
  | none =>
    let (before, monitor) := e.monitor.logStats "Before timed loop" m.before
    match timed.failure with
    | some failure =>
      ⟨.error failure, e.opening t warm ++ before ++ timed.log, { e with state := timed.state, monitor := monitor }⟩
    | none =>
      let (after, monitor) := monitor.logStats "After timed loop" m.after
      let (final, monitor) := monitor.logFinalStats m.final
      ⟨.ok (e.report t m),
        e.opening t warm ++ before ++ timed.log ++ after ++ final ++ [.timedLoopFinished m.elapsed],
        { e with state := timed.state, monitor := monitor }⟩

def run (e : Engine σ) (t : Template) (m : Measured) : Run σ :=
  let warm := e.warmUp t
  e.conclude t warm (e.timedLoop t warm) m

end Engine

end TemplateTiming
