import TemplateTiming.Program
import TemplateTiming.Log.Line
import TemplateTiming.ProcessTable
import Std.Time.DateTime.Timestamp

/-! The command. It collects what a run needs to know (arguments, environment, files and clock), leaves all
decisions to the functions on these values, and writes what they decide. -/

namespace TemplateTiming.Main

/-- The system's number for a failure. -/
def failureNumber : IO.Error → Option Nat
  | .alreadyExists _ code _ | .otherError code _ | .resourceBusy code _ | .resourceVanished code _
  | .unsupportedOperation code _ | .hardwareFault code _ | .unsatisfiedConstraints code _
  | .illegalOperation code _ | .protocolError code _ | .timeExpired code _ | .interrupted _ code _
  | .noFileOrDirectory _ code _ | .invalidArgument _ code _ | .permissionDenied _ code _
  | .resourceExhausted _ code _ | .inappropriateType _ code _ | .noSuchThing _ code _ => some code.toNat
  | .unexpectedEof | .userError _ => none

/-- A failure; some of its numbers come negated, as words of 32 bits. -/
def ioError (e : IO.Error) : IoError :=
  match failureNumber e with
  | some n => .system (if n < 2147483648 then n else UInt32.size - n)
  | none => .described e.toString

/-- The content of a file, or the reason why there is none. -/
def fetch (p : Path) : IO (Except IoError (List UInt8)) := do
  if p.octets.contains 0 then return .error .nulInName
  try
    let octets ← IO.FS.readBinFile p.shown
    return .ok octets.toList
  catch e => return .error (ioError e)

/-- The parts of a sequence between zero bytes. -/
def entries (octets : List UInt8) : List (List UInt8) :=
  octets.foldr (fun b parts =>
    match parts with
    | [] => [[b]]
    | first :: more => if b = 0 then [] :: first :: more else (b :: first) :: more) [[]]

def environment : IO Environment := do
  match ← fetch (Path.ofString "/proc/self/environ") with
  | .ok octets => return Environment.ofEntries (entries octets)
  | .error _ => return Environment.ofEntries []

/-- A text file of the system, empty if it cannot be read. -/
def table (name : String) : IO (List Char) := do
  match ← fetch (Path.ofString name) with
  | .ok octets => return Utf8.lossy octets
  | .error _ => return []

def durationSince (start : Nat) : IO Duration := do
  return (Duration.ofNanoseconds? ((← IO.monoNanosNow) - start)).getD .zero

def reading (start : Nat) : IO (Option Reading) := do
  return ProcessTable.reading? (← table "/proc/self/status") (← table "/proc/meminfo") (← table "/proc/self/stat")
    (← durationSince start)

def now : IO Instant := do
  let t ← Std.Time.Timestamp.now
  return (Instant.ofUnix? t.val.second.val t.val.nano.val.toNat).getD .epoch

/-- Runs a job and takes its time. -/
def perform (job : Job) : IO Outcome := do
  let engine := Program.engine job
  let start ← IO.monoNanosNow
  let warm ← IO.lazyPure fun _ => engine.warmUp job.template
  let before ← reading start
  let startedAt ← now
  let loopStart ← IO.monoNanosNow
  let timed ← IO.lazyPure fun _ => engine.timedLoop job.template warm
  let elapsed ← durationSince loopStart
  let after ← reading start
  let final ← reading start
  return Program.conclude job (engine.conclude job.template warm timed ⟨startedAt, elapsed, before, after, final⟩)

def write (outcome : Outcome) : IO UInt32 := do
  let time ← now
  for e in outcome.log do
    IO.eprintln (Log.line outcome.logFormat time e)
  for m in outcome.messages do
    IO.eprintln m
  IO.print outcome.stdout
  return outcome.exit.toUInt32

/-- Adds a file to those that are known. -/
def know (w : World) (p : Path) : IO World := do
  let content ← fetch p
  return { w with fileContent := fun q => if q = p then content else w.fileContent q }

def run (arguments : List (List UInt8)) : IO UInt32 := do
  let workingDir := Path.ofString (← IO.currentDir).toString
  let mut w : World := ⟨← environment, workingDir, fun _ => .error .noSuchFile⟩
  if let some p := Program.configFile? arguments then w ← know w p
  if let some p := Program.templateFile? w arguments then w ← know w p
  match Program.prepare w arguments with
  | .error outcome => write outcome
  | .ok job => write (← perform job)

end TemplateTiming.Main

def main (arguments : List String) : IO UInt32 :=
  TemplateTiming.Main.run (arguments.map fun a => TemplateTiming.Utf8.encode a.toList)
