import TemplateTiming.Duration
import TemplateTiming.Instant
import TemplateTiming.Error
import TemplateTiming.Json.Writer

/-! The report of a run, as one line of text or as a JSON object. Both show the elapsed time in milliseconds,
computed in double precision; the text rounds it to three places, the JSON form keeps all of it. -/

namespace TemplateTiming

inductive ReportFormat where
  | text
  | json
  deriving DecidableEq, Repr

/-- Lower case for the letters A to Z only. -/
def asciiLower (s : String) : String := String.ofList (s.toList.map Char.toLower)

namespace ReportFormat

def name : ReportFormat → String
  | .text => "text"
  | .json => "json"

def names : List String := ["text", "json"]

def parse (s : String) : Except Error ReportFormat :=
  let lowered := asciiLower s
  if lowered = "text" then .ok .text
  else if lowered = "json" then .ok .json
  else .error (.invalidValue "format" lowered ("Valid formats: " ++ ", ".intercalate names))

end ReportFormat

structure Report where
  label : String
  converter : String
  input : Path
  inputBytes : Nat
  iterations : UInt64
  warmup : UInt64
  elapsed : Duration
  startedAt : Instant
  deriving DecidableEq, Repr

namespace Report

def elapsedMs (r : Report) : Binary64 := r.elapsed.milliseconds

/-- The elapsed time in seconds divided by the iterations, in double precision. -/
def meanSeconds (r : Report) : Binary64 := r.elapsed.toBinary64.div (.ofNat r.iterations.toNat)

/-- The mean time of an iteration. Counts of 32 bits divide whole nanoseconds and round down, larger counts
divide in double precision. -/
def meanIteration? (r : Report) : Option Duration :=
  let n := r.iterations.toNat
  if n = 0 then some .zero
  else if n < UInt32.size then some (r.elapsed.part n)
  else Duration.ofBinary64? r.meanSeconds

/-- A time in milliseconds, with three places. -/
def milliseconds (x : Binary64) : List Char := x.withPlaces 3

def text (r : Report) : List Char :=
  r.label.toList ++ [':', ' '] ++ milliseconds r.elapsedMs ++ ['m', 's']

/-- The members of the JSON form in order, each value as it is written. -/
def members (r : Report) (mean : Duration) : List (List Char × List Char) :=
  [("label".toList, Json.writeString r.label.toList),
    ("converter".toList, Json.writeString r.converter.toList),
    ("input".toList, Json.writeString (Utf8.lossy r.input.octets)),
    ("input_bytes".toList, Decimal.digits r.inputBytes),
    ("iterations".toList, Decimal.digits r.iterations.toNat),
    ("warmup".toList, Decimal.digits r.warmup.toNat),
    ("started_at".toList, Json.writeString r.startedAt.text),
    ("elapsed_ms".toList, Json.writeBinary64 r.elapsedMs),
    ("mean_iteration_ms".toList, Json.writeBinary64 mean.milliseconds)]

def render (r : Report) : ReportFormat → Except Error String
  | .text => .ok (String.ofList r.text)
  | .json =>
    match r.meanIteration? with
    | some mean => .ok (String.ofList (Json.writeObject (r.members mean)))
    | none => .error (.serialization .meanOutOfRange)

end Report

end TemplateTiming
