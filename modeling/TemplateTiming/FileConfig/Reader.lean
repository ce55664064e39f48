import TemplateTiming.FileConfig.Basic
import TemplateTiming.Environment
import TemplateTiming.Toml.Table
import TemplateTiming.Toml.Diagnostic
import TemplateTiming.Number.Shortest

/-! Reading a configuration file: references to the environment are replaced in its text, the text is read as
TOML, and the tables are matched with the sections. A section may also be an array that lists the fields in
order, all of them. Keys that no section knows are passed over, though a number there must still be within the
limits of the widest types. Entries are visited in the order of their keys, and the first fault counts. -/

namespace TemplateTiming

namespace Toml

/-- A double in positional notation, as messages show it. -/
def Real.shown : Real → String
  | .notANumber => "NaN"
  | .infinite negative => (if negative then "-" else "") ++ "inf"
  | .finite negative digits exponent =>
    (if negative then "-" else "") ++
      match Binary64.ofScaled digits exponent with
      | .finite units => String.ofList (Binary64.layOut ⟨fun _ => true, false⟩ units)
      | _ => "inf"

/-- An integer and the narrowest type that holds it, as messages show them. -/
def integerShown (n : Int) : String :=
  let digits := (if n < 0 then "-" else "") ++ Decimal.text n.natAbs
  if -Int.pow 2 63 ≤ n ∧ n < Int.pow 2 64 then "integer `" ++ digits ++ "`"
  else if -Int.pow 2 127 ≤ n ∧ n < Int.pow 2 127 then "integer `" ++ digits ++ "` as i128"
  else "integer `" ++ digits ++ "` as u128"

namespace Value

/-- What a value is, for a message that something else is expected. -/
def shown : Value → String
  | .scalar (.string s) _ => "string " ++ Quoted.text (String.ofList s)
  | .scalar (.integer n) _ => integerShown n
  | .scalar .malformedInteger _ => "integer"
  | .scalar (.float x) _ => "floating point `" ++ x.shown ++ "`"
  | .scalar (.boolean b) _ => "boolean `" ++ (if b then "true" else "false") ++ "`"
  | .scalar .moment _ => "map"
  | .array _ _ _ => "sequence"
  | .table _ _ _ => "map"

/-- A number beyond the widest types is refused wherever it stands, and so is an integer without a value. -/
def overflow? : Value → Option Fault
  | .scalar (.integer n) _ => if -Int.pow 2 127 ≤ n ∧ n < Int.pow 2 128 then none else some .integerOverflow
  | .scalar .malformedInteger _ => some .integerOverflow
  | .scalar (.float (.finite _ digits exponent)) _ =>
    match Binary64.ofScaled digits exponent with
    | .finite _ => none
    | _ => some .floatOverflow
  | _ => none

/-- The refusal of a value in a place where `expected` is wanted. -/
def refuse {α : Type} (expected : String) (v : Value) : Except Problem α :=
  .error ⟨(v.overflow?).getD (.wrongType v.shown expected), some v.span⟩

def toCount : Value → Except Problem UInt64
  | .scalar (.integer n) span =>
    if 0 ≤ n ∧ n < Int.pow 2 64 then .ok n.toNat.toUInt64
    else if n < 0 ∧ -Int.pow 2 63 ≤ n then .error ⟨.wrongValue (integerShown n) "usize", some span⟩
    else refuse "usize" (.scalar (.integer n) span)
  | v => refuse "usize" v

def toText (expected : String) : Value → Except Problem String
  | .scalar (.string s) _ => .ok (String.ofList s)
  | v => refuse expected v

def toBool : Value → Except Problem Bool
  | .scalar (.boolean b) _ => .ok b
  | v => refuse "a boolean" v

mutual

/-- Passes over a value that is not used. -/
def skip : Value → Except Problem Unit
  | .scalar s span =>
    match (Value.scalar s span).overflow? with
    | some f => .error ⟨f, some span⟩
    | none => .ok ()
  | .array items _ _ => skipItems items
  | .table _ entries _ => skipEntries entries

def skipItems : List Value → Except Problem Unit
  | [] => .ok ()
  | v :: rest => do
    skip v
    skipItems rest

def skipEntries : List (Key × Value) → Except Problem Unit
  | [] => .ok ()
  | (_, v) :: rest => do
    skip v
    skipEntries rest

end

/-- Reads a section with the given fields. A date or time has fields of its own, none of which is known. -/
def toSection {α : Type} (name : String) (fields : List String) (set : α → String → Value → Except Problem α)
    (start : α) : Value → Except Problem α
  | .table _ entries _ => entries.foldlM (fun a (k, v) => do
      let field := String.ofList k.name
      if fields.contains field then set a field v
      else do
        skip v
        .ok a) start
  | .array items _ span => do
    let a ← (fields.zip items).foldlM (fun a (field, v) => set a field v) start
    if items.length < fields.length then
      .error ⟨.wrongLength items.length
        ("struct " ++ name ++ " with " ++ Decimal.text fields.length ++ " elements"), some span⟩
    else .ok a
  | .scalar .moment _ => .ok start
  | v => refuse ("struct " ++ name) v

end Value

end Toml

namespace FileConfig

open Toml (Value Problem)

def setBench (s : BenchSection) (field : String) (v : Value) : Except Problem BenchSection := do
  if field = "input" then
    let text ← v.toText "path string"
    .ok { s with input := some (Path.ofString text) }
  else if field = "iterations" then .ok { s with iterations := some (← v.toCount) }
  else if field = "warmup" then .ok { s with warmup := some (← v.toCount) }
  else if field = "label" then .ok { s with label := some (← v.toText "a string") }
  else .ok { s with format := some (← v.toText "a string") }

def setRender (s : RenderSettings) (field : String) (v : Value) : Except Problem RenderSettings := do
  if field = "disable_comments" then .ok { s with disableComments := some (← v.toBool) }
  else .ok { s with socialIconOrigin := some (← v.toText "a string") }

/-- The monitoring section while it is read, with or without its required field. -/
def setMonitoring (s : Option Bool × Option String) (field : String) (v : Value) :
    Except Problem (Option Bool × Option String) := do
  if field = "enabled" then .ok (some (← v.toBool), s.2)
  else .ok (s.1, some (← v.toText "a string"))

def benchOf : Value → Except Problem BenchSection :=
  Value.toSection "BenchSection" ["input", "iterations", "warmup", "label", "format"] setBench
    ⟨none, none, none, none, none⟩

def renderOf : Value → Except Problem RenderSettings :=
  Value.toSection "RenderSettings" ["disable_comments", "social_icon_origin"] setRender ⟨none, none⟩

def monitoringOf (v : Value) : Except Problem Monitoring := do
  let (enabled, logLevel) ←
    Value.toSection "MonitoringConfig" ["enabled", "log_level"] setMonitoring (none, none) v
  match enabled with
  | some enabled => .ok ⟨enabled, logLevel⟩
  | none => .error ⟨.missingField "enabled", some v.span⟩

def setSection (c : FileConfig) (k : Toml.Key) (v : Value) : Except Problem FileConfig := do
  let name := String.ofList k.name
  if name = "bench" then .ok { c with bench := ← benchOf v }
  else if name = "render" then .ok { c with render := ← renderOf v }
  else if name = "monitoring" then .ok { c with monitoring := some (← monitoringOf v) }
  else
    v.skip
    .ok c

/-- Without any setting. -/
def empty : FileConfig := ⟨⟨none, none, none, none, none⟩, ⟨none, none⟩, none⟩

def ofTable (t : Toml.Table) : Except Problem FileConfig :=
  t.entries.foldlM (fun c (k, v) => setSection c k v) empty

/-- The configuration in a TOML text without references. -/
def ofToml (text : List Char) : Except Problem FileConfig := do
  ofTable (← Toml.Table.parse text)

/-- The configuration in a text. -/
def parse (env : Environment) (text : List Char) : Except Error FileConfig :=
  let text := Reference.substitute env.text? text
  (ofToml text).mapError fun problem =>
    .configValidation "toml_parsing" ("TOML parsing error: " ++ problem.report text)

/-- The configuration in the file at `path`. -/
def load (env : Environment) (fileContent : Path → Except IoError (List UInt8)) (path : Path) :
    Except Error FileConfig := do
  let unreadable (e : IoError) : Error := .config ("cannot read " ++ path.shown ++ ": " ++ e.message)
  let octets ← (fileContent path).mapError unreadable
  match Utf8.decode? octets with
  | some text => parse env text
  | none => .error (unreadable .notUtf8)

end FileConfig

end TemplateTiming
