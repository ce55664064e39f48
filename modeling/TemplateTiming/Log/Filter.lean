import TemplateTiming.Log.Event
import TemplateTiming.Environment
import TemplateTiming.Text.Alphanumeric
import TemplateTiming.Text.Blank

/-! Which events are written. A filter is a list of directives, each with a level and perhaps the beginning of
the names of the components it is about; for an event the directive with the longest such beginning decides. A
directive may ask for a field, and events have only their message, or for a span around the event, and there are
none. An environment variable may replace the filter that the settings ask for. -/

namespace TemplateTiming.Log

/-- A level for the components whose names begin with `target`, and for events with a field if one is named; 0 is
off. -/
structure Directive where
  target : List Char
  field : Option (List Char)
  /-- Nothing outside of spans is concerned. -/
  inSpan : Bool
  detail : Nat
  deriving DecidableEq, Repr

abbrev Filter := List Directive

/-- The only field of every event. -/
def messageField : List Char := "message".toList

def Directive.concerns (d : Directive) (component : List Char) : Bool :=
  !d.inSpan && d.target.isPrefixOf component && (d.field = none || d.field = some messageField)

/-- How closely a directive says what it concerns: first by its target, then by its field. -/
def Directive.weight (d : Directive) : Nat := 2 * d.target.length + (if d.field.isSome then 1 else 0)

/-- The detail for the events of a component: that of the directive with the greatest weight, of two with the same
weight the later one. -/
def Filter.detailFor (f : Filter) (component : List Char) : Nat :=
  let closest := (f.filter (·.concerns component)).foldl (fun best d =>
    match best with
    | some b => if d.weight < b.weight then some b else some d
    | none => some d) none
  closest.elim 0 (·.detail)

def Filter.admits (f : Filter) (e : LogEvent) : Bool := e.level.detail ≤ f.detailFor e.component.toList

/-- A level by its name in any case, or by its number. -/
def readLevel? (text : List Char) : Option Nat :=
  let lowered := text.map Char.toLower
  let digits := if text.head? = some '+' then text.drop 1 else text
  if digits ≠ [] ∧ digits.all Decimal.isDigit then
    let n := Decimal.value digits
    if n ≤ 5 then some n else none
  else if text = [] ∨ lowered = "error".toList then some 1
  else if lowered = "warn".toList then some 2
  else if lowered = "info".toList then some 3
  else if lowered = "debug".toList then some 4
  else if lowered = "trace".toList then some 5
  else if lowered = "off".toList then some 0
  else none

/-- Whether a directive may begin with this character. -/
def startsDirective (c : Char) : Bool :=
  c = '-' || c = ':' || c = '_' || Text.isAlphanumeric c

/-- The level behind the place `i` of a directive, where an equals sign has to stand; without a level every level
is meant. `text` is the directive with the blanks around it, which `trimmed` lacks; places are found in `trimmed`
and then taken from `text`. -/
def levelAt? (text trimmed : List Char) (i : Nat) : Option Nat :=
  match trimmed.drop i with
  | [] => some 5
  | c :: _ =>
    if c ≠ '=' then none
    else if text.drop (i + 1) = [] then some 5
    else readLevel? (text.drop (i + 1))

/-- A directive about spans or fields, whose opening bracket stands at the place `i` behind its target. -/
def spanDirective? (text trimmed : List Char) (i : Nat) : Option Directive :=
  let target := text.take i
  let name := (trimmed.drop (i + 1)).takeWhile fun c => c ≠ ']' ∧ c ≠ Char.ofNat 0x7B
  let j := i + 1 + name.length
  match trimmed.drop j with
  | [] => none
  | c :: rest =>
    if c = ']' then (levelAt? text trimmed (j + 1)).map fun detail => ⟨target, none, true, detail⟩
    else
      let field := rest.takeWhile (· ≠ Char.ofNat 0x7D)
      let k := j + 1 + field.length
      if field = [] ∨ trimmed[k + 1]? ≠ some ']' then none
      else
        (levelAt? text trimmed (k + 2)).map fun detail =>
          ⟨target, some ((text.drop (j + 1)).take field.length), name ≠ [] || field.contains '=', detail⟩

/-- A directive: a level, a target, or both with an equals sign between them. A target without a level has every
level, and spans and fields may be named behind it. -/
def readDirective? (text : List Char) : Option Directive :=
  let trimmed := Text.trim text
  match trimmed with
  | [] => none
  | c :: _ =>
    if c = '[' then spanDirective? text trimmed 0
    else if !startsDirective c then none
    else
      let i := (trimmed.takeWhile fun d => d ≠ '=' ∧ d ≠ '[').length
      match trimmed.drop i with
      | [] =>
        match readLevel? text with
        | some detail => some ⟨[], none, false, detail⟩
        | none => some ⟨text, none, false, 5⟩
      | d :: _ =>
        if d = '[' then spanDirective? text trimmed i
        else (levelAt? text trimmed i).map fun detail => ⟨text.take i, none, false, detail⟩

/-- The parts of a text between commas. -/
def commaParts : List Char → List (List Char)
  | [] => [[]]
  | c :: cs =>
    match commaParts cs with
    | [] => [[c]]
    | first :: more => if c = ',' then [] :: first :: more else (c :: first) :: more

/-- A filter from directives between commas; the empty one shows errors only. -/
def readFilter? (text : List Char) : Option Filter :=
  match ((commaParts text).filter (· ≠ [])).mapM readDirective? with
  | some [] => some [⟨[], none, false, 1⟩]
  | f => f

/-- The directive for all components of the program. -/
def Directive.forProgram (detail : Nat) : Directive := ⟨"mjml_bench".toList, none, false, detail⟩

/-- The filter without the environment: verbose output, the level of the configuration file, or information. -/
def settingsFilter (verbose : Bool) (level : Option String) : Filter :=
  if verbose then [.forProgram 4, ⟨[], none, false, 3⟩]
  else
    match level with
    | none => [.forProgram 3]
    | some l => [.forProgram ((readLevel? l.toList).getD 0)]

/-- The variable that replaces the filter of the settings. -/
def filterVariable : List Char := "RUST_LOG".toList

def filterFor (env : Environment) (verbose : Bool) (level : Option String) : Filter :=
  ((env.text? filterVariable).bind readFilter?).getD (settingsFilter verbose level)

end TemplateTiming.Log
