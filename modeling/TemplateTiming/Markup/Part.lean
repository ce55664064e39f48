import TemplateTiming.Markup.Component

/-! The parts of a body, and reading them from the tree of its tags. Elements and tokens are refused where they
have no place, in the order of the text, and an attribute that an element does not know counts as a warning. -/

namespace TemplateTiming.Markup

/-- The attributes of an element, each name once. -/
abbrev Attributes := List (List Char × Option (List Char))

/-- A part of a body. -/
inductive Part where
  | text (s : List Char)
  | comment (s : List Char)
  | raw (parts : List Part)
  | component (c : Component) (name : List Char) (attributes : Attributes) (parts : List Part)
  | plain (name : List Char) (attributes : Attributes) (parts : List Part)
  deriving Repr

/-- Reading with a count of warnings. -/
abbrev Reading := StateT Nat (Except Fault)

namespace Reading

def refuse {α : Type} (f : Fault) : Reading α := fun _ => .error f

def warn : Reading Unit := modify (· + 1)

end Reading

namespace Node

/-- Where a node begins: the whole of it, or an element's bracket and name. -/
def span : Node → Nat × Nat
  | .text _ start stop | .comment _ start stop | .conditional _ start stop | .other start stop => (start, stop)
  | .element tag _ _ => (tag.start, tag.nameStop)

def unexpected {α : Type} (n : Node) : Reading α := Reading.refuse (.unexpectedToken n.span.1 n.span.2)

def isBlank : Node → Bool
  | .text s _ _ => Text.allBlank s
  | _ => false

def isComment : Node → Bool
  | .comment _ _ _ => true
  | _ => false

end Node

namespace Ending

/-- Passes the end of a start tag. -/
def passTag : Ending → Reading Unit
  | .brokenTag f => Reading.refuse f
  | _ => pure ()

/-- Passes the end of an element. -/
def pass : Ending → Reading Unit
  | .brokenTag f | .brokenContent f => Reading.refuse f
  | _ => pure ()

end Ending

namespace Tag

/-- A later attribute of the same name replaces the value of the first. -/
def distinct (t : Tag) : Attributes :=
  t.attributes.foldl (fun known a =>
    if known.any (·.1 = a.name) then
      known.map fun (name, value) => if name = a.name then (name, a.value) else (name, value)
    else known ++ [(a.name, a.value)]) []

def isNamed (t : Tag) (name : String) : Bool := t.name = name.toList

/-- Warns of every attribute that is not one of those known. -/
def expect (t : Tag) (known : List String) : Reading Unit :=
  t.attributes.forM fun a => if known.contains (String.ofList a.name) then pure () else Reading.warn

/-- A tag that takes no attribute lets one pass with a warning. -/
def expectNone (t : Tag) : Reading Unit :=
  match t.attributes with
  | [] => pure ()
  | [_] => Reading.warn
  | _ :: a :: _ => Reading.refuse (.unexpectedToken a.start a.stop)

/-- The value of an attribute that has to be given. -/
def require (t : Tag) (name : String) : Reading (List Char) :=
  match t.value? name with
  | some value => pure value
  | none => Reading.refuse (.missingAttribute name t.nameStart t.nameStop)

end Tag

/-- Passes the content of an element that has none, and its end. -/
def passEmpty (children : List Node) (ending : Ending) : Reading Unit := do
  ending.passTag
  match children.dropWhile Node.isBlank with
  | [] => ending.pass
  | n :: _ => n.unexpected

namespace Inclusion

/-- The kinds of documents that can be included. -/
def kinds : List String := ["mjml", "html", "css"]

/-- Checks that a document is named, and its kind if that is said. -/
def check (t : Tag) : Reading Unit := do
  t.attributes.forM fun a =>
    match String.ofList a.name, a.value with
    | "path", some _ | "css-inline", some _ => pure ()
    | "type", some kind =>
      if kinds.contains (String.ofList kind) then pure ()
      else Reading.refuse (.invalidAttribute (a.stop - 1 - Utf8.size kind) (a.stop - 1))
    | _, _ => Reading.warn
  let _ ← t.require "path"

/-- Other documents are never loaded, so an inclusion needs content of its own. -/
def finish (t : Tag) (children : List Node) : Reading Unit :=
  match children with
  | [] => Reading.refuse (.notIncluded t.nameStart t.nameStop)
  | _ => pure ()

end Inclusion

namespace Place

/-- Refuses an element that has no place here. -/
def checkElement (p : Place) (tag : Tag) : Reading Unit :=
  match p with
  | .anything | .raw => pure ()
  | .included =>
    if tag.isNamed "mj-raw" ∨ (Component.ofName? (String.ofList tag.name)).isSome then pure ()
    else Reading.refuse (.unexpectedElement tag.nameStart tag.nameStop)
  | .only names _ =>
    if names.contains (String.ofList tag.name) then pure ()
    else Reading.refuse (.unexpectedElement tag.start tag.nameStop)

def admitsText : Place → Bool
  | .anything | .raw | .included => true
  | .only _ _ => false

def admitsComment : Place → Bool
  | .anything | .raw | .included => true
  | .only _ comments => comments

/-- What an element stands for, and what may stand in it. -/
inductive Role where
  | raw
  | inclusion
  | component (c : Component) (content : Option Place)
  | plain (content : Place)

def role (p : Place) (tag : Tag) : Role :=
  match p.component? (String.ofList tag.name) with
  | some c => .component c (inComponent? (String.ofList tag.name))
  | none =>
    if p = .raw then .plain .raw
    else if tag.isNamed "mj-raw" then .raw
    else if tag.isNamed "mj-include" then .inclusion
    else .plain .anything

end Place

namespace Part

mutual

/-- Reads a node at a place of the body. -/
def ofNode (place : Place) : Node → Reading Part
  | .text s start stop =>
    if place.admitsText then pure (.text s) else Reading.refuse (.unexpectedToken start stop)
  | .comment s start stop =>
    if place.admitsComment then pure (.comment s) else Reading.refuse (.unexpectedToken start stop)
  | .conditional s start stop =>
    if place = .raw then pure (.text s) else Reading.refuse (.unexpectedToken start stop)
  | .other start stop => Reading.refuse (.unexpectedToken start stop)
  | .element tag children ending => do
    place.checkElement tag
    match place.role tag with
    | .raw =>
      tag.expectNone
      ending.passTag
      let parts ← ofNodes .raw children
      ending.pass
      pure (.raw parts)
    | .inclusion =>
      ending.passTag
      Inclusion.check tag
      let parts ← ofNodes .included children
      ending.pass
      Inclusion.finish tag children
      pure (.raw parts)
    | .component c none =>
      passEmpty children ending
      pure (.component c tag.name tag.distinct [])
    | .component c (some content) =>
      ending.passTag
      let parts ← ofNodes content children
      ending.pass
      pure (.component c tag.name tag.distinct parts)
    | .plain content =>
      ending.passTag
      let parts ← ofNodes content children
      ending.pass
      pure (.plain tag.name tag.distinct parts)

def ofNodes (place : Place) : List Node → Reading (List Part)
  | [] => pure []
  | n :: rest => do
    let part ← ofNode place n
    let parts ← ofNodes place rest
    pure (part :: parts)

end

end Part

end TemplateTiming.Markup
