import TemplateTiming.Markup.Part

/-! An MJML document: what its head says and what its body holds. The head may give defaults for the attributes
of components. Comments count only in the body. -/

namespace TemplateTiming.Markup

/-- For which components a default is meant. -/
inductive Audience where
  | all
  | ofClass (name : List Char)
  | named (name : List Char)
  deriving DecidableEq, Repr

/-- Attributes for components that do not give them. -/
structure Default where
  audience : Audience
  attributes : Attributes
  deriving Repr

namespace Attributes

/-- The value of an attribute that is given and has one. -/
def value? (all : Attributes) (name : String) : Option (List Char) :=
  (all.find? (·.1 = name.toList)).bind (·.2)

/-- The classes that an element asks for. -/
def classes (all : Attributes) : List (List Char) :=
  match Attributes.value? all "mj-class" with
  | some names => ((String.ofList names).splitOn " ").map String.toList
  | none => []

end Attributes

namespace Default

/-- The value of an attribute for an audience; a later default replaces an earlier one. -/
def lookup? (defaults : List Default) (audience : Audience) (key : String) : Option (List Char) :=
  (defaults.filter (·.audience = audience)).reverse.findSome? (Attributes.value? ·.attributes key)

/-- The value of an attribute of the component `name`: its own, or that of the first of its classes that has
one, or that of all components of this name, or of all components. -/
def resolve? (defaults : List Default) (name : List Char) (own : Attributes) (key : String) :
    Option (List Char) :=
  Attributes.value? own key
    <|> (Attributes.classes own).findSome? (fun c => lookup? defaults (.ofClass c) key)
    <|> lookup? defaults (.named name) key
    <|> lookup? defaults .all key

end Default

structure Head where
  title : Option (List Char)
  preview : Option (List Char)
  styles : List (List Char)
  raw : List Part
  defaults : List Default

structure Body where
  attributes : Attributes
  parts : List Part

structure Document where
  lang : Option (List Char)
  dir : Option (List Char)
  head : Head
  body : Option Body

namespace Body

/-- The value of an attribute of the body. -/
def value? (b : Body) (h : Head) (key : String) : Option (List Char) :=
  Default.resolve? h.defaults "mj-body".toList b.attributes key

end Body

/-- The content of an element that holds text alone; comments before the text do not count. -/
def readText (nodes : List Node) : Reading (List Char) :=
  match nodes.dropWhile Node.isComment with
  | [] => pure []
  | [.text s _ _] => pure s
  | .text _ _ _ :: n :: _ => n.unexpected
  | n :: _ => n.unexpected

namespace Head

def empty : Head := ⟨none, none, [], [], []⟩

/-- A default of the head: an element without content. -/
def readDefault (tag : Tag) (children : List Node) (ending : Ending) : Reading Default := do
  ending.passTag
  let audience ←
    if tag.isNamed "mj-class" then do pure (Audience.ofClass (← tag.require "name"))
    else if tag.isNamed "mj-all" then pure Audience.all
    else pure (Audience.named tag.name)
  passEmpty children ending
  pure ⟨audience, tag.distinct⟩

def readDefaults : List Node → Reading (List Default)
  | [] => pure []
  | .element tag children ending :: rest => do
    let first ← readDefault tag children ending
    let more ← readDefaults rest
    pure (first :: more)
  | n :: _ => n.unexpected

/-- Reads an element of the head that is no inclusion. -/
def addElement (h : Head) (tag : Tag) (children : List Node) (ending : Ending) : Reading Head := do
  let text : Reading (List Char) := do
    ending.passTag
    let s ← readText children
    ending.pass
    pure s
  if tag.isNamed "mj-title" then
    tag.expectNone
    pure { h with title := some (← text) }
  else if tag.isNamed "mj-preview" then
    tag.expectNone
    pure { h with preview := some (← text) }
  else if tag.isNamed "mj-style" then
    tag.expect ["inline"]
    pure { h with styles := h.styles ++ [← text] }
  else if tag.isNamed "mj-raw" then
    tag.expectNone
    ending.passTag
    let parts ← Part.ofNodes .raw children
    ending.pass
    pure { h with raw := h.raw ++ parts }
  else if tag.isNamed "mj-attributes" then
    tag.expectNone
    ending.passTag
    let defaults ← readDefaults children
    ending.pass
    pure { h with defaults := h.defaults ++ defaults }
  else if tag.isNamed "mj-breakpoint" ∨ tag.isNamed "mj-font" then
    tag.expect (if tag.isNamed "mj-font" then ["name", "href"] else ["width"])
    passEmpty children ending
    pure h
  else Reading.refuse (.unexpectedElement tag.nameStart tag.nameStop)

/-- Reads the content of an inclusion, in which texts mean nothing. -/
def addIncluded : Head → List Node → Reading Head
  | h, [] => pure h
  | h, .comment _ _ _ :: rest => addIncluded h rest
  | h, .text _ _ _ :: rest => addIncluded h rest
  | h, .element tag children ending :: rest => do addIncluded (← h.addElement tag children ending) rest
  | _, n :: _ => n.unexpected

def ofNodes : Head → List Node → Reading Head
  | h, [] => pure h
  | h, .comment _ _ _ :: rest => ofNodes h rest
  | h, .element tag children ending :: rest => do
    if tag.isNamed "mj-include" then
      ending.passTag
      Inclusion.check tag
      let h ← h.addIncluded children
      ending.pass
      Inclusion.finish tag children
      ofNodes h rest
    else ofNodes (← h.addElement tag children ending) rest
  | _, n :: _ => n.unexpected

end Head

namespace Document

def empty : Document := ⟨none, none, .empty, none⟩

/-- Reads the content of the root element; of two heads or bodies the later one counts. -/
def addChildren : Document → List Node → Reading Document
  | d, [] => pure d
  | d, .comment _ _ _ :: rest => addChildren d rest
  | d, .text s start stop :: rest =>
    if Text.allBlank s then addChildren d rest else Reading.refuse (.unexpectedToken start stop)
  | d, .element tag children ending :: rest => do
    if tag.isNamed "mj-head" then
      tag.expectNone
      ending.passTag
      let head ← Head.ofNodes .empty children
      ending.pass
      addChildren { d with head := head } rest
    else if tag.isNamed "mj-body" then
      ending.passTag
      let parts ← Part.ofNodes .anything children
      ending.pass
      addChildren { d with body := some ⟨tag.distinct, parts⟩ } rest
    else Reading.refuse (.unexpectedElement tag.start tag.nameStop)
  | _, n :: _ => n.unexpected

/-- Reads the root element. -/
def ofRoot (tag : Tag) (children : List Node) (ending : Ending) : Reading Document := do
  tag.expect ["lang", "dir", "owa"]
  ending.passTag
  let d ← addChildren { empty with lang := tag.value? "lang", dir := tag.value? "dir" } children
  ending.pass
  match ending with
  | .closed name start stop =>
    if name = "mjml".toList then pure d else Reading.refuse (.unexpectedToken start stop)
  | _ => pure d

/-- Looks for the root element among the outermost nodes; of two the first one counts. -/
def findRoot : Option Document → List Node → Reading (Option Document)
  | found, [] => pure found
  | found, .comment _ _ _ :: rest => findRoot found rest
  | found, .element tag children ending :: rest =>
    if tag.isNamed "mjml" then do
      let d ← ofRoot tag children ending
      findRoot (found <|> some d) rest
    else (Node.element tag children ending).unexpected
  | _, n :: _ => n.unexpected

def ofForest (f : Forest) : Reading Document := do
  let found ← findRoot none f.nodes
  match f.fault, found with
  | some fault, _ => Reading.refuse fault
  | none, some d => pure d
  | none, none => Reading.refuse .noRoot

/-- The document that a text is, and the number of warnings. -/
def ofText (text : List Char) : Except Fault (Document × Nat) := ofForest (Forest.ofText text) 0

end Document

end TemplateTiming.Markup
