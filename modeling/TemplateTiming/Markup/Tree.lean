import TemplateTiming.Markup.Token
import TemplateTiming.Text.Blank
import TemplateTiming.Text.Decimal

/-! The tree that the tags of a markup text span. An element ends at the next end tag that no element within it
takes, whatever the name on that tag. Nothing is refused here: where the text breaks off, the elements that are
still open say so in their endings, and a reader that walks the tree in the order of the text meets every fault
where it stands. -/

namespace TemplateTiming.Markup

inductive Fault where
  | badToken
  | endOfStream
  | noRoot
  | unexpectedToken (start stop : Nat)
  | unexpectedElement (start stop : Nat)
  | missingAttribute (name : String) (start stop : Nat)
  | invalidAttribute (start stop : Nat)
  | notIncluded (start stop : Nat)
  deriving DecidableEq, Repr

def Fault.place (start stop : Nat) : String :=
  " in root template at position " ++ Decimal.text start ++ ":" ++ Decimal.text stop

def Fault.message : Fault → String
  | .badToken => "unable to parse next template in root template"
  | .endOfStream => "unexpected end of stream in root template"
  | .noRoot => "unable to find mjml element"
  | .unexpectedToken start stop => "unexpected token" ++ place start stop
  | .unexpectedElement start stop => "unexpected element" ++ place start stop
  | .missingAttribute name start stop => "missing attribute \"" ++ name ++ "\" in element" ++ place start stop
  | .invalidAttribute start stop => "invalid attribute" ++ place start stop
  | .notIncluded start stop => "unable to load included template" ++ place start stop

structure Attribute where
  name : List Char
  value : Option (List Char)
  start : Nat
  stop : Nat
  deriving DecidableEq, Repr

/-- A start tag up to its end: its name, where the tag and the name begin, and its attributes in order. -/
structure Tag where
  name : List Char
  start : Nat
  nameStart : Nat
  attributes : List Attribute
  deriving DecidableEq, Repr

namespace Tag

def nameStop (t : Tag) : Nat := t.nameStart + Utf8.size t.name

/-- The value of the attribute that is given last under this name. -/
def value? (t : Tag) (name : String) : Option (List Char) :=
  (t.attributes.reverse.find? (·.name = name.toList)).bind (·.value)

end Tag

/-- How the content of an element ends. -/
inductive Ending where
  /-- There is no content, because the tag or the kind of element excludes it. -/
  | empty
  | closed (name : List Char) (start stop : Nat)
  /-- The text breaks off within the start tag. -/
  | brokenTag (f : Fault)
  /-- The text breaks off within the content. -/
  | brokenContent (f : Fault)
  deriving DecidableEq, Repr

inductive Node where
  | text (s : List Char) (start stop : Nat)
  | comment (s : List Char) (start stop : Nat)
  | conditional (s : List Char) (start stop : Nat)
  | element (tag : Tag) (children : List Node) (ending : Ending)
  | other (start stop : Nat)
  deriving Repr

/-- The tokens of a start tag taken together. -/
inductive Item where
  | node (n : Node)
  | tag (t : Tag) (ending : Option Ending)
  | close (name : List Char) (start stop : Nat)
  | bad

namespace Item

/-- The rest of a start tag: its attributes, and its ending unless content follows. -/
structure Remainder where
  attributes : List Attribute
  ending : Option Ending

/-- What is left of a tag at the end of the text. -/
def Remainder.cut : Remainder := ⟨[], some (.brokenTag .endOfStream)⟩

/-- Adds a token in front of the items that follow it. Tokens within a tag go to its remainder until the tag's
first token comes. -/
def prepend (t : Token) : Remainder × List Item → Remainder × List Item
  | (tail, items) =>
    match t.kind with
    | .text s =>
      if s.head? = some '\n' ∧ Text.allBlank s then (tail, items)
      else (tail, .node (.text s t.start t.stop) :: items)
    | .comment s => (tail, .node (.comment s t.start t.stop) :: items)
    | .conditional s => (tail, .node (.conditional s t.start t.stop) :: items)
    | .other => (tail, .node (.other t.start t.stop) :: items)
    | .elementEnd name => (tail, .close name t.start t.stop :: items)
    | .bad => (⟨[], some (.brokenTag .badToken)⟩, [.bad])
    | .tagEnd => (⟨[], none⟩, items)
    | .emptyTagEnd => (⟨[], some .empty⟩, items)
    | .attribute name value => (⟨⟨name, value, t.start, t.stop⟩ :: tail.attributes, tail.ending⟩, items)
    | .elementStart name nameStart =>
      (.cut, .tag ⟨name, t.start, nameStart, tail.attributes⟩ tail.ending :: items)

def ofTokens (tokens : List Token) : List Item := (tokens.foldr prepend (.cut, [])).2

end Item

/-- The elements that never have content. -/
def voidNames : List String :=
  ["area", "base", "br", "col", "embed", "hr", "img", "input", "link", "meta", "param", "source", "track", "wbr"]

def isVoid (name : List Char) : Bool := voidNames.contains (String.ofList name)

/-- A whole text: the nodes outside all elements, and the fault that ends it, unless its end does. -/
structure Forest where
  nodes : List Node
  fault : Option Fault

namespace Forest

/-- An element that is open: its tag and the nodes before it, the last one first. -/
structure Frame where
  tag : Tag
  before : List Node

/-- Ends the open elements where the text ends. `nodes` is the content so far, the last node first. -/
def breakOff (f : Fault) : List Frame → List Node → List Node
  | [], nodes => nodes.reverse
  | frame :: stack, nodes =>
    breakOff f stack (.element frame.tag nodes.reverse (.brokenContent f) :: frame.before)

def grow : List Frame → List Node → List Item → Forest
  | stack, nodes, [] => ⟨breakOff .endOfStream stack nodes, none⟩
  | stack, nodes, .bad :: _ => ⟨breakOff .badToken stack nodes, some .badToken⟩
  | stack, nodes, .node n :: rest => grow stack (n :: nodes) rest
  | stack, nodes, .tag t (some ending) :: rest => grow stack (.element t [] ending :: nodes) rest
  | stack, nodes, .tag t none :: rest =>
    if isVoid t.name then grow stack (.element t [] .empty :: nodes) rest
    else grow (⟨t, nodes⟩ :: stack) [] rest
  | [], nodes, .close _ start stop :: rest => grow [] (.other start stop :: nodes) rest
  | frame :: stack, nodes, .close name start stop :: rest =>
    grow stack (.element frame.tag nodes.reverse (.closed name start stop) :: frame.before) rest

def ofText (text : List Char) : Forest := grow [] [] (Item.ofTokens (Token.ofText text))

end Forest

end TemplateTiming.Markup
