import TemplateTiming.Toml.Document
import TemplateTiming.Toml.Scalar

/-! Tables. The statements of a text are applied one after the other to a table that holds its entries in the
order of their keys. A table remembers how it came about, since that decides who may still add to it: a table
that a longer header or dotted key brings in as a step on its path is only implied; one of a dotted key can be
extended by dotted keys alone, one implied by a header can be opened once by a header of its own, and an inline
table is closed. -/

namespace TemplateTiming.Toml

structure Key where
  name : List Char
  span : Span
  deriving DecidableEq, Repr

/-- How a table came about. -/
structure Origin where
  implied : Bool
  dotted : Bool
  inline : Bool
  deriving DecidableEq, Repr

inductive Value where
  | scalar (s : Scalar) (span : Span)
  | array (items : List Value) (ofTables : Bool) (span : Span)
  | table (origin : Origin) (entries : List (Key × Value)) (span : Span)
  deriving Repr

namespace Value

def span : Value → Span
  | .scalar _ s | .array _ _ s | .table _ _ s => s

def kindName : Value → String
  | .scalar (.string _) _ => "string"
  | .scalar (.integer _) _ => "integer"
  | .scalar .malformedInteger _ => "integer"
  | .scalar (.float _) _ => "float"
  | .scalar (.boolean _) _ => "boolean"
  | .scalar .moment _ => "datetime"
  | .array _ _ _ => "array"
  | .table _ _ _ => "table"

end Value

structure Table where
  origin : Origin
  entries : List (Key × Value)
  deriving Repr

namespace Table

/-- The empty table that a header opens. -/
def opened : Table := ⟨⟨false, false, false⟩, []⟩

/-- The empty table that a step on a path brings in. -/
def impliedBy (dotted : Bool) : Table := ⟨⟨true, dotted, false⟩, []⟩

def toValue (t : Table) (span : Span) : Value := .table t.origin t.entries span

def lookup? (name : List Char) (t : Table) : Option Value :=
  (t.entries.find? (·.1.name = name)).map (·.2)

/-- Puts an entry in place by its key, instead of one that has the same key. -/
def insertEntry (key : Key) (value : Value) : List (Key × Value) → List (Key × Value)
  | [] => [(key, value)]
  | (k, v) :: rest =>
    if key.name = k.name then (key, value) :: rest
    else if key.name < k.name then (key, value) :: (k, v) :: rest
    else (k, v) :: insertEntry key value rest

def insert (key : Key) (value : Value) (t : Table) : Table :=
  { t with entries := insertEntry key value t.entries }

def erase (name : List Char) (t : Table) : Table :=
  { t with entries := t.entries.filter (·.1.name ≠ name) }

def refuse {α : Type} (f : Fault) (key : Key) : Except Problem α := .error ⟨f, some key.span⟩

/-- Applies `f` to the table at the end of a path and puts the result back. A step that leads to an array of
tables goes on in the last of them; `dotted` says whether a dotted key or a header takes the path. -/
def modify {α : Type} (dotted : Bool) (f : Table → Except Problem (α × Table)) :
    List Key → Table → Except Problem (α × Table)
  | [], t => f t
  | k :: path, t =>
    match t.entries.find? (·.1.name = k.name) with
    | none => do
      let (a, child) ← modify dotted f path (impliedBy dotted)
      .ok (a, t.insert k (child.toValue k.span))
    | some (key, .table origin entries span) =>
      if origin.inline then refuse .extendsInlineTable k
      else if dotted ∧ !origin.implied then refuse .duplicateKey k
      else do
        let (a, child) ← modify dotted f path ⟨origin, entries⟩
        .ok (a, t.insert key (child.toValue span))
    | some (key, .array items true span) =>
      match items.getLast? with
      | some (.table origin entries last) => do
        let (a, child) ← modify dotted f path ⟨origin, entries⟩
        .ok (a, t.insert key (.array (items.dropLast ++ [child.toValue last]) true span))
      | _ => refuse (.extendsValue "array") k
    | some (_, value) => refuse (.extendsValue value.kindName) k

/-- The number of steps before the last key with which a path is too long. -/
def pathLimit : Nat := 80

/-- `modify`, unless the path is too long. -/
def modifyAt {α : Type} (dotted : Bool) (path : List Key) (f : Table → Except Problem (α × Table)) (t : Table) :
    Except Problem (α × Table) :=
  if pathLimit ≤ path.length then .error ⟨.pathTooDeep, none⟩ else modify dotted f path t

/-- Adds the entry of a dotted key. The table that takes it must come from a dotted key itself exactly if the
key has further parts. -/
def addEntry (path : List Key) (key : Key) (value : Value) (t : Table) : Except Problem Table := do
  let (_, t) ← modifyAt true path (fun parent =>
    if parent.origin.dotted = path.isEmpty then refuse .duplicateKey key
    else if (parent.lookup? key.name).isSome then refuse .duplicateKey key
    else .ok ((), parent.insert key value)) t
  .ok t

end Table

/-- The parts of a dotted key: all but the last, and the last. -/
def keysOf (tokens : List Token) : Except Problem (List Key × Key) := do
  let keys ← tokens.mapM fun t => do .ok (⟨← Quotation.key t, ⟨t.start, t.stop⟩⟩ : Key)
  match keys.getLast? with
  | some last => .ok (keys.dropLast, last)
  | none => fault .emptyKey 0 0

mutual

def Value.ofNode : Node → Except Problem Value
  | .scalar t => do .ok (.scalar (← Scalar.ofToken t) ⟨t.start, t.stop⟩)
  | .unassigned place => fault .noAssignment place place
  | .array items span => do .ok (.array (← Value.ofItems items) false span)
  | .table entries span => do
    let t ← Value.ofEntries entries ⟨⟨false, false, true⟩, []⟩
    .ok (t.toValue span)

def Value.ofItems : List Node → Except Problem (List Value)
  | [] => .ok []
  | node :: rest => do .ok ((← Value.ofNode node) :: (← Value.ofItems rest))

/-- Adds the entries of an inline table one after the other. -/
def Value.ofEntries : List (List Token × Node) → Table → Except Problem Table
  | [], t => .ok t
  | (tokens, node) :: rest, t => do
    let (path, key) ← keysOf tokens
    let value ← Value.ofNode node
    Value.ofEntries rest (← t.addEntry path key value)

end

/-- The place that a header names. -/
structure Header where
  ofArray : Bool
  path : List Key
  key : Key
  span : Span
  deriving Repr

/-- A table under construction: what is complete, and the table of the last header, which is put in its place
when that header's entries are read. Before the first header they belong to the root. Whether a table fits is
checked when its header is read; whether an element of an array does, only when it is put in its place. -/
structure Builder where
  root : Table
  header : Option Header
  current : Table

namespace Builder

def start : Builder := ⟨.opened, none, .opened⟩

/-- Puts the current table in its place. -/
def close (b : Builder) : Except Problem Table :=
  match b.header with
  | none => .ok b.current
  | some h => do
    let value := b.current.toValue h.span
    let (_, root) ← b.root.modifyAt false h.path fun parent =>
      if h.ofArray then
        match parent.lookup? h.key.name with
        | some (.array items true span) =>
          .ok ((), parent.insert h.key (.array (items ++ [value]) true span))
        | some _ => Table.refuse .duplicateKey h.key
        | none => .ok ((), parent.insert h.key (.array [value] true h.span))
      else .ok ((), parent.insert h.key value)
    .ok root

/-- The table that a header opens, unless it is for an array: a new one, or one that longer headers have
implied. -/
def openTable (h : Header) (parent : Table) : Except Problem (Table × Table) :=
  match parent.lookup? h.key.name with
  | none => .ok (.opened, parent)
  | some (.table origin entries _) =>
    if origin.implied ∧ !origin.dotted then
      .ok (⟨{ origin with implied := false }, entries⟩, parent.erase h.key.name)
    else Table.refuse .duplicateKey h.key
  | some _ => Table.refuse .duplicateKey h.key

def step (b : Builder) : Statement → Except Problem Builder
  | .header ofArray tokens span => do
    let root ← b.close
    let (path, key) ← keysOf tokens
    let header : Header := ⟨ofArray, path, key, span⟩
    if ofArray then .ok ⟨root, some header, .opened⟩
    else
      let (current, root) ← root.modifyAt false path (openTable header)
      .ok ⟨root, some header, current⟩
  | .entry tokens node => do
    let (path, key) ← keysOf tokens
    let value ← Value.ofNode node
    .ok { b with current := ← b.current.addEntry path key value }

end Builder

def Table.ofStatements (statements : List Statement) : Except Problem Table := do
  (← statements.foldlM Builder.step .start).close

/-- The table that a TOML text describes. -/
def Table.parse (text : List Char) : Except Problem Table := do
  Table.ofStatements (← Document.ofTokens (Token.ofText text))

end TemplateTiming.Toml
