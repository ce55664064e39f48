import TemplateTiming.Toml.Token

/-! The statements of a TOML text: headers, and keys with their values. Keys and scalars stay undecoded tokens
here, so that a fault of the grammar anywhere in the text comes before a fault inside a key or a value. Where a
key or a value is missing an empty bare token stands in for it, which decoding then refuses; it refuses also the
last key of an inline table that lacks its sign `=`.

Arrays and inline tables may be nested 80 deep. The functions for them take a number of steps; each step but
every second one reads a token, so twice the number of tokens is enough. -/

namespace TemplateTiming.Toml

inductive Node where
  | scalar (token : Token)
  | unassigned (place : Nat)
  | array (items : List Node) (span : Span)
  | table (entries : List (List Token × Node)) (span : Span)
  deriving Repr

inductive Statement where
  | header (ofArray : Bool) (path : List Token) (span : Span)
  | entry (path : List Token) (value : Node)
  deriving Repr

namespace Document

def refuse {α : Type} (f : Fault) (t : Token) : Except Problem α := fault f t.start t.stop

/-- The empty key or value that stands in for a missing one. -/
def absent (start : Nat) : Token := ⟨.bare, [], start⟩

def isKey (t : Token) : Bool :=
  match t.kind with
  | .bare | .literal | .basic | .multilineLiteral | .multilineBasic => true
  | _ => false

def skipSpace (ts : List Token) : List Token := ts.dropWhile (·.kind = .whitespace)

/-- Tab, the printable ASCII characters, and everything beyond ASCII. -/
def allowedInComment (c : Char) : Bool := c = '\t' || (0x20 ≤ c.toNat && c.toNat ≠ 0x7F)

def checkComment (t : Token) : Except Problem Unit :=
  match t.text.dropWhile allowedInComment with
  | [] => .ok ()
  | bad =>
    let start := t.stop - Utf8.size bad
    fault .controlInComment start start

/-- A carriage return counts as a line end only with a line feed behind it. -/
def checkNewline (t : Token) : Except Problem Unit :=
  if t.text = ['\r'] then fault .loneCarriageReturn t.stop t.stop else .ok ()

/-- What may stand behind a statement: blanks and a comment, up to the end of the line. -/
def lineEnd : List Token → Except Problem (List Token)
  | [] => .ok []
  | t :: ts =>
    match t.kind with
    | .whitespace => lineEnd ts
    | .comment => do
      checkComment t
      lineEnd ts
    | .newline => do
      checkNewline t
      .ok ts
    | .finish => .ok (t :: ts)
    | _ => fault .textAfterValue t.start t.start

/-- Leaves out the rest of a line. -/
def skipLine : List Token → Except Problem (List Token)
  | [] => .ok []
  | t :: ts =>
    match t.kind with
    | .comment => do
      checkComment t
      skipLine ts
    | .newline => do
      checkNewline t
      .ok ts
    | .finish => .ok (t :: ts)
    | _ => skipLine ts

/-- A dotted key: its parts, whether the last one is there, and what follows. -/
structure PathRead where
  keys : List Token
  complete : Bool
  rest : List Token

/-- Reads a dotted key, or what follows one of its parts. Blanks may stand on both sides of a dot, and a part
that is missing before a dot is taken for an empty one. -/
def readPath : Bool → List Token → PathRead
  | _, [] => ⟨[], false, []⟩
  | wanted, t :: ts =>
    if t.kind = .whitespace then readPath wanted ts
    else if wanted then
      if isKey t then
        let more := readPath false ts
        { more with keys := t :: more.keys }
      else if t.kind = .dot then
        let more := readPath true ts
        { more with keys := absent t.start :: more.keys }
      else ⟨[absent t.start], false, t :: ts⟩
    else if t.kind = .dot then readPath true ts
    else ⟨[], true, t :: ts⟩

def lastStop (fallback : Nat) (keys : List Token) : Nat :=
  (keys.getLast?.map Token.stop).getD fallback

/-- A header after its first bracket, with its line. That a key lacks its last part is found when the key is
decoded, and no bracket is missed behind it. -/
def readHeader (opening : Token) (ts : List Token) : Except Problem (Statement × List Token) :=
  let (ofArray, ts) : Bool × List Token := match ts with
    | t :: more => if t.kind = .openBracket then (true, more) else (false, t :: more)
    | [] => (false, [])
  let path := readPath true ts
  let unclosed := if ofArray then Fault.unclosedArrayTable else Fault.unclosedTable
  let header (stop : Nat) : Statement := .header ofArray path.keys ⟨opening.start, stop⟩
  match path.rest with
  | c :: rest =>
    if c.kind = .closeBracket then
      if ofArray then
        match rest with
        | d :: rest =>
          if d.kind = .closeBracket then do .ok (header d.stop, ← lineEnd rest)
          else fault .halfClosedArrayTable c.stop c.stop
        | [] => fault .halfClosedArrayTable c.stop c.stop
      else do .ok (header c.stop, ← lineEnd rest)
    else if path.complete then
      let stop := lastStop opening.stop path.keys
      fault unclosed stop stop
    else do .ok (header c.start, ← skipLine (c :: rest))
  | [] => fault unclosed opening.stop opening.stop

/-- The rest of an unquoted scalar: further bare runs and dots, and behind blanks further bare runs. -/
def bareRest : List Token → List Char × List Token
  | [] => ([], [])
  | t :: ts =>
    if t.kind = .bare ∨ t.kind = .dot then
      let (text, rest) := bareRest ts
      (t.text ++ text, rest)
    else if t.kind = .whitespace then
      match ts with
      | u :: _ =>
        if u.kind = .bare then
          let (text, rest) := bareRest ts
          (t.text ++ text, rest)
        else ([], t :: ts)
      | [] => ([], [t])
    else ([], t :: ts)

/-- A token that means nothing by itself. -/
def isTrivia (t : Token) : Bool :=
  t.kind = .whitespace || t.kind = .comment || t.kind = .newline || t.kind = .finish

/-- The offset behind the last token that means something. -/
def contentStop (ts : List Token) : Nat :=
  ((ts.reverse.dropWhile isTrivia).head?.map Token.stop).getD 0

/-- What has to come next in an inline table, with the key that waits for its value. -/
inductive Want where
  | key
  | assignment (path : List Token)
  | value (path : List Token)
  | comma
  deriving Repr

def Want.part : Want → EntryPart
  | .key => .key
  | .assignment _ => .assignment
  | .value _ => .value
  | .comma => .comma

mutual

/-- A value, where blanks before it are already read. What is never closed is missed at `last`, behind the last
token of the text that means something. -/
def readValue (last : Nat) : Nat → Nat → List Token → Except Problem (Node × List Token)
  | 0, _, _ => fault .tooDeep 0 0
  | _ + 1, _, [] => fault .unquotedText 0 0
  | steps + 1, depth, t :: ts =>
    match t.kind with
    | .comment | .comma | .newline | .finish | .whitespace => .ok (.scalar (absent t.start), t :: ts)
    | .equals => refuse .extraAssignment t
    | .closeBrace => refuse .noInlineTableOpening t
    | .closeBracket => refuse .noArrayOpening t
    | .literal | .basic | .multilineLiteral | .multilineBasic => .ok (.scalar t, ts)
    | .dot | .bare =>
      let (text, rest) := bareRest ts
      .ok (.scalar ⟨.bare, t.text ++ text, t.start⟩, rest)
    | .openBracket =>
      match depth with
      | 0 => refuse .tooDeep t
      | depth + 1 => do
        let (items, stop, rest) ← readItems last steps depth false ts
        .ok (.array items ⟨t.start, stop⟩, rest)
    | .openBrace =>
      match depth with
      | 0 => refuse .tooDeep t
      | depth + 1 => do
        let (entries, stop, rest) ← readEntries last steps depth .key ts
        .ok (.table entries ⟨t.start, stop⟩, rest)

/-- The rest of an array, with the offset behind its bracket. -/
def readItems (last : Nat) : Nat → Nat → Bool → List Token → Except Problem (List Node × Nat × List Token)
  | 0, _, _, _ => fault .tooDeep 0 0
  | _ + 1, _, _, [] => fault .unclosedArray last last
  | steps + 1, depth, needComma, t :: ts =>
    match t.kind with
    | .whitespace => readItems last steps depth needComma ts
    | .newline => do
      checkNewline t
      readItems last steps depth needComma ts
    | .comment => do
      checkComment t
      readItems last steps depth needComma ts
    | .finish => fault .unclosedArray last last
    | .comma => if needComma then readItems last steps depth false ts else refuse .extraCommaInArray t
    | .equals => refuse .extraAssignmentInArray t
    | .closeBrace => refuse .noInlineTableOpening t
    | .closeBracket => .ok ([], t.stop, ts)
    | _ =>
      if needComma then fault .noCommaInArray t.start t.start
      else do
        let (item, rest) ← readValue last steps depth (t :: ts)
        let (more, stop, rest) ← readItems last steps depth true rest
        .ok (item :: more, stop, rest)

/-- The rest of an inline table, with the offset behind its brace. -/
def readEntries (last : Nat) : Nat → Nat → Want → List Token →
    Except Problem (List (List Token × Node) × Nat × List Token)
  | 0, _, _, _ => fault .tooDeep 0 0
  | _ + 1, _, _, [] => fault .unclosedInlineTable last last
  | steps + 1, depth, want, t :: ts =>
    match t.kind, want with
    | .whitespace, _ => readEntries last steps depth want ts
    | .newline, _ => do
      checkNewline t
      readEntries last steps depth want ts
    | .comment, _ => do
      checkComment t
      readEntries last steps depth want ts
    | .finish, _ => fault .unclosedInlineTable last last
    | .comma, .comma => readEntries last steps depth .key ts
    | .comma, _ => refuse (.extraCommaInTable want.part) t
    | .equals, .key => readEntries last steps depth (.value [absent t.start]) ts
    | .equals, .assignment path => readEntries last steps depth (.value path) ts
    | .equals, _ => refuse (.extraAssignmentInTable want.part) t
    | .closeBracket, _ => refuse .noArrayOpening t
    | .closeBrace, .assignment path => .ok ([(path, .unassigned t.start)], t.stop, ts)
    | .closeBrace, .value path => .ok ([(path, .scalar (absent t.start))], t.stop, ts)
    | .closeBrace, _ => .ok ([], t.stop, ts)
    | .openBrace, .key | .openBracket, .key | .openBrace, .comma | .openBracket, .comma =>
      refuse (.noKeyInTable want.part) t
    | _, .key =>
      let path := readPath true (t :: ts)
      readEntries last steps depth (.assignment path.keys) path.rest
    | _, .assignment _ => fault .noAssignmentInTable t.start t.start
    | _, .value path => do
      let (value, rest) ← readValue last steps depth (t :: ts)
      let (more, stop, rest) ← readEntries last steps depth .comma rest
      .ok ((path, value) :: more, stop, rest)
    | _, .comma => fault .noCommaInTable t.start t.start

end

/-- The greatest number of arrays and inline tables within each other. -/
def maxDepth : Nat := 80

/-- A key, the sign `=` and a value, with their line. -/
def readEntry (last : Nat) (path : PathRead) : Except Problem (Statement × List Token) :=
  match path.rest with
  | [] => fault .noAssignment 0 0
  | t :: ts =>
    if t.kind = .equals then do
      let (value, rest) ← readValue last (2 * ts.length + 2) maxDepth (skipSpace ts)
      .ok (.entry path.keys value, ← lineEnd rest)
    else fault .noAssignment t.start t.start

/-- The statements of a row of tokens; `steps` is at least its length. -/
def readStatements (last : Nat) : Nat → List Token → Except Problem (List Statement)
  | 0, _ => .ok []
  | _ + 1, [] => .ok []
  | steps + 1, t :: ts =>
    let statement (read : Except Problem (Statement × List Token)) : Except Problem (List Statement) := do
      let (first, rest) ← read
      let more ← readStatements last steps rest
      .ok (first :: more)
    match t.kind with
    | .whitespace => readStatements last steps ts
    | .newline => do
      checkNewline t
      readStatements last steps ts
    | .comment => do
      checkComment t
      readStatements last steps ts
    | .finish => .ok []
    | .openBracket => statement (readHeader t ts)
    | .closeBracket => refuse .noTableOpening t
    | .comma | .openBrace | .closeBrace => refuse .noKey t
    | .equals => statement (readEntry last ⟨[absent t.start], false, t :: ts⟩)
    | .dot | .bare | .literal | .basic | .multilineLiteral | .multilineBasic =>
      statement (readEntry last (readPath true (t :: ts)))

def ofTokens (ts : List Token) : Except Problem (List Statement) := readStatements (contentStop ts) ts.length ts

end Document

end TemplateTiming.Toml
