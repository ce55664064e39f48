import TemplateTiming.Text.Utf8
import TemplateTiming.Text.Decimal

/-! Tokens of a markup text. Outside the root element only comments, declarations and tags may stand, separated
by white space; inside, text runs up to the next `<`. The scanner counts how many elements are open, without
looking at their names, and so knows when the root element is closed. What is no token is bad, and nothing is
read behind it. -/

namespace TemplateTiming.Markup

inductive TokenKind where
  | text (s : List Char)
  | comment (s : List Char)
  /-- The beginning or the end of a passage for certain mail programs only, as written. -/
  | conditional (s : List Char)
  /-- The name without its namespace part, and the offset of that name. -/
  | elementStart (name : List Char) (nameStart : Nat)
  | attribute (name : List Char) (value : Option (List Char))
  | tagEnd
  | emptyTagEnd
  | elementEnd (name : List Char)
  /-- Character data sections, processing instructions and declarations. -/
  | other
  | bad
  deriving DecidableEq, Repr

/-- A token and the byte offsets at which it begins and ends. -/
structure Token where
  kind : TokenKind
  start : Nat
  stop : Nat
  deriving DecidableEq, Repr

namespace Token

def within (ranges : List (Nat × Nat)) (n : Nat) : Bool := ranges.any fun (low, high) => low ≤ n && n ≤ high

def isNameStart (c : Char) : Bool :=
  within [(0x41, 0x5A), (0x5F, 0x5F), (0x61, 0x7A), (0xC0, 0xD6), (0xD8, 0xF6), (0xF8, 0x2FF), (0x370, 0x37D),
    (0x37F, 0x1FFF), (0x200C, 0x200D), (0x2070, 0x218F), (0x2C00, 0x2FEF), (0x3001, 0xD7FF),
    (0xF900, 0xFDCF), (0xFDF0, 0xFFFD), (0x10000, 0xEFFFF)] c.toNat

/-- The characters of names, the colon excepted. -/
def isNameChar (c : Char) : Bool :=
  isNameStart c ||
    within [(0x2D, 0x2E), (0x30, 0x39), (0xB7, 0xB7), (0x300, 0x36F), (0x203F, 0x2040)] c.toNat

/-- The characters that a text may contain. -/
def isAllowed (c : Char) : Bool :=
  within [(0x9, 0xA), (0xD, 0xD), (0x20, 0xD7FF), (0xE000, 0xFFFD), (0x10000, 0x10FFFF)] c.toNat

def isSpace (c : Char) : Bool := c = ' ' || c = '\t' || c = '\n' || c = '\r'

/-- The text before `mark` and the text behind it. -/
def splitAt? (mark : List Char) : List Char → Option (List Char × List Char)
  | [] => if mark = [] then some ([], []) else none
  | c :: cs =>
    if mark.isPrefixOf (c :: cs) then some ([], (c :: cs).drop mark.length)
    else (splitAt? mark cs).map fun (before, after) => (c :: before, after)

/-- A name, perhaps behind a namespace part and a colon: the bytes before the name itself, the name, and the
text behind it. -/
def readName? (cs : List Char) : Option (Nat × List Char × List Char) :=
  let startsName (name : List Char) : Bool := (name.head?.map isNameStart).getD false
  let first := cs.takeWhile isNameChar
  match cs.dropWhile isNameChar with
  | ':' :: rest =>
    let name := rest.takeWhile isNameChar
    let after := rest.dropWhile isNameChar
    if (first ≠ [] ∧ !startsName first) ∨ !startsName name ∨ after.head? = some ':' then none
    else some (Utf8.size first + 1, name, after)
  | after => if startsName first then some (0, first, after) else none

inductive State where
  | outside
  | inside
  | tag
  | behind
  deriving DecidableEq, Repr

/-- What the scanner does next: skip a blank, give a token of `size` bytes and go on with a state and a number of
open elements, or stop. -/
inductive Scanned where
  | skip (rest : List Char)
  | token (kind : TokenKind) (state : State) (depth size : Nat) (rest : List Char)
  | stop

/-- The beginning of a conditional passage, `opening` and a condition up to its closing bracket. -/
def readCondition (state : State) (depth : Nat) (opening cs : List Char) : Scanned :=
  match splitAt? [']', '>'] cs with
  | some (condition, rest) =>
    let s := opening ++ condition ++ [']', '>']
    if condition.all isAllowed then .token (.conditional s) state depth (Utf8.size s) rest else .stop
  | none => .stop

/-- A comment behind its opening, or the beginning of a conditional passage that looks like one. -/
def readComment (state : State) (depth : Nat) (body : List Char) : Scanned :=
  if "[if".toList.isPrefixOf body then readCondition state depth "<!--[if".toList (body.drop 3)
  else
    match splitAt? ['-', '-', '>'] body with
    | some (s, rest) =>
      if (splitAt? ['-', '-'] s).isSome ∨ s.getLast? = some '-' ∨ !s.all isAllowed then .stop
      else .token (.comment s) state depth (Utf8.size s + 7) rest
    | none => .stop

/-- A token that is of no interest, from its text and all that follows, and from the text behind it if it is
complete. -/
def passOver (state : State) (depth : Nat) (cs : List Char) : Option (List Char) → Scanned
  | some rest => .token .other state depth (Utf8.size cs - Utf8.size rest) rest
  | none => .stop

/-- The text behind `mark`, if allowed characters alone stand before it. -/
def skipTo? (mark cs : List Char) : Option (List Char) := do
  let (before, after) ← splitAt? mark cs
  if before.all isAllowed then some after else none

def skipWord? (word : String) (cs : List Char) : Option (List Char) :=
  if word.toList.isPrefixOf cs then some (cs.drop word.toList.length) else none

def skipSpaces (cs : List Char) : List Char := cs.dropWhile isSpace

/-- At least one blank. -/
def skipGap? (cs : List Char) : Option (List Char) :=
  if (cs.head?.map isSpace).getD false then some (skipSpaces cs) else none

/-- A text between quotes, and what is behind it. -/
def readQuoted? : List Char → Option (List Char × List Char)
  | [] => none
  | q :: cs =>
    if (q = '"' ∨ q = Char.ofNat 39) ∧ cs.contains q then
      some (cs.takeWhile (· ≠ q), (cs.dropWhile (· ≠ q)).drop 1)
    else none

/-- A processing instruction behind its `<?`: it begins with a name. -/
def skipInstruction? (cs : List Char) : Option (List Char) :=
  let startsName := (cs.head?.map isNameStart).getD false
  if !startsName ∨ "xml ".toList.isPrefixOf cs then none
  else skipTo? ['?', '>'] (cs.dropWhile fun c => isNameChar c || c = ':')

/-- An equals sign and a quoted value. -/
def readSetting? (cs : List Char) : Option (List Char × List Char) := do
  readQuoted? (skipSpaces (← skipWord? "=" (skipSpaces cs)))

/-- A setting that may be missing. -/
def skipSetting? (name : String) (valid : List Char → Bool) (cs : List Char) : Option (List Char) :=
  match (skipGap? cs).bind (skipWord? name) with
  | none => some cs
  | some rest => do
    let (value, after) ← readSetting? rest
    if valid value then some after else none

/-- The declaration at the beginning of a text, behind its `<?xml`: a version, and perhaps an encoding and
whether the text stands alone. -/
def skipDeclaration? (cs : List Char) : Option (List Char) := do
  let (version, rest) ← readSetting? (← skipWord? "version" (← skipGap? cs))
  if !"1.".toList.isPrefixOf version ∨ !(version.drop 2).all Decimal.isDigit then none
  let rest ← skipSetting? "encoding" (fun v => v.all fun c => c.isAlphanum || c = '.' || c = '-' || c = '_') rest
  let rest ← skipSetting? "standalone" (fun v => v = "yes".toList || v = "no".toList) rest
  skipWord? "?>" (skipSpaces rest)

/-- Where the rules of a document type are found, if that is said. -/
def skipSource? (cs : List Char) : Option (List Char) := do
  if "SYSTEM".toList.isPrefixOf cs then
    let (_, rest) ← readQuoted? (← skipGap? (cs.drop 6))
    some rest
  else if "PUBLIC".toList.isPrefixOf cs then
    let (_, rest) ← readQuoted? (← skipGap? (cs.drop 6))
    let (_, rest) ← readQuoted? (← skipGap? rest)
    some rest
  else some cs

/-- A document type behind its `<!`, up to its end or to its own rules. -/
def skipDoctype? (cs : List Char) : Option (List Char) := do
  let name ← skipGap? (← skipWord? "DOCTYPE" cs <|> skipWord? "doctype" cs)
  if !(name.head?.map isNameStart).getD false then none
  let rest ← skipSource? (skipSpaces (name.dropWhile fun c => isNameChar c || c = ':'))
  match skipSpaces rest with
  | '[' :: after | '>' :: after => some after
  | _ => none

/-- The start of an element, after its bracket at the offset `start`. -/
def readElement (start depth : Nat) (body : List Char) : Scanned :=
  match readName? body with
  | some (skipped, name, rest) =>
    .token (.elementStart name (start + 1 + skipped)) .tag depth (1 + skipped + Utf8.size name) rest
  | none => .stop

/-- Where the scanner is once `depth` elements are open. -/
def stateAt (depth : Nat) : State := if depth = 0 then .behind else .inside

/-- The end of an element, behind its `</`. -/
def readEnd (depth : Nat) (body : List Char) : Scanned :=
  match readName? body with
  | some (skipped, name, rest) =>
    let size := 2 + skipped + Utf8.size name + (rest.takeWhile isSpace).length + 1
    match skipSpaces rest with
    | '>' :: rest => .token (.elementEnd name) (stateAt (depth - 1)) (depth - 1) size rest
    | _ => .stop
  | none => .stop

/-- `isFirst` says that nothing has been read yet. -/
def scanOutside (isFirst : Bool) (start depth : Nat) : List Char → Scanned
  | [] => .stop
  | c :: cs =>
    if isSpace c then .skip cs
    else if c ≠ '<' then .stop
    else
      match cs with
      | '!' :: '-' :: '-' :: body => readComment .outside depth body
      | '?' :: body =>
        passOver .outside depth (c :: cs) (if isFirst ∧ "xml ".toList.isPrefixOf body then
          skipDeclaration? (body.drop 3) else skipInstruction? body)
      | '!' :: body => passOver .outside depth (c :: cs) (skipDoctype? body)
      | '/' :: body => readEnd depth body
      | body => readElement start depth body

def scanBehind (depth : Nat) : List Char → Scanned
  | [] => .stop
  | c :: cs =>
    if isSpace c then .skip cs
    else if c ≠ '<' then .stop
    else
      match cs with
      | '!' :: '-' :: '-' :: body => readComment .behind depth body
      | '?' :: body => passOver .behind depth (c :: cs) (skipInstruction? body)
      | _ => .stop

/-- What begins with `<!` within an element and is no comment: a conditional passage begins or ends there, or
character data follow. -/
def readMark (depth : Nat) (body : List Char) : Scanned :=
  if "[if".toList.isPrefixOf body then readCondition .inside depth "<![if".toList (body.drop 3)
  else
    match ["[endif]-->".toList, "[endif]>".toList].find? (·.isPrefixOf body) with
    | some mark => .token (.conditional ('<' :: '!' :: mark)) .inside depth (mark.length + 2) (body.drop mark.length)
    | none => passOver .inside depth ('<' :: '!' :: body) ((skipWord? "[CDATA[" body).bind (skipTo? [']', ']', '>']))

def scanInside (start depth : Nat) : List Char → Scanned
  | '<' :: '!' :: '-' :: '-' :: body => readComment .inside depth body
  | '<' :: '!' :: body => readMark depth body
  | '<' :: '?' :: body => passOver .inside depth ('<' :: '?' :: body) (skipInstruction? body)
  | '<' :: '/' :: body => readEnd depth body
  | '<' :: body => readElement start depth body
  | cs =>
    let s := cs.takeWhile (· ≠ '<')
    let before := s.takeWhile (· ≠ '>')
    let closesData := s.contains '>' && before.drop (before.length - 2) == [']', ']']
    if closesData ∨ !s.all isAllowed then .stop
    else .token (.text s) .inside depth (Utf8.size s) (cs.dropWhile (· ≠ '<'))

/-- An attribute, which needs a blank before it, or the end of the tag. The blanks before it are not part of the
token. -/
def scanTag (depth : Nat) (cs : List Char) : Scanned :=
  match skipSpaces cs with
  | '/' :: '>' :: rest => .token .emptyTagEnd (stateAt depth) depth 2 rest
  | '>' :: rest => .token .tagEnd .inside (depth + 1) 1 rest
  | body =>
    if (cs.head?.map isSpace).getD false then
      match readName? body with
      | none => .stop
      | some (skipped, name, rest) =>
        let nameSize := skipped + Utf8.size name
        match skipSpaces rest with
        | '=' :: more =>
          let gaps := (rest.takeWhile isSpace).length + (more.takeWhile isSpace).length
          match readQuoted? (skipSpaces more) with
          | some (value, after) =>
            if value.all isAllowed then
              .token (.attribute name (some value)) .tag depth (nameSize + gaps + Utf8.size value + 3) after
            else .stop
          | none => .stop
        | _ => .token (.attribute name none) .tag depth nameSize rest
    else .stop

def scanStep : State → Bool → Nat → Nat → List Char → Scanned
  | .outside, isFirst, start, depth, cs => scanOutside isFirst start depth cs
  | .inside, _, start, depth, cs => scanInside start depth cs
  | .tag, _, _, depth, cs => scanTag depth cs
  | .behind, _, _, depth, cs => scanBehind depth cs

/-- The tokens from the offset `start` on; `steps` is at least the length of the text. A token within a tag
begins behind the blanks that separate it. -/
def scan : Nat → State → Bool → Nat → Nat → List Char → List Token
  | 0, _, _, _, _, _ => []
  | _ + 1, _, _, _, _, [] => []
  | steps + 1, state, isFirst, depth, start, cs =>
    let first := if state = .tag then start + (cs.takeWhile isSpace).length else start
    match scanStep state isFirst start depth cs with
    | .skip rest => scan steps state false depth (start + 1) rest
    | .token kind next depth size rest =>
      ⟨kind, first, first + size⟩ :: scan steps next false depth (first + size) rest
    | .stop => [⟨.bad, first, first⟩]

/-- The tokens of a whole text, behind a byte order mark if it begins with one. -/
def ofText : List Char → List Token
  | '\ufeff' :: cs => scan cs.length .outside true 0 3 cs
  | cs => scan cs.length .outside true 0 0 cs

end Token

end TemplateTiming.Markup
