import TemplateTiming.Toml.Token

/-! The texts of strings and keys. A literal string stands for the characters between its quotes; in a basic
string a backslash introduces an escape, and in one of several lines also the end of a line that is to be
joined with the next. Control characters other than the tab, and in strings of several lines the line end, have
to be escaped. The first fault counts, except that a missing closing quote comes before all others. -/

namespace TemplateTiming.Toml

namespace Quotation

/-- Every character but the controls, of which the tab is allowed. -/
def isVisible (c : Char) : Bool := c = '\t' || (0x20 ≤ c.toNat && c.toNat ≠ 0x7F)

/-- The text between an opening of `width` quotes and a closing of as many. -/
def inner (t : Token) (form : Quoting) (q : Char) (width : Nat) : Except Problem (List Char) :=
  let body := t.text.drop width
  if width ≤ body.length ∧ body.drop (body.length - width) = List.replicate width q then
    .ok (body.take (body.length - width))
  else fault (.unclosedString form) t.stop t.stop

/-- Checks the characters of a literal string of one line that begins at the offset `start`. -/
def literalText (start : Nat) : List Char → Except Problem (List Char)
  | [] => .ok []
  | c :: cs =>
    if isVisible c then do .ok (c :: (← literalText (start + c.utf8Size) cs))
    else fault (.badStringCharacter .literal) start (start + 1)

def multilineLiteralText (start : Nat) : List Char → Except Problem (List Char)
  | [] => .ok []
  | c :: cs =>
    if c = '\r' ∧ cs.head? ≠ some '\n' then fault .loneCarriageReturn (start + 1) (start + 1)
    else if isVisible c ∨ c = '\n' ∨ c = '\r' then do
      .ok (c :: (← multilineLiteralText (start + c.utf8Size) cs))
    else fault (.badStringCharacter .multilineLiteral) start (start + 1)

/-- Without the line end that directly follows the opening quotes, and the number of bytes left out. -/
def dropFirstNewline : List Char → List Char × Nat
  | '\n' :: cs => (cs, 1)
  | '\r' :: '\n' :: cs => (cs, 2)
  | cs => (cs, 0)

def isHex (c : Char) : Bool :=
  let n := c.toNat
  (48 ≤ n && n ≤ 57) || (65 ≤ n && n ≤ 70) || (97 ≤ n && n ≤ 102)

def hexValue (cs : List Char) : Nat :=
  cs.foldl (fun v c =>
    let n := c.toNat
    16 * v + (if n ≤ 57 then n - 48 else if n ≤ 70 then n - 55 else n - 87)) 0

/-- A character given by `width` hexadecimal digits, which begin at the offset `start`. -/
def hexEscape (width start : Nat) (cs : List Char) : Except Problem Char :=
  let digits := (cs.take width).takeWhile isHex
  if digits.length < width then fault .fewHexDigits (start + digits.length) (start + digits.length)
  else
    let n := hexValue digits
    if n < 0xD800 ∨ 0xDFFF < n ∧ n < 0x110000 then .ok (Char.ofNat n)
    else fault .badCodePoint start start

/-- The character of an escape and the number of characters read after the backslash at `start`. -/
def escape (start : Nat) : List Char → Except Problem (Char × Nat)
  | [] => fault .unknownEscape (start + 1) (start + 1)
  | c :: cs =>
    if c = 'b' then .ok ('\x08', 1)
    else if c = 'e' then .ok ('\x1b', 1)
    else if c = 'f' then .ok ('\x0c', 1)
    else if c = 'n' then .ok ('\n', 1)
    else if c = 'r' then .ok ('\r', 1)
    else if c = 't' then .ok ('\t', 1)
    else if c = '\\' then .ok ('\\', 1)
    else if c = '"' then .ok ('"', 1)
    else if c = 'x' then do .ok (← hexEscape 2 (start + 2) cs, 3)
    else if c = 'u' then do .ok (← hexEscape 4 (start + 2) cs, 5)
    else if c = 'U' then do .ok (← hexEscape 8 (start + 2) cs, 9)
    else fault .unknownEscape (start + 1) (start + 1)

def basicText (start : Nat) (text : List Char) : Except Problem (List Char) :=
  match text with
  | [] => .ok []
  | c :: cs =>
    if c = '\\' then do
      let (e, count) ← escape start cs
      .ok (e :: (← basicText (start + 1 + Utf8.size (cs.take count)) (cs.drop count)))
    else if isVisible c then do .ok (c :: (← basicText (start + c.utf8Size) cs))
    else
      let bad := (c :: cs).takeWhile fun d => !isVisible d
      fault (.badStringCharacter .basic) start (start + Utf8.size bad)
termination_by text.length
decreasing_by all_goals (simp only [List.length_drop, List.length_cons]; omega)

/-- Blanks and line ends. -/
def isGap (c : Char) : Bool := Token.isSpace c || c = '\n' || c = '\r'

/-- Checks that every carriage return among blanks and line ends has its line feed. -/
def checkGap (start : Nat) : List Char → Except Problem Unit
  | [] => .ok ()
  | c :: cs =>
    if c = '\r' ∧ cs.head? ≠ some '\n' then fault .loneCarriageReturn (start + 1) (start + 1)
    else if isGap c then checkGap (start + 1) cs
    else .ok ()

/-- The number of characters to leave out after a backslash at `start` that ends a line. -/
def joinedLines (start : Nat) (cs : List Char) : Except Problem Nat := do
  let blanks := (cs.takeWhile Token.isSpace).length
  match cs.drop blanks with
  | '\n' :: _ | '\r' :: _ =>
    checkGap (start + 1) cs
    .ok (cs.takeWhile isGap).length
  | _ => fault .noNewlineAfterBackslash (start + 1 + blanks) (start + 1 + blanks)

def multilineBasicText (start : Nat) (text : List Char) : Except Problem (List Char) :=
  match text with
  | [] => .ok []
  | c :: cs =>
    if c = '\\' then
      if (cs.head?.map isGap).getD false then do
        let count ← joinedLines start cs
        multilineBasicText (start + 1 + count) (cs.drop count)
      else do
        let (e, count) ← escape start cs
        .ok (e :: (← multilineBasicText (start + 1 + Utf8.size (cs.take count)) (cs.drop count)))
    else if c = '\r' ∧ cs.head? ≠ some '\n' then fault .loneCarriageReturn (start + 1) (start + 1)
    else if isVisible c ∨ c = '\n' ∨ c = '\r' then do
      .ok (c :: (← multilineBasicText (start + c.utf8Size) cs))
    else
      let bad := (c :: cs).takeWhile fun d => !(isVisible d || d = '\n' || d = '\r')
      fault (.badStringCharacter .multilineBasic) start (start + Utf8.size bad)
termination_by text.length
decreasing_by all_goals (simp only [List.length_drop, List.length_cons]; omega)

def literal (t : Token) : Except Problem (List Char) := do
  literalText (t.start + 1) (← inner t .literal Token.quote 1)

def basic (t : Token) : Except Problem (List Char) := do
  basicText (t.start + 1) (← inner t .basic '"' 1)

def multilineLiteral (t : Token) : Except Problem (List Char) := do
  let (text, skipped) := dropFirstNewline (← inner t .multilineLiteral Token.quote 3)
  multilineLiteralText (t.start + 3 + skipped) text

def multilineBasic (t : Token) : Except Problem (List Char) := do
  let (text, skipped) := dropFirstNewline (← inner t .multilineBasic '"' 3)
  multilineBasicText (t.start + 3 + skipped) text

/-- The characters of unquoted keys. -/
def isKeyChar (c : Char) : Bool :=
  let n := c.toNat
  (48 ≤ n && n ≤ 57) || (65 ≤ n && n ≤ 90) || (97 ≤ n && n ≤ 122) || c = '_' || c = '-'

def bareKey (t : Token) : Except Problem (List Char) :=
  if t.text = [] then fault .emptyKey t.start t.start
  else
    match t.text.dropWhile isKeyChar with
    | [] => .ok t.text
    | c :: cs =>
      let start := t.stop - Utf8.size (c :: cs)
      fault .badKeyCharacter start (start + c.utf8Size)

/-- The text of a part of a key. -/
def key (t : Token) : Except Problem (List Char) :=
  match t.kind with
  | .bare => bareKey t
  | .literal => literal t
  | .basic => basic t
  | .multilineBasic => fault (.multilineKey .multilineBasic) t.start t.stop
  | _ => fault (.multilineKey .multilineLiteral) t.start t.stop

end Quotation

end TemplateTiming.Toml
