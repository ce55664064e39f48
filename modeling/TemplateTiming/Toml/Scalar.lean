import TemplateTiming.Toml.Quotation
import TemplateTiming.Number.Binary64
import TemplateTiming.Text.Decimal

/-! Unquoted values: integers, floating point numbers, truth values, dates and times. The first characters
decide what a value is meant to be, and the rest is then held to that. Integers keep their exact value whatever
its size, and floating point numbers keep their decimal digits, because only the place that uses a number
knows its limits. An integer with underscores may turn out to hold more than digits, or one with a base none at
all: it has no value then, which again shows only where it is used. -/

namespace TemplateTiming.Toml

/-- A floating point number as written. -/
inductive Real where
  | finite (negative : Bool) (digits : Nat) (exponent : Int)
  | infinite (negative : Bool)
  | notANumber
  deriving DecidableEq, Repr

inductive Scalar where
  | string (s : List Char)
  | integer (n : Int)
  | malformedInteger
  | float (x : Real)
  | boolean (b : Bool)
  | moment
  deriving DecidableEq, Repr

namespace Scalar

/-- A base and its digits. -/
structure Base where
  size : Nat
  isDigit : Char → Bool

def ten : Base := ⟨10, Decimal.isDigit⟩
def sixteen : Base := ⟨16, Quotation.isHex⟩
def eight : Base := ⟨8, fun c => '0' ≤ c && c ≤ '7'⟩
def two : Base := ⟨2, fun c => c = '0' || c = '1'⟩

def Base.value (b : Base) (cs : List Char) : Nat :=
  cs.foldl (fun v c => b.size * v + Quotation.hexValue [c]) 0

/-- The stretches between underscores. -/
def stretches : List Char → List (List Char)
  | [] => [[]]
  | c :: cs =>
    match stretches cs with
    | [] => [[c]]
    | first :: more => if c = '_' then [] :: first :: more else (c :: first) :: more

/-- Checks the stretches between underscores from the offset `start` on: a stretch behind an underscore begins
with a digit, and one before an underscore ends with a digit unless it is a single character. -/
def checkStretches (isDigit : Char → Bool) (start : Nat) (behind : Bool) : List (List Char) → Except Problem Unit
  | [] => .ok ()
  | part :: more =>
    let stop := start + Utf8.size part
    if behind ∧ !((part.head?.map isDigit).getD false) then fault .misplacedUnderscore (start - 1) start
    else if 1 < part.length ∧ more ≠ [] ∧ !((part.getLast?.map isDigit).getD false) then
      fault .misplacedUnderscore stop (stop + 1)
    else checkStretches isDigit (stop + 1) true more

/-- Underscores stand between digits only. For integers the digits of every base count here. -/
def checkUnderscores (isDigit : Char → Bool) (start : Nat) (cs : List Char) : Except Problem Unit :=
  if !cs.contains '_' then .ok ()
  else if cs.head? = some '_' then fault .misplacedUnderscore start (start + 1)
  else checkStretches isDigit start false (stretches cs)

def withoutUnderscores (cs : List Char) : List Char := cs.filter (· ≠ '_')

def signed (negative : Bool) (n : Nat) : Int := if negative then -(n : Int) else n

/-- The integer with the given digits. -/
def Base.integer (b : Base) (negative : Bool) (cs : List Char) : Scalar :=
  if cs ≠ [] ∧ cs.all b.isDigit then .integer (signed negative (b.value cs)) else .malformedInteger

/-- A decimal integer whose digits begin at `start`. -/
def integerText (negative : Bool) (start : Nat) (cs : List Char) : Except Problem Scalar := do
  if 1 < cs.length ∧ cs.head? = some '0' then fault .leadingZero start (start + 1)
  checkUnderscores sixteen.isDigit start cs
  .ok (ten.integer negative (withoutUnderscores cs))

/-- A count of digits at the front of `cs`, with underscores among them, and what follows. -/
def digitRun (cs : List Char) : Nat × List Char :=
  let isPart (c : Char) := Decimal.isDigit c || c = '_'
  ((cs.takeWhile isPart).countP Decimal.isDigit, cs.dropWhile isPart)

/-- The digits of an exponent, with the sign that may stand before them. -/
def checkExponent (start : Nat) (cs : List Char) : Except Problem (Nat × List Char) :=
  let (start, cs) : Nat × List Char := match cs with
    | '+' :: rest | '-' :: rest => (start + 1, rest)
    | _ => (start, cs)
  let (count, rest) := digitRun cs
  if count = 0 then fault (.noDigits .exponent) start start
  else .ok (start + (cs.length - rest.length), rest)

def isExponentMark (c : Char) : Bool := c = 'e' || c = 'E'

/-- Checks what follows the point or the whole part of a floating point number. -/
def checkTail (start : Nat) : List Char → Except Problem (Nat × List Char)
  | [] => .ok (start, [])
  | c :: cs => if isExponentMark c then checkExponent (start + 1) cs else .ok (start, c :: cs)

/-- The shape of a floating point number: a whole part without superfluous zeros, then a fraction or an
exponent or both. -/
def checkFloat (start stop : Nat) (cs : List Char) : Except Problem Unit := do
  let (count, rest) := digitRun cs
  if count = 0 then fault (.noDigits .mantissa) start start
  if 1 < count ∧ cs.head? = some '0' then fault .leadingZero start (start + 1)
  let at1 := start + (cs.length - rest.length)
  let (at2, rest) ← match rest with
    | '.' :: more =>
      let (count, rest) := digitRun more
      if count = 0 then fault (.noDigits .fraction) (at1 + 1) (at1 + 1)
      else checkTail (at1 + 1 + (more.length - rest.length)) rest
    | _ => checkTail at1 rest
  if rest ≠ [] then fault .badFloat at2 stop

/-- The value of a floating point number that has been checked. -/
def floatValue (negative : Bool) (cs : List Char) : Real :=
  let mantissa := cs.takeWhile fun c => !isExponentMark c
  let exponent := (cs.dropWhile fun c => !isExponentMark c).drop 1
  let fraction := (mantissa.dropWhile (· ≠ '.')).drop 1
  let size : Int := Decimal.value (exponent.filter Decimal.isDigit)
  let shift := if exponent.head? = some '-' then -size else size
  .finite negative (Decimal.value (mantissa.filter (· ≠ '.'))) (shift - fraction.length)

def floatText (negative : Bool) (start stop : Nat) (cs : List Char) : Except Problem Scalar := do
  checkFloat start stop cs
  checkUnderscores ten.isDigit start cs
  .ok (.float (floatValue negative (withoutUnderscores cs)))

/-- What an unquoted value that is nothing else is taken for: a text that lacks its quotes, or the first of
them. -/
def unquoted (t : Token) : Except Problem Scalar :=
  let endsWith (quotes : List Char) : Bool := quotes.reverse.isPrefixOf t.text.reverse
  let candidates := [List.replicate 3 Token.quote, List.replicate 3 '"', [Token.quote], ['"']]
  match candidates.find? endsWith with
  | some quotes => fault (.noOpeningQuote (String.ofList quotes)) t.start t.start
  | none => fault .unquotedText t.start t.stop

def hasBlank (t : Token) : Bool := t.text.contains ' '

/-- A value that begins with digits, at the offset `start`. -/
def numeric (t : Token) (negative : Bool) (start : Nat) (cs : List Char) : Except Problem Scalar :=
  match cs.dropWhile Decimal.isDigit with
  | [] => integerText negative start cs
  | c :: rest =>
    if c = '-' ∨ c = ':' then
      match Moment.check t.text with
      | .ok () => .ok .moment
      | .error flaw => fault (.badMoment flaw) t.start t.stop
    else if hasBlank t then unquoted t
    else if (c :: rest).any fun d => d = '.' ∨ isExponentMark d then floatText negative start t.stop cs
    else if c = '_' then integerText negative start cs
    else unquoted t

def digitsOf : Radix → Base
  | .hexadecimal => sixteen
  | .octal => eight
  | .binary => two

/-- The digits of an integer with a base prefix. -/
def radixText (t : Token) (r : Radix) (start : Nat) (cs : List Char) : Except Problem Scalar := do
  if cs.head? = some '+' ∨ cs.head? = some '-' then fault .repeatedSign start (start + 1)
  match cs.dropWhile fun c => (digitsOf r).isDigit c || c = '_' with
  | [] => pure ()
  | bad =>
    let place := t.stop - Utf8.size bad
    fault (.badDigit r) place place
  checkUnderscores sixteen.isDigit start cs
  .ok ((digitsOf r).integer false (withoutUnderscores cs))

/-- A value that begins with a zero, at the offset `start`. -/
def zeroPrefixed (t : Token) (sign : Option Bool) (start : Nat) (cs : List Char) : Except Problem Scalar :=
  let based (read : Except Problem Scalar) : Except Problem Scalar :=
    if hasBlank t then unquoted t
    else if sign.isSome then fault .signedRadix t.start (t.start + 1)
    else read
  let inRadix (r : Radix) (upper : Bool) : Except Problem Scalar :=
    based (if upper then fault (.upperCaseRadix r) start (start + 2)
      else radixText t r (start + 2) (cs.drop 2))
  match cs with
  | _ :: c :: _ =>
    if c = 'x' ∨ c = 'X' then inRadix .hexadecimal (c = 'X')
    else if c = 'o' ∨ c = 'O' then inRadix .octal (c = 'O')
    else if c = 'b' ∨ c = 'B' then inRadix .binary (c = 'B')
    else if c = 'd' ∨ c = 'D' then based (fault .decimalRadix start (start + 2))
    else numeric t (sign.getD false) start cs
  | _ => numeric t (sign.getD false) start cs

/-- A value that has to be one particular word. -/
def word (t : Token) (w : String) (f : String → Fault) (value : Scalar) (start : Nat) (cs : List Char) :
    Except Problem Scalar :=
  if cs = w.toList then .ok value
  else if hasBlank t then unquoted t
  else fault (f w) start t.stop

/-- What follows a sign. -/
def afterSign (t : Token) (negative : Bool) (start : Nat) (cs : List Char) : Except Problem Scalar :=
  match cs with
  | [] => unquoted t
  | c :: _ =>
    if c = '+' ∨ c = '-' then if hasBlank t then unquoted t else fault .repeatedSign start (start + 1)
    else if c = '0' then zeroPrefixed t (some negative) start cs
    else if c = '_' ∨ Decimal.isDigit c then numeric t negative start cs
    else if c = '.' then fault (.noDigits .mantissa) t.start t.start
    else if c = 'i' ∨ c = 'I' then word t "inf" .wrongFloatWord (.float (.infinite negative)) start cs
    else if c = 'n' ∨ c = 'N' then word t "nan" .wrongFloatWord (.float .notANumber) start cs
    else unquoted t

/-- The value of an unquoted scalar. -/
def bare (t : Token) : Except Problem Scalar :=
  match t.text with
  | [] => unquoted t
  | c :: cs =>
    let all := c :: cs
    if c = '+' ∨ c = '-' then afterSign t (c = '-') (t.start + 1) cs
    else if c = '0' then zeroPrefixed t none t.start all
    else if c = '_' ∨ Decimal.isDigit c then numeric t false t.start all
    else if c = '.' then fault (.noDigits .mantissa) t.start t.start
    else if c = 't' ∨ c = 'T' then word t "true" .wrongTruthValue (.boolean true) t.start all
    else if c = 'f' ∨ c = 'F' then word t "false" .wrongTruthValue (.boolean false) t.start all
    else if c = 'i' ∨ c = 'I' then word t "inf" .wrongFloatWord (.float (.infinite false)) t.start all
    else if c = 'n' ∨ c = 'N' then word t "nan" .wrongFloatWord (.float .notANumber) t.start all
    else unquoted t

/-- The value of any scalar. -/
def ofToken (t : Token) : Except Problem Scalar :=
  match t.kind with
  | .literal => (Quotation.literal t).map .string
  | .basic => (Quotation.basic t).map .string
  | .multilineLiteral => (Quotation.multilineLiteral t).map .string
  | .multilineBasic => (Quotation.multilineBasic t).map .string
  | _ => bare t

end Scalar

end TemplateTiming.Toml
