import TemplateTiming.Json.Value
import TemplateTiming.Number.Binary64

/-! Reading a JSON text. The first fault ends the reading. Values may be nested 127 deep. The functions that
call each other take a number of steps that the length of the text bounds, since every second step reads a
character. -/

namespace TemplateTiming.Json

def fail {α : Type} (fault : Fault) (rest : List Char) : Except Failure α := .error ⟨fault, rest, 0⟩

/-- A fault in the byte that comes next. -/
def failAhead {α : Type} (fault : Fault) (rest : List Char) : Except Failure α := .error ⟨fault, rest, 1⟩

def isSpace (c : Char) : Bool := c == ' ' || c == '\n' || c == '\t' || c == '\r'

def skipSpace (cs : List Char) : List Char := cs.dropWhile isSpace

/-- The rest of a word such as `null` after its first letter. -/
def readWord : List Char → List Char → Except Failure (List Char)
  | [], cs => .ok cs
  | _ :: _, [] => fail .endInValue []
  | w :: ws, c :: cs => if w = c then readWord ws cs else failAhead .badWord (c :: cs)

def hexValue? (c : Char) : Option Nat :=
  let n := c.toNat
  if 48 ≤ n ∧ n ≤ 57 then some (n - 48)
  else if 65 ≤ n ∧ n ≤ 70 then some (n - 55)
  else if 97 ≤ n ∧ n ≤ 102 then some (n - 87)
  else none

/-- Four hexadecimal digits; if they are something else, four bytes of it are read. -/
def readHex (cs : List Char) : Except Failure (Nat × List Char) :=
  match cs.take 4 |>.mapM hexValue? with
  | some [a, b, c, d] => .ok (((a * 16 + b) * 16 + c) * 16 + d, cs.drop 4)
  | _ => if Utf8.size (cs.take 4) < 4 then fail .endInString [] else .error ⟨.badEscape, cs, 4⟩

/-- What follows `\u`: one code unit, or two that make up a character outside the basic plane. -/
def readUnicodeEscape (cs : List Char) : Except Failure (Char × List Char) := do
  let (high, rest) ← readHex cs
  if 0xDC00 ≤ high ∧ high ≤ 0xDFFF then fail .loneSurrogate rest
  else if 0xD800 ≤ high ∧ high ≤ 0xDBFF then
    match rest with
    | '\\' :: 'u' :: more =>
      let (low, rest) ← readHex more
      if 0xDC00 ≤ low ∧ low ≤ 0xDFFF then
        .ok (Char.ofNat (0x10000 + (high - 0xD800) * 0x400 + (low - 0xDC00)), rest)
      else fail .loneSurrogate rest
    | [] | ['\\'] => fail .endInString []
    | '\\' :: more => failAhead .unpairedSurrogate more
    | more => failAhead .unpairedSurrogate more
  else .ok (Char.ofNat high, rest)

/-- What follows a backslash. -/
def readEscape : List Char → Except Failure (Char × List Char)
  | [] => fail .endInString []
  | '"' :: rest => .ok ('"', rest)
  | '\\' :: rest => .ok ('\\', rest)
  | '/' :: rest => .ok ('/', rest)
  | 'b' :: rest => .ok ('\x08', rest)
  | 'f' :: rest => .ok ('\x0c', rest)
  | 'n' :: rest => .ok ('\n', rest)
  | 'r' :: rest => .ok ('\r', rest)
  | 't' :: rest => .ok ('\t', rest)
  | 'u' :: rest => readUnicodeEscape rest
  | rest => failAhead .badEscape rest

/-- The rest of a string after its opening quote. -/
def readString : Nat → List Char → Except Failure (List Char × List Char)
  | 0, cs => fail .endInString cs
  | _ + 1, [] => fail .endInString []
  | steps + 1, c :: cs =>
    if c = '"' then .ok ([], cs)
    else if c = '\\' then do
      let (e, rest) ← readEscape cs
      let (more, rest) ← readString steps rest
      .ok (e :: more, rest)
    else if c.toNat < 0x20 then fail .controlCharacter cs
    else do
      let (more, rest) ← readString steps cs
      .ok (c :: more, rest)

/-- A row of digits that must not be empty. -/
def readDigits (cs : List Char) : Except Failure (List Char × List Char) :=
  match cs.takeWhile Decimal.isDigit with
  | [] => if cs = [] then failAhead .endInValue [] else failAhead .badNumber cs
  | ds => .ok (ds, cs.dropWhile Decimal.isDigit)

def readWhole : List Char → Except Failure (List Char × List Char)
  | '0' :: rest =>
    match rest with
    | d :: _ => if Decimal.isDigit d then failAhead .badNumber rest else .ok (['0'], rest)
    | [] => .ok (['0'], [])
  | cs =>
    match cs with
    | [] => fail .endInValue []
    | c :: _ => if Decimal.isDigit c then readDigits cs else failAhead .badNumber cs

def readFraction : List Char → Except Failure (List Char × List Char)
  | '.' :: cs => do
    let (ds, rest) ← readDigits cs
    .ok ('.' :: ds, rest)
  | cs => .ok ([], cs)

/-- The greatest exponent that is taken account of, 2^31 - 1. -/
def maxExponent : Nat := 2147483647

/-- The number of digits with which a number first exceeds the greatest exponent, if it does; `value` is the
number in front of the digits. -/
def overlongExponent? (value : Nat) : List Char → Option Nat
  | [] => none
  | d :: ds =>
    let value := 10 * value + Decimal.value [d]
    if maxExponent < value then some 1 else (overlongExponent? value ds).map (· + 1)

/-- The exponent part of a number, which is beyond all limits with a great exponent unless its other digits are
zeros. -/
def readExponent (isZero : Bool) : List Char → Except Failure (List Char × List Char)
  | c :: cs =>
    if c = 'e' ∨ c = 'E' then
      let (sign, cs) := match cs with
        | s :: more => if s = '+' ∨ s = '-' then ([s], more) else ([], cs)
        | [] => ([], [])
      match cs with
      | [] => fail .endInValue []
      | d :: _ =>
        let digits := cs.takeWhile Decimal.isDigit
        if !Decimal.isDigit d then failAhead .badNumber cs
        else
          match overlongExponent? 0 digits with
          | some count =>
            if isZero ∨ sign = ['-'] then .ok (c :: sign ++ digits, cs.dropWhile Decimal.isDigit)
            else fail .numberOutOfRange (cs.drop count)
          | none => .ok (c :: sign ++ digits, cs.dropWhile Decimal.isDigit)
    else .ok ([], c :: cs)
  | [] => .ok ([], [])

/-- The leading digits that a 64-bit number holds, after those that make up `value`, and how many digits are
left. -/
def significand (value : Nat) : List Char → Nat × Nat
  | [] => (value, 0)
  | d :: ds =>
    let longer := 10 * value + Decimal.value [d]
    if longer < UInt64.size then significand longer ds else (value, ds.length + 1)

/-- The value of an exponent part. -/
def exponentValue (exponent : List Char) : Int :=
  let size : Int := Decimal.value (exponent.filter Decimal.isDigit)
  if exponent.contains '-' then -size else size

/-- Whether a number is beyond the finite doubles: the product of its leading digits and its power of ten is, both
of them rounded. The parts are its digits before and behind the point and its exponent part. -/
def outOfRange (whole fraction exponent : List Char) : Bool :=
  let (digits, left) := significand 0 whole
  let (digits, ignored) := significand digits fraction
  let scale : Int := (left : Int) - (fraction.length - ignored : Nat) + exponentValue exponent
  if digits = 0 ∨ scale < 0 then false
  else if 308 < scale then true
  else (Binary64.ofNat digits).mul (Binary64.ofDecimal 1 scale) = .infinite

def readNumber (cs : List Char) : Except Failure (List Char × List Char) := do
  let (sign, cs) := match cs with
    | '-' :: rest => (['-'], rest)
    | _ => ([], cs)
  let (whole, cs) ← readWhole cs
  let (fraction, cs) ← readFraction cs
  let isZero := (whole ++ fraction.drop 1).all (· = '0')
  let (exponent, cs) ← readExponent isZero cs
  if outOfRange whole (fraction.drop 1) exponent then fail .numberOutOfRange cs
  else .ok (sign ++ whole ++ fraction ++ exponent, cs)

mutual

/-- A value that may have `depth` further levels. -/
def readValue : Nat → Nat → List Char → Except Failure (Json × List Char)
  | 0, _, cs => fail .tooDeep cs
  | steps + 1, depth, cs =>
    match skipSpace cs with
    | [] => failAhead .endInValue []
    | c :: rest =>
      if c = 'n' then do .ok (.null, ← readWord ['u', 'l', 'l'] rest)
      else if c = 't' then do .ok (.boolean true, ← readWord ['r', 'u', 'e'] rest)
      else if c = 'f' then do .ok (.boolean false, ← readWord ['a', 'l', 's', 'e'] rest)
      else if c = '"' then do
        let (s, rest) ← readString (rest.length + 1) rest
        .ok (.string s, rest)
      else if c = '[' then
        match depth with
        | 0 => failAhead .tooDeep (c :: rest)
        | depth + 1 => do
          let (items, rest) ← readItems steps depth true rest
          .ok (.array items, rest)
      else if c = '{' then
        match depth with
        | 0 => failAhead .tooDeep (c :: rest)
        | depth + 1 => do
          let (members, rest) ← readMembers steps depth true rest
          .ok (.object members, rest)
      else if c = '-' ∨ Decimal.isDigit c then do
        let (literal, rest) ← readNumber (c :: rest)
        .ok (.number literal, rest)
      else failAhead .noValue (c :: rest)

/-- The rest of an array, at its first item or behind one. -/
def readItems : Nat → Nat → Bool → List Char → Except Failure (List Json × List Char)
  | 0, _, _, cs => fail .tooDeep cs
  | steps + 1, depth, first, cs =>
    match skipSpace cs with
    | [] => failAhead .endInArray []
    | c :: rest =>
      if c = ']' then .ok ([], rest)
      else if first then do
        let (item, rest) ← readValue steps depth (c :: rest)
        let (more, rest) ← readItems steps depth false rest
        .ok (item :: more, rest)
      else if c = ',' then
        match skipSpace rest with
        | [] => failAhead .endInValue []
        | d :: rest =>
          if d = ']' then failAhead .trailingComma (d :: rest)
          else do
            let (item, rest) ← readValue steps depth (d :: rest)
            let (more, rest) ← readItems steps depth false rest
            .ok (item :: more, rest)
      else failAhead .noArraySeparator (c :: rest)

/-- A member's key after its opening quote, the colon and the value, and then the rest of the object. -/
def readMember : Nat → Nat → List Char → Except Failure (List (List Char × Json) × List Char)
  | 0, _, cs => fail .tooDeep cs
  | steps + 1, depth, cs => do
    let (key, rest) ← readString (cs.length + 1) cs
    match skipSpace rest with
    | [] => failAhead .endInObject []
    | c :: rest =>
      if c = ':' then do
        let (value, rest) ← readValue steps depth rest
        let (more, rest) ← readMembers steps depth false rest
        .ok ((key, value) :: more, rest)
      else failAhead .noColon (c :: rest)

/-- The rest of an object, at its first member or behind one. -/
def readMembers : Nat → Nat → Bool → List Char → Except Failure (List (List Char × Json) × List Char)
  | 0, _, _, cs => fail .tooDeep cs
  | steps + 1, depth, first, cs =>
    match skipSpace cs with
    | [] => failAhead .endInObject []
    | c :: rest =>
      if c = '}' then .ok ([], rest)
      else if first then
        if c = '"' then readMember steps depth rest else failAhead .keyNotString (c :: rest)
      else if c = ',' then
        match skipSpace rest with
        | [] => failAhead .endInValue []
        | d :: rest =>
          if d = '"' then readMember steps depth rest
          else if d = '}' then failAhead .trailingComma (d :: rest)
          else failAhead .keyNotString (d :: rest)
      else failAhead .noObjectSeparator (c :: rest)

end

/-- One value and nothing but white space behind it. -/
def read (text : List Char) : Except Failure Json := do
  let (value, rest) ← readValue (3 * text.length + 3) 127 text
  match skipSpace rest with
  | [] => .ok value
  | c :: rest => failAhead .trailingCharacters (c :: rest)

def parse (text : List Char) : Except TextError Json :=
  (read text).mapError (·.locate text)

end TemplateTiming.Json
