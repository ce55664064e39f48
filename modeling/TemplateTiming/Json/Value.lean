import TemplateTiming.Text.Utf8
import TemplateTiming.Text.Decimal

/-! JSON values and what can be wrong with a JSON text. A number is kept as it is written. A fault is reported
with a line and a column counted in bytes: those read up to the fault, the offending ones with them. -/

namespace TemplateTiming

inductive Json where
  | null
  | boolean (b : Bool)
  | number (literal : List Char)
  | string (s : List Char)
  | array (items : List Json)
  | object (members : List (List Char × Json))
  deriving Repr

namespace Json

inductive Fault where
  | endInValue
  | endInString
  | endInArray
  | endInObject
  | noColon
  | noArraySeparator
  | noObjectSeparator
  | badWord
  | noValue
  | badEscape
  | badNumber
  | numberOutOfRange
  | controlCharacter
  | keyNotString
  | loneSurrogate
  | unpairedSurrogate
  | trailingComma
  | trailingCharacters
  | tooDeep
  deriving DecidableEq, Repr

def Fault.message : Fault → String
  | .endInValue => "EOF while parsing a value"
  | .endInString => "EOF while parsing a string"
  | .endInArray => "EOF while parsing a list"
  | .endInObject => "EOF while parsing an object"
  | .noColon => "expected `:`"
  | .noArraySeparator => "expected `,` or `]`"
  | .noObjectSeparator => "expected `,` or `\x7d`"
  | .badWord => "expected ident"
  | .noValue => "expected value"
  | .badEscape => "invalid escape"
  | .badNumber => "invalid number"
  | .numberOutOfRange => "number out of range"
  | .controlCharacter => "control character (\\u0000-\\u001F) found while parsing a string"
  | .keyNotString => "key must be a string"
  | .loneSurrogate => "lone leading surrogate in hex escape"
  | .unpairedSurrogate => "unexpected end of hex escape"
  | .trailingComma => "trailing comma"
  | .trailingCharacters => "trailing characters"
  | .tooDeep => "recursion limit exceeded"

/-- A fault, the text that comes next, and how many of its bytes were still read. -/
structure Failure where
  fault : Fault
  rest : List Char
  ahead : Nat
  deriving DecidableEq, Repr

/-- A fault and its place. -/
structure TextError where
  fault : Fault
  line : Nat
  column : Nat
  deriving DecidableEq, Repr

def TextError.message (e : TextError) : String :=
  e.fault.message ++ " at line " ++ Decimal.text e.line ++ " column " ++ Decimal.text e.column

/-- The place of a failure within the whole text. -/
def Failure.locate (whole : List Char) (f : Failure) : TextError :=
  let octets := Utf8.encode whole
  let consumed := octets.length - (Utf8.encode f.rest).length + f.ahead
  let before := octets.take consumed
  ⟨f.fault, 1 + before.count 10, (before.reverse.takeWhile (· != 10)).length⟩

end Json

end TemplateTiming
