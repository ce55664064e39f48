import TemplateTiming.Toml.Moment

/-! What can be wrong with a TOML text or with the values found in it, and where. Places are byte offsets into
the text. -/

namespace TemplateTiming.Toml

/-- The bytes from `start` up to `stop`. -/
structure Span where
  start : Nat
  stop : Nat
  deriving DecidableEq, Repr, Inhabited

/-- The four ways to quote. -/
inductive Quoting where
  | basic
  | literal
  | multilineBasic
  | multilineLiteral
  deriving DecidableEq, Repr

def Quoting.name : Quoting → String
  | .basic => "basic string"
  | .literal => "literal string"
  | .multilineBasic => "multi-line basic string"
  | .multilineLiteral => "multi-line literal string"

/-- The quote that ends a string. -/
def Quoting.closing : Quoting → String
  | .basic | .multilineBasic => "`\"`"
  | .literal | .multilineLiteral => "`'`"

/-- What a string may consist of. -/
def Quoting.content : Quoting → String
  | .basic => "non-double-quote visible characters, `\\`"
  | .literal => "non-single-quote visible characters"
  | .multilineBasic => "`\\`, characters"
  | .multilineLiteral => "non-single-quote characters"

/-- The bases that integers may be written in with a letter in front. -/
inductive Radix where
  | hexadecimal
  | octal
  | binary
  deriving DecidableEq, Repr

def Radix.name : Radix → String
  | .hexadecimal => "hexadecimal"
  | .octal => "octal"
  | .binary => "binary"

def Radix.opening : Radix → String
  | .hexadecimal => "0x"
  | .octal => "0o"
  | .binary => "0b"

/-- The rows of digits in a floating point number. -/
inductive FloatPart where
  | mantissa
  | fraction
  | exponent
  deriving DecidableEq, Repr

def FloatPart.name : FloatPart → String
  | .mantissa => "mantissa"
  | .fraction => "fraction"
  | .exponent => "exponent"

/-- What has to come next in an inline table. -/
inductive EntryPart where
  | key
  | assignment
  | value
  | comma
  deriving DecidableEq, Repr

def EntryPart.name : EntryPart → String
  | .key => "key"
  | .assignment => "`=`"
  | .value => "value"
  | .comma => "`,`"

inductive Fault where
  | loneCarriageReturn
  | controlInComment
  | noTableOpening
  | noKey
  | noKeyInTable (wanted : EntryPart)
  | unclosedTable
  | unclosedArrayTable
  | halfClosedArrayTable
  | noAssignment
  | noAssignmentInTable
  | textAfterValue
  | extraAssignment
  | extraAssignmentInArray
  | extraAssignmentInTable (wanted : EntryPart)
  | noArrayOpening
  | noInlineTableOpening
  | extraCommaInArray
  | extraCommaInTable (wanted : EntryPart)
  | noCommaInArray
  | noCommaInTable
  | unclosedArray
  | unclosedInlineTable
  | tooDeep
  | emptyKey
  | badKeyCharacter
  | multilineKey (form : Quoting)
  | unquotedText
  | noOpeningQuote (quotes : String)
  | unclosedString (form : Quoting)
  | badStringCharacter (form : Quoting)
  | unknownEscape
  | fewHexDigits
  | badCodePoint
  | noNewlineAfterBackslash
  | wrongTruthValue (word : String)
  | wrongFloatWord (word : String)
  | repeatedSign
  | signedRadix
  | upperCaseRadix (radix : Radix)
  | decimalRadix
  | badDigit (radix : Radix)
  | leadingZero
  | misplacedUnderscore
  | noDigits (part : FloatPart)
  | badFloat
  | badMoment (flaw : Moment.Flaw)
  | duplicateKey
  | extendsInlineTable
  | extendsValue (kind : String)
  | pathTooDeep
  | wrongType (found expected : String)
  | wrongValue (found expected : String)
  | wrongLength (length : Nat) (expected : String)
  | missingField (name : String)
  | integerOverflow
  | floatOverflow
  deriving DecidableEq, Repr

def Fault.message : Fault → String
  | .loneCarriageReturn => "carriage return must be followed by newline, expected newline"
  | .controlInComment => "invalid comment character, expected printable characters"
  | .noTableOpening => "missing table open, expected `[`"
  | .noKey => "missing key, expected key"
  | .noKeyInTable wanted => "missing key for inline table element, expected " ++ wanted.name
  | .unclosedTable => "unclosed table, expected `]`"
  | .unclosedArrayTable => "unclosed array table, expected `]]`"
  | .halfClosedArrayTable => "unclosed array table, expected `]`"
  | .noAssignment => "key with no value, expected `=`"
  | .noAssignmentInTable => "missing assignment between key-value pairs, expected `=`"
  | .textAfterValue => "unexpected key or value, expected newline, `#`"
  | .extraAssignment => "extra `=`, expected nothing"
  | .extraAssignmentInArray => "unexpected `=` in array, expected value, `]`"
  | .extraAssignmentInTable wanted => "extra assignment between key-value pairs, expected " ++ wanted.name
  | .noArrayOpening => "missing array opening, expected `[`"
  | .noInlineTableOpening => "missing inline table opening, expected `\x7b`"
  | .extraCommaInArray => "extra comma in array, expected value"
  | .extraCommaInTable wanted => "extra comma in inline table, expected " ++ wanted.name
  | .noCommaInArray => "missing comma between array elements, expected `,`"
  | .noCommaInTable => "missing comma between key-value pairs, expected `,`"
  | .unclosedArray => "unclosed array, expected `]`"
  | .unclosedInlineTable => "unclosed inline table, expected `\x7d`"
  | .tooDeep => "cannot recurse further; max recursion depth met"
  | .emptyKey => "unquoted keys cannot be empty, expected letters, numbers, `-`, `_`"
  | .badKeyCharacter => "invalid unquoted key, expected letters, numbers, `-`, `_`"
  | .multilineKey form => "keys cannot be " ++ form.name ++ "s, expected basic string, literal string"
  | .unquotedText => "string values must be quoted, expected literal string"
  | .noOpeningQuote quotes => "missing opening quote, expected `" ++ quotes ++ "`"
  | .unclosedString form => "invalid " ++ form.name ++ ", expected " ++ form.closing
  | .badStringCharacter form => "invalid " ++ form.name ++ ", expected " ++ form.content
  | .unknownEscape => "missing escaped value, expected `b`, `e`, `f`, `n`, `r`, `\\`, `\"`, `x`, `u`, `U`"
  | .fewHexDigits => "too few unicode value digits, expected unicode hexadecimal value"
  | .badCodePoint => "invalid value, expected unicode hexadecimal value"
  | .noNewlineAfterBackslash => "invalid escape sequence, expected newline"
  | .wrongTruthValue word => "invalid boolean, expected `" ++ word ++ "`"
  | .wrongFloatWord word => "invalid float, expected `" ++ word ++ "`"
  | .repeatedSign => "redundant numeric sign, expected nothing"
  | .signedRadix => "integers with a radix cannot be signed, expected nothing"
  | .upperCaseRadix radix => "radix must be lowercase, expected `" ++ radix.opening ++ "`"
  | .decimalRadix => "redundant integer number prefix, expected nothing"
  | .badDigit radix => "invalid " ++ radix.name ++ " number"
  | .leadingZero => "unexpected leading zero, expected nothing"
  | .misplacedUnderscore => "`_` may only go between digits, expected nothing"
  | .noDigits part => "invalid " ++ part.name ++ ", expected digits"
  | .badFloat => "invalid float, expected nothing"
  | .badMoment flaw => flaw.message
  | .duplicateKey => "duplicate key"
  | .extendsInlineTable => "cannot extend value of type inline table with a dotted key"
  | .extendsValue kind => "cannot extend value of type " ++ kind ++ " with a dotted key"
  | .pathTooDeep => "recursion limit"
  | .wrongType found expected => "invalid type: " ++ found ++ ", expected " ++ expected
  | .wrongValue found expected => "invalid value: " ++ found ++ ", expected " ++ expected
  | .wrongLength length expected => "invalid length " ++ Decimal.text length ++ ", expected " ++ expected
  | .missingField name => "missing field `" ++ name ++ "`"
  | .integerOverflow => "integer number overflowed"
  | .floatOverflow => "floating-point number overflowed"

/-- A fault and its place; a path that is too long has no single place. -/
structure Problem where
  fault : Fault
  place : Option Span
  deriving DecidableEq, Repr

def fault {α : Type} (f : Fault) (start stop : Nat) : Except Problem α := .error ⟨f, some ⟨start, stop⟩⟩

end TemplateTiming.Toml
