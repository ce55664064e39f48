import TemplateTiming.Toml.Fault
import TemplateTiming.Text.Utf8

/-! Tokens of a TOML text. The tokens follow each other without gaps, every character belongs to one, and an
empty token marks the end. A string that is not closed ends with its line, or with the text if it may span
lines; what is wrong with it shows when it is decoded. A token that is none of the others is a bare run, as
long as no character in it separates tokens. -/

namespace TemplateTiming.Toml

inductive TokenKind where
  | dot
  | equals
  | comma
  | openBracket
  | closeBracket
  | openBrace
  | closeBrace
  | whitespace
  | comment
  | newline
  | literal
  | basic
  | multilineLiteral
  | multilineBasic
  | bare
  | finish
  deriving DecidableEq, Repr

structure Token where
  kind : TokenKind
  text : List Char
  start : Nat
  deriving DecidableEq, Repr

namespace Token

def stop (t : Token) : Nat := t.start + Utf8.size t.text

def quote : Char := Char.ofNat 39

def isSpace (c : Char) : Bool := c == ' ' || c == '\t'

/-- A character that ends a bare run. -/
def separates (c : Char) : Bool :=
  c == '.' || c == '=' || c == ',' || c == '[' || c == ']' || c == '{' || c == '}' || c == '#' || c == '\r'
    || c == '\n' || isSpace c

/-- The characters of a literal string after its opening quote. -/
def literalRest : List Char → Nat
  | [] => 0
  | c :: cs => if c = quote then 1 else if c = '\n' then 0 else literalRest cs + 1

/-- The characters of a basic string after its opening quote; a backslash guards a backslash or a quote. -/
def basicRest : List Char → Nat
  | [] => 0
  | '\\' :: '\\' :: cs => basicRest cs + 2
  | '\\' :: '"' :: cs => basicRest cs + 2
  | c :: cs => if c = '"' then 1 else if c = '\n' then 0 else basicRest cs + 1

/-- Up to two further quotes, which belong to a string that three quotes have closed. -/
def extraQuotes (q : Char) : List Char → Nat
  | a :: b :: _ => if a ≠ q then 0 else if b ≠ q then 1 else 2
  | [a] => if a = q then 1 else 0
  | [] => 0

def multilineLiteralRest : List Char → Nat
  | [] => 0
  | a :: cs =>
    if a = quote ∧ cs.take 2 = [quote, quote] then 3 + extraQuotes quote (cs.drop 2)
    else multilineLiteralRest cs + 1

def multilineBasicRest : List Char → Nat
  | [] => 0
  | '\\' :: '\\' :: cs => multilineBasicRest cs + 2
  | '\\' :: '"' :: cs => multilineBasicRest cs + 2
  | a :: cs =>
    if a = '"' ∧ cs.take 2 = ['"', '"'] then 3 + extraQuotes '"' (cs.drop 2)
    else multilineBasicRest cs + 1

/-- The kind of the token that begins with `c`, and how many of the characters after `c` belong to it. -/
def classify (c : Char) (rest : List Char) : TokenKind × Nat :=
  if c = '.' then (.dot, 0)
  else if c = '=' then (.equals, 0)
  else if c = ',' then (.comma, 0)
  else if c = '[' then (.openBracket, 0)
  else if c = ']' then (.closeBracket, 0)
  else if c = '{' then (.openBrace, 0)
  else if c = '}' then (.closeBrace, 0)
  else if isSpace c then (.whitespace, (rest.takeWhile isSpace).length)
  else if c = '#' then (.comment, (rest.takeWhile fun d => d ≠ '\r' ∧ d ≠ '\n').length)
  else if c = '\n' then (.newline, 0)
  else if c = '\r' then (.newline, if rest.head? = some '\n' then 1 else 0)
  else if c = quote then
    if rest.take 2 = [quote, quote] then (.multilineLiteral, 2 + multilineLiteralRest (rest.drop 2))
    else (.literal, literalRest rest)
  else if c = '"' then
    if rest.take 2 = ['"', '"'] then (.multilineBasic, 2 + multilineBasicRest (rest.drop 2))
    else (.basic, basicRest rest)
  else (.bare, (rest.takeWhile fun d => !separates d).length)

/-- The tokens of a text that begins at the offset `start`. -/
def scan (start : Nat) (text : List Char) : List Token :=
  match text with
  | [] => [⟨.finish, [], start⟩]
  | c :: rest =>
    let (kind, count) := classify c rest
    let token : Token := ⟨kind, c :: rest.take count, start⟩
    token :: scan token.stop (rest.drop count)
termination_by text.length
decreasing_by simp only [List.length_drop, List.length_cons]; omega

/-- The tokens of a whole text, behind a byte order mark if it begins with one. -/
def ofText : List Char → List Token
  | '\ufeff' :: rest => scan 3 rest
  | text => scan 0 text

end Token

end TemplateTiming.Toml
