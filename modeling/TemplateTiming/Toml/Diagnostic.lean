import TemplateTiming.Toml.Fault
import TemplateTiming.Text.Utf8

/-! The report of a problem in a TOML text: line and column, the line itself with carets under the place, and
what is wrong. Lines and columns count from 1, columns in characters. A place at the end of the text is counted
from the last byte on, and where the byte at the place does not end a character the column counts bytes. -/

namespace TemplateTiming.Toml

/-- The line and the column of a byte offset, both counted from 0. -/
def position (octets : List UInt8) (index : Nat) : Nat × Nat :=
  if octets = [] then (0, index)
  else
    let safe := min index (octets.length - 1)
    let before := octets.take safe
    let lineStart := safe - (before.reverse.takeWhile (· ≠ 10)).length
    let stretch := (octets.take (safe + 1)).drop lineStart
    let column := match Utf8.decode? stretch with
      | some cs => cs.length - 1
      | none => safe - lineStart
    (before.count 10, column + (index - safe))

/-- The lines of a text. -/
def lines : List Char → List (List Char)
  | [] => [[]]
  | c :: cs =>
    match lines cs with
    | [] => [[c]]
    | first :: more => if c = '\n' then [] :: first :: more else (c :: first) :: more

/-- The problem of a text, with a final line end. -/
def Problem.report (text : List Char) (p : Problem) : String :=
  match p.place with
  | none => p.fault.message ++ "\n"
  | some span =>
    let (line, column) := position (Utf8.encode text) span.start
    let number := Decimal.text (line + 1)
    let gutter := String.ofList (List.replicate (number.length + 1) ' ')
    let content := ((lines text)[line]?).getD []
    let carets := max 1 (min (span.stop - span.start) (Utf8.size content - column))
    "TOML parse error at line " ++ number ++ ", column " ++ Decimal.text (column + 1) ++ "\n"
      ++ gutter ++ "|\n"
      ++ number ++ " | " ++ String.ofList content ++ "\n"
      ++ gutter ++ "|" ++ String.ofList (List.replicate (column + 1) ' ')
      ++ String.ofList (List.replicate carets '^') ++ "\n"
      ++ p.fault.message ++ "\n"

end TemplateTiming.Toml
