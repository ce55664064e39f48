import TemplateTiming.Monitor
import TemplateTiming.Text.Blank

/-! The tables in which the system says what a process uses. One kind has lines of a name, a colon and a size in
KiB; the other is one line of numbers, behind a command name in parentheses. -/

namespace TemplateTiming.ProcessTable

/-- The number that follows `name`, in bytes. -/
def size? (name : List Char) : List Char → Option Nat
  | [] => none
  | c :: cs =>
    if name.isPrefixOf (c :: cs) then
      some (1024 * Decimal.value ((((c :: cs).drop name.length).dropWhile Text.isBlank).takeWhile Decimal.isDigit))
    else size? name cs

/-- The words of a text, before which a word may already have begun. -/
def wordsFrom (begun : List Char) : List Char → List (List Char)
  | [] => if begun.isEmpty then [] else [begun.reverse]
  | c :: cs =>
    if !Text.isBlank c then wordsFrom (c :: begun) cs
    else if begun.isEmpty then wordsFrom [] cs
    else begun.reverse :: wordsFrom [] cs

/-- The processor time in hundredths of a second: the 12th and the 13th number behind the command name. -/
def processorTicks (cs : List Char) : Nat :=
  let numbers := wordsFrom [] ((cs.reverse.takeWhile (· ≠ ')')).reverse)
  let number (i : Nat) : Nat := Decimal.value ((numbers[i]?).getD [])
  number 11 + number 12

/-- The share of a time in percent. -/
def load (ticks : Nat) (elapsed : Duration) : Binary64 := Monitor.share (ticks * 10000000) elapsed.nanoseconds

/-- A reading from the tables of the process's memory, of all memory, and of the process's times. -/
def reading? (status memory times : List Char) (elapsed : Duration) : Option Reading := do
  let used ← size? "VmRSS:".toList status
  let total ← size? "MemTotal:".toList memory
  pure ⟨used.toUInt64, total.toUInt64, load (processorTicks times) elapsed, elapsed⟩

end TemplateTiming.ProcessTable
