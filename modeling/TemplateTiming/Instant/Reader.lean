import TemplateTiming.Instant

/-! Reading a point in time back from its text. Days are counted from the rules of the Gregorian calendar: the
lengths of the months, and a leap day in the years divisible by 4, of the full centuries only in those divisible
by 400. A second of 60 is a leap second and counts as the second before it with 10^9 nanoseconds more. -/

namespace TemplateTiming

namespace Date

def isLeap (year : Int) : Bool := year % 4 == 0 && (year % 100 != 0 || year % 400 == 0)

def monthLengths (year : Int) : List Nat :=
  [31, if isLeap year then 29 else 28, 31, 30, 31, 30, 31, 31, 30, 31, 30, 31]

/-- Whether there is such a day in the calendar. -/
def isValid (d : Date) : Bool :=
  1 ≤ d.month && 1 ≤ d.day && d.day ≤ ((monthLengths d.year)[d.month - 1]?).getD 0

/-- The days from 1 January of the year 0 to 1 January of `year`. -/
def daysBefore (year : Int) : Int := 365 * year + (year + 3) / 4 - (year + 99) / 100 + (year + 399) / 400

/-- The days of the months before the month `month` of a year. -/
def daysBeforeMonth (year : Int) (month : Nat) : Nat := ((monthLengths year).take (month - 1)).foldr (· + ·) 0

/-- The days from 1 January 1970, negative before it. -/
def toDays (d : Date) : Int :=
  daysBefore d.year - daysBefore 1970 + daysBeforeMonth d.year d.month + d.day - 1

end Date

namespace Instant

/-- A number of exactly `width` digits, and the text behind it. -/
def readNumber? (width : Nat) (cs : List Char) : Option (Nat × List Char) :=
  let digits := cs.take width
  if digits.length = width ∧ digits.all Decimal.isDigit then some (Decimal.value digits, cs.drop width) else none

def skip? (c : Char) : List Char → Option (List Char)
  | [] => none
  | d :: cs => if c = d then some cs else none

/-- Four digits, or a sign and at least four digits. -/
def readYear? (cs : List Char) : Option (Int × List Char) :=
  let signed (negative : Bool) (cs : List Char) : Option (Int × List Char) :=
    let digits := cs.takeWhile Decimal.isDigit
    let n : Int := Decimal.value digits
    if 4 ≤ digits.length then some (if negative then -n else n, cs.dropWhile Decimal.isDigit) else none
  match cs with
  | '+' :: rest => signed false rest
  | '-' :: rest => signed true rest
  | _ => (readNumber? 4 cs).map fun (n, rest) => (n, rest)

def readDate? (cs : List Char) : Option (Date × List Char) := do
  let (year, cs) ← readYear? cs
  let (month, cs) ← readNumber? 2 (← skip? '-' cs)
  let (day, cs) ← readNumber? 2 (← skip? '-' cs)
  let date : Date := ⟨year, month, day⟩
  if date.isValid then some (date, cs) else none

/-- A fraction of up to nine digits in nanoseconds, 0 if there is none. -/
def readFraction? : List Char → Option (Nat × List Char)
  | '.' :: cs =>
    let digits := cs.takeWhile Decimal.isDigit
    if 1 ≤ digits.length ∧ digits.length ≤ 9 then
      some (Decimal.value digits * Nat.pow 10 (9 - digits.length), cs.dropWhile Decimal.isDigit)
    else none
  | cs => some (0, cs)

/-- The second of the day and the nanoseconds of a clock time. -/
def readClock? (cs : List Char) : Option ((Nat × Nat) × List Char) := do
  let (hour, cs) ← readNumber? 2 cs
  let (minute, cs) ← readNumber? 2 (← skip? ':' cs)
  let (second, cs) ← readNumber? 2 (← skip? ':' cs)
  let (nano, cs) ← readFraction? cs
  if 23 < hour ∨ 59 < minute ∨ 60 < second then none
  else if second = 60 then some ((3600 * hour + 60 * minute + 59, nano + 1000000000), cs)
  else some ((3600 * hour + 60 * minute + second, nano), cs)

/-- The point in time that a text shows. -/
def parse? (cs : List Char) : Option Instant := do
  let (date, cs) ← readDate? cs
  let ((second, nano), cs) ← readClock? (← skip? 'T' cs)
  if cs = ['Z'] then ofUnix? (date.toDays * 86400 + second) nano else none

end Instant

end TemplateTiming
