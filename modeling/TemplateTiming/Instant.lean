import TemplateTiming.Text.Decimal

/-! Points in time, counted in seconds from the start of 1970 without leap seconds, and their text in the
proleptic Gregorian calendar. A leap second is held as the second before it with 10^9 or more nanoseconds and
is shown as second 60. The calendar is computed in years that begin with March, where the leap day comes last,
within cycles of 400 years, which all have 146097 days. -/

namespace TemplateTiming

structure Instant where
  second : Int
  nano : Nat
  nano_lt : nano < 2000000000
  leap : 1000000000 ≤ nano → second % 60 = 59
  deriving DecidableEq, Repr

namespace Instant

def epoch : Instant := ⟨0, 0, by decide, by decide⟩

instance : Inhabited Instant := ⟨epoch⟩

def ofUnix? (second : Int) (nano : Nat) : Option Instant :=
  if h : nano < 2000000000 ∧ (1000000000 ≤ nano → second % 60 = 59) then some ⟨second, nano, h.1, h.2⟩ else none

end Instant

structure Date where
  year : Int
  month : Nat
  day : Nat
  deriving DecidableEq, Repr

namespace Date

/-- The days of 400 years. -/
def cycle : Nat := 146097

/-- The days from 1 March of the year 0 to 1 January 1970. -/
def epochOffset : Int := 719468

/-- The date that is `days` days after 1 January 1970. -/
def ofDays (days : Int) : Date :=
  let shifted := days + epochOffset
  let era := shifted / cycle
  let inEra := (shifted % cycle).toNat
  let yearOfEra := (inEra - inEra / 1460 + inEra / 36524 - inEra / 146096) / 365
  let dayOfYear := inEra - (365 * yearOfEra + yearOfEra / 4 - yearOfEra / 100)
  let fromMarch := (5 * dayOfYear + 2) / 153
  let month := if fromMarch < 10 then fromMarch + 3 else fromMarch - 9
  ⟨yearOfEra + era * 400 + (if month ≤ 2 then 1 else 0), month, dayOfYear - (153 * fromMarch + 2) / 5 + 1⟩

/-- Years 0 to 9999 with four digits, others with a sign and at least four. -/
def yearText (year : Int) : List Char :=
  let digits := Decimal.padded 4 year.natAbs
  if 0 ≤ year ∧ year ≤ 9999 then digits
  else if year < 0 then '-' :: digits
  else '+' :: digits

def text (d : Date) : List Char :=
  yearText d.year ++ ['-'] ++ Decimal.padded 2 d.month ++ ['-'] ++ Decimal.padded 2 d.day

end Date

namespace Instant

/-- The fraction of a second with 0, 3, 6 or 9 digits, the fewest that are exact. -/
def fractionText (nano : Nat) : List Char :=
  if nano = 0 then []
  else if nano % 1000000 = 0 then '.' :: Decimal.padded 3 (nano / 1000000)
  else if nano % 1000 = 0 then '.' :: Decimal.padded 6 (nano / 1000)
  else '.' :: Decimal.padded 9 nano

def clockText (secondOfDay nano : Nat) : List Char :=
  let hour := secondOfDay / 3600
  let minute := secondOfDay / 60 % 60
  let second := secondOfDay % 60 + nano / 1000000000
  Decimal.padded 2 hour ++ [':'] ++ Decimal.padded 2 minute ++ [':'] ++ Decimal.padded 2 second
    ++ fractionText (nano % 1000000000)

/-- Date, clock time and the letter Z for UTC. -/
def text (t : Instant) : List Char :=
  (Date.ofDays (t.second / 86400)).text ++ ['T'] ++ clockText (t.second % 86400).toNat t.nano ++ ['Z']

end Instant

end TemplateTiming
