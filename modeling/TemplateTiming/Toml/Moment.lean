import TemplateTiming.Text.Decimal

/-! Dates and times: a date, a time, or both with a letter T or a blank between them and perhaps a distance from
UTC behind. A part is read as a row of digits and signs first; then its numbers are held to their width, and at
last to their range. Seconds may be left out. -/

namespace TemplateTiming.Toml

namespace Moment

inductive Part where
  | whole
  | date
  | dateTime
  | time
  | offset
  deriving DecidableEq, Repr

/-- The part that is wrong, and what should stand there if that is known. -/
structure Flaw where
  part : Part
  wanted : Option String
  deriving DecidableEq, Repr

def Part.name : Part → String
  | .whole => "datetime"
  | .date => "date"
  | .dateTime => "date-time"
  | .time => "time"
  | .offset => "offset"

def Flaw.message (f : Flaw) : String :=
  "invalid " ++ f.part.name ++ match f.wanted with
    | some wanted => ", expected " ++ wanted
    | none => ""

def refuse {α : Type} (part : Part) (wanted : String) : Except Flaw α := .error ⟨part, some wanted⟩

/-- A row of digits and what follows it. -/
def digits (part : Part) (wanted : String) (cs : List Char) : Except Flaw (List Char × List Char) :=
  let row := cs.takeWhile Decimal.isDigit
  if row = [] then refuse part wanted else .ok (row, cs.dropWhile Decimal.isDigit)

def sign (part : Part) (c : Char) (wanted : String) (cs : List Char) : Except Flaw (List Char) :=
  if cs.head? = some c then .ok (cs.drop 1) else refuse part wanted

def checkWidth (part : Part) (width : Nat) (wanted : String) (row : List Char) : Except Flaw Unit :=
  if row.length = width then .ok () else refuse part wanted

def checkRange (part : Part) (low high : Nat) (wanted : String) (row : List Char) : Except Flaw Unit :=
  if low ≤ Decimal.value row ∧ Decimal.value row ≤ high then .ok () else refuse part wanted

def isLeapYear (year : Nat) : Bool := (year % 4 = 0 && year % 100 ≠ 0) || year % 400 = 0

def daysInMonth (year month : Nat) : Nat :=
  if month = 2 then (if isLeapYear year then 29 else 28)
  else if month = 4 ∨ month = 6 ∨ month = 9 ∨ month = 11 then 30
  else 31

/-- The rest of a date after its year and the sign behind that. -/
def afterYear (year cs : List Char) : Except Flaw (List Char) := do
  let (month, cs) ← digits .date "month" cs
  let cs ← sign .date '-' "`-` (MM-DD)" cs
  let (day, cs) ← digits .date "day" cs
  checkWidth .date 4 "a four-digit year (YYYY)" year
  checkWidth .date 2 "a two-digit month (MM)" month
  checkWidth .date 2 "a two-digit day (DD)" day
  checkRange .date 1 12 "month between 01 and 12" month
  let last := daysInMonth (Decimal.value year) (Decimal.value month)
  checkRange .date 1 last ("day between 01 and " ++ Decimal.text last) day
  .ok cs

/-- The seconds and their fraction, either of which may be missing. -/
def seconds (cs : List Char) : Except Flaw (List Char × List Char) :=
  match cs with
  | ':' :: cs => do
    let (second, cs) ← digits .time "second" cs
    match cs with
    | '.' :: cs => do
      let (_, cs) ← digits .time "nanosecond" cs
      .ok (second, cs)
    | _ => .ok (second, cs)
  | _ => .ok (['0', '0'], cs)

def time (cs : List Char) : Except Flaw (List Char) := do
  let (hour, cs) ← digits .time "hour" cs
  let cs ← sign .time ':' "`:` (HH:MM)" cs
  let (minute, cs) ← digits .time "minute" cs
  let (second, cs) ← seconds cs
  checkWidth .time 2 "a two-digit hour (HH)" hour
  checkWidth .time 2 "a two-digit minute (MM)" minute
  checkWidth .time 2 "a two-digit second (SS)" second
  checkRange .time 0 23 "hour between 00 and 23" hour
  checkRange .time 0 59 "minute between 00 and 59" minute
  checkRange .time 0 60 "second between 00 and 60" second
  .ok cs

/-- Nothing, the letter Z, or a difference in hours and minutes. -/
def offset (cs : List Char) : Except Flaw (List Char) :=
  match cs with
  | [] => .ok []
  | c :: cs =>
    if c = 'Z' ∨ c = 'z' then .ok cs
    else if c = '+' ∨ c = '-' then do
      let (hours, cs) ← digits .offset "hour" cs
      let cs ← sign .offset ':' "`:` (HH:MM)" cs
      let (minutes, cs) ← digits .offset "minute" cs
      checkWidth .offset 2 "a two-digit hour (HH)" hours
      checkWidth .offset 2 "a two-digit minute (MM)" minutes
      checkRange .offset 0 23 "hours between 00 and 23" hours
      checkRange .offset 0 59 "minutes between 00 and 59" minutes
      .ok cs
    else refuse .offset "`Z`, +OFFSET, -OFFSET"

/-- What may follow a date. -/
def afterDate (cs : List Char) : Except Flaw (List Char) :=
  match cs with
  | [] => .ok []
  | c :: cs =>
    if c = 'T' ∨ c = 't' ∨ c = ' ' then do offset (← time cs)
    else refuse .dateTime "`T` between date and time"

/-- Checks a whole text. -/
def check (cs : List Char) : Except Flaw Unit := do
  let (first, rest) ← digits .whole "year or hour" cs
  let rest ← match rest with
    | '-' :: rest => do afterDate (← afterYear first rest)
    | ':' :: _ => time cs
    | _ => refuse .whole "`-` (YYYY-MM) or `:` (HH:MM)"
  if rest = [] then .ok () else .error ⟨.whole, none⟩

end Moment

end TemplateTiming.Toml
