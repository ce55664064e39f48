/-! Natural numbers in decimal: writing without superfluous zeros, writing to a fixed width, and reading. -/

namespace TemplateTiming.Decimal

/-- The digit with value `n`, for `n` below ten. -/
def digit (n : Nat) : Char := Char.ofNat (48 + n)

def digits (n : Nat) : List Char :=
  if n < 10 then [digit n] else digits (n / 10) ++ [digit (n % 10)]

/-- At least `width` digits, filled up with zeros on the left. -/
def padded (width n : Nat) : List Char :=
  List.replicate (width - (digits n).length) '0' ++ digits n

def isDigit (c : Char) : Bool := '0' ≤ c && c ≤ '9'

def digitValue (c : Char) : Nat := c.toNat - 48

/-- The value of a row of digits, 0 for the empty one. -/
def value (cs : List Char) : Nat := cs.foldl (fun n c => 10 * n + digitValue c) 0

/-- The number as a `String`. -/
def text (n : Nat) : String := String.ofList (digits n)

end TemplateTiming.Decimal
