import TemplateTiming.Number.Rounding

/-! Non-negative double precision numbers. A finite one is a whole multiple of the least positive double,
2^-1074, and is held as that multiple, so sums and products are exact whole numbers before they are rounded.
Rounding keeps 53 significant bits and takes the nearest value, an exact half to the even significand; what
reaches 2^1024 after rounding is infinite. Negative numbers do not occur: lengths of time and counts are
measured. -/

namespace TemplateTiming

inductive Binary64 where
  | finite (units : Nat)
  | infinite
  | notANumber
  deriving DecidableEq, Repr

namespace Binary64

/-- The number of units in 1. -/
def one : Nat := Nat.pow 2 1074

/-- The first power of two beyond the finite range, in units. -/
def overflow : Nat := Nat.pow 2 2098

/-- The spacing of doubles around `units`, as a power of two. -/
def spacing (units : Nat) : Nat := units.log2 - 52

/-- Rounds `num / den` units to a whole number of steps, whose size is a power of two. What reaches `overflow` is
infinite. -/
def roundBy (spacing : Nat → Nat) (overflow num den : Nat) : Binary64 :=
  let step := Nat.pow 2 (spacing (num / den))
  let units := roundHalfEven num (den * step) * step
  if units < overflow then .finite units else .infinite

/-- The nearest double to `num / den` units. -/
def roundUnits (num den : Nat) : Binary64 := roundBy spacing overflow num den

/-- The nearest double to the fraction `num / den`. -/
def ofRatio (num den : Nat) : Binary64 := roundUnits (num * one) den

def ofNat (n : Nat) : Binary64 := ofRatio n 1

/-- The nearest double to `digits * 10 ^ exponent`. -/
def ofDecimal (digits : Nat) (exponent : Int) : Binary64 :=
  if 0 ≤ exponent then ofRatio (digits * Nat.pow 10 exponent.toNat) 1
  else ofRatio digits (Nat.pow 10 (-exponent).toNat)

/-- The nearest double to `digits * 10 ^ exponent`, without computing powers far outside the range of doubles. -/
def ofScaled (digits : Nat) (exponent : Int) : Binary64 :=
  if digits = 0 then .finite 0
  else if 400 < exponent then .infinite
  else if exponent + digits.log2 + 1 < -400 then .finite 0
  else ofDecimal digits exponent

def add : Binary64 → Binary64 → Binary64
  | .finite a, .finite b => roundUnits (a + b) 1
  | .notANumber, _ | _, .notANumber => .notANumber
  | _, _ => .infinite

/-- The product, with some rounding of what is finite. -/
def mulBy (round : Nat → Nat → Binary64) : Binary64 → Binary64 → Binary64
  | .finite a, .finite b => round (a * b) one
  | .infinite, .infinite => .infinite
  | .infinite, .finite a | .finite a, .infinite => if a = 0 then .notANumber else .infinite
  | .notANumber, _ | _, .notANumber => .notANumber

/-- The quotient, with some rounding of what is finite. -/
def divBy (round : Nat → Nat → Binary64) : Binary64 → Binary64 → Binary64
  | .finite a, .finite b =>
    if b = 0 then (if a = 0 then .notANumber else .infinite) else round (a * one) b
  | .finite _, .infinite => .finite 0
  | .infinite, .finite _ => .infinite
  | .infinite, .infinite => .notANumber
  | .notANumber, _ | _, .notANumber => .notANumber

def mul (x y : Binary64) : Binary64 := mulBy roundUnits x y

def div (x y : Binary64) : Binary64 := divBy roundUnits x y

instance (n : Nat) : OfNat Binary64 n := ⟨ofNat n⟩

end Binary64

end TemplateTiming
