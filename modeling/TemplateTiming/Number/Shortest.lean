import TemplateTiming.Number.Binary64
import TemplateTiming.Text.Decimal

/-! Decimal text of doubles. The shortest form has the fewest significant digits that read back as the same
double; of the two neighbours with that many digits the nearer one is taken, an exact tie going to the even
digit. It is found by trying 1, 2, 3, … digits, and ends at the latest with the exact decimal expansion, which
every double has. The fixed form rounds the exact value once. -/

namespace TemplateTiming

/-- The number `digits * 10 ^ exponent`. -/
structure Scaled where
  digits : Nat
  exponent : Int
  deriving DecidableEq, Repr

namespace Binary64

/-- The exact value of `units` as a whole number of 10^-1074. -/
def expansion (units : Nat) : Nat := units * Nat.pow 5 1074

/-- The two neighbours of `total` on the grid of `10 ^ dropped`, the preferred one first. -/
def neighbours (total dropped : Nat) : List Nat :=
  let grid := Nat.pow 10 dropped
  let below := total / grid
  let twice := 2 * (total % grid)
  if twice = 0 then [below]
  else if twice < grid ∨ twice = grid ∧ below % 2 = 0 then [below, below + 1]
  else [below + 1, below]

/-- Tries the grids from `dropped` on, coarse to fine, around the exact value `total` of `units`. -/
def shortestFrom (units total : Nat) : Nat → Scaled
  | 0 => ⟨total, -1074⟩
  | dropped + 1 =>
    let exponent : Int := (dropped : Int) + 1 - 1074
    match (neighbours total (dropped + 1)).find? (ofDecimal · exponent = .finite units) with
    | some digits => ⟨digits, exponent⟩
    | none => shortestFrom units total dropped

/-- The shortest decimal that reads back as `units`. -/
def shortest (units : Nat) : Scaled :=
  shortestFrom units (expansion units) ((Decimal.digits (expansion units)).length - 1)

/-- The significant digits without trailing zeros, and the power of ten of the first one. -/
def normal (s : Scaled) : List Char × Int :=
  let all := Decimal.digits s.digits
  (((all.reverse.dropWhile (· == '0')).reverse), s.exponent + (all.length : Int) - 1)

end Binary64

/-- How a number's digits are laid out: from which power of ten down to which the point is written in place,
and the sign of a positive exponent beyond that. -/
structure DecimalLayout where
  plain : Int → Bool
  plus : Bool

namespace Binary64

/-- Digits `ds` whose first has the weight `10 ^ e`, with at least one digit on each side of the point. -/
def positional (ds : List Char) (e : Int) : List Char :=
  if e < 0 then
    ['0', '.'] ++ List.replicate ((-e).toNat - 1) '0' ++ ds
  else
    let whole := e.toNat + 1
    let front := ds.take whole ++ List.replicate (whole - ds.length) '0'
    front ++ ['.'] ++ (if ds.length ≤ whole then ['0'] else ds.drop whole)

/-- One digit, a point if more follow, and the exponent. -/
def scientific (plus : Bool) (ds : List Char) (e : Int) : List Char :=
  let mantissa := match ds with
    | [] => ['0']
    | [d] => [d]
    | d :: more => d :: '.' :: more
  let sign := if e < 0 then ['-'] else if plus then ['+'] else []
  mantissa ++ ['e'] ++ sign ++ Decimal.digits e.natAbs

/-- The shortest digits of a finite number, laid out. -/
def layOut (layout : DecimalLayout) (units : Nat) : List Char :=
  if units = 0 then ['0', '.', '0']
  else
    let (ds, e) := normal (shortest units)
    if layout.plain e then positional ds e else scientific layout.plus ds e

/-- The value rounded to `places` places after the point, an exact half to the even digit. -/
def fixed (places units : Nat) : List Char :=
  let scale := Nat.pow 10 places
  let scaled := roundHalfEven (units * scale) one
  Decimal.digits (scaled / scale) ++ ['.'] ++ Decimal.padded places (scaled % scale)

/-- The number with so many places after the point, if it is finite. -/
def withPlaces (places : Nat) : Binary64 → List Char
  | .finite units => fixed places units
  | .infinite => ['i', 'n', 'f']
  | .notANumber => ['N', 'a', 'N']

end Binary64

end TemplateTiming
