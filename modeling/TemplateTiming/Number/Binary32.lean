import TemplateTiming.Number.Binary64

/-! Single precision numbers. Each of them is also a double, and it is held as that double. Only the rounding is
coarser: it keeps 24 significant bits, no bit is worth less than 2^-149, and what reaches 2^128 after rounding is
infinite. -/

namespace TemplateTiming.Binary32

/-- The first power of two beyond the finite range, in units of a double. -/
def overflow : Nat := Nat.pow 2 1202

/-- The spacing of single precision numbers around `units`, as a power of two. -/
def spacing (units : Nat) : Nat := max (units.log2 - 23) 925

/-- The nearest single precision number to `num / den` units. -/
def roundUnits (num den : Nat) : Binary64 := Binary64.roundBy spacing overflow num den

def ofNat (n : Nat) : Binary64 := roundUnits (n * Binary64.one) 1

def mul (x y : Binary64) : Binary64 := Binary64.mulBy roundUnits x y

def div (x y : Binary64) : Binary64 := Binary64.divBy roundUnits x y

end TemplateTiming.Binary32
