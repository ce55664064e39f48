import TemplateTiming.Number.Binary64
import TemplateTiming.Text.Decimal

/-! Lengths of time in whole nanoseconds, up to 2^64 seconds. As a double a duration is its seconds plus its
nanoseconds divided by 10^9, rounded after each step; back from a double it is the nearest nanosecond. -/

namespace TemplateTiming

structure Duration where
  nanoseconds : Nat
  bounded : nanoseconds < UInt64.size * 1000000000
  deriving DecidableEq, Repr

namespace Duration

def zero : Duration := ⟨0, by decide⟩

instance : Inhabited Duration := ⟨zero⟩

def ofNanoseconds? (n : Nat) : Option Duration :=
  if h : n < UInt64.size * 1000000000 then some ⟨n, h⟩ else none

def seconds (d : Duration) : Nat := d.nanoseconds / 1000000000

/-- The nanoseconds beyond the last whole second. -/
def subsecond (d : Duration) : Nat := d.nanoseconds % 1000000000

/-- An `n`-th part, rounded down to whole nanoseconds. -/
def part (d : Duration) (n : Nat) : Duration :=
  ⟨d.nanoseconds / n, Nat.lt_of_le_of_lt (Nat.div_le_self _ _) d.bounded⟩

def toBinary64 (d : Duration) : Binary64 :=
  (Binary64.ofNat d.seconds).add ((Binary64.ofNat d.subsecond).div (.ofNat 1000000000))

def milliseconds (d : Duration) : Binary64 := d.toBinary64.mul (.ofNat 1000)

/-- The nearest whole nanosecond to a number of seconds, if there is one below 2^64 seconds. -/
def ofBinary64? : Binary64 → Option Duration
  | .finite units => ofNanoseconds? (roundHalfEven (units * 1000000000) Binary64.one)
  | _ => none

/-- A whole part and a fraction of `width` digits, without the fraction's trailing zeros. -/
def decimalText (whole fraction width : Nat) : List Char :=
  let places := ((Decimal.padded width fraction).reverse.dropWhile (· == '0')).reverse
  Decimal.digits whole ++ (if fraction = 0 then [] else '.' :: places)

/-- The duration in the largest unit that leaves a whole part. -/
def text (d : Duration) : String :=
  let n := d.nanoseconds
  if 1000000000 ≤ n then String.ofList (decimalText d.seconds d.subsecond 9) ++ "s"
  else if 1000000 ≤ n then String.ofList (decimalText (n / 1000000) (n % 1000000) 6) ++ "ms"
  else if 1000 ≤ n then String.ofList (decimalText (n / 1000) (n % 1000) 3) ++ "µs"
  else Decimal.text n ++ "ns"

end Duration

end TemplateTiming
