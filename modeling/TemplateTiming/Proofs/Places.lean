import Mathlib.Data.Rat.Defs
import TemplateTiming.Number.Shortest
import TemplateTiming.Proofs.Decimal

/-! Numbers that are written with a fixed number of places. Such a text is counted in its last place: it stands for
the whole number that its digits make up without the point, divided by as many tens as there are places. -/

namespace TemplateTiming

namespace Decimal

theorem length_digits_le {n width : Nat} (hwidth : 0 < width) (hn : n < 10 ^ width) : (digits n).length ≤ width := by
  rcases Nat.eq_zero_or_pos n with rfl | hpos
  · rw [digits_zero]
    exact hwidth
  · have hpow := (pow_length_le hpos.ne').trans_lt hn
    have hlength := (Nat.pow_lt_pow_iff_right (by decide)).mp hpow
    omega

/-- A number that fits is written with just so many digits. -/
theorem length_padded {n width : Nat} (hwidth : 0 < width) (hn : n < 10 ^ width) :
    (padded width n).length = width := by
  rw [padded, List.length_append, List.length_replicate, Nat.sub_add_cancel (length_digits_le hwidth hn)]

theorem value_padded (width n : Nat) : value (padded width n) = n := by
  rw [padded, value_zeros_append, value_digits]

theorem isDigit_of_mem_padded {width n : Nat} {d : Char} (hd : d ∈ padded width n) : isDigit d = true := by
  rcases List.mem_append.mp hd with hzero | hdigit
  · exact isDigit_of_mem_zeros hzero
  · exact isDigit_of_mem_digits hdigit

/-- A number with so many places, as it is written: a whole part without superfluous zeros in front, a point, and
the places. -/
structure FixedPoint (places : Nat) where
  whole : List Char
  fraction : List Char
  whole_nonempty : whole ≠ []
  whole_digits : ∀ d ∈ whole, isDigit d = true
  no_superfluous_zero : whole.head? = some '0' → whole = ['0']
  fraction_digits : ∀ d ∈ fraction, isDigit d = true
  fraction_length : fraction.length = places

namespace FixedPoint

variable {places : Nat}

def text (x : FixedPoint places) : List Char := x.whole ++ ['.'] ++ x.fraction

theorem not_mem_text {x : FixedPoint places} {c : Char} (hdigit : isDigit c = false) (hpoint : c ≠ '.') :
    c ∉ x.text := by
  intro hmem
  simp only [text, List.mem_append, List.mem_singleton] at hmem
  rcases hmem with (hwhole | hsame) | hfraction
  · exact absurd (x.whole_digits c hwhole) (by simp [hdigit])
  · exact hpoint hsame
  · exact absurd (x.fraction_digits c hfraction) (by simp [hdigit])

/-- The number, counted in its last place. -/
def count (x : FixedPoint places) : Nat := Decimal.value (x.whole ++ x.fraction)

def value (x : FixedPoint places) : ℚ := x.count / 10 ^ places

/-- The number with so many places that is `n` when it is counted in the last of them. -/
def ofCount (hplaces : 0 < places) (n : Nat) : FixedPoint places where
  whole := digits (n / 10 ^ places)
  fraction := padded places (n % 10 ^ places)
  whole_nonempty := digits_ne_nil _
  whole_digits := fun _ => isDigit_of_mem_digits
  no_superfluous_zero := by
    intro hhead
    by_cases hzero : n / 10 ^ places = 0
    · rw [hzero, digits_zero]
    · rw [List.head?_eq_some_head (digits_ne_nil _), Option.some.injEq] at hhead
      exact absurd hhead (digits_head hzero)
  fraction_digits := fun _ => isDigit_of_mem_padded
  fraction_length := length_padded hplaces (Nat.mod_lt _ (Nat.pow_pos (by decide)))

theorem count_ofCount (hplaces : 0 < places) (n : Nat) : (ofCount hplaces n).count = n := by
  rw [count, value_append, (ofCount hplaces n).fraction_length]
  simp only [ofCount, value_digits, value_padded]
  exact Nat.div_add_mod' n (10 ^ places)

end FixedPoint

end Decimal

/-- A double is written with so many places by rounding it once, an exact half to the even digit. -/
theorem Binary64.fixed_eq {places : Nat} (hplaces : 0 < places) (units : Nat) :
    fixed places units =
      (Decimal.FixedPoint.ofCount hplaces (roundHalfEven (units * 10 ^ places) one)).text := by
  simp only [fixed, Nat.pow_eq]
  rfl

end TemplateTiming
