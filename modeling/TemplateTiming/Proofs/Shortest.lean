import Mathlib.Data.List.DropRight
import TemplateTiming.Number.Shortest
import TemplateTiming.Proofs.Decimal
import TemplateTiming.Proofs.Rounding

/-! The shortest decimal that reads back as a double. Its digits begin with the first place that is not zero, and the
power of ten of that place is bounded by the size of the double. Reading back is all that is used for that: a decimal
that is rounded to a double is less than twice as large, or within the first unit. -/

namespace TemplateTiming

/-- A decimal for `units` as the search finds it: not zero, with no more places than the exact expansion, and of about
the same size. The exponent may have either sign, so that both sides are multiplied out. -/
structure Scaled.Fits (s : Scaled) (units : Nat) : Prop where
  nonzero : s.digits ≠ 0
  places : -1074 ≤ s.exponent
  size : s.digits * 10 ^ s.exponent.toNat * Binary64.one ≤ (2 * units + 1) * 10 ^ (-s.exponent).toNat

namespace Binary64

/-- A decimal is read as a fraction, whatever the sign of its exponent. -/
theorem ofDecimal_eq (digits : Nat) (exponent : Int) :
    ofDecimal digits exponent = ofRatio (digits * 10 ^ exponent.toNat) (10 ^ (-exponent).toNat) := by
  rw [ofDecimal]
  split_ifs with hsign
  · rw [Int.toNat_of_nonpos (Int.neg_nonpos_of_nonneg hsign), Nat.pow_zero]
    rfl
  · rw [Int.toNat_of_nonpos (not_le.mp hsign).le, Nat.pow_zero, Nat.mul_one]
    rfl

theorem fits_of_ofDecimal {s : Scaled} {units : Nat} (hunits : units ≠ 0) (hplaces : -1074 ≤ s.exponent)
    (h : ofDecimal s.digits s.exponent = .finite units) : s.Fits units := by
  rw [ofDecimal_eq, ofRatio] at h
  obtain ⟨hlow, hhigh⟩ := roundUnits_finite (Nat.pow_pos (by decide)) h
  refine ⟨?_, hplaces, hlow⟩
  intro hzero
  rw [hzero, Nat.zero_mul, Nat.zero_mul, Nat.mul_zero, Nat.le_zero, Nat.mul_eq_zero] at hhigh
  exact hhigh.elim hunits (Nat.pow_pos (by decide)).ne'

/-- A fraction over a power of two has as many decimal places as it is halved, and is exact with them. -/
theorem halves_exact {n : Nat} (hn : n ≠ 0) (places : Nat) :
    n * Nat.pow 5 places ≠ 0 ∧ n * Nat.pow 5 places * Nat.pow 2 places ≤ (2 * n + 1) * 10 ^ places := by
  constructor
  · exact Nat.mul_ne_zero hn (Nat.pow_pos (by decide)).ne'
  · rw [Nat.pow_eq, Nat.pow_eq, Nat.mul_assoc, ← Nat.mul_pow]
    exact Nat.mul_le_mul_right _ (by omega)

theorem expansion_fits {units : Nat} (hunits : units ≠ 0) : Scaled.Fits ⟨expansion units, -1074⟩ units where
  nonzero := by
    rw [expansion]
    generalize 1074 = places
    exact (halves_exact hunits places).1
  places := le_refl _
  size := by
    have hnone : (-1074 : Int).toNat = 0 := rfl
    have hplaces : (-(-1074) : Int).toNat = 1074 := rfl
    rw [hnone, hplaces, Nat.pow_zero, Nat.mul_one]
    unfold expansion one
    generalize 1074 = places
    exact (halves_exact hunits places).2

theorem shortestFrom_fits {units total : Nat} (hunits : units ≠ 0) (htotal : Scaled.Fits ⟨total, -1074⟩ units)
    (dropped : Nat) : (shortestFrom units total dropped).Fits units := by
  induction dropped with
  | zero => exact htotal
  | succ dropped ih =>
      rw [shortestFrom]
      split
      next digits hfound =>
        have hreads := List.find?_some hfound
        exact fits_of_ofDecimal hunits (by dsimp only; omega) (of_decide_eq_true hreads)
      next => exact ih

theorem shortest_fits {units : Nat} (hunits : units ≠ 0) : (shortest units).Fits units :=
  shortestFrom_fits hunits (expansion_fits hunits) _

/-- The digits begin with the first place. -/
theorem normal_digits {s : Scaled} (hs : s.digits ≠ 0) :
    ∃ d ds, (normal s).1 = d :: ds ∧ d ≠ '0' ∧ ∀ c ∈ d :: ds, Decimal.isDigit c = true := by
  have hkept : (normal s).1 <+: Decimal.digits s.digits := List.rdropWhile_prefix _ _
  have hhead := Decimal.digits_head hs
  have hfirst : (normal s).1 ≠ [] := by
    intro hnil
    have hzero := List.rdropWhile_eq_nil_iff.mp hnil _ (List.head_mem (Decimal.digits_ne_nil s.digits))
    exact hhead (beq_iff_eq.mp hzero)
  obtain ⟨d, ds, hnormal⟩ := List.exists_cons_of_ne_nil hfirst
  rw [hnormal] at hkept
  refine ⟨d, ds, hnormal, ?_, fun c hc => Decimal.isDigit_of_mem_digits (hkept.subset hc)⟩
  rwa [← hkept.head (List.cons_ne_nil d ds)] at hhead

/-- The first place of a decimal is not beyond the size of the double. -/
theorem normal_power {s : Scaled} {units : Nat} (h : s.Fits units) (hpower : 0 ≤ (normal s).2) :
    10 ^ (normal s).2.toNat * one ≤ 2 * units + 1 := by
  have hlength : 0 < (Decimal.digits s.digits).length := List.length_pos_iff.mpr (Decimal.digits_ne_nil _)
  have hexponent : (normal s).2.toNat + (-s.exponent).toNat
      = (Decimal.digits s.digits).length - 1 + s.exponent.toNat := by
    simp only [normal] at hpower ⊢
    omega
  refine Nat.le_of_mul_le_mul_right ?_ (Nat.pow_pos (by decide) : 0 < 10 ^ (-s.exponent).toNat)
  calc 10 ^ (normal s).2.toNat * one * 10 ^ (-s.exponent).toNat
      = 10 ^ ((Decimal.digits s.digits).length - 1) * 10 ^ s.exponent.toNat * one := by
        rw [← Nat.pow_add, ← hexponent, Nat.pow_add]
        ring
    _ ≤ s.digits * 10 ^ s.exponent.toNat * one :=
        Nat.mul_le_mul_right one (Nat.mul_le_mul_right _ (Decimal.pow_length_le h.nonzero))
    _ ≤ (2 * units + 1) * 10 ^ (-s.exponent).toNat := h.size

theorem le_normal_power {s : Scaled} {units : Nat} (h : s.Fits units) : -1074 ≤ (normal s).2 := by
  have hlength : 0 < (Decimal.digits s.digits).length := List.length_pos_iff.mpr (Decimal.digits_ne_nil _)
  have hplaces := h.places
  simp only [normal]
  omega

end Binary64

end TemplateTiming
