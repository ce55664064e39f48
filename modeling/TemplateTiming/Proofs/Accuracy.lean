import Mathlib.Algebra.Order.Ring.Pow
import Mathlib.Data.Rat.Cast.Order
import Mathlib.Tactic.FieldSimp
import Mathlib.Tactic.GCongr
import Mathlib.Tactic.Positivity
import TemplateTiming.Proofs.Rounding

/-! How accurate a computation with doubles is. Errors are counted in roundings: two numbers are within `k` roundings
of each other if either is at least what `k` roundings can leave of the other. Counts add up along a chain of
operations, and only at the end is the count turned into a difference. -/

namespace TemplateTiming

/-- The part of a number that one rounding to 53 binary digits leaves at least. -/
def kept : ℚ := 1 - 1 / 2 ^ 53

theorem kept_pos : 0 < kept := by norm_num [kept]

theorem kept_le_one : kept ≤ 1 := by norm_num [kept]

theorem half_le_kept : 1 / 2 ≤ kept := by norm_num [kept]

/-- What many roundings leave, by Bernoulli's inequality. -/
theorem le_kept_pow (k : Nat) : 1 - (k : ℚ) / 2 ^ 53 ≤ kept ^ k := by
  calc 1 - (k : ℚ) / 2 ^ 53 = 1 + k * -(1 / 2 ^ 53) := by ring
    _ ≤ (1 + -(1 / 2 ^ 53)) ^ k := one_add_mul_le_pow (by norm_num) k
    _ = kept ^ k := by rw [kept, sub_eq_add_neg]

/-- `x` is within `k` roundings of `q`, which is not negative. -/
structure Within (k : Nat) (x q : ℚ) : Prop where
  nonneg : 0 ≤ q
  lower : kept ^ k * q ≤ x
  upper : kept ^ k * x ≤ q

namespace Within

variable {j k : Nat} {x y p q : ℚ}

theorem refl (hq : 0 ≤ q) : Within 0 q q :=
  ⟨hq, by rw [pow_zero, one_mul], by rw [pow_zero, one_mul]⟩

theorem nonneg_left (h : Within k x q) : 0 ≤ x :=
  (mul_nonneg (pow_nonneg kept_pos.le k) h.nonneg).trans h.lower

theorem mono (h : Within j x q) (hjk : j ≤ k) : Within k x q := by
  have hpow : kept ^ k ≤ kept ^ j := pow_le_pow_of_le_one kept_pos.le kept_le_one hjk
  exact ⟨h.nonneg, (mul_le_mul_of_nonneg_right hpow h.nonneg).trans h.lower,
    (mul_le_mul_of_nonneg_right hpow h.nonneg_left).trans h.upper⟩

theorem trans (hx : Within j x y) (hy : Within k y q) : Within (j + k) x q := by
  have hj : 0 ≤ kept ^ j := pow_nonneg kept_pos.le j
  have hk : 0 ≤ kept ^ k := pow_nonneg kept_pos.le k
  refine ⟨hy.nonneg, ?_, ?_⟩
  · calc kept ^ (j + k) * q = kept ^ j * (kept ^ k * q) := by ring
      _ ≤ kept ^ j * y := mul_le_mul_of_nonneg_left hy.lower hj
      _ ≤ x := hx.lower
  · calc kept ^ (j + k) * x = kept ^ k * (kept ^ j * x) := by ring
      _ ≤ kept ^ k * y := mul_le_mul_of_nonneg_left hx.upper hk
      _ ≤ q := hy.upper

theorem add (hx : Within k x p) (hy : Within k y q) : Within k (x + y) (p + q) := by
  refine ⟨add_nonneg hx.nonneg hy.nonneg, ?_, ?_⟩
  · rw [mul_add]
    exact add_le_add hx.lower hy.lower
  · rw [mul_add]
    exact add_le_add hx.upper hy.upper

theorem mul (hx : Within j x p) (hy : Within k y q) : Within (j + k) (x * y) (p * q) := by
  have hj : 0 ≤ kept ^ j := pow_nonneg kept_pos.le j
  have hk : 0 ≤ kept ^ k := pow_nonneg kept_pos.le k
  refine ⟨mul_nonneg hx.nonneg hy.nonneg, ?_, ?_⟩
  · calc kept ^ (j + k) * (p * q) = kept ^ j * p * (kept ^ k * q) := by ring
      _ ≤ x * y := mul_le_mul hx.lower hy.lower (mul_nonneg hk hy.nonneg) hx.nonneg_left
  · calc kept ^ (j + k) * (x * y) = kept ^ j * x * (kept ^ k * y) := by ring
      _ ≤ p * q := mul_le_mul hx.upper hy.upper (mul_nonneg hk hy.nonneg_left) hx.nonneg

theorem inv (hx : Within k x q) (hq : 0 < q) : Within k x⁻¹ q⁻¹ := by
  have hpow : 0 < kept ^ k := pow_pos kept_pos k
  have hxpos : 0 < x := (mul_pos hpow hq).trans_le hx.lower
  refine ⟨inv_nonneg.mpr hx.nonneg, ?_, ?_⟩
  · rw [← div_eq_mul_inv, div_le_iff₀ hq, inv_mul_eq_div, le_div_iff₀ hxpos]
    exact hx.upper
  · rw [← div_eq_mul_inv, div_le_iff₀ hxpos, inv_mul_eq_div, le_div_iff₀ hq]
    exact hx.lower

theorem div (hx : Within j x p) (hy : Within k y q) (hq : 0 < q) : Within (j + k) (x / y) (p / q) := by
  rw [div_eq_mul_inv, div_eq_mul_inv]
  exact hx.mul (hy.inv hq)

/-- As a difference, `k` roundings come to `k / 2^52` of the number at most. -/
theorem error (h : Within k x q) (hk : k ≤ 2 ^ 52) : |x - q| ≤ q * k / 2 ^ 52 := by
  have hfew : (k : ℚ) ≤ 2 ^ 52 := by exact_mod_cast hk
  have hnonneg := h.nonneg
  have hpow := le_kept_pow k
  have hlower : (1 - (k : ℚ) / 2 ^ 53) * q ≤ x := (mul_le_mul_of_nonneg_right hpow hnonneg).trans h.lower
  have hupper : (1 - (k : ℚ) / 2 ^ 53) * x ≤ q :=
    (mul_le_mul_of_nonneg_right hpow h.nonneg_left).trans h.upper
  have hdouble : x ≤ 2 * q := by nlinarith [h.nonneg_left]
  have hk0 : (0 : ℚ) ≤ k := k.cast_nonneg
  rw [abs_le]
  constructor
  · nlinarith
  · nlinarith

end Within

/-- The number is 0, or lies between `2^-e` and `2^e`. -/
def Sized (e : Nat) (q : ℚ) : Prop := q = 0 ∨ 1 / 2 ^ e ≤ q ∧ q ≤ 2 ^ e

namespace Sized

variable {d e k : Nat} {x p q : ℚ}

theorem mono (h : Sized d q) (hde : d ≤ e) : Sized e q := by
  have hpow : (2 : ℚ) ^ d ≤ 2 ^ e := pow_le_pow_right₀ (by norm_num) hde
  refine h.imp_right fun hrange => ⟨?_, hrange.2.trans hpow⟩
  exact (one_div_le_one_div_of_le (by positivity) hpow).trans hrange.1

theorem natCast {n : Nat} (hn : n ≤ 2 ^ e) : Sized e n := by
  rcases Nat.eq_zero_or_pos n with rfl | hpos
  · exact Or.inl Nat.cast_zero
  · refine Or.inr ⟨?_, by exact_mod_cast hn⟩
    have hone : (1 : ℚ) ≤ n := by exact_mod_cast hpos
    exact (div_le_one_of_le₀ (one_le_pow₀ (by norm_num)) (by positivity)).trans hone

theorem div (hp : Sized d p) (hq : Sized e q) : Sized (d + e) (p / q) := by
  rcases hp with rfl | ⟨hplow, hphigh⟩
  · exact Or.inl (zero_div q)
  · rcases hq with rfl | ⟨hqlow, hqhigh⟩
    · exact Or.inl (div_zero p)
    · have hqpos : 0 < q := (by positivity : (0 : ℚ) < 1 / 2 ^ e).trans_le hqlow
      have hp0 : 0 ≤ p := (by positivity : (0 : ℚ) ≤ 1 / 2 ^ d).trans hplow
      right
      constructor
      · calc (1 : ℚ) / 2 ^ (d + e) = 1 / 2 ^ d / 2 ^ e := by rw [pow_add, div_div]
          _ ≤ p / q := div_le_div₀ hp0 hplow hqpos hqhigh
      · calc p / q ≤ 2 ^ d / (1 / 2 ^ e) := div_le_div₀ (by positivity) hphigh (by positivity) hqlow
          _ = 2 ^ (d + e) := by rw [div_div_eq_mul_div, div_one, pow_add]

/-- Roundings that leave so many halves of a number at least move it by as many powers of two at most. -/
theorem of_within_halves (hpow : (1 / 2) ^ d ≤ kept ^ k) (h : Within k x q) (hq : Sized e q) : Sized (e + d) x := by
  have hlower : (1 / 2) ^ d * q ≤ x := (mul_le_mul_of_nonneg_right hpow h.nonneg).trans h.lower
  have hupper : (1 / 2) ^ d * x ≤ q := (mul_le_mul_of_nonneg_right hpow h.nonneg_left).trans h.upper
  rw [div_pow, one_pow, div_mul_eq_mul_div, one_mul] at hlower hupper
  rw [div_le_iff₀ (by positivity)] at hupper
  rcases hq with rfl | ⟨hlow, hhigh⟩
  · exact Or.inl (le_antisymm (by simpa using hupper) h.nonneg_left)
  · right
    constructor
    · calc (1 : ℚ) / 2 ^ (e + d) = 1 / 2 ^ e / 2 ^ d := by rw [pow_add, div_div]
        _ ≤ q / 2 ^ d := by gcongr
        _ ≤ x := hlower
    · calc x ≤ q * 2 ^ d := hupper
        _ ≤ 2 ^ e * 2 ^ d := by gcongr
        _ = 2 ^ (e + d) := (pow_add 2 e d).symm

/-- A rounding at most doubles or halves a number. -/
theorem of_within (h : Within k x q) (hq : Sized e q) : Sized (e + k) x :=
  of_within_halves (pow_le_pow_left₀ (by norm_num) half_le_kept k) h hq

/-- So do all roundings together that are not many. -/
theorem of_within_few (hk : k ≤ 2 ^ 52) (h : Within k x q) (hq : Sized e q) : Sized (e + 1) x := by
  have hfew : (k : ℚ) ≤ 2 ^ 52 := by exact_mod_cast hk
  refine of_within_halves ?_ h hq
  calc (1 / 2 : ℚ) ^ 1 ≤ 1 - (k : ℚ) / 2 ^ 53 := by linarith
    _ ≤ kept ^ k := le_kept_pow k

end Sized

/-- The nearest whole number is off by a half at most. -/
theorem roundHalfEven_close (num : Nat) {den : Nat} (hden : 0 < den) :
    |(roundHalfEven num den : ℚ) - num / den| ≤ 1 / 2 := by
  obtain ⟨hlow, hhigh⟩ := roundHalfEven_near num hden
  have hdencast : (0 : ℚ) < den := by exact_mod_cast hden
  have hlowcast : (2 : ℚ) * num ≤ 2 * den * roundHalfEven num den + den := by exact_mod_cast hlow
  have hhighcast : (2 : ℚ) * den * roundHalfEven num den ≤ 2 * num + den := by exact_mod_cast hhigh
  have hquotient : (num : ℚ) / den * den = num := div_mul_cancel₀ _ hdencast.ne'
  rw [abs_le]
  constructor
  · nlinarith
  · nlinarith

namespace Binary64

/-- The double is finite and stands for a number within `k` roundings of `q`. -/
def Near (x : Binary64) (k : Nat) (q : ℚ) : Prop := ∃ units, x = .finite units ∧ Within k (units / one) q

section

attribute [local irreducible] one overflow

theorem one_cast_pos : (0 : ℚ) < one := by exact_mod_cast one_pos

/-- A number that is not too small has many units. -/
theorem le_num_of_sized {num den many e : Nat} {q : ℚ} (hq : (num : ℚ) = q * one * den) (hlow : 1 / 2 ^ e ≤ q)
    (hmany : many * 2 ^ e ≤ one) : many * den ≤ num := by
  have hcast : (many : ℚ) * 2 ^ e ≤ one := by exact_mod_cast hmany
  have hle : (many : ℚ) * den ≤ num := by
    rw [hq]
    refine mul_le_mul_of_nonneg_right ?_ den.cast_nonneg
    calc (many : ℚ) = 1 / 2 ^ e * (many * 2 ^ e) := by field_simp
      _ ≤ q * one := mul_le_mul hlow hcast (by positivity) (hlow.trans' (by positivity))
  exact_mod_cast hle

theorem num_le_of_sized {num den e : Nat} {q : ℚ} (hq : (num : ℚ) = q * one * den) (hhigh : q ≤ 2 ^ e) :
    num ≤ 2 ^ e * one * den := by
  have hle : (num : ℚ) ≤ 2 ^ e * one * den := by
    rw [hq]
    gcongr
  exact_mod_cast hle

/-- A number in units is rounded once, if its size is within the range. -/
theorem roundUnits_within {num den : Nat} {q : ℚ} (hden : 0 < den) (hq : (num : ℚ) = q * one * den)
    (hsize : Sized 255 q) : (roundUnits num den).Near 1 q := by
  have hone := one_cast_pos
  rcases hsize with rfl | ⟨hlow, hhigh⟩
  · have hzero : num ≤ 0 * one * den := by
      rw [zero_mul, zero_mul, Nat.cast_eq_zero] at hq
      exact hq.le.trans (Nat.zero_le _)
    obtain ⟨units, hround, hunits⟩ := roundUnits_moderate hden hzero (by decide)
    rw [Nat.mul_zero, Nat.zero_mul, Nat.le_zero] at hunits
    subst hunits
    refine ⟨0, hround, ?_⟩
    rw [Nat.cast_zero, zero_div]
    exact (Within.refl (le_refl 0)).mono zero_le_one
  · have hrange : 2 ^ 52 * 2 ^ 255 ≤ one := by decide +kernel
    have hmany : 2 ^ 52 * den ≤ num := le_num_of_sized hq hlow hrange
    obtain ⟨units, hround, _⟩ := roundUnits_moderate hden (num_le_of_sized hq hhigh) (le_refl _)
    obtain ⟨hlower, hupper⟩ := roundUnits_fine hden hmany hround
    have hqden : q = num / (one * den) := by
      rw [eq_div_iff (by positivity), hq]
      ring
    have hlowercast : (2 : ℚ) ^ 53 * num ≤ 2 ^ 53 * (units * den) + num := by exact_mod_cast hlower
    have huppercast : (2 : ℚ) ^ 53 * (units * den) ≤ 2 ^ 53 * num + num := by exact_mod_cast hupper
    refine ⟨units, hround, hlow.trans' (by positivity), ?_, ?_⟩
    · rw [pow_one, hqden, ← mul_div_assoc, div_le_div_iff₀ (by positivity) hone, kept]
      nlinarith
    · rw [pow_one, hqden, ← mul_div_assoc, div_le_div_iff₀ hone (by positivity), kept]
      nlinarith

theorem ofNat_near {n : Nat} (hn : n ≤ 2 ^ 255) : (ofNat n).Near 1 n :=
  roundUnits_within Nat.one_pos (by push_cast; ring) (Sized.natCast hn)

theorem Near.units_pos {units k : Nat} {q : ℚ} (h : (finite units).Near k q) (hq : 0 < q) : 0 < units := by
  obtain ⟨u, hu, hwithin⟩ := h
  cases hu
  have hpos : (0 : ℚ) < units / one := (mul_pos (pow_pos kept_pos k) hq).trans_le hwithin.lower
  have hunits : (0 : ℚ) < units := (div_pos_iff_of_pos_right one_cast_pos).mp hpos
  exact_mod_cast hunits

section Operations

variable {x y : Binary64} {j k e : Nat} {p q : ℚ}

/-- An operation on doubles is one rounding of what it makes of their numbers. -/
theorem roundUnits_near_of_within {num den : Nat} {r : ℚ} (hden : 0 < den) (hr : (num : ℚ) = r * one * den)
    (hwithin : Within k r q) (hsize : Sized e q) (hek : e + k ≤ 255) : (roundUnits num den).Near (k + 1) q := by
  obtain ⟨units, hround, hrounded⟩ := roundUnits_within hden hr ((Sized.of_within hwithin hsize).mono hek)
  exact ⟨units, hround, Nat.add_comm 1 k ▸ hrounded.trans hwithin⟩

theorem add_near (hx : x.Near k p) (hy : y.Near k q) (hsize : Sized e (p + q)) (hek : e + k ≤ 255) :
    (x.add y).Near (k + 1) (p + q) := by
  obtain ⟨u, rfl, hu⟩ := hx
  obtain ⟨v, rfl, hv⟩ := hy
  have hone := one_cast_pos
  refine roundUnits_near_of_within Nat.one_pos ?_ (hu.add hv) hsize hek
  push_cast
  field_simp

theorem div_near (hx : x.Near j p) (hy : y.Near k q) (hq : 0 < q) (hsize : Sized e (p / q))
    (hek : e + (j + k) ≤ 255) : (x.div y).Near (j + k + 1) (p / q) := by
  obtain ⟨u, rfl, hu⟩ := hx
  obtain ⟨v, rfl, hv⟩ := id hy
  have hvpos : 0 < v := hy.units_pos hq
  have hvcast : (0 : ℚ) < v := by exact_mod_cast hvpos
  have hone := one_cast_pos
  rw [div_finite u hvpos]
  refine roundUnits_near_of_within hvpos ?_ (hu.div hv hq) hsize hek
  push_cast
  field_simp

end Operations

theorem ofNat_near_exact {n : Nat} (hn : n < 2 ^ 53) : (ofNat n).Near 0 n := by
  have hone := one_cast_pos
  refine ⟨n * one, ofNat_exact hn, ?_⟩
  rw [Nat.cast_mul, mul_div_cancel_right₀ _ hone.ne']
  exact Within.refl n.cast_nonneg

end

end Binary64

end TemplateTiming

