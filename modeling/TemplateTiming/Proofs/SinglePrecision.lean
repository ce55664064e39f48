import TemplateTiming.Number.Binary32
import TemplateTiming.Proofs.Accuracy

/-! How accurate single precision is. Errors are counted in roundings of doubles as before; one rounding to 24 binary
digits comes to 2^30 of these at most. A result of moderate size is finite, so an operation is one rounding of what it
makes of its operands. -/

namespace TemplateTiming

/-- As many roundings to 53 binary digits as one to 24 comes to. -/
@[irreducible]
def coarse : Nat := 2 ^ 30

theorem coarse_eq : coarse = 2 ^ 30 := by rw [coarse]

theorem kept_pow_coarse : kept ^ coarse ≤ 1 - 1 / 2 ^ 24 := by
  -- one factor shrinks at least as fast as the other one grows
  have hproduct : kept ^ coarse * (1 + 1 / 2 ^ 53) ^ coarse ≤ 1 := by
    rw [← mul_pow]
    exact pow_le_one₀ (by norm_num [kept]) (by norm_num [kept])
  have hgrowth : 1 + (coarse : ℚ) * (1 / 2 ^ 53) ≤ (1 + 1 / 2 ^ 53) ^ coarse :=
    one_add_mul_le_pow (by norm_num) coarse
  have hbound := (mul_le_mul_of_nonneg_left hgrowth (pow_nonneg kept_pos.le coarse)).trans hproduct
  have hcast : (coarse : ℚ) = 2 ^ 30 := by exact_mod_cast coarse_eq
  rw [hcast] at hbound
  linarith

namespace Within

variable {x q : ℚ}

/-- A number that is off by half a unit of the last of 24 binary digits. -/
theorem of_close (hq : 0 ≤ q) (hclose : |x - q| ≤ q / 2 ^ 24) : Within coarse x q := by
  obtain ⟨hlow, hhigh⟩ := abs_le.mp hclose
  refine ⟨hq, ?_, ?_⟩
  · calc kept ^ coarse * q ≤ (1 - 1 / 2 ^ 24) * q := mul_le_mul_of_nonneg_right kept_pow_coarse hq
      _ ≤ x := by linarith
  · calc kept ^ coarse * x ≤ (1 - 1 / 2 ^ 24) * ((1 + 1 / 2 ^ 24) * q) :=
          mul_le_mul kept_pow_coarse (by linarith) (by linarith) (by norm_num)
      _ ≤ q := by linarith

/-- As a difference, `n` roundings of single precision come to `n / 2^22` of the number at most. -/
theorem coarse_error {n : Nat} (h : Within (n * coarse) x q) (hn : n ≤ 2 ^ 22) : |x - q| ≤ q * n / 2 ^ 22 := by
  have hfew : n * coarse ≤ 2 ^ 52 := by
    rw [coarse_eq]
    omega
  calc |x - q| ≤ q * (n * coarse : Nat) / 2 ^ 52 := h.error hfew
    _ = q * n / 2 ^ 22 := by
      rw [coarse_eq]
      push_cast
      ring

end Within

namespace Binary32

open Binary64 (one one_pos one_cast_pos Near)

theorem overflow_eq : overflow = 2 ^ 128 * one := by decide +kernel

/-- Single precision numbers stand 2^-149 apart, or closer together than 2^-23 of their size. -/
theorem spacing_fine (units : Nat) : spacing units = 925 ∨ 2 ^ spacing units * 2 ^ 23 ≤ units := by
  unfold spacing
  rcases Nat.le_total (units.log2 - 23) 925 with hleast | hmore
  · exact Or.inl (Nat.max_eq_right hleast)
  · right
    have hne : units ≠ 0 := by
      rintro rfl
      exact absurd hmore (by decide)
    rw [Nat.max_eq_left hmore, ← Nat.pow_add, Nat.sub_add_cancel (by omega)]
    exact Nat.log2_self_le hne

theorem roundUnits_zero {den : Nat} (hden : 0 < den) : roundUnits 0 den = .finite 0 := by
  have hlimit : 0 < overflow := by decide +kernel
  have hzero := roundHalfEven_whole 0 (Nat.mul_pos hden (Nat.two_pow_pos (spacing (0 / den))))
  rw [Nat.zero_mul] at hzero
  simp only [roundUnits, Binary64.roundBy, Nat.pow_eq, hzero, Nat.zero_mul, if_pos hlimit]

section

attribute [local irreducible] one overflow

variable {num den units j k : Nat} {x y : Binary64} {p q r : ℚ}

/-- The spacing around a quotient that is not too small. -/
theorem step_le (hden : 0 < den) (hmany : 2 ^ 925 * 2 ^ 23 * den ≤ num) :
    den * 2 ^ spacing (num / den) * 2 ^ 23 ≤ num := by
  have hstep : 2 ^ spacing (num / den) * 2 ^ 23 ≤ num / den := by
    rcases spacing_fine (num / den) with hleast | hfine
    · rw [hleast, Nat.le_div_iff_mul_le hden]
      exact hmany
    · exact hfine
  calc den * 2 ^ spacing (num / den) * 2 ^ 23 = den * (2 ^ spacing (num / den) * 2 ^ 23) := Nat.mul_assoc _ _ _
    _ ≤ den * (num / den) := Nat.mul_le_mul_left den hstep
    _ ≤ num := Nat.mul_div_le num den

/-- Rounding changes a number by 2^-24 of its size at most, if the spacing is no coarser. -/
theorem roundUnits_fine (hden : 0 < den) (hstep : den * 2 ^ spacing (num / den) * 2 ^ 23 ≤ num) :
    ∃ units, roundUnits num den = (if units < overflow then .finite units else .infinite) ∧
      2 ^ 24 * num ≤ 2 ^ 24 * (den * units) + num ∧ 2 ^ 24 * (den * units) ≤ 2 ^ 24 * num + num := by
  obtain ⟨units, hround, hlow, hhigh⟩ := Binary64.roundBy_near spacing overflow num hden
  rw [Nat.mul_assoc] at hlow hhigh
  exact ⟨units, hround, by omega, by omega⟩

theorem lt_overflow (hden : 0 < den) (hnum : num ≤ 2 ^ 100 * one * den) (hunits : den * units ≤ 2 * num) :
    units < overflow := by
  have hsmall : units ≤ 2 * 2 ^ 100 * one := by
    apply Nat.le_of_mul_le_mul_left _ hden
    calc den * units ≤ 2 * num := hunits
      _ ≤ 2 * (2 ^ 100 * one * den) := Nat.mul_le_mul_left 2 hnum
      _ = den * (2 * 2 ^ 100 * one) := by ring
  rw [overflow_eq]
  exact hsmall.trans_lt (Nat.mul_lt_mul_of_pos_right (by decide) one_pos)

/-- What rounding does to a number of units, it does to the number. -/
theorem close_of_units (hden : 0 < den) (hq : (num : ℚ) = q * one * den)
    (hlower : 2 ^ 24 * num ≤ 2 ^ 24 * (den * units) + num) (hupper : 2 ^ 24 * (den * units) ≤ 2 ^ 24 * num + num) :
    |(units : ℚ) / one - q| ≤ q / 2 ^ 24 := by
  have hone := one_cast_pos
  have hpos : (0 : ℚ) < one * den := mul_pos hone (by exact_mod_cast hden)
  have hlowercast : (2 : ℚ) ^ 24 * num ≤ 2 ^ 24 * (den * units) + num := by exact_mod_cast hlower
  have huppercast : (2 : ℚ) ^ 24 * (den * units) ≤ 2 ^ 24 * num + num := by exact_mod_cast hupper
  have hunits : (den * units : ℚ) = units / one * (one * den) := by field_simp
  rw [hunits, hq, mul_assoc q] at hlowercast huppercast
  generalize (units : ℚ) / one = r at hlowercast huppercast ⊢
  have hlow : 2 ^ 24 * q ≤ 2 ^ 24 * r + q := le_of_mul_le_mul_right (by linarith) hpos
  have hhigh : 2 ^ 24 * r ≤ 2 ^ 24 * q + q := le_of_mul_le_mul_right (by linarith) hpos
  rw [abs_le]
  constructor
  · linarith
  · linarith

/-- A number in units is rounded once, if its size is within the range. -/
theorem roundUnits_within (hden : 0 < den) (hq : (num : ℚ) = q * one * den) (hsize : Sized 100 q) :
    (roundUnits num den).Near coarse q := by
  rcases hsize with rfl | ⟨hlow, hhigh⟩
  · obtain rfl : num = 0 := by
      rw [zero_mul, zero_mul] at hq
      exact_mod_cast hq
    refine ⟨0, roundUnits_zero hden, Within.of_close (le_refl 0) ?_⟩
    rw [Nat.cast_zero, zero_div, sub_zero, abs_zero, zero_div]
  · have hstep : den * 2 ^ spacing (num / den) * 2 ^ 23 ≤ num := by
      have hrange : 2 ^ 925 * 2 ^ 23 * 2 ^ 100 ≤ one := by decide +kernel
      exact step_le hden (Binary64.le_num_of_sized hq hlow hrange)
    obtain ⟨units, hround, hlower, hupper⟩ := roundUnits_fine hden hstep
    have hlimit : units < overflow := by
      apply lt_overflow hden (Binary64.num_le_of_sized hq hhigh)
      omega
    rw [if_pos hlimit] at hround
    exact ⟨units, hround, Within.of_close (hlow.trans' (by positivity)) (close_of_units hden hq hlower hupper)⟩

theorem ofNat_near {n : Nat} (hn : n ≤ 2 ^ 100) : (ofNat n).Near coarse n :=
  roundUnits_within Nat.one_pos (by push_cast; ring) (Sized.natCast hn)

/-- An operation is one rounding of what it makes of its numbers. -/
theorem roundUnits_near_of_within (hden : 0 < den) (hr : (num : ℚ) = r * one * den) (hwithin : Within k r q)
    (hk : k ≤ 2 ^ 52) (hsize : Sized 99 q) : (roundUnits num den).Near (k + coarse) q := by
  obtain ⟨units, hround, hrounded⟩ := roundUnits_within hden hr (Sized.of_within_few hk hwithin hsize)
  exact ⟨units, hround, Nat.add_comm coarse k ▸ hrounded.trans hwithin⟩

theorem mul_near (hx : x.Near j p) (hy : y.Near k q) (hjk : j + k ≤ 2 ^ 52) (hsize : Sized 99 (p * q)) :
    (mul x y).Near (j + k + coarse) (p * q) := by
  obtain ⟨u, rfl, hu⟩ := hx
  obtain ⟨v, rfl, hv⟩ := hy
  have hone := one_cast_pos
  refine roundUnits_near_of_within one_pos ?_ (hu.mul hv) hjk hsize
  push_cast
  field_simp

theorem div_near (hx : x.Near j p) (hy : y.Near k q) (hq : 0 < q) (hjk : j + k ≤ 2 ^ 52)
    (hsize : Sized 99 (p / q)) : (div x y).Near (j + k + coarse) (p / q) := by
  obtain ⟨u, rfl, hu⟩ := hx
  obtain ⟨v, rfl, hv⟩ := id hy
  have hvpos : 0 < v := hy.units_pos hq
  have hvcast : (0 : ℚ) < v := by exact_mod_cast hvpos
  have hone := one_cast_pos
  rw [div, Binary64.divBy, if_neg hvpos.ne']
  refine roundUnits_near_of_within hvpos ?_ (hu.div hv hq) hjk hsize
  push_cast
  field_simp

end

end Binary32

end TemplateTiming
