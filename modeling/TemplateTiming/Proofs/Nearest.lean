import Mathlib.Data.Nat.Cast.Order.Field
import TemplateTiming.Proofs.Accuracy

/-! Rounding to the nearest double, said without an algorithm: of all numbers with at most 53 binary digits before their
zeros no other is nearer, and of two equally near ones it is the one whose significand is even. There is exactly one
such number, and rounding finds it. -/

namespace TemplateTiming

section

variable {num den m k : Nat}

theorem one_le_abs_add_abs (h : k ≠ m) (x : ℚ) : 1 ≤ |x - m| + |x - k| := by
  have hapart : (1 : ℚ) ≤ |(m : ℚ) - k| := by
    have hint : (1 : ℤ) ≤ |(m : ℤ) - k| := Int.one_le_abs (by omega)
    exact_mod_cast hint
  calc (1 : ℚ) ≤ |(m : ℚ) - k| := hapart
    _ ≤ |(m : ℚ) - x| + |x - k| := abs_sub_le _ _ _
    _ = |x - m| + |x - k| := by rw [abs_sub_comm]

/-- No whole number is nearer to a fraction than the rounded one. -/
theorem roundHalfEven_nearest (hden : 0 < den) (k : Nat) :
    |(num : ℚ) / den - roundHalfEven num den| ≤ |(num : ℚ) / den - k| := by
  have hclose := roundHalfEven_close num hden
  rw [abs_sub_comm] at hclose
  by_cases hsame : k = roundHalfEven num den
  · rw [hsame]
  · linarith [one_le_abs_add_abs hsame ((num : ℚ) / den)]

/-- If another whole number is as near, the rounded one is even. -/
theorem roundHalfEven_even (hden : 0 < den) (hk : k ≠ roundHalfEven num den)
    (htie : |(num : ℚ) / den - k| = |(num : ℚ) / den - roundHalfEven num den|) : 2 ∣ roundHalfEven num den := by
  by_contra hodd
  obtain ⟨hlow, hhigh⟩ := roundHalfEven_odd hden hodd
  have hdencast : (0 : ℚ) < den := by exact_mod_cast hden
  have hlowcast : (2 : ℚ) * num < 2 * den * roundHalfEven num den + den := by exact_mod_cast hlow
  have hhighcast : (2 : ℚ) * den * roundHalfEven num den < 2 * num + den := by exact_mod_cast hhigh
  have hcloser : |(num : ℚ) / den - roundHalfEven num den| < 1 / 2 := by
    rw [div_sub' hdencast.ne', abs_div, abs_of_pos hdencast, div_lt_iff₀ hdencast, abs_lt]
    constructor
    · linarith
    · linarith
  linarith [one_le_abs_add_abs hk ((num : ℚ) / den)]

end

namespace Binary64

/-- The rounding of `q` to 53 binary digits. -/
structure Rounds (q : ℚ) (units : Nat) : Prop where
  short : Short units
  nearest (other : Nat) : Short other → |q - units| ≤ |q - other|
  even (other : Nat) : Short other → other ≠ units → |q - other| = |q - units| → 2 * 2 ^ spacing units ∣ units

/-- The next number behind `u` is a spacing away. -/
theorem Short.next {u v : Nat} (hu : Short u) (hv : Short v) (huv : u < v) :
    Short (u + 2 ^ spacing u) ∧ u + 2 ^ spacing u ≤ v := by
  constructor
  · obtain ⟨m, hm⟩ := hu.spacing_dvd
    have hsmall : m < 2 ^ 53 := by
      have hlt := lt_spacing u
      nth_rewrite 1 [hm] at hlt
      rw [Nat.mul_comm] at hlt
      exact Nat.lt_of_mul_lt_mul_right hlt
    have hnext : u + 2 ^ spacing u = (m + 1) * 2 ^ spacing u := by
      rw [Nat.add_mul, Nat.one_mul, Nat.mul_comm m, ← hm]
    rw [hnext]
    exact short_of_le hsmall _
  · have hstep : 2 ^ spacing u ∣ v := (Nat.pow_dvd_pow 2 (spacing_mono huv.le)).trans hv.spacing_dvd
    have hgap : 2 ^ spacing u ≤ v - u := Nat.le_of_dvd (by omega) (Nat.dvd_sub hstep hu.spacing_dvd)
    omega

theorem Rounds.le {q : ℚ} {u v : Nat} (hu : Rounds q u) (hv : Rounds q v) : v ≤ u := by
  by_contra hless
  rw [Nat.not_le] at hless
  obtain ⟨hshort, hnext⟩ := hu.short.next hv.short hless
  have hlesscast : (u : ℚ) < v := by exact_mod_cast hless
  have htie : |q - v| = |q - u| := le_antisymm (hv.nearest u hu.short) (hu.nearest v hv.short)
  have hmiddle : 2 * q = u + v := by
    rcases abs_eq_abs.mp htie with hsame | hopposite
    · linarith
    · linarith
  -- nothing lies between the two, so that one of the significands is odd
  have hbetween : v = u + 2 ^ spacing u := by
    by_contra hne
    have hlower : u < u + 2 ^ spacing u := Nat.lt_add_of_pos_right (Nat.two_pow_pos _)
    have hupper : u + 2 ^ spacing u < v := lt_of_le_of_ne hnext (Ne.symm hne)
    have hnearest := hu.nearest _ hshort
    generalize u + 2 ^ spacing u = w at hlower hupper hnearest
    have hlowercast : (u : ℚ) < w := by exact_mod_cast hlower
    have huppercast : (w : ℚ) < v := by exact_mod_cast hupper
    rw [abs_of_nonneg (by linarith : 0 ≤ q - u)] at hnearest
    rcases le_abs.mp hnearest with hbehind | hbefore
    · linarith
    · linarith
  have heven := hu.even v hv.short hless.ne' htie
  have heven' : 2 * 2 ^ spacing u ∣ v :=
    (Nat.mul_dvd_mul_left 2 (Nat.pow_dvd_pow 2 (spacing_mono hless.le))).trans
      (hv.even u hu.short hless.ne htie.symm)
  rw [hbetween, Nat.dvd_add_right heven] at heven'
  have hpos := Nat.two_pow_pos (spacing u)
  have := Nat.le_of_dvd hpos heven'
  omega

/-- There is one number only that is nearest. -/
theorem Rounds.unique {q : ℚ} {u v : Nat} (hu : Rounds q u) (hv : Rounds q v) : u = v :=
  Nat.le_antisymm (hv.le hu) (hu.le hv)

/-- A number that is not a multiple of the spacing is too small for 53 digits at that spacing. -/
theorem Short.lt_of_not_dvd {units s : Nat} (h : Short units) (hs : ¬2 ^ s ∣ units) : units < 2 ^ 52 * 2 ^ s := by
  have hfine : spacing units < s := by
    by_contra hcoarse
    exact hs ((Nat.pow_dvd_pow 2 (Nat.not_lt.mp hcoarse)).trans h.spacing_dvd)
  calc units < 2 ^ 53 * 2 ^ spacing units := lt_spacing units
    _ = 2 ^ 52 * 2 ^ (spacing units + 1) := by ring
    _ ≤ 2 ^ 52 * 2 ^ s := Nat.mul_le_mul_left _ (Nat.pow_le_pow_right (by decide) hfine)

theorem even_significand {m : Nat} (hm : m ≤ 2 ^ 53) (heven : 2 ∣ m) (s : Nat) :
    2 * 2 ^ spacing (m * 2 ^ s) ∣ m * 2 ^ s := by
  rcases hm.lt_or_eq with hless | rfl
  · exact Nat.mul_dvd_mul heven (Nat.pow_dvd_pow 2 (spacing_le hless s))
  · have hpower : 2 ^ 53 * 2 ^ s = 2 ^ 52 * 2 ^ (s + 1) := by ring
    rw [hpower]
    exact Nat.mul_dvd_mul (by decide) (Nat.pow_dvd_pow 2 (spacing_le (by decide) (s + 1)))

section

variable {num den : Nat}

/-- Distances to multiples of the spacing, counted in spacings. -/
theorem grid_distance (num den s k : Nat) :
    |(num : ℚ) / den - (k * 2 ^ s : Nat)| = |(num : ℚ) / (den * 2 ^ s : Nat) - k| * 2 ^ s := by
  have hstep : (0 : ℚ) < 2 ^ s := by positivity
  have hscaled : ((num : ℚ) / (den * 2 ^ s : Nat) - k) * 2 ^ s = num / den - (k * 2 ^ s : Nat) := by
    push_cast
    rw [sub_mul, ← div_div, div_mul_cancel₀ _ hstep.ne']
  rw [← hscaled, abs_mul, abs_of_pos hstep]

theorem grid_nearest (num : Nat) (hden : 0 < den) (s k : Nat) :
    |(num : ℚ) / den - (roundHalfEven num (den * 2 ^ s) * 2 ^ s : Nat)| ≤ |(num : ℚ) / den - (k * 2 ^ s : Nat)| := by
  rw [grid_distance, grid_distance]
  exact mul_le_mul_of_nonneg_right (roundHalfEven_nearest (Nat.mul_pos hden (Nat.two_pow_pos s)) k) (by positivity)

/-- A number that is not a multiple of the spacing is farther away, since the least number with 53 digits at that
spacing lies between. -/
theorem off_grid (hden : 0 < den) {other : Nat} (hother : Short other) (hoff : ¬2 ^ spacing (num / den) ∣ other) :
    |(num : ℚ) / den - (roundHalfEven num (den * 2 ^ spacing (num / den)) * 2 ^ spacing (num / den) : Nat)| <
      |(num : ℚ) / den - other| := by
  have hbelow := hother.lt_of_not_dvd hoff
  have hbetween : 2 ^ 52 * 2 ^ spacing (num / den) ≤ num / den := by
    rcases spacing_fine (num / den) with hunit | hfine
    · rw [hunit] at hoff
      exact absurd (Nat.one_dvd other) hoff
    · rwa [Nat.mul_comm]
  have hnearest := grid_nearest num hden (spacing (num / den)) (2 ^ 52)
  have hfloor : ((num / den : Nat) : ℚ) ≤ num / den := Nat.cast_div_le
  have hbelowcast : (other : ℚ) < (2 ^ 52 * 2 ^ spacing (num / den) : Nat) := by exact_mod_cast hbelow
  have hbetweencast : ((2 ^ 52 * 2 ^ spacing (num / den) : Nat) : ℚ) ≤ (num / den : Nat) := by exact_mod_cast hbetween
  calc _ ≤ |(num : ℚ) / den - (2 ^ 52 * 2 ^ spacing (num / den) : Nat)| := hnearest
    _ = (num : ℚ) / den - (2 ^ 52 * 2 ^ spacing (num / den) : Nat) := abs_of_nonneg (by linarith)
    _ < (num : ℚ) / den - other := by linarith
    _ ≤ |(num : ℚ) / den - other| := le_abs_self _

theorem rounded_rounds (num : Nat) (hden : 0 < den) :
    Rounds (num / den) (roundHalfEven num (den * 2 ^ spacing (num / den)) * 2 ^ spacing (num / den)) where
  short := short_of_le (significand_le num hden) _
  nearest other hother := by
    by_cases hgrid : 2 ^ spacing (num / den) ∣ other
    · obtain ⟨k, rfl⟩ := hgrid
      rw [Nat.mul_comm (2 ^ spacing (num / den))]
      exact grid_nearest num hden _ k
    · exact (off_grid hden hother hgrid).le
  even other hother hne htie := by
    by_cases hgrid : 2 ^ spacing (num / den) ∣ other
    · obtain ⟨k, rfl⟩ := hgrid
      rw [Nat.mul_comm (2 ^ spacing (num / den))] at hne htie
      rw [grid_distance, grid_distance] at htie
      have hk : k ≠ roundHalfEven num (den * 2 ^ spacing (num / den)) := fun hsame => hne (by rw [hsame])
      have heven := roundHalfEven_even (Nat.mul_pos hden (Nat.two_pow_pos _)) hk
        (mul_right_cancel₀ (by positivity) htie)
      exact even_significand (significand_le num hden) heven _
    · exact absurd htie (off_grid hden hother hgrid).ne'

/-- **Rounding finds the nearest number.** -/
theorem roundUnits_rounds (num : Nat) (hden : 0 < den) :
    ∃ units, roundUnits num den = (if units < overflow then .finite units else .infinite) ∧
      Rounds (num / den) units :=
  ⟨_, by simp only [roundUnits, roundBy, Nat.pow_eq], rounded_rounds num hden⟩

end

/-- The nearest double to `q`; infinite if the nearest number with 53 binary digits is beyond the finite ones. -/
def NearestTo (q : ℚ) (x : Binary64) : Prop :=
  ∃ units, Rounds (q * one) units ∧ x = if units < overflow then .finite units else .infinite

section

attribute [local irreducible] one overflow

theorem NearestTo.unique {q : ℚ} {x y : Binary64} (hx : NearestTo q x) (hy : NearestTo q y) : x = y := by
  obtain ⟨u, hu, rfl⟩ := hx
  obtain ⟨v, hv, rfl⟩ := hy
  rw [hu.unique hv]

theorem ofRatio_nearestTo (num : Nat) {den : Nat} (hden : 0 < den) : NearestTo (num / den) (ofRatio num den) := by
  obtain ⟨units, hround, hrounds⟩ := roundUnits_rounds (num * one) hden
  rw [Nat.cast_mul, mul_div_right_comm] at hrounds
  exact ⟨units, hrounds, hround⟩

/-- A double is nearest to itself. -/
theorem nearestTo_exact {q : ℚ} {units : Nat} (hshort : Short units) (hfinite : units < overflow)
    (hq : q * one = units) : NearestTo q (.finite units) := by
  refine ⟨units, ?_, by rw [if_pos hfinite]⟩
  rw [hq]
  refine ⟨hshort, fun other _ => ?_, fun other _ hne htie => ?_⟩
  · rw [sub_self, abs_zero]
    exact abs_nonneg _
  · rw [sub_self, abs_zero, abs_eq_zero, sub_eq_zero] at htie
    exact absurd (by exact_mod_cast htie.symm) hne

end

end Binary64

end TemplateTiming
