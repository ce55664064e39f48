import Mathlib.Data.Nat.Log
import Mathlib.Tactic.Linarith
import Mathlib.Tactic.Ring
import Mathlib.Tactic.SplitIfs
import TemplateTiming.Number.Binary64

/-! How far rounding goes away from the exact number, that it keeps the order of numbers, and that numbers of a
moderate size stay finite. Sizes are given in whole numbers, since a unit is far too small to count in. -/

namespace TemplateTiming

/-- The nearer whole number, or the even one of two equally near ones. -/
theorem roundHalfEven_cases (num den : Nat) :
    roundHalfEven num den = num / den ∧ 2 * (num % den) < den ∨
    roundHalfEven num den = num / den + 1 ∧ den < 2 * (num % den) ∨
    2 ∣ roundHalfEven num den ∧ 2 * (num % den) = den ∧
      (roundHalfEven num den = num / den ∨ roundHalfEven num den = num / den + 1) := by
  simp only [roundHalfEven]
  split_ifs with hbelow habove
  · exact Or.inl ⟨rfl, hbelow⟩
  · exact Or.inr (Or.inl ⟨rfl, habove⟩)
  · exact Or.inr (Or.inr ⟨by omega, by omega, by omega⟩)

/-- A rounded quotient is off by a half at most. -/
theorem roundHalfEven_near (num : Nat) {den : Nat} (hden : 0 < den) :
    2 * num ≤ 2 * den * roundHalfEven num den + den ∧ 2 * den * roundHalfEven num den ≤ 2 * num + den := by
  have hdivision := Nat.div_add_mod num den
  have hmod := Nat.mod_lt num hden
  have hsides : roundHalfEven num den = num / den ∧ 2 * (num % den) ≤ den ∨
      roundHalfEven num den = num / den + 1 ∧ den ≤ 2 * (num % den) := by
    have := roundHalfEven_cases num den
    omega
  rcases hsides with ⟨hrounded, hrest⟩ | ⟨hrounded, hrest⟩
  · rw [hrounded, Nat.mul_assoc]
    omega
  · rw [hrounded, Nat.mul_assoc, Nat.mul_add, Nat.mul_one]
    omega

/-- An odd result is nearer than a half. -/
theorem roundHalfEven_odd {num den : Nat} (hden : 0 < den) (hodd : ¬2 ∣ roundHalfEven num den) :
    2 * num < 2 * den * roundHalfEven num den + den ∧ 2 * den * roundHalfEven num den < 2 * num + den := by
  have hdivision := Nat.div_add_mod num den
  have hmod := Nat.mod_lt num hden
  rcases roundHalfEven_cases num den with ⟨hrounded, hrest⟩ | ⟨hrounded, hrest⟩ | ⟨heven, -⟩
  · rw [hrounded, Nat.mul_assoc]
    omega
  · rw [hrounded, Nat.mul_assoc, Nat.mul_add, Nat.mul_one]
    omega
  · exact absurd heven hodd

/-- A greater fraction has the greater whole part. -/
theorem div_le_div_of_mul_le {a b c d : Nat} (hb : 0 < b) (hd : 0 < d) (hle : a * d ≤ c * b) : a / b ≤ c / d := by
  rw [Nat.le_div_iff_mul_le hd]
  refine Nat.le_of_mul_le_mul_right ?_ hb
  calc a / b * d * b = a / b * b * d := by ring
    _ ≤ a * d := Nat.mul_le_mul_right d (Nat.div_mul_le_self a b)
    _ ≤ c * b := hle

theorem roundHalfEven_floor (num den : Nat) :
    num / den ≤ roundHalfEven num den ∧ roundHalfEven num den ≤ num / den + 1 := by
  simp only [roundHalfEven]
  split_ifs <;> omega

/-- Rounding keeps the order of fractions. -/
theorem roundHalfEven_mono {a b c d : Nat} (hb : 0 < b) (hd : 0 < d) (hle : a * d ≤ c * b) :
    roundHalfEven a b ≤ roundHalfEven c d := by
  have hquotient : a / b ≤ c / d := div_le_div_of_mul_le hb hd hle
  rcases hquotient.lt_or_eq with hless | hequal
  · exact (roundHalfEven_floor a b).2.trans (Nat.succ_le_of_lt hless |>.trans (roundHalfEven_floor c d).1)
  · -- between the same whole numbers the remainders decide
    have hrest : a % b * d ≤ c % d * b := by
      have ha : a * d = b * (c / d) * d + a % b * d := by rw [← Nat.add_mul, ← hequal, Nat.div_add_mod]
      have hc : c * b = d * (c / d) * b + c % d * b := by rw [← Nat.add_mul, Nat.div_add_mod]
      linarith
    have hbelow : 2 * (c % d) < d → 2 * (a % b) < b := by
      intro hc
      by_contra ha
      nlinarith [Nat.mul_le_mul_right d (Nat.not_lt.mp ha), Nat.mul_lt_mul_of_pos_right hc hb]
    have habove : b < 2 * (a % b) → d < 2 * (c % d) := by
      intro ha
      by_contra hc
      nlinarith [Nat.mul_le_mul_right b (Nat.not_lt.mp hc), Nat.mul_lt_mul_of_pos_right ha hd]
    simp only [roundHalfEven, hequal]
    split_ifs <;> omega

theorem roundHalfEven_whole (m : Nat) {den : Nat} (hden : 0 < den) : roundHalfEven (m * den) den = m := by
  rw [roundHalfEven, Nat.mul_mod_left, Nat.mul_div_cancel m hden, if_pos (by omega)]

namespace Binary64

/-- Doubles stand next to each other in units, or lie closer together than 2^-52 of their size. -/
theorem spacing_fine (units : Nat) : 2 ^ spacing units = 1 ∨ 2 ^ spacing units * 2 ^ 52 ≤ units := by
  unfold spacing
  by_cases hsmall : units.log2 ≤ 52
  · left
    rw [Nat.sub_eq_zero_of_le hsmall, Nat.pow_zero]
  · right
    have hne : units ≠ 0 := by
      rintro rfl
      exact hsmall (by decide)
    rw [← Nat.pow_add, Nat.sub_add_cancel (Nat.le_of_not_le hsmall)]
    exact Nat.log2_self_le hne

theorem spacing_mono {a b : Nat} (hle : a ≤ b) : spacing a ≤ spacing b := by
  refine Nat.sub_le_sub_right ?_ 52
  rw [Nat.log2_eq_log_two, Nat.log2_eq_log_two]
  exact Nat.log_mono_right hle

/-- A number has at most 53 binary digits above its spacing. -/
theorem lt_spacing (units : Nat) : units < 2 ^ 53 * 2 ^ spacing units := by
  rw [← Nat.pow_add]
  refine (Nat.lt_log2_self).trans_le (Nat.pow_le_pow_right (by decide) ?_)
  unfold spacing
  omega

/-- Rounding a quotient moves it by half the spacing at most, whatever the spacing is. -/
theorem roundBy_near (exponent : Nat → Nat) (limit num : Nat) {den : Nat} (hden : 0 < den) :
    ∃ units, roundBy exponent limit num den = (if units < limit then .finite units else .infinite) ∧
      2 * num ≤ 2 * den * units + den * 2 ^ exponent (num / den) ∧
      2 * den * units ≤ 2 * num + den * 2 ^ exponent (num / den) := by
  have hstep : 0 < 2 ^ exponent (num / den) := Nat.pow_pos (by decide)
  obtain ⟨hlow, hhigh⟩ := roundHalfEven_near num (Nat.mul_pos hden hstep)
  rw [show 2 * (den * 2 ^ exponent (num / den)) * roundHalfEven num (den * 2 ^ exponent (num / den))
    = 2 * den * (roundHalfEven num (den * 2 ^ exponent (num / den)) * 2 ^ exponent (num / den)) by ring] at hlow hhigh
  exact ⟨_, by simp only [roundBy, Nat.pow_eq], hlow, hhigh⟩

theorem roundUnits_near (num : Nat) {den : Nat} (hden : 0 < den) :
    ∃ units, roundUnits num den = (if units < overflow then .finite units else .infinite) ∧
      2 * num ≤ 2 * den * units + den * 2 ^ spacing (num / den) ∧
      2 * den * units ≤ 2 * num + den * 2 ^ spacing (num / den) :=
  roundBy_near spacing overflow num hden

/-- Rounding changes a quotient by less than a factor of two. -/
theorem roundUnits_factor (num : Nat) {den : Nat} (hden : 0 < den) :
    ∃ units, roundUnits num den = (if units < overflow then .finite units else .infinite) ∧
      num ≤ (2 * units + 1) * den ∧ units * den ≤ 2 * num := by
  obtain ⟨units, hround, hlow, hhigh⟩ := roundUnits_near num hden
  refine ⟨units, hround, ?_⟩
  rcases spacing_fine (num / den) with hstep | hstep
  · rw [hstep] at hlow hhigh
    constructor
    · nlinarith
    · rcases Nat.eq_zero_or_pos units with rfl | hpos
      · rw [Nat.zero_mul]
        exact Nat.zero_le _
      · nlinarith
  · have hfew : den * 2 ^ spacing (num / den) ≤ num := by
      calc den * 2 ^ spacing (num / den) ≤ den * (num / den) :=
            Nat.mul_le_mul_left den (Nat.le_trans (Nat.le_mul_of_pos_right _ (by decide)) hstep)
        _ ≤ num := Nat.mul_div_le num den
    constructor
    · nlinarith
    · nlinarith

theorem roundUnits_finite {num den units : Nat} (hden : 0 < den) (hround : roundUnits num den = .finite units) :
    num ≤ (2 * units + 1) * den ∧ units * den ≤ 2 * num := by
  obtain ⟨rounded, hrounded, hsizes⟩ := roundUnits_factor num hden
  rw [hround] at hrounded
  split_ifs at hrounded
  cases hrounded
  exact hsizes

/-- Rounding a number of 52 binary digits or more changes it by 2^-53 of its size at most. -/
theorem roundUnits_fine {num den units : Nat} (hden : 0 < den) (hmany : 2 ^ 52 * den ≤ num)
    (hround : roundUnits num den = .finite units) :
    2 ^ 53 * num ≤ 2 ^ 53 * (units * den) + num ∧ 2 ^ 53 * (units * den) ≤ 2 ^ 53 * num + num := by
  obtain ⟨rounded, hrounded, hlow, hhigh⟩ := roundUnits_near num hden
  rw [hround] at hrounded
  split_ifs at hrounded
  cases hrounded
  have hstep : 2 ^ spacing (num / den) * 2 ^ 52 ≤ num / den := by
    rcases spacing_fine (num / den) with hunit | hfine
    · rw [hunit, Nat.one_mul, Nat.le_div_iff_mul_le hden]
      exact hmany
    · exact hfine
  have hsmall : den * 2 ^ spacing (num / den) * 2 ^ 52 ≤ num := by
    calc den * 2 ^ spacing (num / den) * 2 ^ 52 = den * (2 ^ spacing (num / den) * 2 ^ 52) := Nat.mul_assoc _ _ _
      _ ≤ den * (num / den) := Nat.mul_le_mul_left den hstep
      _ ≤ num := Nat.mul_div_le num den
  generalize den * 2 ^ spacing (num / den) = step at *
  rw [show 2 * den * units = 2 * (units * den) by ring] at hlow hhigh
  omega

/-- At most 53 binary digits before the zeros, which is what a double holds. -/
def Short (units : Nat) : Prop := ∃ m e, m < 2 ^ 53 ∧ units = m * 2 ^ e

/-- The first number with more binary digits is a power of two. -/
theorem short_of_le {m : Nat} (hm : m ≤ 2 ^ 53) (e : Nat) : Short (m * 2 ^ e) := by
  rcases hm.lt_or_eq with hless | rfl
  · exact ⟨m, e, hless, rfl⟩
  · exact ⟨1, 53 + e, by decide, by rw [Nat.one_mul, Nat.pow_add]⟩

theorem spacing_le {m : Nat} (hm : m < 2 ^ 53) (e : Nat) : spacing (m * 2 ^ e) ≤ e := by
  rcases Nat.eq_zero_or_pos m with rfl | hpos
  · rw [Nat.zero_mul]
    exact Nat.zero_le e
  · have hlog : (m * 2 ^ e).log2 < 53 + e := by
      rw [Nat.log2_lt (Nat.mul_pos hpos (Nat.two_pow_pos e)).ne', Nat.pow_add]
      exact Nat.mul_lt_mul_of_pos_right hm (Nat.two_pow_pos e)
    unfold spacing
    omega

theorem Short.spacing_dvd {units : Nat} (h : Short units) : 2 ^ spacing units ∣ units := by
  obtain ⟨m, e, hm, rfl⟩ := h
  exact (Nat.pow_dvd_pow 2 (spacing_le hm e)).trans (Nat.dvd_mul_left _ m)

/-- What has at most 53 binary digits before its zeros is not rounded. -/
theorem Short.roundUnits {units : Nat} (h : Short units) :
    roundUnits units 1 = if units < overflow then .finite units else .infinite := by
  have hwhole := Nat.div_mul_cancel h.spacing_dvd
  have hrounded : roundHalfEven units (2 ^ spacing units) = units / 2 ^ spacing units := by
    calc roundHalfEven units (2 ^ spacing units)
        = roundHalfEven (units / 2 ^ spacing units * 2 ^ spacing units) (2 ^ spacing units) := by rw [hwhole]
      _ = units / 2 ^ spacing units := roundHalfEven_whole _ (Nat.two_pow_pos _)
  simp only [Binary64.roundUnits, roundBy, Nat.pow_eq, Nat.div_one, Nat.one_mul, hrounded, hwhole]

/-- The units of a rounded quotient are a whole number of spacings. -/
theorem roundUnits_eq_finite {num den units : Nat} (hround : roundUnits num den = .finite units) :
    units = roundHalfEven num (den * 2 ^ spacing (num / den)) * 2 ^ spacing (num / den) := by
  simp only [roundUnits, roundBy, Nat.pow_eq] at hround
  split_ifs at hround
  exact (Binary64.finite.inj hround).symm

/-- The significand of a rounded quotient has 53 binary digits, or is the first number with more. -/
theorem significand_le (num : Nat) {den : Nat} (hden : 0 < den) :
    roundHalfEven num (den * 2 ^ spacing (num / den)) ≤ 2 ^ 53 := by
  have hpos : 0 < den * 2 ^ spacing (num / den) := Nat.mul_pos hden (Nat.two_pow_pos _)
  have hnum : num ≤ 2 ^ 53 * (den * 2 ^ spacing (num / den)) := by
    have hlt := lt_spacing (num / den)
    rw [Nat.div_lt_iff_lt_mul hden] at hlt
    calc num ≤ 2 ^ 53 * 2 ^ spacing (num / den) * den := hlt.le
      _ = 2 ^ 53 * (den * 2 ^ spacing (num / den)) := by ring
  calc roundHalfEven num (den * 2 ^ spacing (num / den))
      ≤ roundHalfEven (2 ^ 53 * (den * 2 ^ spacing (num / den))) (den * 2 ^ spacing (num / den)) :=
        roundHalfEven_mono hpos hpos (Nat.mul_le_mul_right _ hnum)
    _ = 2 ^ 53 := roundHalfEven_whole _ hpos

/-- What has been rounded is a double. -/
theorem roundUnits_double {num den units : Nat} (hden : 0 < den) (hround : roundUnits num den = .finite units) :
    Short units ∧ units < overflow := by
  constructor
  · rw [roundUnits_eq_finite hround]
    exact short_of_le (significand_le num hden) _
  · obtain ⟨rounded, hrounded, -⟩ := roundUnits_near num hden
    rw [hround] at hrounded
    split_ifs at hrounded with hless
    cases hrounded
    exact hless

/-- Rounding to doubles keeps the order of fractions. -/
theorem roundUnits_mono {a b c d u v : Nat} (hb : 0 < b) (hd : 0 < d) (hle : a * d ≤ c * b)
    (hu : roundUnits a b = .finite u) (hv : roundUnits c d = .finite v) : u ≤ v := by
  have hquotient : a / b ≤ c / d := div_le_div_of_mul_le hb hd hle
  rw [roundUnits_eq_finite hu, roundUnits_eq_finite hv]
  generalize hs : spacing (a / b) = s
  generalize ht : spacing (c / d) = t
  have hspos : 0 < b * 2 ^ s := Nat.mul_pos hb (Nat.pow_pos (by decide))
  have htpos : 0 < d * 2 ^ t := Nat.mul_pos hd (Nat.pow_pos (by decide))
  have hst : s ≤ t := hs ▸ ht ▸ spacing_mono hquotient
  rcases hst.eq_or_lt with rfl | hless
  · refine Nat.mul_le_mul_right _ (roundHalfEven_mono hspos htpos ?_)
    calc a * (d * 2 ^ s) = a * d * 2 ^ s := by ring
      _ ≤ c * b * 2 ^ s := Nat.mul_le_mul_right _ hle
      _ = c * (b * 2 ^ s) := by ring
  · -- a power of two lies between two numbers of different spacing
    have hupper : roundHalfEven a (b * 2 ^ s) ≤ 2 ^ 53 := hs ▸ significand_le a hb
    have hlower : 2 ^ 52 ≤ roundHalfEven c (d * 2 ^ t) := by
      have hnum : 2 ^ 52 * (d * 2 ^ t) ≤ c := by
        have hfine := spacing_fine (c / d)
        have hone : 1 < 2 ^ t := Nat.one_lt_two_pow (by omega)
        rw [ht] at hfine
        have hmany : 2 ^ t * 2 ^ 52 ≤ c / d := hfine.resolve_left (Nat.ne_of_gt hone)
        calc 2 ^ 52 * (d * 2 ^ t) = 2 ^ t * 2 ^ 52 * d := by ring
          _ ≤ c := (Nat.le_div_iff_mul_le hd).mp hmany
      calc 2 ^ 52 = roundHalfEven (2 ^ 52 * (d * 2 ^ t)) (d * 2 ^ t) := (roundHalfEven_whole _ htpos).symm
        _ ≤ roundHalfEven c (d * 2 ^ t) := roundHalfEven_mono htpos htpos (Nat.mul_le_mul_right _ hnum)
    calc roundHalfEven a (b * 2 ^ s) * 2 ^ s ≤ 2 ^ 53 * 2 ^ s := Nat.mul_le_mul_right _ hupper
      _ = 2 ^ 52 * 2 ^ (s + 1) := by ring
      _ ≤ 2 ^ 52 * 2 ^ t := Nat.mul_le_mul_left _ (Nat.pow_le_pow_right (by decide) hless)
      _ ≤ roundHalfEven c (d * 2 ^ t) * 2 ^ t := Nat.mul_le_mul_right _ hlower

theorem ofNat_mono {m n u v : Nat} (hmn : m ≤ n) (hu : ofNat m = .finite u) (hv : ofNat n = .finite v) : u ≤ v :=
  roundUnits_mono Nat.one_pos Nat.one_pos (Nat.mul_le_mul_right 1 (Nat.mul_le_mul_right one hmn)) hu hv

theorem div_finite (a : Nat) {b : Nat} (hb : 0 < b) : (finite a).div (finite b) = roundUnits (a * one) b := by
  rw [div, divBy, if_neg hb.ne']

/-- Divided by more, a number gives less. -/
theorem div_antitone {a b c u v : Nat} (hb : 0 < b) (hbc : b ≤ c) (hu : (finite a).div (finite c) = .finite u)
    (hv : (finite a).div (finite b) = .finite v) : u ≤ v := by
  have hc : 0 < c := hb.trans_le hbc
  rw [div_finite a hc] at hu
  rw [div_finite a hb] at hv
  exact roundUnits_mono hc hb (Nat.mul_le_mul_left _ hbc) hu hv

/-- The value is finite, and not greater than `bound`. -/
def Below (x : Binary64) (bound : Nat) : Prop := ∃ units, x = .finite units ∧ units ≤ bound * one

theorem Below.mono {x : Binary64} {a b : Nat} (h : x.Below a) (hab : a ≤ b) : x.Below b := by
  obtain ⟨units, hx, hunits⟩ := h
  exact ⟨units, hx, hunits.trans (Nat.mul_le_mul_right one hab)⟩

/-- The value is finite, and not less than `bound`. -/
def Above (x : Binary64) (bound : Nat) : Prop := ∃ units, x = .finite units ∧ bound * one ≤ units

theorem one_pos : 0 < one := by decide +kernel

theorem one_eq_two_pow : ∃ e, 53 ≤ e ∧ one = 2 ^ e := by
  have hplaces : 53 ≤ 1074 := by decide
  unfold one
  generalize 1074 = e at hplaces ⊢
  exact ⟨e, hplaces, Nat.pow_eq⟩

theorem lt_overflow {units bound : Nat} (hunits : units ≤ bound * one) (hbound : bound ≤ 2 ^ 256) :
    units < overflow := by
  have hlimit : 2 ^ 256 * one < overflow := by decide +kernel
  calc units ≤ bound * one := hunits
    _ ≤ 2 ^ 256 * one := Nat.mul_le_mul_right one hbound
    _ < overflow := hlimit

/-- A quotient of moderate size is finite. -/
theorem roundUnits_moderate {num den bound : Nat} (hden : 0 < den) (hnum : num ≤ bound * one * den)
    (hbound : bound ≤ 2 ^ 255) : ∃ units, roundUnits num den = .finite units ∧ units ≤ 2 * bound * one := by
  obtain ⟨units, hround, _, hhigh⟩ := roundUnits_factor num hden
  have hunits : units ≤ 2 * bound * one := by
    refine Nat.le_of_mul_le_mul_right ?_ hden
    calc units * den ≤ 2 * num := hhigh
      _ ≤ 2 * (bound * one * den) := Nat.mul_le_mul_left 2 hnum
      _ = 2 * bound * one * den := by ring
  rw [hround, if_pos (lt_overflow hunits (by omega))]
  exact ⟨units, rfl, hunits⟩

/-- Whole numbers of at most 53 binary digits are doubles. -/
theorem ofNat_exact {n : Nat} (hn : n < 2 ^ 53) : ofNat n = .finite (n * one) := by
  obtain ⟨e, -, he⟩ := one_eq_two_pow
  have hshort : Short (n * one) := ⟨n, e, hn, by rw [he]⟩
  rw [ofNat, ofRatio, hshort.roundUnits, if_pos (lt_overflow (Nat.mul_le_mul_right one hn.le) (by decide))]

theorem ofNat_below {n bound : Nat} (hn : n ≤ bound) (hbound : bound ≤ 2 ^ 255) : (ofNat n).Below (2 * bound) := by
  have hnum : n * one ≤ bound * one * 1 := by
    rw [Nat.mul_one]
    exact Nat.mul_le_mul_right one hn
  obtain ⟨units, hround, hunits⟩ := roundUnits_moderate Nat.one_pos hnum hbound
  exact ⟨units, hround, hunits⟩

theorem ofNat_above {n bound : Nat} (hn : 2 * bound < n) (hsize : n ≤ 2 ^ 255) : (ofNat n).Above bound := by
  have hnum : n * one ≤ n * one * 1 := by rw [Nat.mul_one]
  obtain ⟨units, hround, _⟩ := roundUnits_moderate Nat.one_pos hnum hsize
  obtain ⟨hunits, _⟩ := roundUnits_finite Nat.one_pos hround
  refine ⟨units, hround, ?_⟩
  have hmore : (2 * bound + 1) * one ≤ n * one := Nat.mul_le_mul_right one hn
  have hone := one_pos
  nlinarith

theorem add_below {x y : Binary64} {a b : Nat} (hx : x.Below a) (hy : y.Below b) (hbound : a + b ≤ 2 ^ 255) :
    (x.add y).Below (2 * (a + b)) := by
  obtain ⟨u, rfl, hu⟩ := hx
  obtain ⟨v, rfl, hv⟩ := hy
  have hnum : u + v ≤ (a + b) * one * 1 := by
    rw [Nat.mul_one, Nat.add_mul]
    exact Nat.add_le_add hu hv
  obtain ⟨units, hround, hunits⟩ := roundUnits_moderate Nat.one_pos hnum hbound
  exact ⟨units, hround, hunits⟩

theorem mul_below {x y : Binary64} {a b : Nat} (hx : x.Below a) (hy : y.Below b) (hbound : a * b ≤ 2 ^ 255) :
    (x.mul y).Below (2 * (a * b)) := by
  obtain ⟨u, rfl, hu⟩ := hx
  obtain ⟨v, rfl, hv⟩ := hy
  have hnum : u * v ≤ a * b * one * one := by
    calc u * v ≤ a * one * (b * one) := Nat.mul_le_mul hu hv
      _ = a * b * one * one := by ring
  obtain ⟨units, hround, hunits⟩ := roundUnits_moderate one_pos hnum hbound
  exact ⟨units, hround, hunits⟩

theorem div_below {x y : Binary64} {a b : Nat} (hx : x.Below (a * b)) (hy : y.Above b) (hb : 0 < b)
    (hbound : a ≤ 2 ^ 255) : (x.div y).Below (2 * a) := by
  obtain ⟨u, rfl, hu⟩ := hx
  obtain ⟨v, rfl, hv⟩ := hy
  have hpos : 0 < v := Nat.lt_of_lt_of_le (Nat.mul_pos hb one_pos) hv
  have hnum : u * one ≤ a * one * v := by
    calc u * one ≤ a * b * one * one := Nat.mul_le_mul_right one hu
      _ = a * one * (b * one) := by ring
      _ ≤ a * one * v := Nat.mul_le_mul_left _ hv
  obtain ⟨units, hround, hunits⟩ := roundUnits_moderate hpos hnum hbound
  exact ⟨units, by rw [div_finite u hpos, hround], hunits⟩

end Binary64

end TemplateTiming
