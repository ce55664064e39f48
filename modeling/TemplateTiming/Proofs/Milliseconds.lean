import TemplateTiming.Proofs.Accuracy
import TemplateTiming.Proofs.Places
import TemplateTiming.Report

/-! The milliseconds of the text form. They go through three roundings to double precision, of the fraction of a second,
of the sum and of the product with 1000, and through one to three places. Below 2^31 seconds the first three leave
less than half of a last place between them, so that a whole number of microseconds is shown as it is, and any other
time is off by less than a last place. Errors are differences here: the fraction is far smaller than the sum, and a
count of roundings would not notice. -/

namespace TemplateTiming

namespace Binary64

/-- The double is finite, and off `q` by `error` at most. -/
def Off (x : Binary64) (error q : ℚ) : Prop := ∃ units, x = .finite units ∧ |(units : ℚ) / one - q| ≤ error

section

attribute [local irreducible] one overflow

/-- Doubles below a power of two are spaced at most 2^-53 of it. -/
theorem spacing_below {units e : Nat} (hunits : units < 2 ^ e * one) : 2 ^ 53 * 2 ^ spacing units ≤ 2 ^ e * one := by
  obtain ⟨k, hk, hone⟩ := one_eq_two_pow
  rw [hone, ← Nat.pow_add] at hunits ⊢
  rw [← Nat.pow_add]
  apply Nat.pow_le_pow_right (by decide)
  by_cases hzero : units = 0
  · rw [hzero, spacing]
    simp
    omega
  · have hlog := (Nat.log2_lt hzero).mpr hunits
    rw [spacing]
    omega

/-- A number below a power of two is rounded by half the spacing there at most. -/
theorem roundUnits_off {num den e : Nat} {q : ℚ} (hden : 0 < den) (hq : (num : ℚ) = q * one * den) (hsize : q < 2 ^ e)
    (he : e ≤ 255) : (roundUnits num den).Off (2 ^ e / 2 ^ 54) q := by
  have hone := one_cast_pos
  have hdencast : (0 : ℚ) < den := by exact_mod_cast hden
  have hbelow : num < 2 ^ e * one * den := by
    have hcast : (num : ℚ) < 2 ^ e * one * den := by
      rw [hq]
      gcongr
    exact_mod_cast hcast
  obtain ⟨units, hround, -⟩ := roundUnits_moderate hden hbelow.le (Nat.pow_le_pow_right (by decide) he)
  obtain ⟨rounded, hrounded, hlow, hhigh⟩ := roundUnits_near num hden
  rw [hround] at hrounded
  split_ifs at hrounded
  cases hrounded
  have hspacing := spacing_below ((Nat.div_lt_iff_lt_mul hden).mpr hbelow)
  generalize 2 ^ spacing (num / den) = step at hlow hhigh hspacing
  have hlowcast : 2 * (q * one * den) ≤ 2 * den * units + den * step := by
    rw [← hq]
    exact_mod_cast hlow
  have hhighcast : 2 * den * units ≤ 2 * (q * one * den) + den * step := by
    rw [← hq]
    exact_mod_cast hhigh
  have hstep : (step : ℚ) / 2 ≤ 2 ^ e / 2 ^ 54 * one := by
    have hcast : (2 : ℚ) ^ 53 * step ≤ 2 ^ e * one := by exact_mod_cast hspacing
    calc (step : ℚ) / 2 = 2 ^ 53 * step / 2 ^ 54 := by ring
      _ ≤ 2 ^ e * one / 2 ^ 54 := by gcongr
      _ = 2 ^ e / 2 ^ 54 * one := by ring
  have hnear : |(units : ℚ) - q * one| ≤ step / 2 := by
    rw [abs_le]
    constructor
    · nlinarith
    · nlinarith
  refine ⟨units, hround, ?_⟩
  rw [div_sub' hone.ne', abs_div, abs_of_pos hone, div_le_iff₀ hone, mul_comm (one : ℚ) q]
  exact hnear.trans hstep

section Operations

variable {x y : Binary64} {e n : Nat} {p q r δ ε : ℚ}

theorem Off.mono (h : x.Off δ q) (hle : δ ≤ ε) : x.Off ε q := by
  obtain ⟨units, hx, hnear⟩ := h
  exact ⟨units, hx, hnear.trans hle⟩

theorem ofNat_off (hn : n < 2 ^ 53) : (ofNat n).Off 0 n := by
  refine ⟨n * one, ofNat_exact hn, ?_⟩
  rw [Nat.cast_mul, mul_div_cancel_right₀ _ one_cast_pos.ne', sub_self, abs_zero]

/-- An operation on doubles is off by what its operands are off, and by one rounding. -/
theorem roundUnits_off_of_close {num den : Nat} (hden : 0 < den) (hr : (num : ℚ) = r * one * den)
    (hclose : |r - q| ≤ δ) (hsize : q + δ < 2 ^ e) (he : e ≤ 255) :
    (roundUnits num den).Off (δ + 2 ^ e / 2 ^ 54) q := by
  have hbound : r < 2 ^ e := by linarith [(abs_le.mp hclose).2]
  obtain ⟨units, hround, hnear⟩ := roundUnits_off hden hr hbound he
  exact ⟨units, hround, by linarith [abs_sub_le ((units : ℚ) / one) r q]⟩

theorem Off.add (hx : x.Off δ p) (hy : y.Off ε q) (hsize : p + q + (δ + ε) < 2 ^ e) (he : e ≤ 255) :
    (x.add y).Off (δ + ε + 2 ^ e / 2 ^ 54) (p + q) := by
  obtain ⟨u, rfl, hu⟩ := hx
  obtain ⟨v, rfl, hv⟩ := hy
  have hone := one_cast_pos
  have hexact : ((u + v : Nat) : ℚ) = (u / one + v / one) * one * (1 : Nat) := by
    push_cast
    field_simp
  have hclose : |(u : ℚ) / one + v / one - (p + q)| ≤ δ + ε := by
    rw [add_sub_add_comm]
    exact (abs_add_le _ _).trans (add_le_add hu hv)
  exact roundUnits_off_of_close Nat.one_pos hexact hclose hsize he

theorem Off.mul_ofNat (hx : x.Off δ p) (hn : n < 2 ^ 53) (hsize : p * n + δ * n < 2 ^ e) (he : e ≤ 255) :
    (x.mul (ofNat n)).Off (δ * n + 2 ^ e / 2 ^ 54) (p * n) := by
  obtain ⟨u, rfl, hu⟩ := hx
  have hone := one_cast_pos
  have hexact : ((u * (n * one) : Nat) : ℚ) = u / one * n * one * one := by
    push_cast
    field_simp
  have hclose : |(u : ℚ) / one * n - p * n| ≤ δ * n := by
    rw [← sub_mul, abs_mul, Nat.abs_cast]
    exact mul_le_mul_of_nonneg_right hu n.cast_nonneg
  rw [ofNat_exact hn]
  exact roundUnits_off_of_close one_pos hexact hclose hsize he

theorem ofNat_div_off {m : Nat} (hm : m < 2 ^ 53) (hn : n < 2 ^ 53) (hpos : 0 < n) (hsize : (m : ℚ) / n < 2 ^ e)
    (he : e ≤ 255) : ((ofNat m).div (ofNat n)).Off (2 ^ e / 2 ^ 54) (m / n) := by
  have hone := one_cast_pos
  have hncast : (0 : ℚ) < n := by exact_mod_cast hpos
  have hunits : 0 < n * one := Nat.mul_pos hpos one_pos
  have hexact : ((m * one * one : Nat) : ℚ) = m / n * one * (n * one : Nat) := by
    push_cast
    field_simp
  rw [ofNat_exact hm, ofNat_exact hn, div_finite _ hunits]
  exact roundUnits_off hunits hexact hsize he

end Operations

end

end Binary64

namespace Duration

variable {d : Duration}

/-- Up to 2^31 seconds, the seconds as a double are off by the half spacings of the fraction and of the sum. -/
theorem toBinary64_off (hshort : d.nanoseconds < 2 ^ 31 * 1000000000) :
    d.toBinary64.Off (1 / 2 ^ 54 + 1 / 2 ^ 23) (d.nanoseconds / 1000000000) := by
  have hdivision : 1000000000 * d.seconds + d.subsecond = d.nanoseconds := Nat.div_add_mod _ _
  have hsubsecond : d.subsecond < 1000000000 := Nat.mod_lt _ (by decide)
  have hsum : (d.seconds : ℚ) + d.subsecond / (1000000000 : Nat) = d.nanoseconds / 1000000000 := by
    rw [← hdivision]
    push_cast
    ring
  have hlong : (d.nanoseconds : ℚ) ≤ 2 ^ 31 * 1000000000 - 1 := by
    have hcast : ((d.nanoseconds + 1 : Nat) : ℚ) ≤ (2 ^ 31 * 1000000000 : Nat) := Nat.cast_le.mpr hshort
    push_cast at hcast
    linarith
  have hpart : (d.subsecond : ℚ) / (1000000000 : Nat) < 2 ^ 0 := by
    rw [pow_zero, div_lt_one (by norm_num)]
    exact_mod_cast hsubsecond
  have hseconds : (Binary64.ofNat d.seconds).Off 0 d.seconds := Binary64.ofNat_off (by omega)
  have hfraction := Binary64.ofNat_div_off (by omega) (by decide) (by decide) hpart (by decide)
  have hadd := hseconds.add hfraction (e := 31) (by rw [hsum]; linarith) (by decide)
  rw [hsum] at hadd
  exact hadd.mono (by norm_num)

/-- Up to 2^31 seconds, the milliseconds are off by less than half a microsecond. -/
theorem milliseconds_off (hshort : d.nanoseconds < 2 ^ 31 * 1000000000) :
    d.milliseconds.Off (1 / 4000) (d.nanoseconds / 1000000) := by
  have hlong : (d.nanoseconds : ℚ) < 2 ^ 31 * 1000000000 := by exact_mod_cast hshort
  have hproduct : (d.nanoseconds : ℚ) / 1000000000 * (1000 : Nat) = d.nanoseconds / 1000000 := by
    push_cast
    ring
  have hmul := (toBinary64_off hshort).mul_ofNat (n := 1000) (e := 41) (by decide)
    (by rw [hproduct]; norm_num; linarith) (by decide)
  rw [hproduct] at hmul
  exact hmul.mono (by norm_num)

end Duration

namespace Report

/-- The number that the text form shows for so many units of milliseconds. -/
def shown (units : Nat) : Decimal.FixedPoint 3 :=
  .ofCount (by decide) (roundHalfEven (units * 10 ^ 3) Binary64.one)

theorem text_of_finite {r : Report} {units : Nat} (h : r.elapsedMs = .finite units) :
    r.text = r.label.toList ++ [':', ' '] ++ (shown units).text ++ ['m', 's'] := by
  rw [text, h, milliseconds, Binary64.withPlaces, Binary64.fixed_eq (by decide)]
  rfl

section

attribute [local irreducible] Binary64.one

/-- Rounding to three places moves the number by half of the last one at most. -/
theorem shown_close (units : Nat) : |((shown units).count : ℚ) - units / Binary64.one * 1000| ≤ 1 / 2 := by
  have hnearest := roundHalfEven_close (units * 10 ^ 3) Binary64.one_pos
  rw [shown, Decimal.FixedPoint.count_ofCount, div_mul_eq_mul_div]
  exact_mod_cast hnearest

/-- What is shown is less than a microsecond off the elapsed time. -/
theorem shown_microseconds {units : Nat} {nanoseconds : ℚ}
    (hnear : |(units : ℚ) / Binary64.one - nanoseconds / 1000000| ≤ 1 / 4000) :
    |((shown units).count : ℚ) - nanoseconds / 1000| < 1 := by
  have hscaled : |(units : ℚ) / Binary64.one * 1000 - nanoseconds / 1000| ≤ 1 / 4 := by
    calc |(units : ℚ) / Binary64.one * 1000 - nanoseconds / 1000|
        = |((units : ℚ) / Binary64.one - nanoseconds / 1000000) * 1000| := by congr 1; ring
      _ = |(units : ℚ) / Binary64.one - nanoseconds / 1000000| * 1000 := by
        rw [abs_mul, abs_of_pos (by norm_num : (0 : ℚ) < 1000)]
      _ ≤ 1 / 4000 * 1000 := by gcongr
      _ = 1 / 4 := by norm_num
  calc |((shown units).count : ℚ) - nanoseconds / 1000|
      ≤ |((shown units).count : ℚ) - units / Binary64.one * 1000| +
          |(units : ℚ) / Binary64.one * 1000 - nanoseconds / 1000| := abs_sub_le _ _ _
    _ ≤ 1 / 2 + 1 / 4 := add_le_add (shown_close units) hscaled
    _ < 1 := by norm_num

end

/-- **The text form shows the elapsed milliseconds.** Below 2^31 seconds the number with three places between the label
and the unit is less than a thousandth off the elapsed time, and a whole number of microseconds is shown as it is. -/
theorem text_shows_elapsed (r : Report) (hshort : r.elapsed.nanoseconds < 2 ^ 31 * 1000000000) :
    ∃ number : Decimal.FixedPoint 3,
      r.render .text = .ok (String.ofList (r.label.toList ++ [':', ' '] ++ number.text ++ ['m', 's'])) ∧
      |number.value - r.elapsed.nanoseconds / 1000000| < 1 / 1000 ∧
      (1000 ∣ r.elapsed.nanoseconds → number.value = r.elapsed.nanoseconds / 1000000) := by
  obtain ⟨units, hunits, hoff⟩ := Duration.milliseconds_off hshort
  have hcount := shown_microseconds hoff
  refine ⟨shown units, by rw [render, text_of_finite hunits], ?_, ?_⟩
  · rw [Decimal.FixedPoint.value, show ((shown units).count : ℚ) / 10 ^ 3 - r.elapsed.nanoseconds / 1000000 =
      ((shown units).count - r.elapsed.nanoseconds / 1000) / 1000 by ring, abs_div]
    rw [abs_of_pos (by norm_num : (0 : ℚ) < 1000)]
    gcongr
  · rintro ⟨microseconds, hwhole⟩
    have hexact : (r.elapsed.nanoseconds : ℚ) = 1000 * microseconds := by exact_mod_cast hwhole
    -- two whole numbers less than 1 apart are the same
    have hsame : (shown units).count = microseconds := by
      rw [hexact, mul_div_cancel_left₀ _ (by norm_num)] at hcount
      have hint : |((shown units).count : ℤ) - microseconds| < 1 := by exact_mod_cast hcount
      have := Int.abs_lt_one_iff.mp hint
      omega
    rw [Decimal.FixedPoint.value, hsame, hexact]
    ring

/-- The last whole microsecond below 2^31 seconds. -/
def nearlyTooLong : Report where
  label := "run"
  converter := "html"
  input := ⟨[]⟩
  inputBytes := 0
  iterations := 1
  warmup := 0
  elapsed := ⟨2147483647999999000, by decide⟩
  startedAt := .epoch

theorem text_shows_elapsed_nearlyTooLong : nearlyTooLong.elapsed.nanoseconds < 2 ^ 31 * 1000000000 ∧
    ∃ number : Decimal.FixedPoint 3,
      nearlyTooLong.render .text =
        .ok (String.ofList ("run".toList ++ [':', ' '] ++ number.text ++ ['m', 's'])) ∧
      number.value = 2147483647999999 / 1000 := by
  have hshort : nearlyTooLong.elapsed.nanoseconds < 2 ^ 31 * 1000000000 := by decide
  obtain ⟨number, htext, -, hexact⟩ := text_shows_elapsed nearlyTooLong hshort
  refine ⟨hshort, number, htext, (hexact (by decide)).trans ?_⟩
  norm_num [nearlyTooLong]

end Report

end TemplateTiming
