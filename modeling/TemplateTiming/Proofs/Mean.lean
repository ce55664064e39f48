import TemplateTiming.Proofs.Accuracy
import TemplateTiming.Proofs.Report

/-! How close the mean time of an iteration is to the elapsed time divided by the iterations. Counts of 32 bits divide
whole nanoseconds and round down. A larger count goes through doubles: the seconds, the sum, the count and the quotient
are rounded, and at the end the nearest nanosecond is taken, so that the mean may also lie above the quotient. -/

namespace TemplateTiming

namespace Duration

attribute [local irreducible] Binary64.one

theorem seconds_sized (d : Duration) : Sized 124 ((d.nanoseconds : ℚ) / 1000000000) := by
  have hnanoseconds : Sized 94 (d.nanoseconds : ℚ) := Sized.natCast (d.bounded.le.trans (by decide))
  have hbillion : Sized 30 ((1000000000 : Nat) : ℚ) := Sized.natCast (by decide)
  exact_mod_cast hnanoseconds.div hbillion

/-- A duration in seconds as a double is rounded twice: a fraction of a second once, the sum once more. -/
theorem toBinary64_near (d : Duration) : d.toBinary64.Near 2 (d.nanoseconds / 1000000000) := by
  have hseconds : d.seconds ≤ 2 ^ 255 :=
    (Nat.div_le_self _ _).trans (d.bounded.le.trans (by decide))
  have hsubsecond : d.subsecond < 2 ^ 30 := (Nat.mod_lt _ (by decide)).trans_le (by decide)
  have hbillion : Sized 30 ((1000000000 : Nat) : ℚ) := Sized.natCast (by decide)
  have hfraction : ((Binary64.ofNat d.subsecond).div (.ofNat 1000000000)).Near 1
      (d.subsecond / (1000000000 : Nat)) :=
    Binary64.div_near (Binary64.ofNat_near_exact (hsubsecond.trans (by decide)))
      (Binary64.ofNat_near_exact (by decide)) (by norm_num) ((Sized.natCast hsubsecond.le).div hbillion) (by decide)
  have hsum : (d.seconds : ℚ) + d.subsecond / (1000000000 : Nat) = d.nanoseconds / 1000000000 := by
    have hdivision : (d.nanoseconds : ℚ) = 1000000000 * d.seconds + d.subsecond := by
      exact_mod_cast (Nat.div_add_mod d.nanoseconds 1000000000).symm
    rw [hdivision]
    push_cast
    ring
  have hsize : Sized 124 ((d.seconds : ℚ) + d.subsecond / (1000000000 : Nat)) := by
    rw [hsum]
    exact d.seconds_sized
  rw [← hsum]
  exact Binary64.add_near (Binary64.ofNat_near hseconds) hfraction hsize (by decide)

/-- Reading back takes the nearest nanosecond. -/
theorem ofBinary64?_nanoseconds {units : Nat} {d : Duration} (hread : ofBinary64? (.finite units) = some d) :
    d.nanoseconds = roundHalfEven (units * 1000000000) Binary64.one := by
  rw [ofBinary64?, ofNanoseconds?] at hread
  split_ifs at hread
  exact congrArg nanoseconds (Option.some.inj hread).symm

/-- Read back as nanoseconds, a double is off by its roundings and by half a nanosecond. -/
theorem ofBinary64?_close {x : Binary64} {k : Nat} {q : ℚ} {d : Duration} (hx : x.Near k q) (hk : k ≤ 2 ^ 52)
    (hread : ofBinary64? x = some d) :
    |(d.nanoseconds : ℚ) - q * 1000000000| ≤ 1 / 2 + q * 1000000000 * k / 2 ^ 52 := by
  obtain ⟨units, rfl, hwithin⟩ := hx
  have hnearest := roundHalfEven_close (units * 1000000000) Binary64.one_pos
  rw [← ofBinary64?_nanoseconds hread, Nat.cast_mul, mul_div_right_comm] at hnearest
  have herror : |(units : ℚ) / Binary64.one * 1000000000 - q * 1000000000| ≤ q * 1000000000 * k / 2 ^ 52 := by
    rw [← sub_mul, abs_mul, abs_of_pos (by norm_num : (0 : ℚ) < 1000000000)]
    calc |(units : ℚ) / Binary64.one - q| * 1000000000 ≤ q * k / 2 ^ 52 * 1000000000 :=
          mul_le_mul_of_nonneg_right (hwithin.error hk) (by norm_num)
      _ = q * 1000000000 * k / 2 ^ 52 := by ring
  exact (abs_sub_le _ _ _).trans (add_le_add hnearest herror)

/-- Of two doubles the greater is the longer duration. -/
theorem ofBinary64?_mono {u v : Nat} {d e : Duration} (huv : u ≤ v) (hu : ofBinary64? (.finite u) = some d)
    (hv : ofBinary64? (.finite v) = some e) : d.nanoseconds ≤ e.nanoseconds := by
  rw [ofBinary64?_nanoseconds hu, ofBinary64?_nanoseconds hv]
  exact roundHalfEven_mono Binary64.one_pos Binary64.one_pos
    (Nat.mul_le_mul_right _ (Nat.mul_le_mul_right _ huv))

end Duration

namespace Report

theorem meanSeconds_near (r : Report) (hcount : 0 < r.iterations.toNat) :
    r.meanSeconds.Near 4 (r.elapsed.nanoseconds / 1000000000 / r.iterations.toNat) := by
  have hrange : r.iterations.toNat ≤ 2 ^ 64 := r.iterations.toNat_lt.le
  exact Binary64.div_near r.elapsed.toBinary64_near (Binary64.ofNat_near (hrange.trans (by decide)))
    (by exact_mod_cast hcount) (r.elapsed.seconds_sized.div (Sized.natCast hrange)) (by decide)

theorem meanIteration?_of_small {r : Report} (hcount : 0 < r.iterations.toNat)
    (hsmall : r.iterations.toNat < UInt32.size) :
    r.meanIteration? = some (r.elapsed.part r.iterations.toNat) := by
  simp only [meanIteration?]
  rw [if_neg hcount.ne', if_pos hsmall]

theorem meanIteration?_of_large {r : Report} (hlarge : UInt32.size ≤ r.iterations.toNat) :
    r.meanIteration? = Duration.ofBinary64? r.meanSeconds := by
  have hcount : 0 < r.iterations.toNat := Nat.lt_of_lt_of_le (by decide) hlarge
  simp only [meanIteration?]
  rw [if_neg hcount.ne', if_neg (Nat.not_lt.mpr hlarge)]

/-- More iterations in the same time do not make the seconds of each more. -/
theorem meanSeconds_antitone {r more : Report} (helapsed : more.elapsed = r.elapsed) (hcount : 0 < r.iterations.toNat)
    (hmore : r.iterations.toNat ≤ more.iterations.toNat) :
    ∃ u v, more.meanSeconds = .finite u ∧ r.meanSeconds = .finite v ∧ u ≤ v := by
  have hseconds (s : Report) : (Binary64.ofNat s.iterations.toNat).Near 1 s.iterations.toNat :=
    Binary64.ofNat_near (s.iterations.toNat_lt.le.trans (by decide))
  obtain ⟨a, ha, _⟩ := r.elapsed.toBinary64_near
  obtain ⟨b, hb, _⟩ := hseconds r
  obtain ⟨c, hc, _⟩ := hseconds more
  obtain ⟨u, hu, _⟩ := meanSeconds_near more (hcount.trans_le hmore)
  obtain ⟨v, hv, _⟩ := meanSeconds_near r hcount
  have hbpos : 0 < b := Binary64.Near.units_pos (hb ▸ hseconds r) (by exact_mod_cast hcount)
  refine ⟨u, v, hu, hv, Binary64.div_antitone (a := a) hbpos (Binary64.ofNat_mono hmore hb hc) ?_ ?_⟩
  · rw [← ha, ← hc, ← hu, meanSeconds, helapsed]
  · rw [← ha, ← hb, ← hv, meanSeconds]

/-- More iterations in the same time do not make the mean longer, if both counts divide in the same way. -/
theorem meanIteration?_antitone {r more : Report} {mean fewer : Duration} (helapsed : more.elapsed = r.elapsed)
    (hcount : 0 < r.iterations.toNat) (hmore : r.iterations.toNat ≤ more.iterations.toNat)
    (hsame : more.iterations.toNat < UInt32.size ∨ UInt32.size ≤ r.iterations.toNat)
    (hmean : r.meanIteration? = some mean) (hfewer : more.meanIteration? = some fewer) :
    fewer.nanoseconds ≤ mean.nanoseconds := by
  rcases hsame with hsmall | hlarge
  · rw [meanIteration?_of_small hcount (hmore.trans_lt hsmall)] at hmean
    rw [meanIteration?_of_small (hcount.trans_le hmore) hsmall, helapsed] at hfewer
    cases hmean
    cases hfewer
    exact Nat.div_le_div_left hmore hcount
  · rw [meanIteration?_of_large hlarge] at hmean
    rw [meanIteration?_of_large (hlarge.trans hmore)] at hfewer
    obtain ⟨u, v, hu, hv, huv⟩ := meanSeconds_antitone helapsed hcount hmore
    rw [hv] at hmean
    rw [hu] at hfewer
    exact Duration.ofBinary64?_mono huv hfewer hmean

/-- A mean of a large count is as near to the quotient as four roundings and the nearest nanosecond bring it. -/
theorem meanIteration?_close {r : Report} {mean : Duration} (hlarge : UInt32.size ≤ r.iterations.toNat)
    (hmean : r.meanIteration? = some mean) :
    |(mean.nanoseconds : ℚ) - r.elapsed.nanoseconds / r.iterations.toNat| ≤
      1 / 2 + r.elapsed.nanoseconds / r.iterations.toNat / 2 ^ 50 := by
  have hcount : 0 < r.iterations.toNat := Nat.lt_of_lt_of_le (by decide) hlarge
  rw [meanIteration?_of_large hlarge] at hmean
  have hclose := Duration.ofBinary64?_close (meanSeconds_near r hcount) (by decide) hmean
  have hquotient : (r.elapsed.nanoseconds : ℚ) / 1000000000 / r.iterations.toNat * 1000000000 =
      r.elapsed.nanoseconds / r.iterations.toNat := by
    rw [div_right_comm, div_mul_cancel₀ _ (by norm_num)]
  rw [hquotient] at hclose
  calc |(mean.nanoseconds : ℚ) - r.elapsed.nanoseconds / r.iterations.toNat|
      ≤ 1 / 2 + r.elapsed.nanoseconds / r.iterations.toNat * (4 : Nat) / 2 ^ 52 := hclose
    _ = 1 / 2 + r.elapsed.nanoseconds / r.iterations.toNat / 2 ^ 50 := by push_cast; ring

/-- **The mean is the elapsed time divided by the iterations.** Up to 32 bits of iterations it is rounded down; beyond
it is nearest to the quotient, up to the errors of double precision. Within either range more iterations in the same
time never have a longer mean. -/
theorem meanIteration?_bounds (r : Report) (hcount : 1 ≤ r.iterations.toNat) :
    ∃ mean, r.meanIteration? = some mean ∧
      (r.iterations.toNat < UInt32.size →
        mean.nanoseconds * r.iterations.toNat ≤ r.elapsed.nanoseconds ∧
          r.elapsed.nanoseconds < (mean.nanoseconds + 1) * r.iterations.toNat) ∧
      (UInt32.size ≤ r.iterations.toNat →
        |(mean.nanoseconds : ℚ) - r.elapsed.nanoseconds / r.iterations.toNat| ≤
          1 / 2 + r.elapsed.nanoseconds / r.iterations.toNat / 2 ^ 50) ∧
      ∀ (more : Report) (fewer : Duration), more.elapsed = r.elapsed →
        r.iterations.toNat ≤ more.iterations.toNat →
        more.iterations.toNat < UInt32.size ∨ UInt32.size ≤ r.iterations.toNat →
        more.meanIteration? = some fewer → fewer.nanoseconds ≤ mean.nanoseconds := by
  obtain ⟨mean, hmean⟩ := r.meanIteration?_isSome
  refine ⟨mean, hmean, ?_, fun hlarge => meanIteration?_close hlarge hmean, ?_⟩
  · intro hsmall
    rw [meanIteration?_of_small hcount hsmall] at hmean
    cases hmean
    exact ⟨Nat.div_mul_le_self _ _, (Nat.div_lt_iff_lt_mul hcount).mp (Nat.lt_succ_self _)⟩
  · intro more fewer helapsed hmore hsame hfewer
    exact meanIteration?_antitone helapsed hcount hmore hsame hmean hfewer

/-- A run of some 72 minutes, a little more than 1000.5 nanoseconds for each of `2 ^ 32` iterations. -/
def longRun (count : UInt64) : Report where
  label := "mjml"
  converter := "mrml"
  input := ⟨Utf8.encode "/a.mjml".toList⟩
  inputBytes := 1
  iterations := count
  warmup := 1
  elapsed := ⟨4297114779649, by decide⟩
  startedAt := .epoch

theorem meanIteration?_bounds_longRun :
    1 ≤ (longRun 4294967296).iterations.toNat ∧
      ∃ mean, (longRun 4294967296).meanIteration? = some mean ∧
        |(mean.nanoseconds : ℚ) - 4297114779649 / 4294967296| ≤
          1 / 2 + 4297114779649 / 4294967296 / 2 ^ 50 ∧
        ∀ fewer, (longRun 8589934592).meanIteration? = some fewer → fewer.nanoseconds ≤ mean.nanoseconds := by
  obtain ⟨mean, hmean, _, hclose, hantitone⟩ := meanIteration?_bounds (longRun 4294967296) (by decide)
  refine ⟨by decide, mean, hmean, ?_, fun fewer => hantitone (longRun 8589934592) fewer rfl (by decide) (by decide)⟩
  have hlarge := hclose (by decide)
  exact_mod_cast hlarge

/-- Beyond 32 bits the mean times the iterations may exceed the elapsed time, and one iteration more may raise it. -/
theorem mean_exceeds_elapsed :
    (longRun 4294967295).meanIteration? = some ⟨1000, by decide⟩ ∧
      (longRun 4294967296).meanIteration? = some ⟨1001, by decide⟩ ∧
      (longRun 4294967296).elapsed.nanoseconds < 1001 * (longRun 4294967296).iterations.toNat := by
  refine ⟨?_, ?_, ?_⟩
  · decide +kernel
  · decide +kernel
  · decide +kernel

end Report

end TemplateTiming
