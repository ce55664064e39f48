import TemplateTiming.Proofs.Rounding
import TemplateTiming.Report

/-! A report can always be written. The JSON form needs the mean time of an iteration; for large counts it is
computed in double precision, and what keeps it in range is that such a count divides by more than 2^31. -/

namespace TemplateTiming

theorem Duration.toBinary64_below (d : Duration) : d.toBinary64.Below (2 ^ 66 + 2 ^ 33) := by
  have hseconds : d.seconds ≤ 2 ^ 64 :=
    Nat.div_le_of_le_mul (Nat.mul_comm (2 ^ 64) 1000000000 ▸ d.bounded.le)
  have hsubsecond : d.subsecond ≤ 2 ^ 30 := (Nat.mod_lt _ (by decide)).le.trans (by decide)
  have hwhole := Binary64.ofNat_below hseconds (by decide)
  have hnanoseconds : (Binary64.ofNat d.subsecond).Below (2 ^ 31 * 1) :=
    (Binary64.ofNat_below hsubsecond (by decide)).mono (by decide)
  have hbillion : (Binary64.ofNat 1000000000).Above 1 := Binary64.ofNat_above (by decide) (by decide)
  have hfraction := Binary64.div_below hnanoseconds hbillion Nat.one_pos (by decide)
  exact (Binary64.add_below hwhole hfraction (by decide)).mono (by decide)

theorem Duration.ofBinary64?_below {x : Binary64} {bound : Nat} (hx : x.Below bound) (hbound : bound < 2 ^ 64) :
    ∃ d, ofBinary64? x = some d := by
  obtain ⟨units, rfl, hunits⟩ := hx
  obtain ⟨_, hnear⟩ := roundHalfEven_near (units * 1000000000) Binary64.one_pos
  have hone := Binary64.one_pos
  have hrange : roundHalfEven (units * 1000000000) Binary64.one < 2 ^ 64 * 1000000000 := by
    by_contra hbig
    have hmore := Nat.mul_le_mul_left (2 * Binary64.one) (Nat.not_lt.mp hbig)
    have hless := Nat.mul_le_mul_right Binary64.one (Nat.le_sub_one_of_lt hbound)
    omega
  change _ < UInt64.size * 1000000000 at hrange
  refine ⟨⟨_, hrange⟩, ?_⟩
  rw [ofBinary64?, ofNanoseconds?, dif_pos hrange]

namespace Report

theorem count_above {r : Report} (hlarge : UInt32.size ≤ r.iterations.toNat) :
    (Binary64.ofNat r.iterations.toNat).Above (2 ^ 30) :=
  Binary64.ofNat_above (lt_of_lt_of_le (by decide) hlarge) (r.iterations.toNat_lt.le.trans (by decide))

/-- Beyond 32 bits of iterations the mean is far from the end of the range. -/
theorem meanSeconds_below {r : Report} (hlarge : UInt32.size ≤ r.iterations.toNat) :
    r.meanSeconds.Below (2 ^ 38) := by
  have helapsed : r.elapsed.toBinary64.Below ((2 ^ 36 + 2 ^ 3) * 2 ^ 30) :=
    r.elapsed.toBinary64_below.mono (by decide)
  exact (Binary64.div_below helapsed (count_above hlarge) (by decide) (by decide)).mono (by decide)

theorem meanIteration?_isSome (r : Report) : ∃ mean, r.meanIteration? = some mean := by
  simp only [meanIteration?]
  split_ifs with hzero hsmall
  · exact ⟨_, rfl⟩
  · exact ⟨_, rfl⟩
  · exact Duration.ofBinary64?_below (meanSeconds_below (Nat.not_lt.mp hsmall)) (by decide)

theorem render_isOk (r : Report) (format : ReportFormat) : ∃ text, r.render format = .ok text := by
  cases format with
  | text => exact ⟨_, rfl⟩
  | json =>
      obtain ⟨mean, hmean⟩ := r.meanIteration?_isSome
      exact ⟨_, by rw [render, hmean]⟩

end Report

end TemplateTiming
