import TemplateTiming.Proofs.JsonReport

/-! A report can be written whatever it holds, the longest time and the greatest counts included. The mean divides by the
iterations in two places, and both are reached with a divisor that is not zero only; the quotient of doubles is read
back as a duration, for which it has to be finite and below 2^64 seconds; and a number that is not finite would be
a `null` in the JSON form. -/

namespace TemplateTiming

namespace Report

/-- How the mean of an iteration comes about, and what is safe about it: nothing is divided without iterations, a count
of 32 bits divides whole nanoseconds, and a greater one divides doubles, whose quotient is in the range of durations. -/
inductive MeanBy (r : Report) : Duration → Prop
  | nothing : r.iterations.toNat = 0 → MeanBy r .zero
  | nanoseconds {count : Nat} :
      r.iterations.toNat = count → 0 < count → count < UInt32.size → MeanBy r (r.elapsed.part count)
  | doubles {elapsed count quotient : Nat} {mean : Duration} :
      UInt32.size ≤ r.iterations.toNat → r.elapsed.toBinary64 = .finite elapsed →
      Binary64.ofNat r.iterations.toNat = .finite count → 0 < count →
      (Binary64.finite elapsed).div (.finite count) = .finite quotient → quotient < 2 ^ 64 * Binary64.one →
      Duration.ofBinary64? (.finite quotient) = some mean → MeanBy r mean

theorem meanIteration?_meanBy {r : Report} {mean : Duration} (hmean : r.meanIteration? = some mean) :
    MeanBy r mean := by
  simp only [meanIteration?] at hmean
  split_ifs at hmean with hzero hsmall
  · cases hmean
    exact .nothing hzero
  · cases hmean
    exact .nanoseconds rfl (Nat.pos_of_ne_zero hzero) hsmall
  · have hlarge : UInt32.size ≤ r.iterations.toNat := Nat.not_lt.mp hsmall
    obtain ⟨elapsed, helapsed, -⟩ := r.elapsed.toBinary64_below
    obtain ⟨count, hcount, habove⟩ := count_above hlarge
    obtain ⟨quotient, hquotient, hbelow⟩ := meanSeconds_below hlarge
    have hone := Binary64.one_pos
    rw [hquotient] at hmean
    rw [meanSeconds, helapsed, hcount] at hquotient
    exact .doubles hlarge helapsed hcount (by omega) hquotient (by omega) hmean

/-- The JSON form of a report denotes one value, and the reader finds it. -/
theorem render_json {r : Report} (hbytes : r.inputBytes < UInt64.size) {mean : Duration}
    (hmean : r.meanIteration? = some mean) :
    ∃ text, r.render .json = .ok text ∧ (∀ v, Json.Denotes text.toList v ↔ v = .object (r.values mean)) ∧
      Json.parse text.toList = .ok (.object (r.values mean)) := by
  obtain ⟨-, hdenotes, hparse⟩ := Json.writeObject_parse (r.members_plain hbytes mean)
  refine ⟨String.ofList (Json.writeObject (r.members mean)), by rw [render, hmean], ?_⟩
  rw [String.toList_ofList]
  exact ⟨hdenotes, hparse⟩

theorem values_elapsed (r : Report) (mean : Duration) :
    (Json.object (r.values mean)).literalAt? "elapsed_ms" = some (Json.writeBinary64 r.elapsedMs) := by
  simp [Json.literalAt?, Json.member?, values]

theorem values_mean (r : Report) (mean : Duration) :
    (Json.object (r.values mean)).literalAt? "mean_iteration_ms" = some (Json.writeBinary64 mean.milliseconds) := by
  simp [Json.literalAt?, Json.member?, values]

/-- **A report can always be written.** It has a mean, which comes about without a division by zero and without leaving
the range of durations; the times in milliseconds are finite; both forms are written, and the JSON form holds a number
for either time. -/
theorem render_never_fails (r : Report) (hbytes : r.inputBytes < UInt64.size) :
    ∃ mean, r.meanIteration? = some mean ∧ MeanBy r mean ∧
      (∃ units, r.elapsedMs = .finite units) ∧ (∃ units, mean.milliseconds = .finite units) ∧
      (∀ format, ∃ text, r.render format = .ok text) ∧
      (∀ format cause, r.render format ≠ .error (.serialization cause)) ∧
      ∃ text value elapsed each, r.render .json = .ok text ∧ Json.parse text.toList = .ok value ∧
        value.literalAt? "elapsed_ms" = some elapsed ∧ value.literalAt? "mean_iteration_ms" = some each := by
  obtain ⟨mean, hmean⟩ := r.meanIteration?_isSome
  obtain ⟨elapsedUnits, helapsed, -⟩ := r.elapsedMs_below
  obtain ⟨meanUnits, hmeanUnits, -⟩ := mean.milliseconds_below
  obtain ⟨text, htext, -, hparse⟩ := render_json hbytes hmean
  refine ⟨mean, hmean, meanIteration?_meanBy hmean, ⟨elapsedUnits, helapsed⟩, ⟨meanUnits, hmeanUnits⟩, r.render_isOk,
    ?_, text, _, _, _, htext, hparse, r.values_elapsed mean, r.values_mean mean⟩
  intro format cause hfails
  obtain ⟨_, hrendered⟩ := r.render_isOk format
  rw [hrendered] at hfails
  cases hfails

/-- The longest time that a duration holds, and as many iterations and bytes as can be counted. -/
def greatest : Report where
  label := ""
  converter := ""
  input := ⟨[]⟩
  inputBytes := 18446744073709551615
  iterations := 18446744073709551615
  warmup := 18446744073709551615
  elapsed := ⟨18446744073709551615999999999, by decide⟩
  startedAt := .epoch

theorem render_never_fails_greatest : greatest.inputBytes < UInt64.size ∧
    ∃ mean, greatest.meanIteration? = some mean ∧ MeanBy greatest mean ∧
      ∃ text value elapsed, greatest.render .json = .ok text ∧ Json.parse text.toList = .ok value ∧
        value.literalAt? "elapsed_ms" = some elapsed := by
  have hbytes : greatest.inputBytes < UInt64.size := by decide
  obtain ⟨mean, hmean, hby, -, -, -, -, text, value, elapsed, _, htext, hparse, helapsed, -⟩ :=
    render_never_fails greatest hbytes
  exact ⟨hbytes, mean, hmean, hby, text, value, elapsed, htext, hparse, helapsed⟩

end Report

end TemplateTiming
