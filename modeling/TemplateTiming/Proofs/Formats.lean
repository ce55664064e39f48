import TemplateTiming.Proofs.Literal
import TemplateTiming.Proofs.Milliseconds
import TemplateTiming.Proofs.Rendering

/-! Both forms of a report show the same time. The text rounds a double to three places, the JSON form writes the
shortest digits that are nearest to it; so what is read from the JSON form is the double that the text was made
from, wherever its point stands. -/

namespace TemplateTiming

theorem Binary64.mul_double {x y : Binary64} {units : Nat} (h : x.mul y = .finite units) :
    Short units ∧ units < overflow := by
  unfold mul mulBy at h
  split at h
  next => exact roundUnits_double one_pos h
  next => cases h
  next => split_ifs at h
  next => split_ifs at h
  next => cases h
  next => cases h

/-- The literal of a time in milliseconds is nearest to that double, and to no other. -/
theorem Duration.milliseconds_nearestTo (d : Duration) (x : Binary64) :
    Binary64.NearestTo (Json.decimal (Json.writeBinary64 d.milliseconds)).value x ↔ x = d.milliseconds := by
  obtain ⟨units, hunits, -⟩ := d.milliseconds_below
  obtain ⟨hshort, hfinite⟩ := Binary64.mul_double hunits
  have hnearest := Json.layOut_nearestTo hshort hfinite Json.layout
  rw [hunits]
  constructor
  · intro hx
    exact hx.unique hnearest
  · rintro rfl
    exact hnearest

namespace Report

/-- **The forms of a report agree.** The JSON form denotes one value. The literal of its elapsed time is nearest to one
double, and rounded to three places, an exact half to the even digit, that double is the number between the label
and the unit of the text form. The literal of its mean is nearest to one double, the seconds of the mean times 1000. -/
theorem formats_agree (r : Report) (hbytes : r.inputBytes < UInt64.size) :
    ∃ text value elapsed each mean units, ∃ number : Decimal.FixedPoint 3,
      r.render .json = .ok text ∧ (∀ v, Json.Denotes text.toList v ↔ v = value) ∧
      Json.parse text.toList = .ok value ∧
      value.literalAt? "elapsed_ms" = some elapsed ∧
      (∀ x, Binary64.NearestTo (Json.decimal elapsed).value x ↔ x = .finite units) ∧
      number.count = roundHalfEven (units * 10 ^ 3) Binary64.one ∧
      r.render .text = .ok (String.ofList (r.label.toList ++ [':', ' '] ++ number.text ++ ['m', 's'])) ∧
      r.meanIteration? = some mean ∧ value.literalAt? "mean_iteration_ms" = some each ∧
      ∀ x, Binary64.NearestTo (Json.decimal each).value x ↔ x = mean.toBinary64.mul (.ofNat 1000) := by
  obtain ⟨mean, hmean⟩ := r.meanIteration?_isSome
  obtain ⟨units, hunits, -⟩ := r.elapsedMs_below
  obtain ⟨text, htext, hdenotes, hparse⟩ := render_json hbytes hmean
  have helapsed := r.elapsed.milliseconds_nearestTo
  rw [show r.elapsed.milliseconds = .finite units from hunits] at helapsed
  refine ⟨text, _, _, _, mean, units, shown units, htext, hdenotes, hparse, r.values_elapsed mean, ?_,
    Decimal.FixedPoint.count_ofCount _ _, by rw [render, text_of_finite hunits], hmean, r.values_mean mean,
    mean.milliseconds_nearestTo⟩
  rwa [hunits]

theorem formats_agree_greatest : greatest.inputBytes < UInt64.size ∧
    ∃ text value elapsed units, ∃ number : Decimal.FixedPoint 3,
      greatest.render .json = .ok text ∧ Json.parse text.toList = .ok value ∧
      value.literalAt? "elapsed_ms" = some elapsed ∧
      (∀ x, Binary64.NearestTo (Json.decimal elapsed).value x ↔ x = .finite units) ∧
      number.count = roundHalfEven (units * 10 ^ 3) Binary64.one ∧
      greatest.render .text = .ok (String.ofList ([':', ' '] ++ number.text ++ ['m', 's'])) := by
  have hbytes : greatest.inputBytes < UInt64.size := by decide
  obtain ⟨text, value, elapsed, -, -, units, number, hjson, -, hparse, helapsed, hnearest, hcount, htext, -⟩ :=
    formats_agree greatest hbytes
  exact ⟨hbytes, text, value, elapsed, units, number, hjson, hparse, helapsed, hnearest, hcount, htext⟩

end Report

end TemplateTiming
