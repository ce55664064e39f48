import TemplateTiming.Proofs.JsonReport
import TemplateTiming.Proofs.Milliseconds

/-! Taking the text form of a report apart. A label is free text: it may hold the separator, and it may look like a
report itself. The time behind it holds no blank, so the separator that was written is the last one of the text. -/

namespace TemplateTiming

namespace Text

/-- A text is cut at the last place where `separator` stands. -/
structure LastCut (separator text front back : List Char) : Prop where
  joined : text = front ++ separator ++ back
  last : ∀ front' back', text = front' ++ separator ++ back' → front'.length ≤ front.length

/-- The cut at the start of a text, if `separator` stands there. -/
def cutAtStart? (separator text : List Char) : Option (List Char × List Char) :=
  (separator.isPrefixOf? text).map fun back => ([], back)

/-- The parts of a text in front of the last `separator` and behind it. -/
def cutAtLast? (separator : List Char) : List Char → Option (List Char × List Char)
  | [] => cutAtStart? separator []
  | c :: cs =>
    match cutAtLast? separator cs with
    | some (front, back) => some (c :: front, back)
    | none => cutAtStart? separator (c :: cs)

section Cut

variable {separator text front back : List Char}

theorem cutAtStart?_eq_some_iff :
    cutAtStart? separator text = some (front, back) ↔ front = [] ∧ text = separator ++ back := by
  simp only [cutAtStart?, Option.map_eq_some_iff, List.isPrefixOf?_eq_some_iff_append_eq, Prod.mk.injEq]
  constructor
  · rintro ⟨back', rfl, rfl, rfl⟩
    exact ⟨rfl, rfl⟩
  · rintro ⟨rfl, rfl⟩
    exact ⟨back, rfl, rfl, rfl⟩

theorem cutAtLast?_joined (h : cutAtLast? separator text = some (front, back)) :
    text = front ++ separator ++ back := by
  induction text generalizing front with
  | nil =>
      obtain ⟨rfl, htext⟩ := cutAtStart?_eq_some_iff.mp h
      exact htext
  | cons c cs ih =>
      rw [cutAtLast?] at h
      cases hrest : cutAtLast? separator cs with
      | none =>
          rw [hrest] at h
          obtain ⟨rfl, htext⟩ := cutAtStart?_eq_some_iff.mp h
          exact htext
      | some cut =>
          rw [hrest] at h
          cases h
          rw [ih hrest]
          rfl

/-- Where a separator stands, there is a cut, and none further in front. -/
theorem cutAtLast?_reaches (h : text = front ++ separator ++ back) :
    ∃ front' back', cutAtLast? separator text = some (front', back') ∧ front.length ≤ front'.length := by
  induction text generalizing front with
  | nil =>
      obtain rfl : front = [] := by simp_all
      exact ⟨[], back, cutAtStart?_eq_some_iff.mpr ⟨rfl, h⟩, Nat.le_refl _⟩
  | cons c cs ih =>
      rw [cutAtLast?]
      cases front with
      | nil =>
          cases cutAtLast? separator cs with
          | none => exact ⟨[], back, cutAtStart?_eq_some_iff.mpr ⟨rfl, h⟩, Nat.le_refl _⟩
          | some cut => exact ⟨c :: cut.1, cut.2, rfl, Nat.zero_le _⟩
      | cons d front =>
          obtain ⟨front', back', hrest, hlength⟩ := ih (List.cons.inj h).2
          rw [hrest]
          exact ⟨c :: front', back', rfl, Nat.succ_le_succ hlength⟩

theorem cutAtLast?_eq_some_iff :
    cutAtLast? separator text = some (front, back) ↔ LastCut separator text front back := by
  constructor
  · intro h
    refine ⟨cutAtLast?_joined h, ?_⟩
    intro front' back' htext
    obtain ⟨front'', back'', hcut, hlength⟩ := cutAtLast?_reaches htext
    cases h.symm.trans hcut
    exact hlength
  · intro h
    obtain ⟨front', back', hcut, hlength⟩ := cutAtLast?_reaches h.joined
    have htext := cutAtLast?_joined hcut
    have hsame : front.length = front'.length := Nat.le_antisymm hlength (h.last front' back' htext)
    have hparts := h.joined.symm.trans htext
    rw [List.append_assoc, List.append_assoc] at hparts
    obtain ⟨rfl, hrest⟩ := List.append_inj hparts hsame
    rw [hcut, List.append_cancel_left hrest]

example : cutAtLast? [':', ' '] "a: 1.000ms: 2.500ms".toList = some ("a: 1.000ms".toList, "2.500ms".toList) := by
  decide

/-- A separator is the last one if its last character does not come again. -/
theorem lastCut_of_not_mem {c : Char} (lead front : List Char) (hc : c ∉ back) :
    LastCut (lead ++ [c]) (front ++ (lead ++ [c]) ++ back) front back where
  joined := rfl
  last := by
    intro front' back' htext
    have hsplit : front ++ lead ++ c :: back = front' ++ lead ++ c :: back' := by simpa using htext
    -- a longer part in front would reach over the separator, and its last character would come again behind it
    rcases List.append_eq_append_iff.mp hsplit with ⟨between, hlonger, hback⟩ | ⟨between, hshorter, -⟩
    · cases between with
      | nil =>
          have hlength := congrArg List.length hlonger
          simp only [List.length_append, List.length_nil] at hlength
          omega
      | cons d between =>
          rw [List.cons_append] at hback
          have hagain : c ∈ between ++ c :: back' := List.mem_append_right _ List.mem_cons_self
          rw [← (List.cons.inj hback).2] at hagain
          exact absurd hagain hc
    · have hlength := congrArg List.length hshorter
      simp only [List.length_append] at hlength
      omega

end Cut

end Text

namespace Report

theorem milliseconds_finite (units : Nat) : milliseconds (.finite units) = (shown units).text :=
  Binary64.fixed_eq (by decide) units

theorem cutAtLast?_text (r : Report) :
    Text.cutAtLast? [':', ' '] r.text = some (r.label.toList, milliseconds r.elapsedMs ++ ['m', 's']) := by
  obtain ⟨units, hunits, -⟩ := r.elapsedMs_below
  have hblank : ' ' ∉ milliseconds r.elapsedMs ++ ['m', 's'] := by
    rw [hunits, milliseconds_finite, List.mem_append, not_or]
    exact ⟨Decimal.FixedPoint.not_mem_text (by decide) (by decide), by decide⟩
  rw [Text.cutAtLast?_eq_some_iff, text, List.append_assoc]
  exact Text.lastCut_of_not_mem [':'] r.label.toList hblank

/-- The text form is determined by the label and the time that it shows, and determines them. -/
theorem text_eq_iff {r r' : Report} :
    r'.text = r.text ↔ r'.label = r.label ∧ milliseconds r'.elapsedMs = milliseconds r.elapsedMs := by
  constructor
  · intro htext
    have hcut := cutAtLast?_text r'
    rw [htext, cutAtLast?_text, Option.some.injEq, Prod.mk.injEq] at hcut
    exact ⟨String.toList_inj.mp hcut.1.symm, (List.append_cancel_right hcut.2).symm⟩
  · rintro ⟨hlabel, htime⟩
    rw [text, text, hlabel, htime]

/-- **The text form reads back.** Whatever the label is, the text cut at its last separator is the label in front, and
behind it a number with three places and the unit. The number is the time in milliseconds, rounded to three places; and
the reports with that text are those with the same label that show the same number. -/
theorem text_reads_back (r : Report) :
    ∃ text, ∃ number : Decimal.FixedPoint 3, ∃ units,
      r.render .text = .ok text ∧
      Text.cutAtLast? [':', ' '] text.toList = some (r.label.toList, number.text ++ ['m', 's']) ∧
      r.elapsedMs = .finite units ∧ number.count = roundHalfEven (units * 10 ^ 3) Binary64.one ∧
      ∀ r' : Report, r'.render .text = .ok text ↔
        r'.label = r.label ∧ milliseconds r'.elapsedMs = number.text := by
  obtain ⟨units, hunits, -⟩ := r.elapsedMs_below
  have hnumber : milliseconds r.elapsedMs = (shown units).text := by rw [hunits, milliseconds_finite]
  refine ⟨String.ofList r.text, shown units, units, rfl, ?_, hunits, Decimal.FixedPoint.count_ofCount _ _, ?_⟩
  · rw [String.toList_ofList, cutAtLast?_text, hnumber]
  · intro r'
    rw [← hnumber, ← text_eq_iff, render, Except.ok.injEq, String.ofList_inj]

end Report

end TemplateTiming
