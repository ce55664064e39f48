import TemplateTiming.Proofs.Calendar
import TemplateTiming.Proofs.Places
import TemplateTiming.Proofs.Rendering

/-! The start of a run in its report. The text of a point in time reads back field by field: each number ends before the
sign behind it, and the fraction has the fewest digits of those allowed that leave nothing out. -/

namespace TemplateTiming

namespace Decimal

theorem le_length_padded (width n : Nat) : width ≤ (padded width n).length := by
  rw [padded, List.length_append, List.length_replicate]
  omega

theorem takeWhile_padded (width n : Nat) {c : Char} (hc : isDigit c = false) (rest : List Char) :
    (padded width n ++ c :: rest).takeWhile isDigit = padded width n := by
  rw [List.takeWhile_append_of_pos fun d => isDigit_of_mem_padded, List.takeWhile_cons_of_neg (by simp [hc]),
    List.append_nil]

theorem dropWhile_padded (width n : Nat) {c : Char} (hc : isDigit c = false) (rest : List Char) :
    (padded width n ++ c :: rest).dropWhile isDigit = c :: rest := by
  rw [List.dropWhile_append_of_pos fun d => isDigit_of_mem_padded, List.dropWhile_cons_of_neg (by simp [hc])]

end Decimal

namespace Instant

theorem readNumber?_padded {width n : Nat} (hwidth : 0 < width) (hn : n < 10 ^ width) (rest : List Char) :
    readNumber? width (Decimal.padded width n ++ rest) = some (n, rest) := by
  have hlength := Decimal.length_padded hwidth hn
  have hall : (Decimal.padded width n).all Decimal.isDigit = true :=
    List.all_eq_true.mpr fun _ => Decimal.isDigit_of_mem_padded
  rw [readNumber?, List.take_left' hlength, List.drop_left' hlength, if_pos ⟨hlength, hall⟩, Decimal.value_padded]

theorem readYear?_unsigned {cs : List Char} (hplus : cs.head? ≠ some '+') (hminus : cs.head? ≠ some '-') :
    readYear? cs = (readNumber? 4 cs).map fun (n, rest) => ((n : Int), rest) := by
  unfold readYear?
  simp only
  split
  · exact absurd rfl hplus
  · exact absurd rfl hminus
  · rfl

theorem head?_padded_ne {width n : Nat} (hwidth : 0 < width) (hn : n < 10 ^ width) (rest : List Char) {c : Char}
    (hc : Decimal.isDigit c = false) : (Decimal.padded width n ++ rest).head? ≠ some c := by
  have hne : Decimal.padded width n ≠ [] :=
    List.ne_nil_of_length_pos (by rw [Decimal.length_padded hwidth hn]; exact hwidth)
  rw [List.head?_append_of_ne_nil _ hne]
  intro hhead
  rw [Decimal.isDigit_of_mem_padded (List.mem_of_head? hhead)] at hc
  cases hc

theorem readYear?_yearText (year : Int) (rest : List Char) :
    readYear? (Date.yearText year ++ '-' :: rest) = some (year, '-' :: rest) := by
  have hdash : Decimal.isDigit '-' = false := by decide
  have hwide := Decimal.le_length_padded 4 year.natAbs
  simp only [Date.yearText]
  split_ifs with hplain hnegative
  · have hsmall : year.natAbs < 10 ^ 4 := by omega
    rw [readYear?_unsigned (head?_padded_ne (by decide) hsmall _ (by decide))
      (head?_padded_ne (by decide) hsmall _ (by decide)), readNumber?_padded (by decide) hsmall, Option.map_some]
    simp only [Option.some.injEq, Prod.mk.injEq, and_true]
    omega
  · simp only [List.cons_append, readYear?, Decimal.takeWhile_padded 4 _ hdash, Decimal.dropWhile_padded 4 _ hdash,
      if_pos hwide, Decimal.value_padded, if_true, Option.some.injEq, Prod.mk.injEq, and_true]
    omega
  · simp only [List.cons_append, readYear?, Decimal.takeWhile_padded 4 _ hdash, Decimal.dropWhile_padded 4 _ hdash,
      if_pos hwide, Decimal.value_padded, Bool.false_eq_true, if_false, Option.some.injEq, Prod.mk.injEq, and_true]
    omega

theorem readDate?_text {d : Date} (h : d.isValid = true) (rest : List Char) :
    readDate? (d.text ++ rest) = some (d, rest) := by
  obtain ⟨hlow, -, hlength⟩ := (Date.isValid_iff d).mp h
  have hmonth := Date.month_le_of_isValid h
  have hbounds := Date.monthLength_bounds d hlow hmonth
  have htext : d.text ++ rest = Date.yearText d.year ++ '-' :: (Decimal.padded 2 d.month ++
      '-' :: (Decimal.padded 2 d.day ++ rest)) := by
    simp only [Date.text, List.append_assoc, List.cons_append, List.nil_append]
  rw [htext, readDate?, readYear?_yearText]
  simp only [skip?, Option.bind_eq_bind, Option.bind_some, if_true,
    readNumber?_padded (show 0 < 2 by decide) (show d.month < 10 ^ 2 by omega),
    readNumber?_padded (show 0 < 2 by decide) (show d.day < 10 ^ 2 by omega), h]

/-- Whether so many digits are enough for the nanoseconds, for each number of digits that there is. -/
theorem suffices_iff (shown nano : Nat) :
    (∀ k ∈ [0, 3, 6, 9], shown ≤ k ↔ 10 ^ (9 - k) ∣ nano) ↔
      (shown ≤ 0 ↔ 1000000000 ∣ nano) ∧ (shown ≤ 3 ↔ 1000000 ∣ nano) ∧ (shown ≤ 6 ↔ 1000 ∣ nano) ∧
        (shown ≤ 9 ↔ 1 ∣ nano) := by
  simp

/-- A fraction that is written has three, six or nine digits, which are enough, and fewer would not be. -/
theorem fractionText_cases {nano : Nat} (h : nano < 1000000000) :
    (nano = 0 ∧ fractionText nano = []) ∨
      ∃ width n, width ∈ [3, 6, 9] ∧ n < 10 ^ width ∧ n * 10 ^ (9 - width) = nano ∧
        fractionText nano = '.' :: Decimal.padded width n ∧ ∀ k ∈ [0, 3, 6, 9], width ≤ k ↔ 10 ^ (9 - k) ∣ nano := by
  simp only [suffices_iff]
  unfold fractionText
  split_ifs with hnone hmilli hmicro
  · exact Or.inl ⟨hnone, rfl⟩
  · exact Or.inr ⟨3, _, by decide, by omega, Nat.div_mul_cancel (Nat.dvd_of_mod_eq_zero hmilli), rfl, by omega⟩
  · exact Or.inr ⟨6, _, by decide, by omega, Nat.div_mul_cancel (Nat.dvd_of_mod_eq_zero hmicro), rfl, by omega⟩
  · exact Or.inr ⟨9, _, by decide, h, Nat.mul_one nano, rfl, by omega⟩

/-- Behind the fraction stands the letter that ends the text. -/
theorem readFraction?_padded {width n : Nat} (hlow : 0 < width) (hhigh : width ≤ 9) (hn : n < 10 ^ width) :
    readFraction? ('.' :: (Decimal.padded width n ++ ['Z'])) = some (n * 10 ^ (9 - width), ['Z']) := by
  have hsign : Decimal.isDigit 'Z' = false := by decide
  have hlength := Decimal.length_padded hlow hn
  simp only [readFraction?, Decimal.takeWhile_padded width n hsign, Decimal.dropWhile_padded width n hsign, hlength,
    Decimal.value_padded]
  exact if_pos ⟨hlow, hhigh⟩

theorem width_bounds {width : Nat} (h : width ∈ [3, 6, 9]) : 0 < width ∧ width ≤ 9 := by
  simp only [List.mem_cons, List.not_mem_nil, or_false] at h
  omega

theorem readFraction?_fractionText {nano : Nat} (h : nano < 1000000000) :
    readFraction? (fractionText nano ++ ['Z']) = some (nano, ['Z']) := by
  rcases fractionText_cases h with ⟨rfl, htext⟩ | ⟨width, n, hwidth, hn, hexact, htext, -⟩
  · rw [htext]
    rfl
  · obtain ⟨hlow, hhigh⟩ := width_bounds hwidth
    rw [htext, List.cons_append, readFraction?_padded hlow hhigh hn, hexact]

theorem readClock?_clockText {secondOfDay nano : Nat} (hday : secondOfDay < 86400) (hnano : nano < 2000000000)
    (hleap : 1000000000 ≤ nano → secondOfDay % 60 = 59) :
    readClock? (clockText secondOfDay nano ++ ['Z']) = some ((secondOfDay, nano), ['Z']) := by
  have htext : clockText secondOfDay nano ++ ['Z'] = Decimal.padded 2 (secondOfDay / 3600) ++
      ':' :: (Decimal.padded 2 (secondOfDay / 60 % 60) ++
        ':' :: (Decimal.padded 2 (secondOfDay % 60 + nano / 1000000000) ++
          (fractionText (nano % 1000000000) ++ ['Z']))) := by
    simp only [clockText, List.append_assoc, List.cons_append, List.nil_append]
  rw [htext, readClock?]
  simp only [skip?, Option.bind_eq_bind, Option.bind_some, if_true,
    readNumber?_padded (show 0 < 2 by decide) (show secondOfDay / 3600 < 10 ^ 2 by omega),
    readNumber?_padded (show 0 < 2 by decide) (show secondOfDay / 60 % 60 < 10 ^ 2 by omega),
    readNumber?_padded (show 0 < 2 by decide) (show secondOfDay % 60 + nano / 1000000000 < 10 ^ 2 by omega),
    readFraction?_fractionText (Nat.mod_lt nano (show 0 < 1000000000 by decide))]
  rw [if_neg (by omega)]
  split_ifs with hsixty
  · simp only [Option.some.injEq, Prod.mk.injEq, and_true]
    omega
  · simp only [Option.some.injEq, Prod.mk.injEq, and_true]
    omega

/-- What is written of a point in time reads back. -/
theorem parse?_text (t : Instant) : parse? t.text = some t := by
  have hday : (t.second % 86400).toNat < 86400 := by omega
  have hleap : 1000000000 ≤ t.nano → (t.second % 86400).toNat % 60 = 59 := by
    intro hnano
    have := t.leap hnano
    omega
  have htext : t.text = (Date.ofDays (t.second / 86400)).text ++
      'T' :: (clockText (t.second % 86400).toNat t.nano ++ ['Z']) := by
    simp only [text, List.append_assoc, List.cons_append, List.nil_append]
  rw [htext, parse?, readDate?_text (Date.ofDays_isValid _)]
  simp only [skip?, Option.bind_eq_bind, Option.bind_some, if_true, readClock?_clockText hday t.nano_lt hleap]
  rw [Date.toDays_ofDays]
  have hsecond : t.second / 86400 * 86400 + ((t.second % 86400).toNat : Int) = t.second := by omega
  rw [hsecond, ofUnix?, dif_pos ⟨t.nano_lt, t.leap⟩]

/-! ### The digits of the fraction -/

/-- The number of digits behind the point of a text. -/
def places (cs : List Char) : Nat := ((cs.dropWhile (· ≠ '.')).filter Decimal.isDigit).length

theorem places_append {front : List Char} (h : '.' ∉ front) (rest : List Char) :
    places (front ++ rest) = places rest := by
  have hkeep : ∀ c ∈ front, decide (c ≠ '.') = true := fun c hc => decide_eq_true (fun heq => h (heq ▸ hc))
  rw [places, List.dropWhile_append_of_pos hkeep, places]

theorem places_padded {width n : Nat} (hwidth : 0 < width) (hn : n < 10 ^ width) :
    places ('.' :: (Decimal.padded width n ++ ['Z'])) = width := by
  have hdigits : (Decimal.padded width n).filter Decimal.isDigit = Decimal.padded width n :=
    List.filter_eq_self.mpr fun _ => Decimal.isDigit_of_mem_padded
  have hsigns : Decimal.isDigit '.' = false ∧ Decimal.isDigit 'Z' = false := by decide
  rw [places, List.dropWhile_cons_of_neg (by decide), List.filter_cons_of_neg (by simp [hsigns.1]), List.filter_append,
    hdigits, List.filter_cons_of_neg (by simp [hsigns.2]), List.filter_nil, List.append_nil,
    Decimal.length_padded hwidth hn]

theorem point_not_mem_padded (width n : Nat) : '.' ∉ Decimal.padded width n := by
  intro hmem
  exact absurd (Decimal.isDigit_of_mem_padded hmem) (by decide)

theorem point_not_mem_yearText (year : Int) : '.' ∉ Date.yearText year := by
  simp only [Date.yearText]
  split_ifs <;> simp [point_not_mem_padded]

/-- Date and clock time have no point before the fraction. -/
theorem places_text_eq (t : Instant) : places t.text = places (fractionText (t.nano % 1000000000) ++ ['Z']) := by
  obtain ⟨front, hfront, htext⟩ : ∃ front, '.' ∉ front ∧
      t.text = front ++ (fractionText (t.nano % 1000000000) ++ ['Z']) := by
    let seconds := (t.second % 86400).toNat
    refine ⟨(Date.ofDays (t.second / 86400)).text ++ ['T'] ++ Decimal.padded 2 (seconds / 3600) ++ [':'] ++
      Decimal.padded 2 (seconds / 60 % 60) ++ [':'] ++ Decimal.padded 2 (seconds % 60 + t.nano / 1000000000), ?_, ?_⟩
    · simp [Date.text, point_not_mem_padded, point_not_mem_yearText]
    · simp only [text, clockText, List.append_assoc, seconds]
  rw [htext, places_append hfront]

/-- So many digits are enough for the nanoseconds if and only if the text has no more. -/
theorem places_text (t : Instant) :
    places t.text ∈ [0, 3, 6, 9] ∧ ∀ k ∈ [0, 3, 6, 9], places t.text ≤ k ↔ 10 ^ (9 - k) ∣ t.nano := by
  have hwhole (k : Nat) : 10 ^ (9 - k) ∣ t.nano % 1000000000 ↔ 10 ^ (9 - k) ∣ t.nano :=
    Nat.dvd_mod_iff (Nat.pow_dvd_pow 10 (Nat.sub_le 9 k))
  simp only [places_text_eq, ← hwhole]
  rcases fractionText_cases (Nat.mod_lt t.nano (show 0 < 1000000000 by decide)) with
    ⟨hnone, htext⟩ | ⟨width, n, hwidth, hn, -, htext, hexact⟩
  · have hplaces : places ([] ++ ['Z']) = 0 := by decide
    rw [htext, hplaces, hnone]
    exact ⟨by decide, fun k _ => iff_of_true (Nat.zero_le k) (Nat.dvd_zero _)⟩
  · rw [htext, List.cons_append, places_padded (width_bounds hwidth).1 hn]
    exact ⟨List.mem_cons_of_mem 0 hwidth, hexact⟩

theorem text_injective {t t' : Instant} (h : t.text = t'.text) : t = t' := by
  have hread := parse?_text t
  rw [h, parse?_text, Option.some.injEq] at hread
  exact hread.symm

end Instant

namespace Report

theorem values_startedAt (r : Report) (mean : Duration) :
    (Json.object (r.values mean)).stringAt? "started_at" = some (String.ofList r.startedAt.text) := by
  simp [Json.stringAt?, Json.member?, values]

/-- **The start time of a report reads back.** The JSON form denotes one value, and the string in it under the start
time, read as a date and a clock time of the Gregorian calendar in UTC, is the second and the nanosecond at which the
run started, a leap second as second 60. It has 0, 3, 6 or 9 digits behind the point, as few of them as are exact; and
reports that show the same string started at the same time. -/
theorem startedAt_reads_back (r : Report) (hbytes : r.inputBytes < UInt64.size) :
    ∃ text value shown, r.render .json = .ok text ∧ (∀ v, Json.Denotes text.toList v ↔ v = value) ∧
      Json.parse text.toList = .ok value ∧ value.stringAt? "started_at" = some shown ∧
      Instant.parse? shown.toList = some r.startedAt ∧
      Instant.places shown.toList ∈ [0, 3, 6, 9] ∧
      (∀ k ∈ [0, 3, 6, 9], Instant.places shown.toList ≤ k ↔ 10 ^ (9 - k) ∣ r.startedAt.nano) ∧
      ∀ r' : Report, r'.inputBytes < UInt64.size → ∀ text' value', r'.render .json = .ok text' →
        Json.parse text'.toList = .ok value' → value'.stringAt? "started_at" = some shown →
        r'.startedAt = r.startedAt := by
  obtain ⟨mean, hmean⟩ := r.meanIteration?_isSome
  obtain ⟨text, htext, hdenotes, hparse⟩ := render_json hbytes hmean
  refine ⟨text, _, _, htext, hdenotes, hparse, r.values_startedAt mean, ?_⟩
  rw [String.toList_ofList]
  obtain ⟨hplaces, hexact⟩ := Instant.places_text r.startedAt
  refine ⟨Instant.parse?_text r.startedAt, hplaces, hexact, ?_⟩
  intro r' hbytes' text' value' htext' hparse' hshown
  obtain ⟨mean', hmean'⟩ := r'.meanIteration?_isSome
  obtain ⟨text'', htext'', -, hparse''⟩ := render_json hbytes' hmean'
  obtain rfl : text' = text'' := Except.ok.inj (htext'.symm.trans htext'')
  obtain rfl : value' = _ := Except.ok.inj (hparse'.symm.trans hparse'')
  rw [values_startedAt, Option.some.injEq] at hshown
  exact Instant.text_injective (String.ofList_injective hshown)

/-- A leap second at the end of the year before the year 0. -/
theorem startedAt_reads_back_leap :
    let leap : Instant := ⟨-62167219201, 1000250000, by decide, by decide⟩
    let r : Report := { imitating with startedAt := leap }
    r.inputBytes < UInt64.size ∧ leap.text = "-0001-12-31T23:59:60.000250Z".toList ∧
      ∃ text value shown, r.render .json = .ok text ∧ Json.parse text.toList = .ok value ∧
        value.stringAt? "started_at" = some shown ∧ Instant.parse? shown.toList = some leap ∧
        Instant.places shown.toList = 6 := by
  intro leap r
  have hbytes : r.inputBytes < UInt64.size := by decide
  obtain ⟨text, value, shown, htext, -, hparse, hshown, hread, hplaces, hexact, -⟩ := startedAt_reads_back r hbytes
  have hsix : Instant.places shown.toList ≤ 6 := (hexact 6 (by decide)).mpr (by decide)
  have hthree : ¬Instant.places shown.toList ≤ 3 := fun h => absurd ((hexact 3 (by decide)).mp h) (by decide)
  simp only [List.mem_cons, List.not_mem_nil, or_false] at hplaces
  exact ⟨hbytes, by decide +kernel, text, value, shown, htext, hparse, hshown, hread, by omega⟩

end Report

end TemplateTiming
