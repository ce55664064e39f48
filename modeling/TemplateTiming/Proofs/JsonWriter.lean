import TemplateTiming.Json.Writer
import TemplateTiming.Proofs.JsonReader
import TemplateTiming.Proofs.Shortest

/-! What is written as JSON is JSON: strings with their escapes, whole numbers, doubles and objects keep to the
grammar, and mean what was to be written. No character below U+0020 occurs in them, so they stand on one line. -/

namespace TemplateTiming.Json

/-- The text is read as the value, wherever it stands. -/
def Written (text : List Char) (v : Json) : Prop := ∀ rest, Ends rest → Reads .value (text ++ rest) v rest

/-- The text has no character below U+0020, a line break for one. -/
def Printable (text : List Char) : Prop := ∀ c ∈ text, 0x20 ≤ c.toNat

theorem printable_append {a b : List Char} : Printable (a ++ b) ↔ Printable a ∧ Printable b := List.forall_mem_append

theorem printable_cons {c : Char} {cs : List Char} : Printable (c :: cs) ↔ 0x20 ≤ c.toNat ∧ Printable cs :=
  List.forall_mem_cons

theorem printable_singleton {c : Char} : Printable [c] ↔ 0x20 ≤ c.toNat := List.forall_mem_singleton

theorem printable_pair {c d : Char} (hc : 0x20 ≤ c.toNat) (hd : 0x20 ≤ d.toNat) : Printable [c, d] :=
  printable_cons.mpr ⟨hc, printable_singleton.mpr hd⟩

/-! ### Strings -/

theorem hexDigit_facts : ∀ n : Fin 16, hexValue? (Quoted.hexDigit false n) = some n.val ∧
    0x20 ≤ (Quoted.hexDigit false n).toNat := by
  decide

theorem hex_code {n : Nat} (hn : n < 0x20) (rest : List Char) :
    Hex ('0' :: '0' :: Quoted.hexDigit false (n / 16) :: Quoted.hexDigit false (n % 16) :: rest) n rest := by
  have hhigh := (hexDigit_facts ⟨n / 16, by omega⟩).1
  have hlow := (hexDigit_facts ⟨n % 16, by omega⟩).1
  have hzero : hexValue? '0' = some 0 := by decide
  have hvalue : ((0 * 16 + 0) * 16 + n / 16) * 16 + n % 16 = n := by omega
  have hcode : Hex _ (((0 * 16 + 0) * 16 + n / 16) * 16 + n % 16) rest := .digits hzero hzero hhigh hlow
  rwa [hvalue] at hcode

theorem Characters.escapeChar {text s rest : List Char} (h : Characters text s rest) (c : Char) :
    Characters (escapeChar c ++ text) (c :: s) rest := by
  unfold Json.escapeChar
  split_ifs with hquote hslash hback hfeed hline hreturn htab hcontrol
  · exact .escape (by rw [hquote]; rfl) h
  · exact .escape (by rw [hslash]; rfl) h
  · exact .escape (by rw [hback]; rfl) h
  · exact .escape (by rw [hfeed]; rfl) h
  · exact .escape (by rw [hline]; rfl) h
  · exact .escape (by rw [hreturn]; rfl) h
  · exact .escape (by rw [htab]; rfl) h
  · have hcode := Characters.code (hex_code hcontrol text) (Or.inl (by omega)) h
    rwa [Char.ofNat_toNat] at hcode
  · exact .plain (Nat.not_lt.mp hcontrol) hquote hslash h

theorem characters_flatMap (s rest : List Char) : Characters (s.flatMap escapeChar ++ '"' :: rest) s rest := by
  induction s with
  | nil => exact .close rest
  | cons c s ih =>
      rw [List.flatMap_cons, List.append_assoc]
      exact ih.escapeChar c

theorem writeString_append (s rest : List Char) :
    writeString s ++ rest = '"' :: (s.flatMap escapeChar ++ '"' :: rest) := by
  simp only [writeString, List.cons_append, List.append_assoc, List.nil_append]

theorem writeString_written (s : List Char) : Written (writeString s) (.string s) := by
  intro rest _
  rw [writeString_append]
  exact .string (characters_flatMap s rest)

theorem escapeChar_printable (c : Char) : Printable (escapeChar c) := by
  unfold escapeChar
  split_ifs with hquote hslash hback hfeed hline hreturn htab hcontrol
  iterate 7 exact printable_pair (by decide) (by decide)
  · have hhigh := (hexDigit_facts ⟨c.toNat / 16, by omega⟩).2
    have hlow := (hexDigit_facts ⟨c.toNat % 16, by omega⟩).2
    have hfront : Printable ['\\', 'u', '0', '0'] := by
      simp only [printable_cons]
      exact ⟨by decide, by decide, by decide, by decide, nofun⟩
    exact printable_append.mpr ⟨hfront, printable_pair hhigh hlow⟩
  · exact printable_singleton.mpr (Nat.not_lt.mp hcontrol)

theorem writeString_printable (s : List Char) : Printable (writeString s) := by
  refine printable_append.mpr ⟨printable_cons.mpr ⟨by decide, ?_⟩, printable_singleton.mpr (by decide)⟩
  intro d hd
  obtain ⟨c, _, hc⟩ := List.mem_flatMap.mp hd
  exact escapeChar_printable c d hc

/-! ### Numbers -/

theorem Numeral.written (n : Numeral) : Written n.text (.number n.text) := fun _ _ => .number n rfl

theorem Numeral.printable (n : Numeral) : Printable n.text := by
  intro c hc
  have hnumber := n.all_inNumber c hc
  rw [inNumber, Bool.or_eq_true, Decimal.isDigit_iff, List.contains_iff_mem] at hnumber
  rcases hnumber with hdigit | hmark
  · omega
  · simp only [List.mem_cons, List.not_mem_nil, or_false] at hmark
    rcases hmark with rfl | rfl | rfl | rfl | rfl <;> decide

theorem digits_whole (n : Nat) : Whole (Decimal.digits n) := by
  have hdigits : Digits (Decimal.digits n) :=
    ⟨Decimal.digits_ne_nil n, fun _ hd => Decimal.isDigit_of_mem_digits hd⟩
  by_cases hzero : n = 0
  · rw [hzero, Decimal.digits_zero]
    exact .zero
  · obtain ⟨d, ds, hcons⟩ := List.exists_cons_of_ne_nil (Decimal.digits_ne_nil n)
    have hhead := Decimal.digits_head hzero
    simp only [hcons, List.head_cons] at hhead
    rw [hcons] at hdigits ⊢
    exact .digits hhead hdigits

/-- A natural number in decimal. -/
def Numeral.ofNat (n : Nat) : Numeral where
  sign := []
  whole := Decimal.digits n
  fraction := []
  exponent := []
  sign_form := List.mem_cons_self
  whole_form := digits_whole n
  fraction_form := .none
  exponent_form := .none

theorem Numeral.ofNat_text (n : Nat) : (ofNat n).text = Decimal.digits n := by
  simp only [text, ofNat, List.nil_append, List.append_nil]

theorem exponentValue_nil : exponentValue [] = 0 := by decide

theorem Numeral.ofNat_modest {n : Nat} (hn : n < UInt64.size) : (ofNat n).Modest where
  whole := by
    rw [ofNat, Decimal.value_digits]
    exact hn
  exponent_low := by
    rw [ofNat, exponentValue_nil]
    decide
  exponent_high := by
    rw [ofNat, exponentValue_nil]
    decide

theorem Digits.zeros_append {ds : List Char} (h : Digits ds) (k : Nat) : Digits (List.replicate k '0' ++ ds) :=
  ⟨List.append_ne_nil_of_right_ne_nil _ h.1, List.forall_mem_append.mpr ⟨fun _ => Decimal.isDigit_of_mem_zeros, h.2⟩⟩

theorem Digits.append_zeros {ds : List Char} (h : Digits ds) (k : Nat) : Digits (ds ++ List.replicate k '0') :=
  ⟨List.append_ne_nil_of_left_ne_nil h.1 _, List.forall_mem_append.mpr ⟨h.2, fun _ => Decimal.isDigit_of_mem_zeros⟩⟩

theorem Digits.take {ds : List Char} (h : Digits ds) {k : Nat} (hk : 0 < k) : Digits (ds.take k) := by
  refine ⟨?_, fun c hc => h.2 c (List.mem_of_mem_take hc)⟩
  rw [Ne, List.take_eq_nil_iff]
  exact not_or.mpr ⟨hk.ne', h.1⟩

theorem Digits.drop {ds : List Char} (h : Digits ds) {k : Nat} (hk : k < ds.length) : Digits (ds.drop k) := by
  refine ⟨?_, fun c hc => h.2 c (List.mem_of_mem_drop hc)⟩
  rw [Ne, List.drop_eq_nil_iff]
  exact hk.not_ge

/-- A decimal that is written in place is a number without an exponent, with no more digits before the point than its
first one demands. -/
theorem positional_numeral {d : Char} {ds : List Char} (hd : d ≠ '0') (hds : Digits (d :: ds)) (e : Int) :
    ∃ n : Numeral, n.text = Binary64.positional (d :: ds) e ∧ n.exponent = [] ∧ n.whole.length ≤ e.toNat + 1 := by
  rw [Binary64.positional]
  split_ifs with hsmall
  · have hplaces := hds.zeros_append ((-e).toNat - 1)
    refine ⟨⟨[], ['0'], _, [], List.mem_cons_self, .zero, .places hplaces, .none⟩, ?_, rfl, ?_⟩
    · simp only [Numeral.text, List.nil_append, List.append_nil, List.cons_append]
    · exact Nat.le_add_left 1 _
  · have hfront := (hds.take (Nat.succ_pos e.toNat)).append_zeros (e.toNat + 1 - (d :: ds).length)
    have hback : Digits (if (d :: ds).length ≤ e.toNat + 1 then ['0'] else (d :: ds).drop (e.toNat + 1)) := by
      split_ifs with hwhole
      · exact Whole.zero.digits_form
      · exact hds.drop (not_le.mp hwhole)
    rw [List.take_succ_cons, List.cons_append] at hfront
    refine ⟨⟨[], _, _, [], List.mem_cons_self, .digits hd hfront, .places hback, .none⟩, ?_, rfl, ?_⟩
    · simp only [Numeral.text, List.nil_append, List.append_nil, List.take_succ_cons, List.cons_append,
        List.append_assoc]
    · simp only [List.length_cons, List.length_append, List.length_take, List.length_replicate]
      omega

/-- The sign of an exponent as it is written. -/
theorem exponent_sign (plus : Bool) (e : Int) : ∃ sign ∈ [[], ['+'], ['-']],
    (if e < 0 then ['-'] else if plus then ['+'] else []) = sign ∧ (sign = ['-'] ↔ e < 0) := by
  split_ifs with hneg hplus
  · exact ⟨['-'], by decide, rfl, iff_of_true rfl hneg⟩
  · exact ⟨['+'], by decide, rfl, iff_of_false (by decide) hneg⟩
  · exact ⟨[], by decide, rfl, iff_of_false (by decide) hneg⟩

/-- An exponent as it is written, with its value. -/
theorem exponent_written (plus : Bool) (e : Int) :
    ∃ power, (if e < 0 then ['-'] else if plus then ['+'] else []) ++ Decimal.digits e.natAbs = power ∧
      Exponent ('e' :: power) ∧ exponentValue ('e' :: power) = e := by
  obtain ⟨sign, hsign, hwritten, hminus⟩ := exponent_sign plus e
  have hsize : Digits (Decimal.digits e.natAbs) := (digits_whole e.natAbs).digits_form
  have hletter : 'e' ∈ ['e', 'E'] := List.mem_cons_self
  refine ⟨_, by rw [hwritten], .power hletter hsign hsize, ?_⟩
  rw [exponentValue_power hletter hsign hsize, Decimal.value_digits]
  split_ifs with hneg
  · have := hminus.mp hneg
    omega
  · have := mt hminus.mpr hneg
    omega

/-- A decimal that is written with an exponent is a number with one digit before the point and that exponent. -/
theorem scientific_numeral {d : Char} {ds : List Char} (hd : d ≠ '0') (hds : Digits (d :: ds)) (plus : Bool) (e : Int) :
    ∃ n : Numeral, n.text = Binary64.scientific plus (d :: ds) e ∧ exponentValue n.exponent = e ∧ n.whole = [d] := by
  obtain ⟨power, hwritten, hexponent, hvalue⟩ := exponent_written plus e
  have hfirst : Whole [d] :=
    .digits hd ⟨List.cons_ne_nil d [], List.forall_mem_singleton.mpr (hds.2 d List.mem_cons_self)⟩
  cases ds with
  | nil =>
      refine ⟨⟨[], [d], [], _, List.mem_cons_self, hfirst, .none, hexponent⟩, ?_, hvalue, rfl⟩
      simp only [Numeral.text, Binary64.scientific, hwritten, List.nil_append, List.append_nil, List.cons_append]
  | cons d' more =>
      have hplaces : Digits (d' :: more) := ⟨List.cons_ne_nil _ _, fun c hc => hds.2 c (List.mem_cons_of_mem _ hc)⟩
      refine ⟨⟨[], [d], _, _, List.mem_cons_self, hfirst, .places hplaces, hexponent⟩, ?_, hvalue, rfl⟩
      simp only [Numeral.text, Binary64.scientific, hwritten, List.nil_append, List.cons_append, List.append_assoc]

theorem Numeral.modest_of_length {n : Numeral} (hwhole : n.whole.length ≤ 16) (hlow : -1074 ≤ exponentValue n.exponent)
    (hhigh : exponentValue n.exponent ≤ 24) : n.Modest where
  whole := by
    calc Decimal.value n.whole < 10 ^ n.whole.length := Decimal.value_lt_pow n.whole_form.digits_form.2
      _ ≤ 10 ^ 16 := Nat.pow_le_pow_right (by decide) hwhole
      _ ≤ UInt64.size := by decide
  exponent_low := le_trans (by decide) hlow
  exponent_high := hhigh

/-- The greatest power of ten that doubles up to 2^79 begin with. -/
theorem power_le {e units : Nat} (hsize : 10 ^ e * Binary64.one ≤ 2 * units + 1)
    (hunits : units ≤ 2 ^ 79 * Binary64.one) : e ≤ 24 := by
  by_contra hlarge
  have hpower : 10 ^ 25 * Binary64.one ≤ 10 ^ e * Binary64.one :=
    Nat.mul_le_mul_right _ (Nat.pow_le_pow_right (by decide) (by omega))
  have hone := Binary64.one_pos
  omega

/-- **A double of moderate size is written as a number** that the reader takes. -/
theorem writeBinary64_numeral {x : Binary64} (hx : x.Below (2 ^ 79)) :
    ∃ n : Numeral, n.text = writeBinary64 x ∧ n.Modest := by
  obtain ⟨units, rfl, hunits⟩ := hx
  rw [writeBinary64, Binary64.layOut]
  split_ifs with hzero
  · have hplaces : Digits ['0'] := Whole.zero.digits_form
    refine ⟨⟨[], ['0'], _, [], List.mem_cons_self, .zero, .places hplaces, .none⟩, rfl, ?_⟩
    exact Numeral.modest_of_length (Nat.le_add_left 1 15) (by rw [exponentValue_nil]; decide)
      (by rw [exponentValue_nil]; decide)
  · have hfits := Binary64.shortest_fits hzero
    obtain ⟨d, ds, hdigits, hd, hds⟩ := Binary64.normal_digits hfits.nonzero
    have hlow := Binary64.le_normal_power hfits
    have hhigh : (Binary64.normal (Binary64.shortest units)).2 ≤ 24 := by
      by_contra hlarge
      have := power_le (Binary64.normal_power hfits (by omega)) hunits
      omega
    generalize Binary64.normal (Binary64.shortest units) = scaled at hdigits hlow hhigh
    obtain ⟨all, e⟩ := scaled
    obtain rfl : all = d :: ds := hdigits
    dsimp only at hlow hhigh ⊢
    split_ifs with hplain
    · obtain ⟨n, htext, hexponent, hwhole⟩ := positional_numeral hd ⟨List.cons_ne_nil d ds, hds⟩ e
      have hsize := (of_decide_eq_true hplain).2
      exact ⟨n, htext, Numeral.modest_of_length (by omega) (by rw [hexponent, exponentValue_nil]; decide)
        (by rw [hexponent, exponentValue_nil]; decide)⟩
    · obtain ⟨n, htext, hexponent, hwhole⟩ := scientific_numeral hd ⟨List.cons_ne_nil d ds, hds⟩ true e
      exact ⟨n, htext, Numeral.modest_of_length (by rw [hwhole]; exact Nat.le_add_left 1 15) (by rwa [hexponent])
        (by rwa [hexponent])⟩

/-! ### Objects -/

/-- A member as it is written. -/
def writeMember (m : List Char × List Char) : List Char := writeString m.1 ++ [':'] ++ m.2

theorem flatten_intersperse (text : List Char) (texts : List (List Char)) :
    ((text :: texts).intersperse [',']).flatten = text ++ texts.flatMap (',' :: ·) := by
  induction texts generalizing text with
  | nil => rw [List.intersperse_singleton, List.flatten_singleton, List.flatMap_nil, List.append_nil]
  | cons next texts ih =>
      rw [List.intersperse_cons_cons, List.flatten_cons, List.flatten_cons, ih, List.flatMap_cons]
      rfl

theorem writeObject_cons (m : List Char × List Char) (ms : List (List Char × List Char)) (rest : List Char) :
    writeObject (m :: ms) ++ rest
      = '\x7b' :: (writeMember m ++ (ms.flatMap (fun m => ',' :: writeMember m) ++ '}' :: rest)) := by
  have hjoined := flatten_intersperse (writeMember m) (ms.map writeMember)
  rw [List.flatMap_map] at hjoined
  change '\x7b' :: (((writeMember m :: ms.map writeMember).intersperse [',']).flatten ++ ['}']) ++ rest = _
  rw [hjoined]
  simp only [List.cons_append, List.append_assoc, List.nil_append]

/-- A value without brackets as it is written. -/
structure Plain (text : List Char) (v : Json) : Prop where
  written : Written text v
  printable : Printable text
  within (depth : Nat) : Within depth v

theorem writeString_plain (s : List Char) : Plain (writeString s) (.string s) where
  written := writeString_written s
  printable := writeString_printable s
  within depth := .string depth s

theorem Numeral.Modest.plain {n : Numeral} (h : n.Modest) : Plain n.text (.number n.text) where
  written := n.written
  printable := n.printable
  within depth := .number depth n rfl h

/-- A plain member under its key. -/
structure PlainMember (m : List Char × List Char) (v : List Char × Json) : Prop where
  key : m.1 = v.1
  value : Plain m.2 v.2

theorem Plain.member {text : List Char} {v : Json} (h : Plain text v) (key : List Char) :
    PlainMember (key, text) (key, v) :=
  ⟨rfl, h⟩

theorem PlainMember.reads {m : List Char × List Char} {v : List Char × Json} {values : List (List Char × Json)}
    {behind rest : List Char} (h : PlainMember m v) (hbehind : Reads .behindMember behind (.object values) rest) :
    Reads .members (writeMember m ++ behind) (.object (v :: values)) rest := by
  have hkey := characters_flatMap m.1 (':' :: (m.2 ++ behind))
  have hvalue := h.value.written behind (hbehind.ends (.inr rfl))
  have htext : writeMember m ++ behind = '"' :: (m.1.flatMap escapeChar ++ '"' :: ':' :: (m.2 ++ behind)) := by
    rw [writeMember, List.append_assoc, List.append_assoc, writeString_append]
    rfl
  rw [h.key] at hkey
  rw [htext, h.key]
  exact .member (.none _) hkey (.none _) (.none _) hvalue hbehind

theorem behindMember_reads {ms : List (List Char × List Char)} {values : List (List Char × Json)}
    (h : List.Forall₂ PlainMember ms values) (rest : List Char) :
    Reads .behindMember (ms.flatMap (fun m => ',' :: writeMember m) ++ '}' :: rest) (.object values) rest := by
  induction h with
  | nil => exact .lastMember (.none _)
  | cons hm _ ih =>
      rw [List.flatMap_cons, List.append_assoc]
      exact .nextMember (.none _) (hm.reads ih)

theorem writeObject_written {ms : List (List Char × List Char)} {values : List (List Char × Json)}
    (h : List.Forall₂ PlainMember ms values) : Written (writeObject ms) (.object values) := by
  intro rest _
  cases h with
  | nil => exact .noMembers (.none _)
  | cons hm hms =>
      rw [writeObject_cons]
      exact .object (hm.reads (behindMember_reads hms rest))

theorem writeMember_printable {m : List Char × List Char} (h : Printable m.2) : Printable (writeMember m) :=
  printable_append.mpr
    ⟨printable_append.mpr ⟨writeString_printable m.1, printable_singleton.mpr (by decide)⟩, h⟩

theorem writeObject_printable {ms : List (List Char × List Char)} (h : ∀ m ∈ ms, Printable m.2) :
    Printable (writeObject ms) := by
  cases ms with
  | nil => exact printable_pair (by decide) (by decide)
  | cons m ms =>
      have hms : Printable (ms.flatMap fun m => ',' :: writeMember m) := by
        intro c hc
        obtain ⟨m', hm', hc⟩ := List.mem_flatMap.mp hc
        have hmember := writeMember_printable (h m' (List.mem_cons_of_mem m hm'))
        exact printable_cons.mpr ⟨by decide, hmember⟩ c hc
      have hm := writeMember_printable (h m List.mem_cons_self)
      have hclose : Printable ['}'] := printable_singleton.mpr (by decide)
      rw [← List.append_nil (writeObject (m :: ms)), writeObject_cons]
      exact printable_cons.mpr ⟨by decide, printable_append.mpr ⟨hm, printable_append.mpr ⟨hms, hclose⟩⟩⟩

theorem plain_members {ms : List (List Char × List Char)} {values : List (List Char × Json)}
    (h : List.Forall₂ PlainMember ms values) :
    (∀ m ∈ ms, Printable m.2) ∧ ∀ v ∈ values, ∀ depth, Within depth v.2 := by
  induction h with
  | nil => exact ⟨nofun, nofun⟩
  | cons hm _ ih =>
      exact ⟨List.forall_mem_cons.mpr ⟨hm.value.printable, ih.1⟩,
        List.forall_mem_cons.mpr ⟨hm.value.within, ih.2⟩⟩

/-- **An object of plain members is written on one line, the grammar allows no other reading of that line, and the
reader finds the members again.** -/
theorem writeObject_parse {ms : List (List Char × List Char)} {values : List (List Char × Json)}
    (h : List.Forall₂ PlainMember ms values) :
    Printable (writeObject ms) ∧ (∀ v, Denotes (writeObject ms) v ↔ v = .object values) ∧
      parse (writeObject ms) = .ok (.object values) := by
  have hdenotes : Denotes (writeObject ms) (.object values) := by
    have hreads := writeObject_written h [] ends_nil
    rw [List.append_nil] at hreads
    exact ⟨_, _, .none _, hreads, .none _⟩
  obtain ⟨hprintable, hwithin⟩ := plain_members h
  refine ⟨writeObject_printable hprintable, fun v => ⟨fun hv => hv.unique hdenotes, ?_⟩, hdenotes.parse_eq (.object ?_)⟩
  · rintro rfl
    exact hdenotes
  · exact fun v hv => hwithin v hv _

end TemplateTiming.Json
