import TemplateTiming.Proofs.Decimal
import TemplateTiming.Proofs.JsonGrammar
import TemplateTiming.Proofs.Result
import TemplateTiming.Proofs.Rounding

/-! The reader is complete: a text of the grammar is read as the value that it denotes. The reader has limits that the
grammar lacks, on the levels of brackets and on the size of numbers, and values within them are singled out first. It
also counts its steps; twice the length of the text is enough, since every second step reads a character. -/

namespace TemplateTiming.Json

/-! ### Blanks and strings -/

theorem isSpace_iff (c : Char) : isSpace c = true ↔ c ∈ [' ', '\t', '\n', '\r'] := by
  simp only [isSpace, Bool.or_eq_true, beq_iff_eq, List.mem_cons, List.not_mem_nil, or_false]
  tauto

theorem Blanks.skipSpace {text rest : List Char} (h : Blanks text rest) (hsolid : Solid rest) :
    skipSpace text = rest := by
  induction h with
  | none text =>
      cases text with
      | nil => rfl
      | cons c more =>
          have hc : ¬isSpace c = true := fun h => hsolid c rfl ((isSpace_iff c).mp h)
          exact List.dropWhile_cons_of_neg hc
  | more hc _ ih => exact (List.dropWhile_cons_of_pos ((isSpace_iff _).mpr hc)).trans (ih hsolid)

theorem Blanks.length_le {text rest : List Char} (h : Blanks text rest) : rest.length ≤ text.length := by
  induction h with
  | none => exact le_rfl
  | more _ _ ih => exact ih.trans (Nat.le_succ _)

theorem Hex.length_lt {text rest : List Char} {n : Nat} (h : Hex text n rest) : rest.length < text.length := by
  cases h with
  | digits =>
      simp only [List.length_cons]
      omega

theorem Hex.read {text rest : List Char} {n : Nat} (h : Hex text n rest) : readHex text = .ok (n, rest) := by
  cases h with
  | digits ha hb hc hd => simp [readHex, ha, hb, hc, hd]

theorem Characters.length_lt {text s rest : List Char} (h : Characters text s rest) : rest.length < text.length := by
  induction h with
  | close => exact Nat.lt_succ_self _
  | plain _ _ _ _ ih => exact ih.trans (Nat.lt_succ_self _)
  | escape _ _ ih =>
      simp only [List.length_cons]
      omega
  | code hhex _ _ ih =>
      have hshorter := hhex.length_lt
      simp only [List.length_cons]
      omega
  | pair hhigh _ _ hlow _ _ _ ih =>
      have hshorter := hhigh.length_lt
      have hshorter' := hlow.length_lt
      simp only [List.length_cons] at hshorter ⊢
      omega

theorem readEscape_letter {letter c : Char} (h : escapes.lookup letter = some c) (rest : List Char) :
    readEscape (letter :: rest) = .ok (c, rest) := by
  obtain ⟨front, behind, hsplit, _⟩ := List.lookup_eq_some_iff.mp h
  have hmem : (letter, c) ∈ escapes := by
    rw [hsplit]
    exact List.mem_append_right front List.mem_cons_self
  simp only [escapes, List.mem_cons, Prod.mk.injEq, List.not_mem_nil, or_false] at hmem
  rcases hmem with ⟨rfl, rfl⟩ | ⟨rfl, rfl⟩ | ⟨rfl, rfl⟩ | ⟨rfl, rfl⟩ | ⟨rfl, rfl⟩ | ⟨rfl, rfl⟩ | ⟨rfl, rfl⟩ |
    ⟨rfl, rfl⟩ <;> rfl

theorem readUnicodeEscape_code {text rest : List Char} {n : Nat} (h : Hex text n rest) (hn : n < 0xD800 ∨ 0xDFFF < n) :
    readUnicodeEscape text = .ok (Char.ofNat n, rest) := by
  refine bind_eq_ok_iff.mpr ⟨_, h.read, ?_⟩
  dsimp only
  rw [if_neg (by omega), if_neg (by omega)]

theorem readUnicodeEscape_pair {text middle rest : List Char} {high low : Nat}
    (hhigh : Hex text high ('\\' :: 'u' :: middle)) (hfrom : 0xD800 ≤ high) (hto : high ≤ 0xDBFF)
    (hlow : Hex middle low rest) (hfrom' : 0xDC00 ≤ low) (hto' : low ≤ 0xDFFF) :
    readUnicodeEscape text = .ok (Char.ofNat (0x10000 + (high - 0xD800) * 0x400 + (low - 0xDC00)), rest) := by
  refine bind_eq_ok_iff.mpr ⟨_, hhigh.read, ?_⟩
  dsimp only
  rw [if_neg (by omega), if_pos ⟨hfrom, hto⟩]
  refine bind_eq_ok_iff.mpr ⟨_, hlow.read, ?_⟩
  dsimp only
  rw [if_pos ⟨hfrom', hto'⟩]

/-- There is a step left to take. -/
theorem exists_step {n steps : Nat} (h : n < steps) : ∃ left, steps = left + 1 :=
  Nat.exists_eq_add_one_of_ne_zero (Nat.ne_zero_of_lt h)

theorem exists_two_steps {steps : Nat} (h : 1 < steps) : ∃ left, steps = left + 1 + 1 := by
  obtain ⟨steps, rfl⟩ := exists_step h
  obtain ⟨steps, rfl⟩ := exists_step (Nat.lt_of_succ_lt_succ h)
  exact ⟨steps, rfl⟩

/-- An escape and the rest of the string. -/
theorem readString_escape {steps : Nat} {text more s rest : List Char} {c : Char}
    (hescape : readEscape text = .ok (c, more)) (hmore : readString steps more = .ok (s, rest)) :
    readString (steps + 1) ('\\' :: text) = .ok (c :: s, rest) := by
  rw [readString, if_neg (by decide), if_pos rfl]
  exact bind_eq_ok_iff.mpr ⟨_, hescape, bind_eq_ok_iff.mpr ⟨_, hmore, rfl⟩⟩

theorem Characters.read {text s rest : List Char} (h : Characters text s rest) {steps : Nat}
    (hsteps : text.length < steps) : readString steps text = .ok (s, rest) := by
  induction h generalizing steps with
  | close =>
      obtain ⟨steps, rfl⟩ := exists_step hsteps
      rw [readString, if_pos rfl]
  | plain hprintable hquote hslash _ ih =>
      obtain ⟨steps, rfl⟩ := exists_step hsteps
      rw [readString, if_neg hquote, if_neg hslash, if_neg (Nat.not_lt.mpr hprintable)]
      exact bind_eq_ok_iff.mpr ⟨_, ih (Nat.lt_of_succ_lt_succ hsteps), rfl⟩
  | escape hletter _ ih =>
      obtain ⟨steps, rfl⟩ := exists_step hsteps
      simp only [List.length_cons] at hsteps
      exact readString_escape (readEscape_letter hletter _) (ih (by omega))
  | code hhex hrange _ ih =>
      obtain ⟨steps, rfl⟩ := exists_step hsteps
      have hshorter := hhex.length_lt
      simp only [List.length_cons] at hsteps
      exact readString_escape (readUnicodeEscape_code hhex hrange) (ih (by omega))
  | pair hhigh hfrom hto hlow hfrom' hto' _ ih =>
      obtain ⟨steps, rfl⟩ := exists_step hsteps
      have hshorter := hhigh.length_lt
      have hshorter' := hlow.length_lt
      simp only [List.length_cons] at hsteps hshorter
      exact readString_escape (readUnicodeEscape_pair hhigh hfrom hto hlow hfrom' hto') (ih (by omega))

/-! ### Numbers -/

/-- No digit follows. -/
def NoDigit (text : List Char) : Prop := ∀ c ∈ text.head?, Decimal.isDigit c = false

theorem noDigit_cons {c : Char} (hc : Decimal.isDigit c = false) (text : List Char) : NoDigit (c :: text) := by
  rintro _ ⟨⟩
  exact hc

theorem Ends.noDigit {text : List Char} (h : Ends text) : NoDigit text := by
  intro c hc
  have hnumber := h c hc
  rw [inNumber, Bool.or_eq_false_iff] at hnumber
  exact hnumber.1

theorem Exponent.noDigit {cs rest : List Char} (h : Exponent cs) (hrest : Ends rest) : NoDigit (cs ++ rest) := by
  cases h with
  | none => exact hrest.noDigit
  | power hletter _ _ =>
      apply noDigit_cons
      rcases List.mem_pair.mp hletter with rfl | rfl <;> decide

theorem Fraction.noDigit {cs rest : List Char} (h : Fraction cs) (hrest : NoDigit rest) : NoDigit (cs ++ rest) := by
  cases h with
  | none => exact hrest
  | places _ => exact noDigit_cons (by decide) _

/-- Digits are taken up to where they end. -/
theorem Digits.span {ds rest : List Char} (h : Digits ds) (hrest : NoDigit rest) :
    (ds ++ rest).takeWhile Decimal.isDigit = ds ∧ (ds ++ rest).dropWhile Decimal.isDigit = rest := by
  rw [List.takeWhile_append_of_pos h.2, List.dropWhile_append_of_pos h.2]
  cases rest with
  | nil => exact ⟨List.append_nil ds, rfl⟩
  | cons c more =>
      have hc : ¬Decimal.isDigit c = true := by rw [hrest c rfl]; exact Bool.false_ne_true
      rw [List.takeWhile_cons_of_neg hc, List.dropWhile_cons_of_neg hc]
      exact ⟨List.append_nil ds, rfl⟩

theorem Digits.read {ds rest : List Char} (h : Digits ds) (hrest : NoDigit rest) :
    readDigits (ds ++ rest) = .ok (ds, rest) := by
  obtain ⟨htake, hdrop⟩ := h.span hrest
  rw [readDigits, htake, hdrop]
  split
  next => exact absurd rfl h.1
  next => rfl

theorem Whole.read {ds rest : List Char} (h : Whole ds) (hrest : NoDigit rest) :
    readWhole (ds ++ rest) = .ok (ds, rest) := by
  cases h with
  | zero =>
      cases rest with
      | nil => rfl
      | cons c more =>
          rw [List.singleton_append, readWhole, if_neg]
          rw [hrest c rfl]
          exact Bool.false_ne_true
  | digits hd hds =>
      rw [List.cons_append, readWhole.eq_def]
      split
      next hzero => exact absurd (List.cons.inj hzero).1 hd
      next =>
        dsimp only
        rw [if_pos (hds.2 _ List.mem_cons_self)]
        exact hds.read hrest

theorem Fraction.read {cs rest : List Char} (h : Fraction cs) (hrest : NoDigit rest)
    (hpoint : ∀ c ∈ rest.head?, c ≠ '.') : readFraction (cs ++ rest) = .ok (cs, rest) := by
  cases h with
  | none =>
      rw [List.nil_append, readFraction]
      rintro more rfl
      exact hpoint _ rfl rfl
  | places hds => exact bind_eq_ok_iff.mpr ⟨_, hds.read hrest, rfl⟩

/-- The value of digits behind those that make up `front`. -/
def continued (front : Nat) (ds : List Char) : Nat := ds.foldl (fun n c => 10 * n + Decimal.digitValue c) front

theorem continued_cons (front : Nat) (d : Char) (ds : List Char) :
    continued front (d :: ds) = continued (10 * front + Decimal.value [d]) ds := by
  simp only [continued, Decimal.value, List.foldl_cons, List.foldl_nil, Nat.mul_zero, Nat.zero_add]

theorem le_continued (front : Nat) (ds : List Char) : front ≤ continued front ds := by
  induction ds generalizing front with
  | nil => exact le_rfl
  | cons d ds ih =>
      rw [continued_cons]
      exact le_trans (by omega) (ih _)

theorem overlongExponent?_eq_none {front : Nat} {ds : List Char} (h : continued front ds ≤ maxExponent) :
    overlongExponent? front ds = none := by
  induction ds generalizing front with
  | nil => rfl
  | cons d ds ih =>
      rw [continued_cons] at h
      have hfront := (le_continued _ ds).trans h
      rw [overlongExponent?, if_neg (Nat.not_lt.mpr hfront), ih h, Option.map_none]

/-- Nothing is left over of digits whose value has 64 bits. -/
theorem significand_all {front : Nat} {ds : List Char} (h : continued front ds < UInt64.size) :
    significand front ds = (continued front ds, 0) := by
  induction ds generalizing front with
  | nil => rfl
  | cons d ds ih =>
      rw [continued_cons] at h ⊢
      have hfront := (le_continued _ ds).trans_lt h
      rw [significand, if_pos hfront, ih h]

theorem significand_lt {front : Nat} (h : front < UInt64.size) (ds : List Char) :
    (significand front ds).1 < UInt64.size := by
  induction ds generalizing front with
  | nil => exact h
  | cons d ds ih =>
      rw [significand]
      split_ifs with hlonger
      · exact ih hlonger
      · exact h

theorem Digits.filter {ds : List Char} (h : Digits ds) : ds.filter Decimal.isDigit = ds :=
  List.filter_eq_self.mpr h.2

theorem Digits.not_minus {ds : List Char} (h : Digits ds) : '-' ∉ ds :=
  fun hminus => absurd (h.2 _ hminus) (by decide)

/-- The value of an exponent part is that of its digits, with its sign. -/
theorem exponentValue_power {letter : Char} {sign ds : List Char} (hletter : letter ∈ ['e', 'E'])
    (hsign : sign ∈ [[], ['+'], ['-']]) (hds : Digits ds) :
    exponentValue (letter :: (sign ++ ds)) = if sign = ['-'] then -(Decimal.value ds : Int) else Decimal.value ds := by
  have hletter' : Decimal.isDigit letter = false ∧ '-' ≠ letter := by
    rcases List.mem_pair.mp hletter with rfl | rfl <;> decide
  have hmarks : Decimal.isDigit '+' = false ∧ Decimal.isDigit '-' = false := by decide
  simp only [List.mem_cons, List.not_mem_nil, or_false] at hsign
  rcases hsign with rfl | rfl | rfl
  · simp [exponentValue, hletter', hds.filter, hds.not_minus]
  · simp [exponentValue, hletter', hmarks, hds.filter, hds.not_minus]
  · simp [exponentValue, hletter', hmarks, hds.filter]

/-- A number whose whole part has 64 bits and whose exponent is neither great nor beyond what is taken account of. -/
structure Numeral.Modest (n : Numeral) : Prop where
  whole : Decimal.value n.whole < UInt64.size
  exponent_low : -(maxExponent : Int) ≤ exponentValue n.exponent
  exponent_high : exponentValue n.exponent ≤ 24

theorem Exponent.read {cs rest : List Char} (h : Exponent cs) (hlow : -(maxExponent : Int) ≤ exponentValue cs)
    (hhigh : exponentValue cs ≤ maxExponent) (hrest : Ends rest) (isZero : Bool) :
    readExponent isZero (cs ++ rest) = .ok (cs, rest) := by
  cases h with
  | none =>
      cases rest with
      | nil => rfl
      | cons c more =>
          have hletter : ¬(c = 'e' ∨ c = 'E') := by
            rintro (rfl | rfl)
            · exact absurd (hrest _ rfl) (by decide)
            · exact absurd (hrest _ rfl) (by decide)
          rw [List.nil_append, readExponent.eq_def]
          exact if_neg hletter
  | @power letter sign ds hletter hsign hds =>
      obtain ⟨d, more, rfl⟩ := List.exists_cons_of_ne_nil hds.1
      have hd := hds.2 d List.mem_cons_self
      obtain ⟨htake, hdrop⟩ := hds.span hrest.noDigit
      have hcount : overlongExponent? 0 (d :: more) = Option.none := by
        apply overlongExponent?_eq_none
        change Decimal.value (d :: more) ≤ maxExponent
        rw [exponentValue_power hletter hsign hds] at hlow hhigh
        split_ifs at hlow hhigh <;> omega
      have hplus : ¬(d = '+' ∨ d = '-') := by
        rintro (rfl | rfl)
        · exact absurd hd (by decide)
        · exact absurd hd (by decide)
      rw [List.cons_append] at htake hdrop
      simp only [List.mem_cons, List.not_mem_nil, or_false] at hsign
      rw [List.cons_append, readExponent.eq_def]
      dsimp only
      rw [if_pos (List.mem_pair.mp hletter)]
      rcases hsign with rfl | rfl | rfl
      · simp only [List.nil_append, List.cons_append, if_neg hplus, hd, htake, hdrop, hcount, Bool.not_true,
          Bool.false_eq_true, if_false]
      · simp only [List.nil_append, List.cons_append, hd, htake, hdrop, hcount, Bool.not_true, true_or,
          Bool.false_eq_true, if_false, if_true]
      · simp only [List.nil_append, List.cons_append, hd, htake, hdrop, hcount, Bool.not_true, or_true,
          Bool.false_eq_true, if_false, if_true]

theorem ofDecimal_one_below {exponent : Int} (hlow : 0 ≤ exponent) (hhigh : exponent ≤ 24) :
    (Binary64.ofDecimal 1 exponent).Below (2 * 10 ^ 24) := by
  have hpower : 1 * Nat.pow 10 exponent.toNat ≤ 10 ^ 24 := by
    rw [Nat.one_mul]
    exact Nat.pow_le_pow_right (by decide) (by omega)
  rw [Binary64.ofDecimal, if_pos hlow]
  exact Binary64.ofNat_below hpower (by decide)

theorem Numeral.Modest.inRange {n : Numeral} (h : n.Modest) (places : List Char) :
    outOfRange n.whole places n.exponent = false := by
  have hdigits := significand_lt h.whole places
  have hwhole : significand 0 n.whole = (Decimal.value n.whole, 0) := significand_all h.whole
  have hhigh := h.exponent_high
  simp only [outOfRange, hwhole]
  split_ifs with hsmall hgreat
  · rfl
  · omega
  · have hproduct := Binary64.mul_below (Binary64.ofNat_below hdigits.le (by decide))
      (ofDecimal_one_below (not_lt.mp fun hneg => hsmall (Or.inr hneg)) (by omega)) (by decide)
    obtain ⟨units, hunits, _⟩ := hproduct
    rw [hunits]
    rfl

theorem Exponent.no_point {cs rest : List Char} (h : Exponent cs) (hrest : Ends rest) :
    ∀ c ∈ (cs ++ rest).head?, c ≠ '.' := by
  rintro _ hc rfl
  cases h with
  | none => exact absurd (hrest _ hc) (by decide)
  | power hletter _ _ =>
      rw [List.cons_append, List.head?_cons, Option.mem_some_iff] at hc
      subst hc
      exact absurd hletter (by decide)

theorem Numeral.read {n : Numeral} (hn : n.Modest) {rest : List Char} (hrest : Ends rest) :
    readNumber (n.text ++ rest) = .ok (n.text, rest) := by
  have hdigit := n.exponent_form.noDigit hrest
  have hwhole := n.whole_form.read (n.fraction_form.noDigit hdigit)
  have hfraction := n.fraction_form.read hdigit (n.exponent_form.no_point hrest)
  have hexponent := n.exponent_form.read hn.exponent_low (hn.exponent_high.trans (by decide)) hrest
  have hrange : ¬outOfRange n.whole (n.fraction.drop 1) n.exponent = true := by
    rw [hn.inRange]
    exact Bool.false_ne_true
  have htext : n.text ++ rest = n.sign ++ (n.whole ++ (n.fraction ++ (n.exponent ++ rest))) := by
    simp only [text, List.append_assoc]
  rcases List.mem_pair.mp n.sign_form with hsign | hsign
  · rw [htext, hsign, List.nil_append, readNumber, text, hsign]
    · refine bind_eq_ok_iff.mpr ⟨_, hwhole, bind_eq_ok_iff.mpr ⟨_, hfraction, ?_⟩⟩
      exact bind_eq_ok_iff.mpr ⟨_, hexponent _, if_neg hrange⟩
    · intro more hminus
      obtain ⟨d, ds, hdigits⟩ := List.exists_cons_of_ne_nil n.whole_form.digits_form.1
      have hd := n.whole_form.digits_form.2 d (by rw [hdigits]; exact List.mem_cons_self)
      rw [hdigits] at hminus
      obtain rfl := (List.cons.inj hminus).1
      exact absurd hd (by decide)
  · rw [htext, hsign, List.singleton_append, readNumber, text, hsign]
    refine bind_eq_ok_iff.mpr ⟨_, hwhole, bind_eq_ok_iff.mpr ⟨_, hfraction, ?_⟩⟩
    exact bind_eq_ok_iff.mpr ⟨_, hexponent _, if_neg hrange⟩

/-! ### Values -/

/-- At most `depth` levels of brackets, and no number that the reader could refuse. -/
inductive Within : Nat → Json → Prop
  | null (depth : Nat) : Within depth .null
  | boolean (depth : Nat) (b : Bool) : Within depth (.boolean b)
  | string (depth : Nat) (s : List Char) : Within depth (.string s)
  | number {literal : List Char} (depth : Nat) (n : Numeral) :
      n.text = literal → n.Modest → Within depth (.number literal)
  | array {depth : Nat} {items : List Json} : (∀ v ∈ items, Within depth v) → Within (depth + 1) (.array items)
  | object {depth : Nat} {members : List (List Char × Json)} :
      (∀ m ∈ members, Within depth m.2) → Within (depth + 1) (.object members)

theorem Reads.length_lt {part : Part} {text rest : List Char} {v : Json} (h : Reads part text v rest) :
    rest.length < text.length := by
  induction h with
  | null | yes | no =>
      simp only [List.length_cons]
      omega
  | number n htext =>
      obtain ⟨c, more, hhead, _⟩ := n.head
      rw [htext, hhead, List.length_append, List.length_cons]
      omega
  | string hs => exact hs.length_lt.trans (Nat.lt_succ_self _)
  | noItems hclose | noMembers hclose =>
      have hblanks := hclose.length_le
      simp only [List.length_cons] at hblanks ⊢
      omega
  | lastItem hclose | lastMember hclose => exact hclose.length_le
  | array _ ih | object _ ih => exact ih.trans (Nat.lt_succ_self _)
  | item hstart _ _ ih ihbehind => exact (ihbehind.trans ih).trans_le hstart.length_le
  | nextItem hcomma _ ih | nextMember hcomma _ ih => exact ih.trans hcomma.length_le
  | member hquote hkey hcolon hstart _ _ ih ihbehind =>
      have hbefore := hquote.length_le
      have hinside := hkey.length_lt
      have hbetween := hcolon.length_le
      have hbehind := hstart.length_le
      simp only [List.length_cons] at hbefore hbetween
      omega

/-- What the reader makes of a part. -/
def Outcome (steps depth : Nat) : Part → List Char → Json → List Char → Prop
  | .value, text, v, rest => readValue steps depth text = .ok (v, rest)
  | .items, text, .array items, rest =>
    ∃ c more item tail behind, skipSpace text = c :: more ∧ c ≠ ']' ∧ items = item :: tail ∧
      readValue steps depth (c :: more) = .ok (item, behind) ∧ readItems steps depth false behind = .ok (tail, rest)
  | .behindItem, text, .array items, rest => readItems steps depth false text = .ok (items, rest)
  | .members, text, .object members, rest =>
    ∃ more, skipSpace text = '"' :: more ∧ readMember steps depth more = .ok (members, rest)
  | .behindMember, text, .object members, rest => readMembers steps depth false text = .ok (members, rest)
  | _, _, _, _ => False

/-- The levels that the value of a part may have if there are `depth` below it. -/
def Part.levels : Part → Nat → Nat
  | .value, depth => depth
  | _, depth => depth + 1

theorem Solid.skipSpace {text : List Char} (h : Solid text) : skipSpace text = text := (Blanks.none text).skipSpace h

theorem readValue_blanks {text start : List Char} (h : Blanks text start) (hstart : Solid start) (steps depth : Nat) :
    readValue (steps + 1) depth text = readValue (steps + 1) depth start := by
  rw [readValue, readValue, h.skipSpace hstart, hstart.skipSpace]

/-- A number is known by its first character. -/
theorem Numeral.begins (n : Numeral) : ∃ c more, n.text = c :: more ∧ (c = '-' ∨ Decimal.isDigit c = true) := by
  rcases List.mem_pair.mp n.sign_form with hsign | hsign
  · obtain ⟨d, ds, hwhole⟩ := List.exists_cons_of_ne_nil n.whole_form.digits_form.1
    have hd := n.whole_form.digits_form.2 d (by rw [hwhole]; exact List.mem_cons_self)
    exact ⟨d, _, by rw [text, hsign, hwhole]; rfl, Or.inr hd⟩
  · exact ⟨'-', _, by rw [text, hsign]; rfl, Or.inl rfl⟩

theorem readValue_number {n : Numeral} (hn : n.Modest) {rest : List Char} (hrest : Ends rest) (steps depth : Nat) :
    readValue (steps + 1) depth (n.text ++ rest) = .ok (.number n.text, rest) := by
  obtain ⟨c, more, hhead, hc⟩ := n.begins
  have hread := Numeral.read hn hrest
  have hother : ∀ d : Char, ¬(d = '-' ∨ Decimal.isDigit d = true) → c ≠ d := by
    rintro d hd rfl
    exact hd hc
  have hsolid : Solid (c :: (more ++ rest)) := by
    apply solid_cons
    simp only [List.mem_cons, List.not_mem_nil, or_false]
    rintro (hblank | hblank | hblank | hblank) <;> exact hother _ (by decide) hblank
  rw [hhead, List.cons_append] at hread ⊢
  rw [readValue, hsolid.skipSpace]
  dsimp only
  rw [if_neg (hother 'n' (by decide)), if_neg (hother 't' (by decide)), if_neg (hother 'f' (by decide)),
    if_neg (hother '"' (by decide)), if_neg (hother '[' (by decide)), if_neg (hother '\x7b' (by decide)), if_pos hc]
  exact bind_eq_ok_iff.mpr ⟨_, hread, rfl⟩

theorem readValue_string {text s rest : List Char} (h : Characters text s rest) (steps depth : Nat) :
    readValue (steps + 1) depth ('"' :: text) = .ok (.string s, rest) := by
  rw [readValue, Solid.skipSpace (solid_cons (by decide) _)]
  exact bind_eq_ok_iff.mpr ⟨_, h.read (Nat.lt_succ_self _), rfl⟩

theorem readValue_array {steps depth : Nat} {text rest : List Char} {items : List Json}
    (h : readItems steps depth true text = .ok (items, rest)) :
    readValue (steps + 1) (depth + 1) ('[' :: text) = .ok (.array items, rest) := by
  rw [readValue, Solid.skipSpace (solid_cons (by decide) _)]
  exact bind_eq_ok_iff.mpr ⟨_, h, rfl⟩

theorem readValue_object {steps depth : Nat} {text rest : List Char} {members : List (List Char × Json)}
    (h : readMembers steps depth true text = .ok (members, rest)) :
    readValue (steps + 1) (depth + 1) ('\x7b' :: text) = .ok (.object members, rest) := by
  rw [readValue, Solid.skipSpace (solid_cons (by decide) _)]
  exact bind_eq_ok_iff.mpr ⟨_, h, rfl⟩

theorem readItems_end {text rest : List Char} (h : Blanks text (']' :: rest)) (steps depth : Nat) (first : Bool) :
    readItems (steps + 1) depth first text = .ok ([], rest) := by
  rw [readItems, h.skipSpace (solid_mark (by decide) _)]
  exact if_pos rfl

theorem readMembers_end {text rest : List Char} (h : Blanks text ('}' :: rest)) (steps depth : Nat) (first : Bool) :
    readMembers (steps + 1) depth first text = .ok ([], rest) := by
  rw [readMembers, h.skipSpace (solid_mark (by decide) _)]
  exact if_pos rfl

theorem readItems_first {steps depth : Nat} {text rest : List Char} {items : List Json}
    (h : Outcome steps depth .items text (.array items) rest) :
    readItems (steps + 1) depth true text = .ok (items, rest) := by
  obtain ⟨c, more, item, tail, behind, hskip, hc, rfl, hitem, htail⟩ := h
  rw [readItems, hskip]
  dsimp only
  rw [if_neg hc, if_pos rfl]
  exact bind_eq_ok_iff.mpr ⟨_, hitem, bind_eq_ok_iff.mpr ⟨_, htail, rfl⟩⟩

theorem readItems_next {steps depth : Nat} {text more rest : List Char} {items : List Json}
    (hcomma : Blanks text (',' :: more)) (h : Outcome steps depth .items more (.array items) rest) :
    readItems (steps + 1) depth false text = .ok (items, rest) := by
  obtain ⟨c, start, item, tail, behind, hskip, hc, rfl, hitem, htail⟩ := h
  rw [readItems, hcomma.skipSpace (solid_mark (by decide) _)]
  dsimp only
  rw [if_neg (by decide), if_neg Bool.false_ne_true, if_pos rfl, hskip]
  dsimp only
  rw [if_neg hc]
  exact bind_eq_ok_iff.mpr ⟨_, hitem, bind_eq_ok_iff.mpr ⟨_, htail, rfl⟩⟩

theorem readMembers_first {steps depth : Nat} {text rest : List Char} {members : List (List Char × Json)}
    (h : Outcome steps depth .members text (.object members) rest) :
    readMembers (steps + 1) depth true text = .ok (members, rest) := by
  obtain ⟨more, hskip, hread⟩ := h
  rw [readMembers, hskip]
  exact hread

theorem readMembers_next {steps depth : Nat} {text more rest : List Char} {members : List (List Char × Json)}
    (hcomma : Blanks text (',' :: more)) (h : Outcome steps depth .members more (.object members) rest) :
    readMembers (steps + 1) depth false text = .ok (members, rest) := by
  obtain ⟨start, hskip, hread⟩ := h
  rw [readMembers, hcomma.skipSpace (solid_mark (by decide) _)]
  dsimp only
  rw [if_neg (by decide), if_neg Bool.false_ne_true, if_pos rfl, hskip]
  exact hread

theorem readMember_of {steps depth : Nat} {text behindKey inValue behind rest key : List Char} {v : Json}
    {members : List (List Char × Json)} (hkey : Characters text key behindKey)
    (hcolon : Blanks behindKey (':' :: inValue)) (hvalue : readValue steps depth inValue = .ok (v, behind))
    (hmore : readMembers steps depth false behind = .ok (members, rest)) :
    readMember (steps + 1) depth text = .ok ((key, v) :: members, rest) := by
  rw [readMember]
  refine bind_eq_ok_iff.mpr ⟨_, hkey.read (Nat.lt_succ_self _), ?_⟩
  dsimp only
  rw [hcolon.skipSpace (solid_mark (by decide) _)]
  dsimp only
  rw [if_pos rfl]
  exact bind_eq_ok_iff.mpr ⟨_, hvalue, bind_eq_ok_iff.mpr ⟨_, hmore, rfl⟩⟩

/-- The reader reads what the grammar allows. -/
theorem Reads.read {part : Part} {text rest : List Char} {v : Json} (h : Reads part text v rest) {steps depth : Nat}
    (hv : Within (part.levels depth) v) (hsteps : 2 * text.length < steps) (hrest : part = .value → Ends rest) :
    Outcome steps depth part text v rest := by
  -- A part costs two steps at most more than what it is made of, which is shorter by a character.
  induction h generalizing steps depth with
  | null rest | yes rest | no rest =>
      obtain ⟨steps, rfl⟩ := exists_step hsteps
      rw [Outcome, readValue, Solid.skipSpace (solid_cons (by decide) _)]
      rfl
  | @number text rest n htext =>
      obtain ⟨steps, rfl⟩ := exists_step hsteps
      cases hv with
      | number _ n' htext' hmodest =>
          rw [← htext'] at htext ⊢
          rw [htext]
          exact readValue_number hmodest (hrest rfl) steps depth
  | string hs =>
      obtain ⟨steps, rfl⟩ := exists_step hsteps
      exact readValue_string hs steps depth
  | noItems hclose =>
      rw [List.length_cons] at hsteps
      obtain ⟨steps, rfl⟩ := exists_two_steps (show 1 < steps by omega)
      cases hv with
      | array _ => exact readValue_array (readItems_end hclose steps _ true)
  | array _ ih =>
      rw [List.length_cons] at hsteps
      obtain ⟨steps, rfl⟩ := exists_two_steps (show 1 < steps by omega)
      cases hv with
      | array hwithin =>
          exact readValue_array (readItems_first (ih (.array hwithin) (show 2 * _ < steps by omega) (by simp)))
  | item hstart hv' hbehind ih ihbehind =>
      obtain ⟨c, more, rfl, hc⟩ := hv'.head
      have hlonger := hstart.length_le
      have hlonger' := hv'.length_lt
      have hne : c ≠ ']' := fun h => hc (by rw [h]; decide)
      cases hv with
      | array hwithin =>
          obtain ⟨hitem, hothers⟩ := List.forall_mem_cons.mp hwithin
          have hread := ih hitem (show 2 * _ < steps by omega) fun _ => hbehind.ends (.inl rfl)
          have hmore := ihbehind (.array hothers) (show 2 * _ < steps by omega) (by simp)
          exact ⟨c, more, _, _, _, hstart.skipSpace hv'.solid, hne, rfl, hread, hmore⟩
  | lastItem hclose =>
      obtain ⟨steps, rfl⟩ := exists_step hsteps
      exact readItems_end hclose steps depth false
  | nextItem hcomma _ ih =>
      obtain ⟨steps, rfl⟩ := exists_step hsteps
      have hlonger := hcomma.length_le
      rw [List.length_cons] at hlonger
      exact readItems_next hcomma (ih hv (show 2 * _ < steps by omega) (by simp))
  | noMembers hclose =>
      rw [List.length_cons] at hsteps
      obtain ⟨steps, rfl⟩ := exists_two_steps (show 1 < steps by omega)
      cases hv with
      | object _ => exact readValue_object (readMembers_end hclose steps _ true)
  | object _ ih =>
      rw [List.length_cons] at hsteps
      obtain ⟨steps, rfl⟩ := exists_two_steps (show 1 < steps by omega)
      cases hv with
      | object hwithin =>
          exact readValue_object (readMembers_first (ih (.object hwithin) (show 2 * _ < steps by omega) (by simp)))
  | member hquote hkey hcolon hstart hv' hbehind ih ihbehind =>
      have hbefore := hquote.length_le
      have hinside := hkey.length_lt
      have hbetween := hcolon.length_le
      have hafter := hstart.length_le
      have hlonger := hv'.length_lt
      rw [List.length_cons] at hbefore hbetween
      obtain ⟨steps, rfl⟩ := exists_two_steps (show 1 < steps by omega)
      cases hv with
      | object hwithin =>
          obtain ⟨hvalue, hothers⟩ := List.forall_mem_cons.mp hwithin
          have hread := ih hvalue (show 2 * _ < steps + 1 by omega) fun _ => hbehind.ends (.inr rfl)
          have hmore := ihbehind (.object hothers) (show 2 * _ < steps + 1 by omega) (by simp)
          have hread' := (readValue_blanks hstart hv'.solid steps depth).trans hread
          exact ⟨_, hquote.skipSpace (solid_mark (by decide) _), readMember_of hkey hcolon hread' hmore⟩
  | lastMember hclose =>
      obtain ⟨steps, rfl⟩ := exists_step hsteps
      exact readMembers_end hclose steps depth false
  | nextMember hcomma _ ih =>
      obtain ⟨steps, rfl⟩ := exists_step hsteps
      have hlonger := hcomma.length_le
      rw [List.length_cons] at hlonger
      exact readMembers_next hcomma (ih hv (show 2 * _ < steps by omega) (by simp))

/-- **The reader finds the value of every text of the grammar** that is not nested too deeply and holds no extreme
number. -/
theorem Denotes.parse_eq {text : List Char} {v : Json} (h : Denotes text v) (hv : Within 127 v) :
    parse text = .ok v := by
  obtain ⟨start, behind, hstart, hreads, hbehind⟩ := h
  have hlonger := hstart.length_le
  have hread : readValue (3 * text.length + 3) 127 text = .ok (v, behind) := by
    rw [readValue_blanks hstart hreads.solid]
    exact hreads.read hv (by omega) fun _ => hbehind.ends ends_nil
  have hend : skipSpace behind = [] := hbehind.skipSpace nofun
  have hwhole : Json.read text = .ok v := by
    refine bind_eq_ok_iff.mpr ⟨_, hread, ?_⟩
    dsimp only
    rw [hend]
  rw [parse, hwhole]
  rfl

end TemplateTiming.Json
