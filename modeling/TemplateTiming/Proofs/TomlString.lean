import Mathlib
import TemplateTiming.FileConfig.Writer
import TemplateTiming.Proofs.Result
import TemplateTiming.Toml.Scalar

/-! Basic strings. A text can be spelled in many ways between double quotes: a character stands for itself or has an
escape of two characters or of its code. Every spelling is one token, whatever comes behind its closing quote, and is
decoded to the text. -/

namespace TemplateTiming.Toml

/-- The letters of the short escapes. -/
def shortEscapes : List (Char × Char) :=
  [('"', '"'), ('\\', '\\'), ('b', '\x08'), ('t', '\t'), ('n', '\n'), ('f', '\x0c'), ('r', '\r')]

/-- The letters of the escapes by code, and how many hexadecimal digits follow each. -/
def codeEscapes : List (Char × Nat) := [('u', 4), ('U', 8)]

/-- A hexadecimal digit, in upper or lower case. -/
abbrev HexPlace := Bool × Fin 16

def HexPlace.digit (p : HexPlace) : Char := Quoted.hexDigit p.1 p.2

/-- A character that stands for itself between double quotes. -/
def Plain (c : Char) : Prop := c ≠ '"' ∧ c ≠ '\\' ∧ (c = '\t' ∨ 0x20 ≤ c.toNat ∧ c.toNat ≠ 0x7F)

instance (c : Char) : Decidable (Plain c) := inferInstanceAs (Decidable (_ ∧ _ ∧ _))

/-- The first text, between double quotes, is a way to write the second. -/
inductive Spells : List Char → List Char → Prop
  | nil : Spells [] []
  | plain {c : Char} {body text : List Char} (hplain : Plain c) (hmore : Spells body text) :
      Spells (c :: body) (c :: text)
  | short {letter c : Char} {body text : List Char} (hletter : (letter, c) ∈ shortEscapes)
      (hmore : Spells body text) : Spells ('\\' :: letter :: body) (c :: text)
  | code {letter c : Char} {places : List HexPlace} {body text : List Char}
      (hletter : (letter, places.length) ∈ codeEscapes)
      (hvalue : Nat.ofDigits 16 (places.reverse.map fun p => p.2.val) = c.toNat) (hmore : Spells body text) :
      Spells ('\\' :: letter :: (places.map HexPlace.digit ++ body)) (c :: text)

/-! ### Hexadecimal digits -/

theorem isHex_digit : ∀ p : HexPlace, Quotation.isHex p.digit = true := by decide

theorem hexValue_digit : ∀ p : HexPlace, Quotation.hexValue [p.digit] = p.2.val := by decide

theorem hexValue_concat (ds : List Char) (d : Char) :
    Quotation.hexValue (ds ++ [d]) = 16 * Quotation.hexValue ds + Quotation.hexValue [d] := by
  simp only [Quotation.hexValue, List.foldl_append, List.foldl_cons, List.foldl_nil, Nat.mul_zero, Nat.zero_add]

theorem hexValue_digits (places : List HexPlace) :
    Quotation.hexValue (places.map HexPlace.digit) = Nat.ofDigits 16 (places.reverse.map fun p => p.2.val) := by
  induction places using List.reverseRecOn with
  | nil => rfl
  | append_singleton places p ih =>
      rw [List.map_append, List.map_singleton, hexValue_concat, ih, hexValue_digit, List.reverse_append,
        List.reverse_singleton, List.singleton_append, List.map_cons, Nat.ofDigits_cons, Nat.add_comm]

/-- A digit is neither a quote nor a backslash nor the end of a line. -/
theorem plain_of_isHex {c : Char} (hc : Quotation.isHex c = true) : Plain c := by
  have hcode : (48 ≤ c.toNat ∧ c.toNat ≤ 57) ∨ (65 ≤ c.toNat ∧ c.toNat ≤ 70) ∨ (97 ≤ c.toNat ∧ c.toNat ≤ 102) := by
    simpa [Quotation.isHex, or_assoc] using hc
  refine ⟨?_, ?_, Or.inr ⟨by omega, by omega⟩⟩
  · rintro rfl
    revert hcode
    decide
  · rintro rfl
    revert hcode
    decide

theorem hexEscape_digits {places : List HexPlace} {c : Char}
    (hvalue : Nat.ofDigits 16 (places.reverse.map fun p => p.2.val) = c.toNat) (start : Nat) (body : List Char) :
    Quotation.hexEscape places.length start (places.map HexPlace.digit ++ body) = .ok c := by
  have hwidth : (places.map HexPlace.digit).length = places.length := List.length_map _
  have htake : ((places.map HexPlace.digit ++ body).take places.length).takeWhile Quotation.isHex =
      places.map HexPlace.digit := by
    rw [List.take_left' hwidth, List.takeWhile_eq_self_iff]
    intro d hd
    obtain ⟨p, _, rfl⟩ := List.mem_map.mp hd
    exact isHex_digit p
  have hcode : c.toNat < 0xD800 ∨ 0xDFFF < c.toNat ∧ c.toNat < 0x110000 := c.valid
  simp only [Quotation.hexEscape, htake, hwidth, lt_irrefl, if_false, hexValue_digits, hvalue, if_pos hcode,
    Char.ofNat_toNat]

/-! ### The token -/

theorem basicRest_plain {c : Char} (hc : Plain c) (rest : List Char) :
    Token.basicRest (c :: rest) = Token.basicRest rest + 1 := by
  obtain ⟨hquote, hbackslash, hcode⟩ := hc
  have hnewline : c ≠ '\n' := by
    rintro rfl
    revert hcode
    decide
  rw [Token.basicRest, if_neg hquote, if_neg hnewline]
  · rintro cs rfl
    exact fun _ => hbackslash rfl
  · rintro cs rfl
    exact fun _ => hbackslash rfl

theorem basicRest_escaped {letter : Char} (hletter : letter ≠ '\n') (rest : List Char) :
    Token.basicRest ('\\' :: letter :: rest) = Token.basicRest rest + 2 := by
  by_cases hbackslash : letter = '\\'
  · rw [hbackslash, Token.basicRest]
  · by_cases hquote : letter = '"'
    · rw [hquote, Token.basicRest]
    · rw [Token.basicRest, if_neg (by decide), if_neg (by decide), Token.basicRest, if_neg hquote, if_neg hletter]
      all_goals simp_all

theorem basicRest_plains {body : List Char} (hbody : ∀ c ∈ body, Plain c) (rest : List Char) :
    Token.basicRest (body ++ rest) = Token.basicRest rest + body.length := by
  induction body with
  | nil => rfl
  | cons c body ih =>
      obtain ⟨hc, hbody⟩ := List.forall_mem_cons.mp hbody
      rw [List.cons_append, basicRest_plain hc, ih hbody, List.length_cons, Nat.add_assoc]

theorem shortEscapes_ne_newline {letter c : Char} (h : (letter, c) ∈ shortEscapes) : letter ≠ '\n' := by
  rintro rfl
  simp [shortEscapes] at h

theorem codeEscapes_ne_newline {letter : Char} {width : Nat} (h : (letter, width) ∈ codeEscapes) : letter ≠ '\n' := by
  rintro rfl
  simp [codeEscapes] at h

/-- A spelling ends at its closing quote. -/
theorem Spells.basicRest {body text : List Char} (h : Spells body text) (rest : List Char) :
    Token.basicRest (body ++ '"' :: rest) = body.length + 1 := by
  induction h with
  | nil => rw [List.nil_append, Token.basicRest, if_pos rfl, List.length_nil]
           all_goals simp
  | plain hplain _ ih => rw [List.cons_append, basicRest_plain hplain, ih, List.length_cons]
  | short hletter _ ih =>
      rw [List.cons_append, List.cons_append, basicRest_escaped (shortEscapes_ne_newline hletter), ih,
        List.length_cons, List.length_cons]
  | code hletter _ _ ih =>
      rename_i letter c places body text _ _
      have hdigits : ∀ d ∈ places.map HexPlace.digit, Plain d := by
        intro d hd
        obtain ⟨p, _, rfl⟩ := List.mem_map.mp hd
        exact plain_of_isHex (isHex_digit p)
      rw [List.cons_append, List.cons_append, List.append_assoc,
        basicRest_escaped (codeEscapes_ne_newline hletter), basicRest_plains hdigits, ih, List.length_cons,
        List.length_cons, List.length_append]
      omega

theorem classify_quote (rest : List Char) (hrest : rest.take 2 ≠ ['"', '"']) :
    Token.classify '"' rest = (.basic, Token.basicRest rest) :=
  if_neg hrest

/-- A string is one token, unless it is empty and a third quote opens a string of several lines. -/
theorem Spells.classify {body text : List Char} (h : Spells body text) {rest : List Char}
    (hrest : rest.head? ≠ some '"') : Token.classify '"' (body ++ '"' :: rest) = (.basic, body.length + 1) := by
  rw [classify_quote, h.basicRest]
  intro hquotes
  cases h with
  | nil =>
      cases rest with
      | nil => cases hquotes
      | cons d rest => exact hrest (congrArg some (List.cons.inj (List.cons.inj hquotes).2).1)
  | plain hplain => exact hplain.1 (List.cons.inj hquotes).1
  | short | code => exact absurd (List.cons.inj hquotes).1 (by decide)

/-! ### The text -/

theorem basicText_plain {c : Char} (hc : Plain c) (start : Nat) (body : List Char) :
    Quotation.basicText start (c :: body) = (Quotation.basicText (start + c.utf8Size) body).map (c :: ·) := by
  have hvisible : Quotation.isVisible c = true := by
    simpa [Quotation.isVisible] using hc.2.2
  rw [Quotation.basicText, if_neg hc.2.1, if_pos hvisible]
  exact bind_ok_eq_map _ (c :: ·)

theorem basicText_escape {start count : Nat} {body : List Char} {c : Char}
    (hescape : Quotation.escape start body = .ok (c, count)) :
    Quotation.basicText start ('\\' :: body) =
      (Quotation.basicText (start + 1 + Utf8.size (body.take count)) (body.drop count)).map (c :: ·) := by
  rw [Quotation.basicText, if_pos rfl, hescape]
  exact bind_ok_eq_map _ (c :: ·)

theorem escape_short {letter c : Char} (h : (letter, c) ∈ shortEscapes) (start : Nat) (body : List Char) :
    Quotation.escape start (letter :: body) = .ok (c, 1) := by
  simp only [shortEscapes, List.mem_cons, Prod.mk.injEq, List.not_mem_nil, or_false] at h
  rcases h with ⟨rfl, rfl⟩ | ⟨rfl, rfl⟩ | ⟨rfl, rfl⟩ | ⟨rfl, rfl⟩ | ⟨rfl, rfl⟩ | ⟨rfl, rfl⟩ | ⟨rfl, rfl⟩ <;> rfl

theorem escape_code {letter c : Char} {places : List HexPlace} (h : (letter, places.length) ∈ codeEscapes)
    (hvalue : Nat.ofDigits 16 (places.reverse.map fun p => p.2.val) = c.toNat) (start : Nat) (body : List Char) :
    Quotation.escape start (letter :: (places.map HexPlace.digit ++ body)) = .ok (c, places.length + 1) := by
  have hdigits := hexEscape_digits hvalue (start + 2) body
  simp only [codeEscapes, List.mem_cons, Prod.mk.injEq, List.not_mem_nil, or_false] at h
  rcases h with ⟨rfl, hlength⟩ | ⟨rfl, hlength⟩ <;> rw [hlength] at hdigits ⊢ <;>
    simp [Quotation.escape, hdigits, bind, Except.bind]

/-- A spelling is decoded to its text. -/
theorem Spells.basicText {body text : List Char} (h : Spells body text) (start : Nat) :
    Quotation.basicText start body = .ok text := by
  induction h generalizing start with
  | nil => rw [Quotation.basicText]
  | plain hplain _ ih =>
      rw [basicText_plain hplain, ih]
      rfl
  | short hletter _ ih =>
      rw [basicText_escape (escape_short hletter start _), List.drop_succ_cons, List.drop_zero, ih]
      rfl
  | code hletter hvalue _ ih =>
      rw [basicText_escape (escape_code hletter hvalue start _), List.drop_succ_cons,
        List.drop_left' (List.length_map _), ih]
      rfl

theorem inner_quoted (body : List Char) (start : Nat) :
    Quotation.inner ⟨.basic, '"' :: (body ++ ['"']), start⟩ .basic '"' 1 = .ok body := by
  simp [Quotation.inner]

theorem Spells.ofToken {body text : List Char} (h : Spells body text) (start : Nat) :
    Scalar.ofToken ⟨.basic, '"' :: (body ++ ['"']), start⟩ = .ok (.string text) := by
  simp only [Scalar.ofToken, Quotation.basic, inner_quoted, bind, Except.bind, h.basicText]
  rfl

/-- Plain text spells itself. -/
theorem spells_plain {text : List Char} (h : ∀ c ∈ text, Plain c) : Spells text text := by
  induction text with
  | nil => exact .nil
  | cons c text ih =>
      obtain ⟨hc, htext⟩ := List.forall_mem_cons.mp h
      exact .plain hc (ih htext)

/-! ### Decoding never lengthens -/

theorem of_ite_eq {α : Type} {p q : Prop} [Decidable p] {x y a : α} (hx : x = a → q) (hy : y = a → q) :
    (if p then x else y) = a → q := by
  split_ifs
  · exact hx
  · exact hy

theorem escape_count {start count : Nat} {body : List Char} {c : Char}
    (h : Quotation.escape start body = .ok (c, count)) : body ≠ [] ∧ 1 ≤ count := by
  cases body with
  | nil => cases h
  | cons letter body =>
      have hshort : ∀ e : Char, (.ok (e, 1) : Except Problem (Char × Nat)) = .ok (c, count) → 1 ≤ count := by
        rintro e ⟨⟩
        exact le_rfl
      have hcode : ∀ width place n,
          (Quotation.hexEscape width place body >>= fun e => .ok (e, n + 1)) = .ok (c, count) → 1 ≤ count := by
        intro width place n hread
        obtain ⟨_, _, heq⟩ := bind_eq_ok_iff.mp hread
        cases heq
        exact Nat.le_add_left 1 n
      refine ⟨List.cons_ne_nil _ _, ?_⟩
      revert h
      rw [Quotation.escape]
      iterate 8 refine of_ite_eq (hshort _) ?_
      iterate 3 refine of_ite_eq (hcode _ _ _) ?_
      rintro ⟨⟩

theorem escape_drop {start count : Nat} {body : List Char} {c : Char}
    (h : Quotation.escape start body = .ok (c, count)) : (body.drop count).length < body.length := by
  obtain ⟨hbody, hcount⟩ := escape_count h
  have hpos := List.length_pos_iff.mpr hbody
  rw [List.length_drop]
  omega

/-- A decoded text is shorter than its spelling, or it has been spelled by itself. -/
theorem basicText_shorter {start : Nat} {body text : List Char} (h : Quotation.basicText start body = .ok text) :
    text.length < body.length ∨ body = text ∧ ∀ c ∈ text, c ≠ '\\' ∧ Quotation.isVisible c = true := by
  induction hlength : body.length using Nat.strong_induction_on generalizing start body text with
  | _ n ih =>
      cases body with
      | nil =>
          rw [Quotation.basicText] at h
          cases h
          exact Or.inr ⟨rfl, fun _ hc => absurd hc List.not_mem_nil⟩
      | cons c body =>
          rw [List.length_cons] at hlength
          rw [Quotation.basicText] at h
          split_ifs at h with hbackslash hvisible
          · obtain ⟨⟨e, count⟩, hescape, h⟩ := bind_eq_ok_iff.mp h
            obtain ⟨rest, hrest, heq⟩ := bind_eq_ok_iff.mp h
            cases heq
            have hdrop := escape_drop hescape
            left
            rcases ih _ (by omega) hrest rfl with hshorter | ⟨hsame, _⟩
            · rw [List.length_cons]
              omega
            · rw [List.length_cons, ← hsame]
              omega
          · obtain ⟨rest, hrest, heq⟩ := bind_eq_ok_iff.mp h
            cases heq
            rcases ih _ (by omega) hrest rfl with hshorter | ⟨rfl, hplain⟩
            · left
              rw [List.length_cons]
              omega
            · exact Or.inr ⟨rfl, List.forall_mem_cons.mpr ⟨⟨hbackslash, hvisible⟩, hplain⟩⟩
          · cases h

theorem multilineBasicText_length_le {start : Nat} {body text : List Char}
    (h : Quotation.multilineBasicText start body = .ok text) : text.length ≤ body.length := by
  induction hlength : body.length using Nat.strong_induction_on generalizing start body text with
  | _ n ih =>
      cases body with
      | nil =>
          rw [Quotation.multilineBasicText] at h
          cases h
          exact Nat.zero_le _
      | cons c body =>
          rw [List.length_cons] at hlength
          have hdrop : ∀ count, (body.drop count).length ≤ body.length := fun count => by
            rw [List.length_drop]
            omega
          rw [Quotation.multilineBasicText] at h
          split_ifs at h with hbackslash hgap hreturn hvisible
          · obtain ⟨count, _, h⟩ := bind_eq_ok_iff.mp h
            have hle := ih _ (by have := hdrop count; omega) h rfl
            have := hdrop count
            omega
          · obtain ⟨⟨e, count⟩, hescape, h⟩ := bind_eq_ok_iff.mp h
            obtain ⟨rest, hrest, heq⟩ := bind_eq_ok_iff.mp h
            cases heq
            have hle := ih _ (by have := hdrop count; omega) hrest rfl
            have hshorter := escape_drop hescape
            rw [List.length_cons]
            omega
          · cases h
          · obtain ⟨rest, hrest, heq⟩ := bind_eq_ok_iff.mp h
            cases heq
            have hle := ih _ (by omega) hrest rfl
            rw [List.length_cons]
            omega
          · cases h

theorem inner_length {t : Token} {form : Quoting} {q : Char} {width : Nat} {body : List Char}
    (h : Quotation.inner t form q width = .ok body) (hwidth : 0 < width) :
    body.length + 2 * width = t.text.length ∧ t.text.drop width = body ++ List.replicate width q := by
  simp only [Quotation.inner] at h
  split_ifs at h with hclosed
  · obtain ⟨hlength, hclosing⟩ := hclosed
    cases h
    rw [List.length_drop] at hlength hclosing ⊢
    constructor
    · rw [List.length_take, List.length_drop]
      omega
    · rw [← hclosing, List.take_append_drop]
  · cases h

theorem dropFirstNewline_length_le (text : List Char) : (Quotation.dropFirstNewline text).1.length ≤ text.length := by
  unfold Quotation.dropFirstNewline
  split
  · exact Nat.le_succ _
  · exact Nat.le_succ_of_le (Nat.le_succ _)
  · exact le_rfl

theorem multilineBasic_length {t : Token} {text : List Char} (h : Quotation.multilineBasic t = .ok text) :
    text.length + 6 ≤ t.text.length := by
  obtain ⟨body, hinner, h⟩ := bind_eq_ok_iff.mp h
  have hlength := (inner_length hinner (by decide)).1
  have hread : text.length ≤ (Quotation.dropFirstNewline body).1.length := multilineBasicText_length_le h
  have hskip := dropFirstNewline_length_le body
  omega

theorem ofToken_multilineBasic_length {written text : List Char} {start : Nat}
    (h : Scalar.ofToken ⟨.multilineBasic, written, start⟩ = .ok (.string text)) : text.length + 6 ≤ written.length := by
  rw [Scalar.ofToken, ← bind_ok_eq_map] at h
  obtain ⟨_, hread, heq⟩ := bind_eq_ok_iff.mp h
  cases heq
  exact multilineBasic_length hread

/-- A string no shorter than what stands between its quotes holds no escapes. -/
theorem ofToken_basic_visible {body text : List Char} {start : Nat}
    (h : Scalar.ofToken ⟨.basic, '"' :: body, start⟩ = .ok (.string text)) (hlength : body.length ≤ text.length + 1) :
    body.length = text.length + 1 ∧ ∀ c ∈ text, c ≠ '\\' ∧ Quotation.isVisible c = true := by
  rw [Scalar.ofToken, ← bind_ok_eq_map] at h
  obtain ⟨_, hread, heq⟩ := bind_eq_ok_iff.mp h
  cases heq
  obtain ⟨inside, hinner, hread⟩ := bind_eq_ok_iff.mp hread
  have hinside := (inner_length hinner (by decide)).1
  rw [List.length_cons] at hinside
  rcases basicText_shorter hread with hshorter | ⟨rfl, hvisible⟩
  · omega
  · exact ⟨by omega, hvisible⟩

/-- Only a plain text is decoded to itself when it stands between quotes as it is. -/
theorem plain_of_ofToken {text : List Char} {kind : TokenKind} {count : Nat}
    (hclassify : Token.classify '"' (text ++ ['"']) = (kind, count)) {start : Nat}
    (h : Scalar.ofToken ⟨kind, '"' :: (text ++ ['"']).take count, start⟩ = .ok (.string text)) :
    ∀ c ∈ text, Plain c := by
  have htake : ((text ++ ['"']).take count).length = min count (text.length + 1) := by
    rw [List.length_take, List.length_append, List.length_singleton]
  by_cases hquotes : (text ++ ['"']).take 2 = ['"', '"']
  · -- Three quotes open a string of several lines, which has as many more characters than its text.
    have hkind : kind = .multilineBasic := by
      have hmulti : Token.classify '"' (text ++ ['"']) = (.multilineBasic, _) := if_pos hquotes
      rw [hmulti] at hclassify
      exact (Prod.mk.inj hclassify).1.symm
    subst hkind
    have hlength := ofToken_multilineBasic_length h
    rw [List.length_cons, htake] at hlength
    omega
  · rw [classify_quote _ hquotes] at hclassify
    cases hclassify
    obtain ⟨hwhole, hvisible⟩ := ofToken_basic_visible h (by omega)
    rw [htake] at hwhole
    have hplain : ∀ c ∈ text, c ≠ '"' → Plain c := by
      intro c hc hquote
      refine ⟨hquote, (hvisible c hc).1, ?_⟩
      simpa [Quotation.isVisible] using (hvisible c hc).2
    -- A quote among the characters would have ended the string before its closing quote.
    have hquote : '"' ∉ text := by
      intro hmem
      obtain ⟨before, after, rfl, hbefore⟩ := List.eq_append_cons_of_mem hmem
      have hplains : ∀ c ∈ before, Plain c :=
        fun c hc => hplain c (List.mem_append_left _ hc) fun hc' => hbefore (hc' ▸ hc)
      have hends := (spells_plain hplains).basicRest (after ++ ['"'])
      rw [List.append_assoc, List.cons_append, hends] at hwhole
      rw [List.length_append, List.length_cons] at hwhole
      omega
    exact fun c hc => hplain c hc fun hc' => hquote (hc' ▸ hc)

/-! ### The written form -/

/-- A control character without a short escape is written with four digits. -/
theorem spells_control {c : Char} (hc : c.toNat < 0x80) {body text : List Char} (hmore : Spells body text) :
    Spells (['\\', 'u', '0', '0', Quoted.hexDigit true (c.toNat / 16), Quoted.hexDigit true (c.toNat % 16)] ++ body)
      (c :: text) := by
  have hhigh : c.toNat / 16 < 16 := by omega
  have hlow : c.toNat % 16 < 16 := by omega
  let places : List HexPlace := [(true, 0), (true, 0), (true, ⟨c.toNat / 16, hhigh⟩), (true, ⟨c.toNat % 16, hlow⟩)]
  have hvalue : Nat.ofDigits 16 (places.reverse.map fun p => p.2.val) = c.toNat := by
    simp [places, Nat.ofDigits_cons]
    omega
  exact @Spells.code 'u' c places body text List.mem_cons_self hvalue hmore

theorem spells_writeChar (c : Char) {body text : List Char} (hmore : Spells body text) :
    Spells (writeChar c ++ body) (c :: text) := by
  unfold writeChar
  split_ifs with hquote hbackslash hletter hletter hletter hletter hletter hcontrol
  · subst hquote
    exact .short (by decide) hmore
  · subst hbackslash
    exact .short (by decide) hmore
  iterate 5
    · subst hletter
      exact .short (by decide) hmore
  · exact spells_control (by omega) hmore
  · exact .plain ⟨hquote, hbackslash, Or.inr (by omega)⟩ hmore

theorem spells_flatMap (text : List Char) : Spells (text.flatMap writeChar) text := by
  induction text with
  | nil => exact .nil
  | cons c text ih => exact spells_writeChar c ih

end TemplateTiming.Toml
