import Mathlib
import TemplateTiming.Proofs.Decimal
import TemplateTiming.Proofs.TomlString
import TemplateTiming.Toml.Table

/-! Plain documents. Every line is the header of a table or a key with its value, which is a basic string, a decimal
integer or a truth value. Such a document is read into one statement for each line, whatever the lines say. -/

namespace TemplateTiming.Toml

/-- A name that can stand without quotes. -/
def Bare (word : List Char) : Prop := word ≠ [] ∧ ∀ c ∈ word, Quotation.isKeyChar c = true

instance (word : List Char) : Decidable (Bare word) :=
  decidable_of_iff (word ≠ [] ∧ word.all Quotation.isKeyChar = true) (and_congr_right fun _ => List.all_eq_true)

/-- A written value. -/
inductive Writes : List Char → Scalar → Prop
  | string {body text : List Char} (hbody : Spells body text) : Writes ('"' :: (body ++ ['"'])) (.string text)
  | integer (n : Nat) : Writes (Decimal.digits n) (.integer n)
  | boolean (b : Bool) : Writes (writeBool b) (.boolean b)

inductive Line where
  | header (name : List Char)
  | entry (key : List Char) (value : Scalar)

namespace Line

/-- A written line, without its end. -/
inductive Written : List Char → Line → Prop
  | header {name : List Char} (hname : Bare name) : Written ('[' :: (name ++ [']'])) (.header name)
  | entry {key written : List Char} {value : Scalar} (hkey : Bare key) (hvalue : Writes written value) :
      Written (key ++ " = ".toList ++ written) (.entry key value)

/-- Lines with their ends between them; the last one may have an end too. -/
inductive AllWritten : List Char → List Line → Prop
  | nil : AllWritten [] []
  | last {text : List Char} {line : Line} (hline : Written text line) : AllWritten text [line]
  | cons {text rest : List Char} {line : Line} {lines : List Line} (hline : Written text line)
      (hmore : AllWritten rest lines) : AllWritten (text ++ '\n' :: rest) (line :: lines)

end Line

/-- The statement says what the line says. -/
inductive Statement.Says : Statement → Line → Prop
  | header {name : List Char} {token : Token} {span : Span} (hname : Quotation.key token = .ok name) :
      Says (.header false [token] span) (.header name)
  | entry {key : List Char} {value : Scalar} {k v : Token} (hkey : Quotation.key k = .ok key)
      (hvalue : Scalar.ofToken v = .ok value) : Says (.entry [k] (.scalar v)) (.entry key value)

/-! ### Words -/

/-- Nothing follows that would belong to a word. -/
def Separated (rest : List Char) : Prop := ∀ c ∈ rest.head?, Token.separates c = true

/-- The characters that begin a token of another kind, or end a word. -/
def marks : List Char := ['.', '=', ',', '[', ']', '{', '}', ' ', '\t', '#', '\n', '\r', Token.quote, '"']

theorem not_mem_marks {c : Char} (hc : Quotation.isKeyChar c = true) : c ∉ marks := by
  intro hmem
  have hnone : ∀ d ∈ marks, Quotation.isKeyChar d = false := by
    simp [marks, Quotation.isKeyChar, Token.quote]
  rw [hnone c hmem] at hc
  cases hc

theorem separates_of_isKeyChar {c : Char} (hc : Quotation.isKeyChar c = true) : Token.separates c = false := by
  have hmarks := not_mem_marks hc
  simp only [marks, List.mem_cons, List.not_mem_nil, or_false, not_or] at hmarks
  simp [Token.separates, Token.isSpace, hmarks]

theorem classify_word {c : Char} {word rest : List Char} (hword : ∀ d ∈ c :: word, Quotation.isKeyChar d = true)
    (hrest : Separated rest) : Token.classify c (word ++ rest) = (.bare, word.length) := by
  obtain ⟨hc, hword⟩ := List.forall_mem_cons.mp hword
  have hmarks := not_mem_marks hc
  simp only [marks, List.mem_cons, List.not_mem_nil, or_false, not_or] at hmarks
  have htake : (word ++ rest).takeWhile (fun d => !Token.separates d) = word := by
    have hkeep : ∀ d ∈ word, (!Token.separates d) = true := fun d hd => by
      rw [separates_of_isKeyChar (hword d hd)]
      rfl
    rw [List.takeWhile_append_of_pos hkeep]
    cases rest with
    | nil => simp
    | cons d rest =>
        rw [List.takeWhile_cons_of_neg (by simp [hrest d rfl]), List.append_nil]
  simp [Token.classify, Token.isSpace, hmarks, htake]


theorem scan_nil (start : Nat) : Token.scan start [] = [⟨.finish, [], start⟩] := by
  rw [Token.scan]

/-- A token with its characters. -/
theorem scan_token {c : Char} {word rest : List Char} {kind : TokenKind}
    (h : Token.classify c (word ++ rest) = (kind, word.length)) (start : Nat) :
    Token.scan start (c :: (word ++ rest)) =
      ⟨kind, c :: word, start⟩ :: Token.scan (start + Utf8.size (c :: word)) rest := by
  rw [Token.scan, h]
  simp only [List.take_left, List.drop_left, Token.stop]

theorem scan_mark {c : Char} {rest : List Char} {kind : TokenKind} (h : Token.classify c rest = (kind, 0))
    (start : Nat) :
    Token.scan start (c :: rest) = ⟨kind, [c], start⟩ :: Token.scan (start + Utf8.size [c]) rest :=
  @scan_token c [] rest kind h start

/-! ### Values -/

theorem key_bare {word : List Char} (h : Bare word) (start : Nat) :
    Quotation.key ⟨.bare, word, start⟩ = .ok word := by
  have hdrop : word.dropWhile Quotation.isKeyChar = [] := List.dropWhile_eq_nil_iff.mpr h.2
  simp only [Quotation.key, Quotation.bareKey, if_neg h.1, hdrop]

theorem isKeyChar_of_isDigit {c : Char} (hc : Decimal.isDigit c = true) : Quotation.isKeyChar c = true := by
  rw [Decimal.isDigit_iff] at hc
  simp [Quotation.isKeyChar, hc]

theorem bare_digits (n : Nat) : Bare (Decimal.digits n) :=
  ⟨Decimal.digits_ne_nil n, fun _ hd => isKeyChar_of_isDigit (Decimal.isDigit_of_mem_digits hd)⟩

theorem bare_writeBool (b : Bool) : Bare (writeBool b) := by
  cases b <;> simp [Bare, writeBool, Quotation.isKeyChar]

/-- A digit has the value that its code gives. -/
theorem hexValue_singleton {d : Char} (hd : Decimal.isDigit d = true) :
    Quotation.hexValue [d] = Decimal.digitValue d := by
  rw [Decimal.isDigit_iff] at hd
  simp only [Quotation.hexValue, List.foldl_cons, List.foldl_nil, if_pos hd.2, Decimal.digitValue, Nat.mul_zero,
    Nat.zero_add]

theorem ten_value {ds : List Char} (hds : ∀ d ∈ ds, Decimal.isDigit d = true) :
    Scalar.ten.value ds = Decimal.value ds := by
  refine List.foldl_ext _ _ 0 fun n d hd => ?_
  rw [hexValue_singleton (hds d hd)]
  rfl

theorem digits_of_head_zero {n : Nat} (h : (Decimal.digits n).head? = some '0') : Decimal.digits n = ['0'] := by
  by_cases hn : n = 0
  · subst hn
    rw [Decimal.digits]
    rfl
  · have hhead := Decimal.digits_head hn
    rw [List.head?_eq_some_head (Decimal.digits_ne_nil n)] at h
    exact absurd (Option.some.inj h) hhead

theorem integerText_digits (n start : Nat) :
    Scalar.integerText false start (Decimal.digits n) = .ok (.integer n) := by
  have hdigits : ∀ d ∈ Decimal.digits n, Decimal.isDigit d = true := fun d hd => Decimal.isDigit_of_mem_digits hd
  have hzero : ¬(1 < (Decimal.digits n).length ∧ (Decimal.digits n).head? = some '0') := by
    rintro ⟨hlength, hhead⟩
    rw [digits_of_head_zero hhead] at hlength
    exact absurd hlength (by decide)
  have hunderscore : '_' ∉ Decimal.digits n := fun hmem => absurd (hdigits '_' hmem) (by decide)
  have hfilter : Scalar.withoutUnderscores (Decimal.digits n) = Decimal.digits n := by
    refine List.filter_eq_self.mpr fun d hd => decide_eq_true ?_
    rintro rfl
    exact hunderscore hd
  have hall : (Decimal.digits n).all Scalar.ten.isDigit = true := List.all_eq_true.mpr hdigits
  simp [Scalar.integerText, hzero, Scalar.checkUnderscores, hunderscore, hfilter, Scalar.Base.integer,
    Decimal.digits_ne_nil, hall, ten_value hdigits, Decimal.value_digits, Scalar.signed, bind, Except.bind]

theorem numeric_digits (t : Token) (n start : Nat) :
    Scalar.numeric t false start (Decimal.digits n) = .ok (.integer n) := by
  have hdrop : (Decimal.digits n).dropWhile Decimal.isDigit = [] :=
    List.dropWhile_eq_nil_iff.mpr fun _ hd => Decimal.isDigit_of_mem_digits hd
  rw [Scalar.numeric, hdrop]
  exact integerText_digits n start

theorem bare_of_digits (n start : Nat) :
    Scalar.ofToken ⟨.bare, Decimal.digits n, start⟩ = .ok (.integer n) := by
  obtain ⟨c, cs, hcons⟩ := List.exists_cons_of_ne_nil (Decimal.digits_ne_nil n)
  have hdigit : Decimal.isDigit c = true := Decimal.isDigit_of_mem_digits (hcons ▸ List.mem_cons_self)
  have hsign : ¬(c = '+' ∨ c = '-') := by
    rintro (rfl | rfl) <;> exact absurd hdigit (by decide)
  have hnumeric := numeric_digits ⟨.bare, Decimal.digits n, start⟩ n start
  by_cases hzero : c = '0'
  · have hdigits : Decimal.digits n = ['0'] := digits_of_head_zero (by rw [hcons, hzero]; rfl)
    rw [hdigits] at hnumeric ⊢
    exact hnumeric
  · rw [hcons] at hnumeric ⊢
    simpa only [Scalar.ofToken, Scalar.bare, if_neg hsign, if_neg hzero, if_pos (Or.inr hdigit)] using hnumeric

theorem bare_of_writeBool (b : Bool) (start : Nat) :
    Scalar.ofToken ⟨.bare, writeBool b, start⟩ = .ok (.boolean b) := by
  cases b <;> rfl

/-! ### Lines -/

/-- The end of a line, or of the text. -/
def AtEnd (rest : List Char) : Prop := ∀ c ∈ rest.head?, c = '\n'

theorem AtEnd.separated {rest : List Char} (h : AtEnd rest) : Separated rest := by
  intro c hc
  rw [h c hc]
  rfl

theorem AtEnd.no_quote {rest : List Char} (h : AtEnd rest) : rest.head? ≠ some '"' :=
  fun hquote => absurd (h '"' hquote) (by decide)

/-- The tokens begin with the end of a line. -/
def EndsLine (ts : List Token) : Prop := ∀ t ∈ ts.head?, t.kind = .newline ∨ t.kind = .finish

theorem AtEnd.endsLine {rest : List Char} (h : AtEnd rest) (start : Nat) : EndsLine (Token.scan start rest) := by
  cases rest with
  | nil =>
      rw [scan_nil]
      rintro t ⟨⟩
      exact Or.inr rfl
  | cons c rest =>
      rw [h c rfl, Token.scan]
      rintro t ⟨⟩
      exact Or.inl rfl

theorem scan_word {word rest : List Char} (hword : Bare word) (hrest : Separated rest) (start : Nat) :
    Token.scan start (word ++ rest) = ⟨.bare, word, start⟩ :: Token.scan (start + Utf8.size word) rest := by
  obtain ⟨c, cs, rfl⟩ := List.exists_cons_of_ne_nil hword.1
  exact scan_token (classify_word hword.2 hrest) start

/-- A written value is one token, from which it is read back. -/
theorem Writes.token {written : List Char} {value : Scalar} (h : Writes written value) :
    ∃ kind, (kind = .bare ∨ kind = .basic) ∧ (∀ start, Scalar.ofToken ⟨kind, written, start⟩ = .ok value) ∧
      ∀ {rest : List Char}, AtEnd rest → ∀ start, Token.scan start (written ++ rest) =
        ⟨kind, written, start⟩ :: Token.scan (start + Utf8.size written) rest := by
  cases h with
  | string hbody =>
      rename_i body text
      refine ⟨.basic, Or.inr rfl, hbody.ofToken, fun {rest} hrest start => ?_⟩
      have hclassify : Token.classify '"' (body ++ ['"'] ++ rest) = (.basic, (body ++ ['"']).length) := by
        rw [List.append_assoc, List.singleton_append, hbody.classify hrest.no_quote, List.length_append,
          List.length_singleton]
      exact scan_token hclassify start
  | integer n => exact ⟨.bare, Or.inl rfl, bare_of_digits n, fun hrest => scan_word (bare_digits n) hrest.separated⟩
  | boolean b =>
      exact ⟨.bare, Or.inl rfl, bare_of_writeBool b, fun hrest => scan_word (bare_writeBool b) hrest.separated⟩

/-- What follows belongs to no blanks in front of it. -/
def NoSpace (rest : List Char) : Prop := ∀ c ∈ rest.head?, Token.isSpace c = false

theorem Bare.no_space {word : List Char} (h : Bare word) (rest : List Char) : NoSpace (word ++ rest) := by
  obtain ⟨c, cs, rfl⟩ := List.exists_cons_of_ne_nil h.1
  have hmarks := not_mem_marks (h.2 c List.mem_cons_self)
  simp only [marks, List.mem_cons, List.not_mem_nil, or_false, not_or] at hmarks
  rintro d ⟨⟩
  simp [Token.isSpace, hmarks]

theorem Writes.no_space {written : List Char} {value : Scalar} (h : Writes written value) (rest : List Char) :
    NoSpace (written ++ rest) := by
  cases h with
  | string hbody =>
      rintro c ⟨⟩
      rfl
  | integer n => exact (bare_digits n).no_space rest
  | boolean b => exact (bare_writeBool b).no_space rest

theorem scan_space {rest : List Char} (hrest : NoSpace rest) (start : Nat) :
    Token.scan start (' ' :: rest) = ⟨.whitespace, [' '], start⟩ :: Token.scan (start + 1) rest := by
  have htake : rest.takeWhile Token.isSpace = [] := by
    cases rest with
    | nil => rfl
    | cons c rest => exact List.takeWhile_cons_of_neg (by simp [hrest c rfl])
  have hclassify : Token.classify ' ' rest = (.whitespace, 0) := by
    simp [Token.classify, show Token.isSpace ' ' = true from rfl, htake]
  exact scan_mark hclassify start

theorem scan_header {name rest : List Char} (hname : Bare name) (start : Nat) :
    Token.scan start ('[' :: (name ++ [']']) ++ rest) =
      ⟨.openBracket, ['['], start⟩ :: ⟨.bare, name, start + 1⟩ :: ⟨.closeBracket, [']'], start + 1 + Utf8.size name⟩ ::
        Token.scan (start + 1 + Utf8.size name + 1) rest := by
  have htail : Separated (']' :: rest) := by
    rintro c ⟨⟩
    rfl
  rw [List.cons_append, List.append_assoc, List.singleton_append, scan_mark rfl, scan_word hname htail, scan_mark rfl]
  rfl

/-- The tokens of a key and of the sign behind it. -/
theorem scan_key {key rest : List Char} (hkey : Bare key) (hrest : NoSpace rest) (start : Nat) :
    ∃ i j k l, Token.scan start (key ++ " = ".toList ++ rest) =
      ⟨.bare, key, start⟩ :: ⟨.whitespace, [' '], i⟩ :: ⟨.equals, ['='], j⟩ :: ⟨.whitespace, [' '], k⟩ ::
        Token.scan l rest := by
  have htext : key ++ " = ".toList ++ rest = key ++ ' ' :: '=' :: ' ' :: rest := by
    simp
  have hspace : Separated (' ' :: '=' :: ' ' :: rest) := by
    rintro c ⟨⟩
    rfl
  have hequals : NoSpace ('=' :: ' ' :: rest) := by
    rintro c ⟨⟩
    rfl
  rw [htext, scan_word hkey hspace, scan_space hequals, scan_mark rfl, scan_space hrest]
  exact ⟨_, _, _, _, rfl⟩

namespace Document

theorem bareRest_endsLine {ts : List Token} (h : EndsLine ts) : bareRest ts = ([], ts) := by
  cases ts with
  | nil => rw [bareRest]
  | cons t ts =>
      rcases h t rfl with hkind | hkind <;> simp [bareRest, hkind]

theorem readStatements_header (last steps i j k : Nat) (name : List Char) (ts : List Token) :
    readStatements last (steps + 1)
        (⟨.openBracket, ['['], i⟩ :: ⟨.bare, name, j⟩ :: ⟨.closeBracket, [']'], k⟩ :: ts) =
      lineEnd ts >>= fun ts =>
        (readStatements last steps ts).map (.header false [⟨.bare, name, j⟩] ⟨i, k + 1⟩ :: ·) := by
  simp only [readStatements, readHeader, readPath, isKey, reduceCtorEq, Bool.false_eq_true, if_false, if_true]
  cases lineEnd ts with
  | error e => rfl
  | ok rest => exact bind_ok_eq_map _ _

theorem readValue_quoted (last steps : Nat) {v : Token} (hv : v.kind = .basic ∨ v.kind = .multilineBasic)
    (ts : List Token) : readValue last (steps + 1) maxDepth (v :: ts) = .ok (.scalar v, ts) := by
  rcases hv with hkind | hkind <;> simp [readValue, hkind]

/-- A word or a string is a value by itself at the end of a line. -/
theorem readValue_written (last : Nat) {kind : TokenKind} (hkind : kind = .bare ∨ kind = .basic) (text : List Char)
    (start : Nat) {ts : List Token} (hts : EndsLine ts) (steps : Nat) :
    readValue last (steps + 1) maxDepth (⟨kind, text, start⟩ :: ts) = .ok (.scalar ⟨kind, text, start⟩, ts) := by
  rcases hkind with rfl | rfl
  · simp [readValue, bareRest_endsLine hts]
  · exact readValue_quoted last steps (Or.inl rfl) ts

theorem readStatements_entry (last steps i j k l : Nat) (key : List Char) {v : Token} (hspace : v.kind ≠ .whitespace)
    {ts : List Token} (hvalue : ∀ steps, readValue last (steps + 1) maxDepth (v :: ts) = .ok (.scalar v, ts)) :
    readStatements last (steps + 1)
        (⟨.bare, key, i⟩ :: ⟨.whitespace, [' '], j⟩ :: ⟨.equals, ['='], k⟩ :: ⟨.whitespace, [' '], l⟩ :: v :: ts) =
      lineEnd ts >>= fun ts => (readStatements last steps ts).map (.entry [⟨.bare, key, i⟩] (.scalar v) :: ·) := by
  have hskip : skipSpace (⟨.whitespace, [' '], l⟩ :: v :: ts) = v :: ts := by
    simp [skipSpace, hspace]
  have hpath : readPath true (⟨.bare, key, i⟩ :: ⟨.whitespace, [' '], j⟩ :: ⟨.equals, ['='], k⟩ ::
      ⟨.whitespace, [' '], l⟩ :: v :: ts) =
      ⟨[⟨.bare, key, i⟩], true, ⟨.equals, ['='], k⟩ :: ⟨.whitespace, [' '], l⟩ :: v :: ts⟩ := rfl
  simp only [readStatements, hpath, readEntry, hskip, hvalue, if_true, bind, Except.bind]
  cases lineEnd ts with
  | error e => rfl
  | ok rest => exact bind_ok_eq_map _ _

/-- A line is read into a statement that says the same. -/
theorem readStatements_line {text rest : List Char} {line : Line} (h : Line.Written text line) (hrest : AtEnd rest)
    (start last steps : Nat) :
    ∃ statement stop, statement.Says line ∧
      (Token.scan stop rest).length < (Token.scan start (text ++ rest)).length ∧
      readStatements last (steps + 1) (Token.scan start (text ++ rest)) = lineEnd (Token.scan stop rest) >>= fun ts =>
        (readStatements last steps ts).map (statement :: ·) := by
  cases h with
  | header hname =>
      rw [scan_header hname, readStatements_header]
      exact ⟨_, _, .header (key_bare hname _), by simp only [List.length_cons]; omega, rfl⟩
  | entry hkey hvalue =>
      rename_i key written value
      obtain ⟨kind, hkind, hread, htoken⟩ := hvalue.token
      obtain ⟨i, j, k, l, hscan⟩ := scan_key hkey (hvalue.no_space rest) start
      have hspace : kind ≠ .whitespace := by
        rcases hkind with rfl | rfl <;> decide
      have hend := hrest.endsLine (l + Utf8.size written)
      have hentry :=
        readStatements_entry last steps start i j k key hspace (readValue_written last hkind written l hend)
      rw [List.append_assoc, hscan, htoken hrest, hentry]
      exact ⟨_, _, .entry (key_bare hkey _) (hread _), by simp only [List.length_cons]; omega, rfl⟩

theorem lineEnd_nil (start : Nat) : lineEnd (Token.scan start []) = .ok (Token.scan start []) := by
  rw [scan_nil]
  rfl

theorem lineEnd_newline (start : Nat) (rest : List Char) :
    lineEnd (Token.scan start ('\n' :: rest)) = .ok (Token.scan (start + 1) rest) := by
  rw [scan_mark rfl]
  rfl

theorem readStatements_nil (last steps start : Nat) : readStatements last steps (Token.scan start []) = .ok [] := by
  rw [scan_nil]
  cases steps <;> rfl

theorem readStatements_lines {text : List Char} {lines : List Line} (h : Line.AllWritten text lines)
    (last start steps : Nat) (hsteps : (Token.scan start text).length ≤ steps) :
    ∃ statements, List.Forall₂ Statement.Says statements lines ∧
      readStatements last steps (Token.scan start text) = .ok statements := by
  induction h generalizing start steps with
  | nil => exact ⟨[], .nil, readStatements_nil last steps start⟩
  | last hline =>
      obtain ⟨statement, stop, hsays, hlength, hread⟩ :=
        readStatements_line hline (nofun : AtEnd []) start last (steps - 1)
      rw [List.append_nil] at hlength hread
      rw [Nat.sub_add_cancel (by omega), lineEnd_nil] at hread
      refine ⟨[statement], .cons hsays .nil, hread.trans (bind_eq_ok_iff.mpr ⟨_, rfl, ?_⟩)⟩
      rw [readStatements_nil]
      rfl
  | cons hline _ ih =>
      rename_i rest line lines _
      have hend : AtEnd ('\n' :: rest) := by
        rintro c ⟨⟩
        rfl
      obtain ⟨statement, stop, hsays, hlength, hread⟩ := readStatements_line hline hend start last (steps - 1)
      have hshorter : (Token.scan (stop + 1) rest).length < (Token.scan stop ('\n' :: rest)).length := by
        rw [scan_mark rfl]
        exact Nat.lt_succ_self _
      rw [Nat.sub_add_cancel (by omega), lineEnd_newline] at hread
      obtain ⟨statements, hall, hmore⟩ := ih (stop + 1) (steps - 1) (by omega)
      refine ⟨statement :: statements, .cons hsays hall, hread.trans (bind_eq_ok_iff.mpr ⟨_, rfl, ?_⟩)⟩
      rw [hmore]
      rfl

end Document

theorem Line.Written.head {text : List Char} {line : Line} (h : line.Written text) :
    ∃ c cs, text = c :: cs ∧ c ≠ '\ufeff' := by
  cases h with
  | header => exact ⟨_, _, rfl, by decide⟩
  | entry hkey =>
      obtain ⟨c, cs, rfl⟩ := List.exists_cons_of_ne_nil hkey.1
      refine ⟨_, _, rfl, ?_⟩
      rintro rfl
      exact absurd (hkey.2 _ List.mem_cons_self) (by decide)

theorem ofText_of_head {text : List Char} (h : ∀ c ∈ text.head?, c ≠ '\ufeff') :
    Token.ofText text = Token.scan 0 text := by
  unfold Token.ofText
  split
  · exact absurd rfl (h _ rfl)
  · rfl

/-- A plain document is read into statements that say what its lines say. -/
theorem Line.AllWritten.statements {text : List Char} {lines : List Line} (h : AllWritten text lines) :
    ∃ statements, List.Forall₂ Statement.Says statements lines ∧
      Document.ofTokens (Token.ofText text) = .ok statements := by
  have hhead : ∀ c ∈ text.head?, c ≠ '\ufeff' := by
    cases h with
    | nil => nofun
    | last hline | cons hline =>
        obtain ⟨c, cs, rfl, hc⟩ := hline.head
        rintro d ⟨⟩
        exact hc
  rw [ofText_of_head hhead]
  exact Document.readStatements_lines h _ _ _ le_rfl

/-- The token that a quote begins. -/
def quotedToken (body : List Char) (start : Nat) : Token :=
  ⟨(Token.classify '"' body).1, '"' :: body.take (Token.classify '"' body).2, start⟩

theorem quotedToken_kind (body : List Char) (start : Nat) :
    (quotedToken body start).kind = .basic ∨ (quotedToken body start).kind = .multilineBasic := by
  by_cases hquotes : body.take 2 = ['"', '"']
  · exact Or.inr (congrArg Prod.fst (if_pos hquotes : Token.classify '"' body = _))
  · exact Or.inl (congrArg Prod.fst (classify_quote body hquotes))

theorem scan_quote (body : List Char) (start : Nat) :
    ∃ ts, Token.scan start ('"' :: body) = quotedToken body start :: ts := by
  rw [Token.scan]
  exact ⟨_, rfl⟩

theorem bind_map_cons_eq_ok {ε α β : Type} {x : Except ε α} {f : α → Except ε (List β)} {b : β} {bs : List β}
    (h : (x >>= fun a => (f a).map (b :: ·)) = .ok bs) : ∃ a more, x = .ok a ∧ f a = .ok more ∧ bs = b :: more := by
  obtain ⟨a, ha, hmap⟩ := bind_eq_ok_iff.mp h
  rw [← bind_ok_eq_map] at hmap
  obtain ⟨more, hmore, heq⟩ := bind_eq_ok_iff.mp hmap
  exact ⟨a, more, ha, hmore, (Except.ok.inj heq).symm⟩

/-- A string behind the first key of a table is read as its value, whatever else the text holds. -/
theorem Document.ofTokens_first_string {name key body : List Char} (hname : Bare name) (hkey : Bare key)
    {statements : List Statement}
    (h : ofTokens (Token.ofText ('[' :: (name ++ [']']) ++ '\n' :: (key ++ " = ".toList ++ '"' :: body))) =
      .ok statements) :
    ∃ header k start more, statements = header :: .entry [k] (.scalar (quotedToken body start)) :: more ∧
      header.Says (.header name) ∧ Quotation.key k = .ok key := by
  have hopen : ∀ c ∈ ('[' :: (name ++ [']']) ++ '\n' :: (key ++ " = ".toList ++ '"' :: body)).head?, c ≠ '\ufeff' := by
    rintro c ⟨⟩
    decide
  have hquote : NoSpace ('"' :: body) := by
    rintro c ⟨⟩
    rfl
  rw [ofText_of_head hopen, ofTokens, scan_header hname, scan_mark rfl] at h
  obtain ⟨i, j, k, l, hscan⟩ := scan_key hkey hquote (0 + 1 + Utf8.size name + 1 + Utf8.size ['\n'])
  obtain ⟨ts, hts⟩ := scan_quote body l
  rw [hscan, hts] at h
  generalize contentStop _ = last at h
  simp only [List.length_cons] at h
  rw [readStatements_header] at h
  obtain ⟨_, more, hend, hmore, rfl⟩ := bind_map_cons_eq_ok h
  cases hend
  have hspace : (quotedToken body l).kind ≠ .whitespace := by
    rcases quotedToken_kind body l with hkind | hkind <;> rw [hkind] <;> decide
  rw [readStatements_entry _ _ _ _ _ _ _ hspace fun steps => readValue_quoted _ steps (quotedToken_kind body l) ts]
    at hmore
  obtain ⟨_, rest, _, _, rfl⟩ := bind_map_cons_eq_ok hmore
  exact ⟨_, _, l, rest, rfl, .header (key_bare hname _), key_bare hkey _⟩

end TemplateTiming.Toml
