import Mathlib
import TemplateTiming.Proofs.FileText
import TemplateTiming.Proofs.TomlKept
import TemplateTiming.Text.Alphanumeric

/-! References inside the texts of a configuration file. A file with one field, whose text holds one reference, becomes
by substitution the same file with the value in the place of the reference. A value of plain characters then stands for
itself. Conversely, whatever the value makes of the rest of the file, a file that can be read has kept the string behind
the first quote, and that string has fewer characters than were put between the quotes unless they are all plain. -/

namespace TemplateTiming

open Toml (Scalar Section Plain Line)

/-- The fields that hold a text. -/
inductive TextField where
  | input
  | label
  | format
  | socialIconOrigin
  deriving DecidableEq

namespace TextField

def table : TextField → String
  | input | label | format => "bench"
  | socialIconOrigin => "render"

def key : TextField → String
  | input => "input"
  | label => "label"
  | format => "format"
  | socialIconOrigin => "social_icon_origin"

/-- The configuration with this field alone. -/
def alone (text : String) : TextField → FileConfig
  | input => { FileConfig.empty with bench := { FileConfig.empty.bench with input := some (Path.ofString text) } }
  | label => { FileConfig.empty with bench := { FileConfig.empty.bench with label := some text } }
  | format => { FileConfig.empty with bench := { FileConfig.empty.bench with format := some text } }
  | socialIconOrigin =>
    { FileConfig.empty with render := { FileConfig.empty.render with socialIconOrigin := some text } }

/-- The file with nothing but this field, with `body` between its quotes. -/
def file (f : TextField) (body : List Char) : List Char :=
  '[' :: (f.table.toList ++ [']']) ++ '\n' :: (f.key.toList ++ " = ".toList ++ '"' :: (body ++ ['"']))

/-- Its only table. -/
def content (f : TextField) (text : String) : Section := ⟨f.table.toList, [(f.key.toList, textScalar text)]⟩

theorem sections_alone (f : TextField) (text : String) :
    ∃ before after, (f.alone text).sections = before ++ f.content text :: after ∧
      ∀ s ∈ before ++ after, s.fields = [] := by
  have hempty : ∀ name : List Char, ∀ s ∈ [(⟨name, []⟩ : Section)], s.fields = [] := by
    intro name s hs
    rw [List.mem_singleton.mp hs]
  cases f with
  | input =>
      have hpath : Scalar.string (Utf8.lossy (Path.ofString text).octets) = textScalar text :=
        congrArg Scalar.string (Utf8.lossy_encode text.toList)
      have hsections : (alone text input).sections = [input.content text, ⟨"render".toList, []⟩] :=
        congrArg (fun x => ([⟨"bench".toList, [("input".toList, x)]⟩, ⟨"render".toList, []⟩] : List Section)) hpath
      exact ⟨[], [⟨"render".toList, []⟩], hsections, hempty _⟩
  | label | format => exact ⟨[], [⟨"render".toList, []⟩], rfl, hempty _⟩
  | socialIconOrigin => exact ⟨[⟨"bench".toList, []⟩], [], rfl, hempty _⟩

theorem arranged (f : TextField) (text : String) : FileConfig.Arranged [f.content text] (f.alone text) := by
  obtain ⟨before, after, hsections, hempty⟩ := f.sections_alone text
  refine ⟨List.nodup_singleton _, ?_, ?_⟩
  · intro t ht
    rw [List.mem_singleton.mp ht, hsections]
    exact ⟨f.content text, List.mem_append_right _ List.mem_cons_self, rfl, List.Perm.refl _⟩
  · intro s hs hfields
    refine ⟨f.content text, List.mem_singleton_self _, ?_⟩
    rw [hsections, List.mem_append, List.mem_cons] at hs
    rcases hs with hbefore | rfl | hafter
    · exact absurd (hempty s (List.mem_append_left _ hbefore)) hfields
    · rfl
    · exact absurd (hempty s (List.mem_append_right _ hafter)) hfields

theorem bare_table (f : TextField) : Toml.Bare f.table.toList := by
  cases f <;> decide +kernel

theorem bare_key (f : TextField) : Toml.Bare f.key.toList := by
  cases f <;> decide +kernel

theorem file_written (f : TextField) {body : List Char} {text : String} (hbody : Toml.Spells body text.toList) :
    Line.AllWritten (f.file body) ([f.content text].flatMap Section.lines) := by
  have hentry := Line.AllWritten.last (.entry f.bare_key (.string hbody))
  exact .cons (.header f.bare_table) hentry

/-- A plain text is found in its field. -/
theorem ofToml_plain (f : TextField) {text : List Char} (htext : ∀ c ∈ text, Plain c) :
    FileConfig.ofToml (f.file text) = .ok (f.alone (String.ofList text)) := by
  have hspells : Toml.Spells text (String.ofList text).toList := by
    rw [String.toList_ofList]
    exact Toml.spells_plain htext
  have hinput : ∀ p ∈ (f.alone (String.ofList text)).bench.input, ∃ s, p = Path.ofString s := by
    cases f with
    | input =>
        rintro p ⟨⟩
        exact ⟨_, rfl⟩
    | label | format | socialIconOrigin => nofun
  exact FileConfig.ofToml_arranged hinput (f.arranged _) (f.file_written hspells)

end TextField

/-! ### What a field comes to -/

section Kept

open Toml (Value Problem)

variable {s : Scalar}

/-- What some steps settle, and no other step unsettles, is settled in the end. -/
theorem foldlM_settles {ε α β : Type} {step : α → β → Except ε α} {Settles : β → Prop} {Settled : α → Prop}
    {entries : List β} (hset : ∀ e ∈ entries, Settles e → ∀ a a', step a e = .ok a' → Settled a')
    (hkeep : ∀ e ∈ entries, ¬Settles e → ∀ a a', Settled a → step a e = .ok a' → Settled a') {a a' : α}
    (hone : Settled a ∨ ∃ e ∈ entries, Settles e) (h : entries.foldlM step a = .ok a') : Settled a' := by
  induction entries generalizing a with
  | nil =>
      cases h
      exact hone.resolve_right fun ⟨_, he, _⟩ => nomatch he
  | cons first entries ih =>
      obtain ⟨next, hstep, hmore⟩ := bind_eq_ok_iff.mp h
      obtain ⟨hfirst, hset⟩ := List.forall_mem_cons.mp hset
      obtain ⟨hother, hkeep⟩ := List.forall_mem_cons.mp hkeep
      refine ih hset hkeep ?_ hmore
      by_cases hsettles : Settles first
      · exact Or.inl (hfirst hsettles a next hstep)
      · refine hone.imp (fun ha => hother hsettles a next ha hstep) ?_
        rintro ⟨e, he, hname⟩
        rcases List.mem_cons.mp he with rfl | he
        · exact absurd hname hsettles
        · exact ⟨e, he, hname⟩

theorem Toml.Value.toText_eq_ok {span : Toml.Span} {expected text : String}
    (h : (Value.scalar s span).toText expected = .ok text) :
    ∃ chars, s = .string chars ∧ text = String.ofList chars := by
  cases s with
  | string chars =>
      cases h
      exact ⟨chars, rfl, rfl⟩
  | integer | malformedInteger | float | boolean | moment => cases h

/-- A section takes a text from the entry of its key. -/
theorem Toml.Value.Pins.toSection {α : Type} {v : Value} {key : String} (hv : v.Pins s [key.toList])
    {known : List String} (hknown : key ∈ known) {set : α → String → Value → Except Problem α} {get : α → Option String}
    (hset : ∀ v a a', set a key v = .ok a' → ∃ expected text, v.toText expected = .ok text ∧ get a' = some text)
    (hkeep : ∀ field v a a', field ∈ known → field ≠ key → set a field v = .ok a' → get a' = get a) {title : String}
    {start a : α} (h : v.toSection title known set start = .ok a) :
    ∃ text, s = .string text ∧ get a = some (String.ofList text) := by
  obtain ⟨origin, entries, span, rfl, -, hone, hpins⟩ := hv
  refine @foldlM_settles _ _ _ _ (fun e => e.1.name = key.toList)
    (fun a => ∃ text, s = .string text ∧ get a = some (String.ofList text)) entries ?_ ?_ start a (Or.inr hone) h
  · rintro ⟨k, v⟩ he hk a a' hstep
    obtain ⟨span, rfl⟩ := hpins _ he hk
    simp only at hk
    simp only [hk, String.ofList_toList, List.contains_iff_mem.mpr hknown, if_true] at hstep
    obtain ⟨expected, _, htext, hget⟩ := hset _ a a' hstep
    obtain ⟨text, hs, rfl⟩ := Toml.Value.toText_eq_ok htext
    exact ⟨text, hs, hget⟩
  · rintro ⟨k, v⟩ he hk a a' ⟨text, hs, hget⟩ hstep
    refine ⟨text, hs, ?_⟩
    simp only at hk hstep
    split_ifs at hstep with hfield
    · have hne : String.ofList k.name ≠ key := by
        rintro rfl
        exact hk (String.toList_ofList).symm
      rw [hkeep _ v a a' (List.contains_iff_mem.mp hfield) hne hstep, hget]
    · obtain ⟨_, _, heq⟩ := bind_eq_ok_iff.mp hstep
      cases heq
      exact hget

end Kept

namespace TextField

open Toml (Value Key)
open FileConfig

/-- The text of the field. -/
def value? : TextField → FileConfig → Option String
  | input, c => c.bench.input.map Path.shown
  | label, c => c.bench.label
  | format, c => c.bench.format
  | socialIconOrigin, c => c.render.socialIconOrigin

theorem value?_alone (f : TextField) (text : String) : f.value? (f.alone text) = some text := by
  cases f with
  | input => simp [value?, alone, Path.shown, Path.ofString, Utf8.lossy_encode]
  | label | format | socialIconOrigin => rfl

variable {f : TextField} {s : Scalar} {v : Value} {c c' : FileConfig}

theorem setBench_key (hf : f.table = "bench") {a a' : BenchSection} (h : setBench a f.key v = .ok a') :
    ∃ expected text, v.toText expected = .ok text ∧ f.value? { c with bench := a' } = some text := by
  cases f with
  | socialIconOrigin => exact absurd hf (by decide)
  | input =>
      obtain ⟨text, htext, heq⟩ := bind_eq_ok_iff.mp h
      cases heq
      exact ⟨_, text, htext, input.value?_alone text⟩
  | label | format =>
      obtain ⟨text, htext, heq⟩ := bind_eq_ok_iff.mp h
      cases heq
      exact ⟨_, text, htext, rfl⟩

theorem setBench_other {field : String} (hfield : field ∈ ["input", "iterations", "warmup", "label", "format"])
    (hne : field ≠ f.key) {a a' : BenchSection} (h : setBench a field v = .ok a') :
    f.value? { c with bench := a' } = f.value? { c with bench := a } := by
  simp only [List.mem_cons, List.not_mem_nil, or_false] at hfield
  rcases hfield with rfl | rfl | rfl | rfl | rfl <;>
  · obtain ⟨_, _, heq⟩ := bind_eq_ok_iff.mp h
    cases heq
    cases f <;> first | rfl | exact absurd rfl hne

theorem benchOf_value? (hf : f.table = "bench") (hv : v.Pins s [f.key.toList]) {a : BenchSection}
    (h : benchOf v = .ok a) :
    ∃ text, s = .string text ∧ f.value? { c with bench := a } = some (String.ofList text) := by
  have hknown : f.key ∈ ["input", "iterations", "warmup", "label", "format"] := by
    cases f with
    | socialIconOrigin => exact absurd hf (by decide)
    | input | label | format => simp [key]
  let get (a : BenchSection) : Option String := f.value? { c with bench := a }
  exact @Value.Pins.toSection s _ v f.key hv _ hknown setBench get (fun _ _ _ => setBench_key hf)
    (fun _ _ _ _ hfield hne h => setBench_other hfield hne h) "BenchSection" _ a h

theorem renderOf_value? (hv : v.Pins s ["social_icon_origin".toList]) {b : RenderSettings} (h : renderOf v = .ok b) :
    ∃ text, s = .string text ∧ b.socialIconOrigin = some (String.ofList text) := by
  refine @Value.Pins.toSection s _ v _ hv _ (by simp) setRender RenderSettings.socialIconOrigin ?_ ?_
    "RenderSettings" _ b h
  · intro v b b' h
    obtain ⟨text, htext, heq⟩ := bind_eq_ok_iff.mp h
    cases heq
    exact ⟨_, text, htext, rfl⟩
  · intro field v b b' hfield hne h
    simp only [List.mem_cons, List.not_mem_nil, or_false] at hfield
    obtain rfl := hfield.resolve_right hne
    obtain ⟨_, _, heq⟩ := bind_eq_ok_iff.mp h
    cases heq
    rfl

theorem setSection_table {k : Key} (hk : k.name = f.table.toList) (hv : v.Pins s [f.key.toList])
    (h : setSection c k v = .ok c') : ∃ text, s = .string text ∧ f.value? c' = some (String.ofList text) := by
  simp only [setSection, hk, String.ofList_toList] at h
  cases f with
  | input | label | format =>
      obtain ⟨a, ha, heq⟩ := bind_eq_ok_iff.mp h
      cases heq
      exact benchOf_value? rfl hv ha
  | socialIconOrigin =>
      obtain ⟨b, hb, heq⟩ := bind_eq_ok_iff.mp h
      cases heq
      exact renderOf_value? hv hb

theorem setSection_other {k : Key} (hk : k.name ≠ f.table.toList) (h : setSection c k v = .ok c') :
    f.value? c' = f.value? c := by
  have hname : String.ofList k.name ≠ f.table := by
    rintro hname
    exact hk (by rw [← hname, String.toList_ofList])
  simp only [setSection] at h
  split_ifs at h with hbench hrender hmonitoring <;> obtain ⟨_, _, heq⟩ := bind_eq_ok_iff.mp h <;> cases heq
  · cases f with
    | input | label | format => exact absurd hbench hname
    | socialIconOrigin => rfl
  · cases f with
    | input | label | format => rfl
    | socialIconOrigin => exact absurd hrender hname
  · cases f <;> rfl
  · rfl

/-- A string that has been set is what the field comes to. -/
theorem ofTable_value? {t : Toml.Table} (ht : t.Pins s f.table.toList [f.key.toList]) (h : ofTable t = .ok c) :
    ∃ text, s = .string text ∧ f.value? c = some (String.ofList text) := by
  obtain ⟨hone, hpins⟩ := ht
  refine @foldlM_settles _ _ _ _ (fun e => e.1.name = f.table.toList)
    (fun c => ∃ text, s = .string text ∧ f.value? c = some (String.ofList text)) t.entries ?_ ?_ empty c
    (Or.inr hone) h
  · rintro ⟨k, v⟩ he hk c c' hstep
    exact setSection_table hk (hpins _ he hk) hstep
  · rintro ⟨k, v⟩ he hk c c' ⟨text, hs, hvalue⟩ hstep
    exact ⟨text, hs, (setSection_other hk hstep).trans hvalue⟩

/-- Exactly the plain texts are found in their field with no other field beside it. -/
theorem ofToml_eq_alone_iff (f : TextField) (text : List Char) :
    FileConfig.ofToml (f.file text) = .ok (f.alone (String.ofList text)) ↔ ∀ c ∈ text, Plain c := by
  refine ⟨fun h => ?_, f.ofToml_plain⟩
  obtain ⟨t, hparse, htable⟩ := bind_eq_ok_iff.mp h
  obtain ⟨start, s, hs, hpins⟩ := Toml.Table.parse_first_string f.bare_table f.bare_key hparse
  obtain ⟨found, rfl, hfound⟩ := ofTable_value? hpins htable
  rw [f.value?_alone, Option.some.injEq, String.ofList_inj] at hfound
  subst hfound
  exact Toml.plain_of_ofToken rfl hs

end TextField

/-- A letter, a digit or a slash. -/
def IsFiller (c : Char) : Prop := c = '/' ∨ Text.isAlphanumeric c = true

instance (c : Char) : Decidable (IsFiller c) := inferInstanceAs (Decidable (_ ∨ _))

theorem IsFiller.code {c : Char} (h : IsFiller c) : c = '/' ∨ 0x80 ≤ c.toNat ∨ 48 ≤ c.toNat ∧ c.toNat ≤ 57 ∨
    65 ≤ c.toNat ∧ c.toNat ≤ 90 ∨ 97 ≤ c.toNat ∧ c.toNat ≤ 122 := by
  refine h.imp_right fun hc => ?_
  rw [Text.isAlphanumeric] at hc
  split_ifs at hc with hascii
  · simp [Char.isAlphanum, Char.isAlpha, Char.isUpper, Char.isLower, Char.isDigit, UInt32.le_iff_toNat_le] at hc
    omega
  · exact Or.inl (not_lt.mp hascii)

theorem IsFiller.ne {c : Char} (h : IsFiller c) {d : Char} (hd : d ∈ ['"', '\\', '$', '}']) : c ≠ d := by
  rintro rfl
  have hcode := h.code
  simp only [List.mem_cons, List.not_mem_nil, or_false] at hd
  rcases hd with rfl | rfl | rfl | rfl <;> revert hcode <;> decide

theorem IsFiller.plain {c : Char} (h : IsFiller c) : Plain c := by
  refine ⟨h.ne (by simp), h.ne (by simp), Or.inr ?_⟩
  rcases h.code with rfl | hcode
  · decide
  · omega

namespace TextField

/-- The value stands where the reference has stood. -/
theorem substitute_file (f : TextField) {env : Environment} {before name value after : List Char}
    (hbefore : ∀ c ∈ before, IsFiller c) (hafter : ∀ c ∈ after, IsFiller c) (hname : name ≠ []) (hbrace : '}' ∉ name)
    (hvalue : env name = some (Utf8.encode value)) :
    Reference.substitute env.text? (f.file (before ++ Reference.written name ++ after)) =
      f.file (before ++ value ++ after) := by
  let head := '[' :: (f.table.toList ++ [']']) ++ '\n' :: (f.key.toList ++ " = ".toList ++ '"' :: before)
  have hsplit : ∀ middle, f.file (before ++ middle ++ after) = head ++ (middle ++ (after ++ ['"'])) := by
    intro middle
    simp only [file, head, List.append_assoc, List.cons_append]
  have htable : '$' ∉ f.table.toList := by
    cases f <;> decide +kernel
  have hkey : '$' ∉ f.key.toList := by
    cases f <;> decide +kernel
  have hstart : '$' ∉ before := fun hmem => (hbefore '$' hmem).ne (by simp) rfl
  have hhead : '$' ∉ head := by
    simp [head, htable, hkey, hstart]
  have htail : '}' ∉ after ++ ['"'] := by
    have hend : '}' ∉ after := fun hmem => (hafter '}' hmem).ne (by simp) rfl
    simp [hend]
  have hopening : ¬['$', '{'] <:+: head := fun hopen => hhead (hopen.subset List.mem_cons_self)
  have hread := Reference.read?_name hbrace (after ++ ['"'])
  rw [if_neg hname] at hread
  calc Reference.substitute env.text? (f.file (before ++ Reference.written name ++ after))
      = Reference.substitute env.text? (head ++ '$' :: '{' :: (name ++ '}' :: (after ++ ['"']))) := by
        rw [hsplit]
        simp only [Reference.written, List.append_assoc, List.cons_append, List.nil_append]
    _ = head ++ ((env.text? name).getD (Reference.written name) ++
          Reference.substitute env.text? (after ++ ['"'])) := by
        rw [Reference.substitute_append _ hopening (by decide), Reference.substitute_dollar_of_some _ hread]
    _ = head ++ (value ++ (after ++ ['"'])) := by
        rw [(env.text?_eq_some_iff name value).mpr hvalue, Option.getD_some, Reference.substitute_of_not_mem _ htail]
    _ = f.file (before ++ value ++ after) := (hsplit value).symm

end TextField

/-- **The plain values, and no others, reach their field unchanged** with no other field set: a value is put into the
text of the file before that is read, so a quote, a backslash or a control character but the tab is read as something
else than itself. -/
theorem FileConfig.parse_reference (f : TextField) {env : Environment} {before name value after : List Char}
    (hbefore : ∀ c ∈ before, IsFiller c) (hafter : ∀ c ∈ after, IsFiller c) (hname : name ≠ []) (hbrace : '}' ∉ name)
    (hset : env name = some (Utf8.encode value)) :
    parse env (f.file (before ++ Reference.written name ++ after)) =
      .ok (f.alone (String.ofList (before ++ value ++ after))) ↔ ∀ c ∈ value, Plain c := by
  rw [parse, f.substitute_file hbefore hafter hname hbrace hset, mapError_eq_ok_iff, f.ofToml_eq_alone_iff]
  simp only [List.forall_mem_append]
  constructor
  · exact fun h => h.1.2
  · exact fun h => ⟨⟨fun c hc => (hbefore c hc).plain, h⟩, fun c hc => (hafter c hc).plain⟩

/-- The value holds another reference, signs of the notation and a tab. -/
theorem FileConfig.parse_reference_signs :
    let env : Environment := fun name =>
      if name = "A b".toList then some (Utf8.encode "'ä' = [${A b}]\t#".toList) else none
    (∀ c ∈ "x/".toList, IsFiller c) ∧ (∀ c ∈ "9".toList, IsFiller c) ∧ "A b".toList ≠ [] ∧ '}' ∉ "A b".toList ∧
      env "A b".toList = some (Utf8.encode "'ä' = [${A b}]\t#".toList) ∧
      (∀ c ∈ "'ä' = [${A b}]\t#".toList, Plain c) ∧
      parse env (TextField.label.file ("x/".toList ++ Reference.written "A b".toList ++ "9".toList)) =
        .ok (TextField.label.alone (String.ofList ("x/".toList ++ "'ä' = [${A b}]\t#".toList ++ "9".toList))) := by
  intro env
  have hbefore : ∀ c ∈ "x/".toList, IsFiller c := List.all_iff_forall_prop.mp (by decide +kernel)
  have hafter : ∀ c ∈ "9".toList, IsFiller c := List.all_iff_forall_prop.mp (by decide +kernel)
  have hname : "A b".toList ≠ [] := by decide +kernel
  have hbrace : '}' ∉ "A b".toList := by decide +kernel
  have hset : env "A b".toList = some (Utf8.encode "'ä' = [${A b}]\t#".toList) := if_pos rfl
  have hvalue : ∀ c ∈ "'ä' = [${A b}]\t#".toList, Plain c := List.all_iff_forall_prop.mp (by decide +kernel)
  exact ⟨hbefore, hafter, hname, hbrace, hset, hvalue,
    (parse_reference .label hbefore hafter hname hbrace hset).mpr hvalue⟩

/-- With a backslash in it the value reaches the field as something else. -/
theorem FileConfig.parse_reference_backslash :
    let env : Environment := fun name => if name = "OB_DIR".toList then some (Utf8.encode "C:\\new".toList) else none
    let text := TextField.input.file (Reference.written "OB_DIR".toList)
    parse env text = .ok (TextField.input.alone "C:\new") ∧ parse env text ≠ .ok (TextField.input.alone "C:\\new") := by
  decide +kernel

end TemplateTiming
