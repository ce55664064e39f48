import Mathlib
import TemplateTiming.FileConfig.Reader
import TemplateTiming.Proofs.Reference
import TemplateTiming.Proofs.TomlTable

/-! Configuration files are read back. A configuration is written as a plain document with a table for each section and
a line for each field that is present; in which order tables and lines stand, how the texts are spelled, and whether a
table without lines is written at all makes no difference. While entries are read, the configuration so far is the
written one restricted to the names that have been read, and in the end all names have been. -/

namespace TemplateTiming

open Toml (Scalar Section Value Key Problem Holds FieldValue)

/-- A field that may be missing. -/
def fieldOf {α : Type} (key : String) (scalar : α → Scalar) (value : Option α) : List (List Char × Scalar) :=
  (value.map fun a => (key.toList, scalar a)).toList

def countScalar (n : UInt64) : Scalar := .integer n.toNat

def textScalar (s : String) : Scalar := .string s.toList

def BenchSection.fields (s : BenchSection) : List (List Char × Scalar) :=
  fieldOf "input" (fun p => .string (Utf8.lossy p.octets)) s.input ++ fieldOf "iterations" countScalar s.iterations
    ++ fieldOf "warmup" countScalar s.warmup ++ fieldOf "label" textScalar s.label
    ++ fieldOf "format" textScalar s.format

def RenderSettings.fields (s : RenderSettings) : List (List Char × Scalar) :=
  fieldOf "disable_comments" .boolean s.disableComments ++ fieldOf "social_icon_origin" textScalar s.socialIconOrigin

def Monitoring.fields (m : Monitoring) : List (List Char × Scalar) :=
  ("enabled".toList, .boolean m.enabled) :: fieldOf "log_level" textScalar m.logLevel

namespace FileConfig

/-- The tables of a configuration. -/
def sections (c : FileConfig) : List Section :=
  [⟨"bench".toList, c.bench.fields⟩, ⟨"render".toList, c.render.fields⟩]
    ++ (c.monitoring.map fun m => (⟨"monitoring".toList, m.fields⟩ : Section)).toList

/-- Tables that make up a configuration: none of them twice, each with its fields in any order, and only tables
without fields may be missing. -/
structure Arranged (secs : List Section) (c : FileConfig) : Prop where
  once : (secs.map Section.name).Nodup
  fields : ∀ t ∈ secs, ∃ s ∈ c.sections, t.name = s.name ∧ t.fields.Perm s.fields
  complete : ∀ s ∈ c.sections, s.fields ≠ [] → ∃ t ∈ secs, t.name = s.name

end FileConfig

/-! ### Restrictions -/

/-- Reading entries one after the other adds their names to what is restricted to names. -/
theorem foldlM_names {ε α β : Type} {step : α → β → Except ε α} {name : β → String} {part : List String → α}
    {entries : List β} (hstep : ∀ e ∈ entries, ∀ names, step (part names) e = .ok (part (name e :: names)))
    (names : List String) :
    entries.foldlM step (part names) = .ok (part ((entries.map name).reverse ++ names)) := by
  induction entries generalizing names with
  | nil => rfl
  | cons e entries ih =>
      obtain ⟨he, hstep⟩ := List.forall_mem_cons.mp hstep
      rw [List.foldlM_cons, he, List.map_cons, List.reverse_cons, List.append_assoc]
      exact ih hstep (name e :: names)

/-- If every entry adds the name of its item, then in the end the names of all items have been added. -/
theorem Toml.Holds.foldlM {ε α β : Type} {name : α → List Char} {meant : α → Value → Prop} {items : List α}
    {entries : List (Key × Value)} (h : Holds name meant items entries) (step : β → Key → Value → Except ε β)
    (part : List String → β) (hstep : ∀ item ∈ items, ∀ k v names, k.name = name item → meant item v →
      step (part names) k v = .ok (part (String.ofList (name item) :: names))) :
    ∃ names, (∀ item ∈ items, String.ofList (name item) ∈ names) ∧
      entries.foldlM (fun b e => step b e.1 e.2) (part []) = .ok (part names) := by
  have hentries : ∀ e ∈ entries, ∀ names,
      step (part names) e.1 e.2 = .ok (part (String.ofList e.1.name :: names)) := by
    intro e he names
    obtain ⟨item, hitem, hk, hv⟩ := h.item he
    rw [hk]
    exact hstep item hitem e.1 e.2 names hk hv
  refine ⟨_, ?_, foldlM_names hentries []⟩
  intro item hitem
  have hmem : name item ∈ entries.map fun e => e.1.name := h.names.mem_iff.mpr (List.mem_map_of_mem hitem)
  obtain ⟨e, he, heq⟩ := List.mem_map.mp hmem
  rw [List.append_nil, List.mem_reverse]
  exact List.mem_map.mpr ⟨e, he, congrArg String.ofList heq⟩

def BenchSection.upTo (s : BenchSection) (names : List String) : BenchSection where
  input := if "input" ∈ names then s.input else none
  iterations := if "iterations" ∈ names then s.iterations else none
  warmup := if "warmup" ∈ names then s.warmup else none
  label := if "label" ∈ names then s.label else none
  format := if "format" ∈ names then s.format else none

def RenderSettings.upTo (s : RenderSettings) (names : List String) : RenderSettings where
  disableComments := if "disable_comments" ∈ names then s.disableComments else none
  socialIconOrigin := if "social_icon_origin" ∈ names then s.socialIconOrigin else none

def Monitoring.upTo (m : Monitoring) (names : List String) : Option Bool × Option String :=
  (if "enabled" ∈ names then some m.enabled else none, if "log_level" ∈ names then m.logLevel else none)

def FileConfig.upTo (c : FileConfig) (names : List String) : FileConfig where
  bench := if "bench" ∈ names then c.bench else empty.bench
  render := if "render" ∈ names then c.render else empty.render
  monitoring := if "monitoring" ∈ names then c.monitoring else none

theorem mem_fieldOf {α : Type} {key : String} {scalar : α → Scalar} {value : Option α} {f : List Char × Scalar} :
    f ∈ fieldOf key scalar value ↔ ∃ a, value = some a ∧ f = (key.toList, scalar a) := by
  cases value with
  | none => simp [fieldOf]
  | some a => simp [fieldOf]

theorem fieldOf_eq_nil {α : Type} {key : String} {scalar : α → Scalar} {value : Option α} :
    fieldOf key scalar value = [] ↔ value = none := by
  cases value with
  | none => exact iff_of_true rfl rfl
  | some a => exact iff_of_false (List.cons_ne_nil _ _) (Option.some_ne_none a)

/-! ### Values -/

theorem toCount_countScalar (n : UInt64) (span : Toml.Span) : (Value.scalar (countScalar n) span).toCount = .ok n := by
  have hrange : 0 ≤ (n.toNat : Int) ∧ (n.toNat : Int) < Int.pow 2 64 :=
    ⟨Int.natCast_nonneg _, Int.ofNat_lt.mpr n.toNat_lt⟩
  simp only [countScalar, Value.toCount, if_pos hrange]
  simp

theorem toText_textScalar (s : String) (expected : String) (span : Toml.Span) :
    (Value.scalar (textScalar s) span).toText expected = .ok s := by
  simp [textScalar, Value.toText]

theorem ofString_lossy (s : String) : Path.ofString (String.ofList (Utf8.lossy (Path.ofString s).octets)) =
    Path.ofString s := by
  simp only [Path.ofString, Utf8.lossy_encode, String.toList_ofList]

/-! ### Sections -/

namespace FileConfig

theorem setBench_upTo {s : BenchSection} (hinput : ∀ p ∈ s.input, ∃ text, p = Path.ofString text)
    {f : List Char × Scalar} (hf : f ∈ s.fields) {v : Value} (hv : FieldValue f v) (names : List String) :
    setBench (s.upTo names) (String.ofList f.1) v = .ok (s.upTo (String.ofList f.1 :: names)) := by
  obtain ⟨span, hv⟩ := hv
  simp only [BenchSection.fields, List.mem_append, mem_fieldOf] at hf
  rcases hf with (((⟨p, hp, rfl⟩ | ⟨n, hn, rfl⟩) | ⟨n, hn, rfl⟩) | ⟨l, hl, rfl⟩) | ⟨l, hl, rfl⟩
  · obtain ⟨text, rfl⟩ := hinput p hp
    simp [setBench, BenchSection.upTo, hp, hv, Value.toText, ofString_lossy, bind, Except.bind]
  · have hcount : v.toCount = .ok n := hv ▸ toCount_countScalar n span
    simp [setBench, BenchSection.upTo, hn, hcount, bind, Except.bind]
  · have hcount : v.toCount = .ok n := hv ▸ toCount_countScalar n span
    simp [setBench, BenchSection.upTo, hn, hcount, bind, Except.bind]
  · simp [setBench, BenchSection.upTo, hl, hv, toText_textScalar, bind, Except.bind]
  · simp [setBench, BenchSection.upTo, hl, hv, toText_textScalar, bind, Except.bind]

theorem setRender_upTo {s : RenderSettings} {f : List Char × Scalar} (hf : f ∈ s.fields) {v : Value}
    (hv : FieldValue f v) (names : List String) :
    setRender (s.upTo names) (String.ofList f.1) v = .ok (s.upTo (String.ofList f.1 :: names)) := by
  obtain ⟨span, rfl⟩ := hv
  simp only [RenderSettings.fields, List.mem_append, mem_fieldOf] at hf
  rcases hf with ⟨b, hb, rfl⟩ | ⟨o, ho, rfl⟩
  · simp [setRender, RenderSettings.upTo, hb, Value.toBool, bind, Except.bind]
  · simp [setRender, RenderSettings.upTo, ho, toText_textScalar, bind, Except.bind]

theorem setMonitoring_upTo {m : Monitoring} {f : List Char × Scalar} (hf : f ∈ m.fields) {v : Value}
    (hv : FieldValue f v) (names : List String) :
    setMonitoring (m.upTo names) (String.ofList f.1) v = .ok (m.upTo (String.ofList f.1 :: names)) := by
  obtain ⟨span, rfl⟩ := hv
  simp only [Monitoring.fields, List.mem_cons, mem_fieldOf] at hf
  rcases hf with rfl | ⟨l, hl, rfl⟩
  · simp [setMonitoring, Monitoring.upTo, Value.toBool, bind, Except.bind]
  · simp [setMonitoring, Monitoring.upTo, hl, toText_textScalar, bind, Except.bind]

/-- A section is read by reading its fields, if it knows them all. -/
theorem toSection_fields {α : Type} {known : List String} {set : α → String → Value → Except Problem α}
    {part : List String → α} {fields : List (List Char × Scalar)}
    (hknown : ∀ f ∈ fields, String.ofList f.1 ∈ known)
    (hset : ∀ f ∈ fields, ∀ v, FieldValue f v → ∀ names,
      set (part names) (String.ofList f.1) v = .ok (part (String.ofList f.1 :: names)))
    (title : String) {v : Value} {t : Section} (hfields : t.fields.Perm fields) (hv : t.Stored v) :
    ∃ names, (∀ f ∈ fields, String.ofList f.1 ∈ names) ∧ v.toSection title known set (part []) = .ok (part names) := by
  obtain ⟨origin, entries, span, rfl, hentries⟩ := hv
  let step (a : α) (k : Key) (v : Value) : Except Problem α :=
    if known.contains (String.ofList k.name) then set a (String.ofList k.name) v else v.skip >>= fun _ => .ok a
  have hstep : ∀ f ∈ t.fields, ∀ k v names, k.name = f.1 → FieldValue f v →
      step (part names) k v = .ok (part (String.ofList f.1 :: names)) := by
    intro f hf k v names hk hv
    have hmem := hfields.mem_iff.mp hf
    simp only [step, hk, List.contains_iff_mem.mpr (hknown f hmem), if_true]
    exact hset f hmem v hv names
  obtain ⟨names, hnames, hread⟩ := hentries.foldlM step part hstep
  exact ⟨names, fun f hf => hnames f (hfields.mem_iff.mpr hf), hread⟩

theorem upTo_field {α : Type} {key : String} {scalar : α → Scalar} {value : Option α} {names : List String}
    (h : ∀ f ∈ fieldOf key scalar value, String.ofList f.1 ∈ names) :
    (if key ∈ names then value else none) = value := by
  cases value with
  | none => exact ite_self none
  | some a =>
      have hmem := h _ (mem_fieldOf.mpr ⟨a, rfl, rfl⟩)
      rw [String.ofList_toList] at hmem
      exact if_pos hmem

theorem benchOf_stored {s : BenchSection} (hinput : ∀ p ∈ s.input, ∃ text, p = Path.ofString text) {t : Section}
    (hfields : t.fields.Perm s.fields) {v : Value} (hv : t.Stored v) : benchOf v = .ok s := by
  have hknown : ∀ f ∈ s.fields, String.ofList f.1 ∈ ["input", "iterations", "warmup", "label", "format"] := by
    intro f hf
    simp only [BenchSection.fields, List.mem_append, mem_fieldOf] at hf
    rcases hf with (((⟨p, _, rfl⟩ | ⟨n, _, rfl⟩) | ⟨n, _, rfl⟩) | ⟨l, _, rfl⟩) | ⟨l, _, rfl⟩ <;> simp
  obtain ⟨names, hnames, hread⟩ :=
    toSection_fields hknown (fun f hf v hv => setBench_upTo hinput hf hv) "BenchSection" hfields hv
  simp only [BenchSection.fields, List.forall_mem_append] at hnames
  obtain ⟨⟨⟨⟨hpath, hiterations⟩, hwarmup⟩, hlabel⟩, hformat⟩ := hnames
  have hall : s.upTo names = s := by
    rw [BenchSection.upTo, upTo_field hpath, upTo_field hiterations, upTo_field hwarmup, upTo_field hlabel,
      upTo_field hformat]
  rw [hall] at hread
  exact hread

theorem renderOf_stored {s : RenderSettings} {t : Section} (hfields : t.fields.Perm s.fields) {v : Value}
    (hv : t.Stored v) : renderOf v = .ok s := by
  have hknown : ∀ f ∈ s.fields, String.ofList f.1 ∈ ["disable_comments", "social_icon_origin"] := by
    intro f hf
    simp only [RenderSettings.fields, List.mem_append, mem_fieldOf] at hf
    rcases hf with ⟨b, _, rfl⟩ | ⟨o, _, rfl⟩ <;> simp
  obtain ⟨names, hnames, hread⟩ :=
    toSection_fields hknown (fun f hf v hv => setRender_upTo hf hv) "RenderSettings" hfields hv
  simp only [RenderSettings.fields, List.forall_mem_append] at hnames
  have hall : s.upTo names = s := by
    rw [RenderSettings.upTo, upTo_field hnames.1, upTo_field hnames.2]
  rw [hall] at hread
  exact hread

theorem monitoringOf_stored {m : Monitoring} {t : Section} (hfields : t.fields.Perm m.fields) {v : Value}
    (hv : t.Stored v) : monitoringOf v = .ok m := by
  have hknown : ∀ f ∈ m.fields, String.ofList f.1 ∈ ["enabled", "log_level"] := by
    intro f hf
    simp only [Monitoring.fields, List.mem_cons, mem_fieldOf] at hf
    rcases hf with rfl | ⟨l, _, rfl⟩ <;> simp
  obtain ⟨names, hnames, hread⟩ :=
    toSection_fields hknown (fun f hf v hv => setMonitoring_upTo hf hv) "MonitoringConfig" hfields hv
  simp only [Monitoring.fields, List.forall_mem_cons, String.ofList_toList] at hnames
  have hall : m.upTo names = (some m.enabled, m.logLevel) := by
    rw [Monitoring.upTo, if_pos hnames.1, upTo_field hnames.2]
  rw [hall] at hread
  exact bind_eq_ok_iff.mpr ⟨_, hread, rfl⟩

/-- The table of a section adds that section. -/
theorem setSection_upTo {c : FileConfig} (hinput : ∀ p ∈ c.bench.input, ∃ text, p = Path.ofString text) {s t : Section}
    (hs : s ∈ c.sections) (hname : t.name = s.name) (hfields : t.fields.Perm s.fields) {k : Key} (hk : k.name = t.name)
    {v : Value} (hv : t.Stored v) (names : List String) :
    setSection (c.upTo names) k v = .ok (c.upTo (String.ofList k.name :: names)) := by
  simp only [sections, List.mem_append, List.mem_cons, List.not_mem_nil, or_false, Option.mem_toList,
    Option.map_eq_some_iff] at hs
  have hk : k.name = s.name := hk.trans hname
  rcases hs with (rfl | rfl) | ⟨m, hm, rfl⟩
  · have hread := benchOf_stored hinput hfields hv
    simp [setSection, FileConfig.upTo, hk, hread, bind, Except.bind]
  · have hread := renderOf_stored hfields hv
    simp [setSection, FileConfig.upTo, hk, hread, bind, Except.bind]
  · have hread := monitoringOf_stored hfields hv
    simp [setSection, FileConfig.upTo, hk, hm, hread, bind, Except.bind]

theorem bench_of_no_fields {s : BenchSection} (h : s.fields = []) : empty.bench = s := by
  simp only [BenchSection.fields, List.append_eq_nil_iff, fieldOf_eq_nil] at h
  obtain ⟨⟨⟨⟨hinput, hiterations⟩, hwarmup⟩, hlabel⟩, hformat⟩ := h
  rw [show s = ⟨s.input, s.iterations, s.warmup, s.label, s.format⟩ from rfl, hinput, hiterations, hwarmup, hlabel,
    hformat]
  rfl

theorem render_of_no_fields {s : RenderSettings} (h : s.fields = []) : empty.render = s := by
  simp only [RenderSettings.fields, List.append_eq_nil_iff, fieldOf_eq_nil] at h
  rw [show s = ⟨s.disableComments, s.socialIconOrigin⟩ from rfl, h.1, h.2]
  rfl

/-- A section without a table has no fields. -/
theorem upTo_sections {c : FileConfig} {names : List String}
    (h : ∀ s ∈ c.sections, s.fields ≠ [] → String.ofList s.name ∈ names) : c.upTo names = c := by
  obtain ⟨bench, render, monitoring⟩ := c
  simp only [sections, List.cons_append, List.nil_append, List.forall_mem_cons, String.ofList_toList] at h
  obtain ⟨hbench, hrender, hmonitoring⟩ := h
  have hbench : (if "bench" ∈ names then bench else empty.bench) = bench :=
    ite_eq_left_iff.mpr fun hnot => bench_of_no_fields (not_not.mp (mt hbench hnot))
  have hrender : (if "render" ∈ names then render else empty.render) = render :=
    ite_eq_left_iff.mpr fun hnot => render_of_no_fields (not_not.mp (mt hrender hnot))
  have hmonitoring : (if "monitoring" ∈ names then monitoring else none) = monitoring := by
    cases monitoring with
    | none => exact ite_self none
    | some m =>
        have hmem := hmonitoring _ (Option.mem_toList.mpr rfl) (List.cons_ne_nil _ _)
        rw [String.ofList_toList] at hmem
        exact if_pos hmem
  rw [upTo, hbench, hrender, hmonitoring]

/-- Tables that make up a configuration are read as that configuration. -/
theorem ofTable_stored {c : FileConfig} (hinput : ∀ p ∈ c.bench.input, ∃ text, p = Path.ofString text)
    {secs : List Section} (hsecs : Arranged secs c) {t : Toml.Table}
    (ht : Holds Section.name Section.Stored secs t.entries) : ofTable t = .ok c := by
  have hstep : ∀ s ∈ secs, ∀ k v names, k.name = s.name → s.Stored v →
      setSection (c.upTo names) k v = .ok (c.upTo (String.ofList s.name :: names)) := by
    intro s hs k v names hk hv
    obtain ⟨s', hs', hname, hfields⟩ := hsecs.fields s hs
    rw [← hk]
    exact setSection_upTo hinput hs' hname hfields hk hv names
  obtain ⟨names, hnames, hread⟩ := ht.foldlM setSection c.upTo hstep
  have hall : c.upTo names = c := by
    refine upTo_sections fun s hs hfields => ?_
    obtain ⟨t', ht', hname⟩ := hsecs.complete s hs hfields
    exact hname ▸ hnames t' ht'
  rw [hall] at hread
  exact hread

end FileConfig

/-! ### The written form -/

namespace Toml

open Line (AllWritten)

theorem allWritten_writeLine {written rest : List Char} {value : Scalar} {lines : List Line} (key : String)
    (hkey : Bare key.toList) (hvalue : Writes written value) (hmore : AllWritten rest lines) :
    AllWritten (writeLine key written ++ rest) (.entry key.toList value :: lines) := by
  have htext : writeLine key written ++ rest = key.toList ++ " = ".toList ++ written ++ '\n' :: rest := by
    simp only [writeLine, List.append_assoc, List.singleton_append]
  rw [htext]
  exact .cons (.entry hkey hvalue) hmore

theorem allWritten_fieldLine {α : Type} {write : α → List Char} {scalar : α → Scalar} (key : String)
    (hkey : Bare key.toList) (hvalue : ∀ a, Writes (write a) (scalar a)) (value : Option α) {rest : List Char}
    {lines : List Line} (hmore : AllWritten rest lines) :
    AllWritten ((FileConfig.fieldLine key write value).flatten ++ rest)
      ((fieldOf key scalar value).map (fun f => .entry f.1 f.2) ++ lines) := by
  cases value with
  | none => exact hmore
  | some a =>
      have hline := allWritten_writeLine key hkey (hvalue a) hmore
      simpa only [FileConfig.fieldLine, fieldOf, Option.map_some, Option.toList_some, List.flatten_singleton,
        List.map_singleton, List.singleton_append] using hline

theorem allWritten_writeTable {texts : List (List Char)} {rest : List Char} {lines : List Line} (name : String)
    (hname : Bare name.toList) (hmore : AllWritten (texts.flatten ++ rest) lines) :
    AllWritten (writeTable name texts ++ rest) (.header name.toList :: lines) := by
  have htext : writeTable name texts ++ rest = '[' :: (name.toList ++ [']']) ++ '\n' :: (texts.flatten ++ rest) := by
    simp only [writeTable, List.cons_append, List.append_assoc, List.nil_append]
  rw [htext]
  exact .cons (.header hname) hmore

theorem writes_text (s : String) : Writes (writeString s.toList) (textScalar s) := .string (spells_flatMap s.toList)

theorem writes_count (n : UInt64) : Writes (Decimal.digits n.toNat) (countScalar n) := .integer n.toNat

theorem writes_path (p : Path) : Writes (writeString (Utf8.lossy p.octets)) (.string (Utf8.lossy p.octets)) :=
  .string (spells_flatMap _)

end Toml

open Toml

variable {rest : List Char} {lines : List Line}

theorem BenchSection.allWritten (s : BenchSection) (hmore : Line.AllWritten rest lines) :
    Line.AllWritten (s.lines.flatten ++ rest) (s.fields.map (fun f => .entry f.1 f.2) ++ lines) := by
  simp only [BenchSection.lines, BenchSection.fields, List.flatten_append, List.map_append, List.append_assoc]
  have hformat := allWritten_fieldLine "format" (by decide +kernel) writes_text s.format hmore
  have hlabel := allWritten_fieldLine "label" (by decide +kernel) writes_text s.label hformat
  have hwarmup := allWritten_fieldLine "warmup" (by decide +kernel) writes_count s.warmup hlabel
  have hiterations := allWritten_fieldLine "iterations" (by decide +kernel) writes_count s.iterations hwarmup
  exact allWritten_fieldLine "input" (by decide +kernel) writes_path s.input hiterations

theorem RenderSettings.allWritten (s : RenderSettings) (hmore : Line.AllWritten rest lines) :
    Line.AllWritten (s.lines.flatten ++ rest) (s.fields.map (fun f => .entry f.1 f.2) ++ lines) := by
  simp only [RenderSettings.lines, RenderSettings.fields, List.flatten_append, List.map_append, List.append_assoc]
  have horigin := allWritten_fieldLine "social_icon_origin" (by decide +kernel) writes_text s.socialIconOrigin hmore
  exact allWritten_fieldLine "disable_comments" (by decide +kernel) .boolean s.disableComments horigin

theorem Monitoring.allWritten (m : Monitoring) (hmore : Line.AllWritten rest lines) :
    Line.AllWritten (m.lines.flatten ++ rest) (m.fields.map (fun f => .entry f.1 f.2) ++ lines) := by
  simp only [Monitoring.lines, Monitoring.fields, List.flatten_cons, List.map_cons, List.cons_append,
    List.append_assoc]
  have hlevel := allWritten_fieldLine "log_level" (by decide +kernel) writes_text m.logLevel hmore
  exact allWritten_writeLine "enabled" (by decide +kernel) (.boolean m.enabled) hlevel

namespace FileConfig

/-- The tables in their fixed order, with the fields in theirs. -/
theorem allWritten_write (c : FileConfig) : Line.AllWritten c.write (c.sections.flatMap Section.lines) := by
  have hmonitoring : Line.AllWritten ((c.monitoring.map fun m => writeTable "monitoring" m.lines).toList.flatten)
      ((c.monitoring.map fun m => (⟨"monitoring".toList, m.fields⟩ : Section)).toList.flatMap Section.lines) := by
    cases c.monitoring with
    | none => exact .nil
    | some m =>
        have hlines := allWritten_writeTable "monitoring" (by decide +kernel) (m.allWritten .nil)
        simpa only [Option.map_some, Option.toList_some, List.flatten_singleton, List.flatMap_singleton, Section.lines,
          List.append_nil] using hlines
  have hrender := allWritten_writeTable "render" (by decide +kernel) (c.render.allWritten hmonitoring)
  have hbench := allWritten_writeTable "bench" (by decide +kernel) (c.bench.allWritten hrender)
  simpa only [write, tables, sections, List.flatten_append, List.flatten_cons, List.flatten_nil, List.append_nil,
    List.flatMap_append, List.flatMap_cons, List.flatMap_nil, Section.lines, List.cons_append, List.nil_append,
    List.append_assoc] using hbench

theorem arranged_sections (c : FileConfig) : Arranged c.sections c where
  once := by
    cases hmonitoring : c.monitoring <;> simp [sections, hmonitoring]
  fields := fun s hs => ⟨s, hs, rfl, List.Perm.refl _⟩
  complete := fun s hs _ => ⟨s, hs, rfl⟩

theorem fieldOf_keys_sublist {α : Type} (key : String) (scalar : α → Scalar) (value : Option α) :
    ((fieldOf key scalar value).map Prod.fst).Sublist [key.toList] := by
  cases value with
  | none => exact List.nil_sublist _
  | some a => exact List.Sublist.refl _

theorem bench_keys_nodup (s : BenchSection) : (s.fields.map Prod.fst).Nodup := by
  have hall := ((((fieldOf_keys_sublist "input" (fun p : Path => .string (Utf8.lossy p.octets)) s.input).append
    (fieldOf_keys_sublist "iterations" countScalar s.iterations)).append
      (fieldOf_keys_sublist "warmup" countScalar s.warmup)).append
        (fieldOf_keys_sublist "label" textScalar s.label)).append (fieldOf_keys_sublist "format" textScalar s.format)
  simp only [← List.map_append] at hall
  exact hall.nodup (by decide +kernel)

theorem render_keys_nodup (s : RenderSettings) : (s.fields.map Prod.fst).Nodup := by
  have hall := (fieldOf_keys_sublist "disable_comments" Scalar.boolean s.disableComments).append
    (fieldOf_keys_sublist "social_icon_origin" textScalar s.socialIconOrigin)
  rw [← List.map_append] at hall
  exact hall.nodup (by decide +kernel)

theorem monitoring_keys_nodup (m : Monitoring) : (m.fields.map Prod.fst).Nodup := by
  have hall := (fieldOf_keys_sublist "log_level" textScalar m.logLevel).cons_cons "enabled".toList
  exact List.Nodup.sublist hall (by decide +kernel)

theorem keys_nodup {c : FileConfig} {s : Section} (hs : s ∈ c.sections) : (s.fields.map Prod.fst).Nodup := by
  simp only [sections, List.mem_append, List.mem_cons, List.not_mem_nil, or_false, Option.mem_toList,
    Option.map_eq_some_iff] at hs
  rcases hs with (rfl | rfl) | ⟨m, _, rfl⟩
  · exact bench_keys_nodup c.bench
  · exact render_keys_nodup c.render
  · exact monitoring_keys_nodup m

theorem ofToml_arranged {c : FileConfig} (hinput : ∀ p ∈ c.bench.input, ∃ text, p = Path.ofString text)
    {secs : List Section} (hsecs : Arranged secs c) {text : List Char}
    (htext : Line.AllWritten text (secs.flatMap Section.lines)) : ofToml text = .ok c := by
  have hkeys : ∀ t ∈ secs, (t.fields.map Prod.fst).Nodup := by
    intro t ht
    obtain ⟨s, hs, _, hfields⟩ := hsecs.fields t ht
    exact (hfields.map Prod.fst).nodup_iff.mpr (keys_nodup hs)
  obtain ⟨t, hparse, hholds⟩ := Table.parse_sections htext hsecs.once hkeys
  exact bind_eq_ok_iff.mpr ⟨t, hparse, ofTable_stored hinput hsecs hholds⟩

/-- **A configuration file is read back**, whatever texts it holds, references included, while no variable is set. Its
tables may stand in any order and the fields of each in any order, a table without fields may be left out, and every
text may be spelled in any way; the written form in particular is such a file. -/
theorem parse_written {c : FileConfig} (hinput : ∀ p ∈ c.bench.input, ∃ text, p = Path.ofString text) :
    (∀ secs text, Arranged secs c → Line.AllWritten text (secs.flatMap Section.lines) →
      parse (fun _ => none) text = .ok c) ∧
    parse (fun _ => none) c.write = .ok c := by
  have hall : ∀ secs text, Arranged secs c → Line.AllWritten text (secs.flatMap Section.lines) →
      parse (fun _ => none) text = .ok c := by
    intro secs text hsecs htext
    rw [parse, Reference.substitute_of_unset fun _ => rfl]
    exact mapError_eq_ok_iff.mpr (ofToml_arranged hinput hsecs htext)
  exact ⟨hall, hall c.sections c.write (arranged_sections c) (allWritten_write c)⟩

/-- Tables and fields in another order, a reference and an escape in a text, and no table for the empty section. -/
theorem parse_written_reordered :
    let c : FileConfig := ⟨⟨some (Path.ofString "${HOME}/ä\n"), some 18446744073709551615, none, none, none⟩,
      ⟨none, none⟩, some ⟨false, some ""⟩⟩
    let secs : List Section :=
      [⟨"monitoring".toList, [("log_level".toList, textScalar ""), ("enabled".toList, .boolean false)]⟩,
        ⟨"bench".toList, [("iterations".toList, countScalar 18446744073709551615),
          ("input".toList, textScalar "${HOME}/ä\n")]⟩]
    let text := ("[monitoring]\nlog_level = \"\"\nenabled = false\n" ++
      "[bench]\niterations = 18446744073709551615\ninput = \"${HOME}/ä\\n\"\n").toList
    (∀ p ∈ c.bench.input, ∃ text, p = Path.ofString text) ∧ Arranged secs c ∧
      Line.AllWritten text (secs.flatMap Section.lines) ∧ parse (fun _ => none) text = .ok c := by
  intro c secs text
  have hinput : ∀ p ∈ c.bench.input, ∃ text, p = Path.ofString text := by
    rintro p ⟨⟩
    exact ⟨_, rfl⟩
  have hfields : c.bench.fields = [("input".toList, textScalar "${HOME}/ä\n"),
      ("iterations".toList, countScalar 18446744073709551615)] :=
    congrArg (fun cs => [("input".toList, Scalar.string cs), _]) (Utf8.lossy_encode _)
  have hsecs : Arranged secs c :=
    { once := by decide +kernel
      fields := by
        simp only [secs, List.forall_mem_cons]
        exact ⟨⟨⟨"monitoring".toList, Monitoring.fields ⟨false, some ""⟩⟩,
            List.mem_cons_of_mem _ (List.mem_cons_of_mem _ List.mem_cons_self), rfl, List.Perm.swap _ _ []⟩,
          ⟨⟨"bench".toList, c.bench.fields⟩, List.mem_cons_self, rfl, hfields ▸ List.Perm.swap _ _ []⟩, nofun⟩
      complete := by
        simp only [sections, c, List.cons_append, List.nil_append, Option.map_some, Option.toList_some,
          List.forall_mem_cons]
        exact ⟨fun _ => ⟨_, List.mem_cons_of_mem _ List.mem_cons_self, rfl⟩, fun hempty => absurd rfl hempty,
          fun _ => ⟨_, List.mem_cons_self, rfl⟩, nofun⟩ }
  have htext : Line.AllWritten text (secs.flatMap Section.lines) := by
    have hpath := allWritten_writeLine "input" (by decide +kernel) (writes_text "${HOME}/ä\n") .nil
    have hiterations := allWritten_writeLine "iterations" (by decide +kernel) (writes_count 18446744073709551615) hpath
    have hbench := Line.AllWritten.cons (@Line.Written.header "bench".toList (by decide +kernel)) hiterations
    have henabled := allWritten_writeLine "enabled" (by decide +kernel) (.boolean false) hbench
    have hlevel := allWritten_writeLine "log_level" (by decide +kernel) (writes_text "") henabled
    have hmonitoring := Line.AllWritten.cons (@Line.Written.header "monitoring".toList (by decide +kernel)) hlevel
    refine (congrArg (Line.AllWritten · _) ?_).mp hmonitoring
    decide +kernel
  exact ⟨hinput, hsecs, htext, (parse_written hinput).1 secs text hsecs htext⟩

end FileConfig

end TemplateTiming
