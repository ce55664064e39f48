import TemplateTiming.CommandLine.Basic
import TemplateTiming.Proofs.LetterCase

/-! Which settings come out of a command line and a configuration file. A file is checked on its own before its
values are used, so what reaches the second check is either a default, a value of a checked file or a flag, and
only the flag can be at fault. -/

namespace TemplateTiming

section Layers

variable {α : Type} {P : α → Prop}

/-- A value written over a good one is good if it is good itself. -/
theorem getD_iff {value : Option α} {below : α} (hbelow : P below) :
    P (value.getD below) ↔ ∀ a ∈ value, P a := by
  cases value with
  | none => exact iff_of_true hbelow (fun _ h => nomatch h)
  | some a =>
      constructor
      · rintro h _ ⟨⟩
        exact h
      · intro h
        exact h a rfl

theorem orElse_iff {value below : Option α} (hbelow : ∀ a ∈ below, P a) :
    (∀ a ∈ (value <|> below), P a) ↔ ∀ a ∈ value, P a := by
  cases value with
  | none => exact iff_of_true hbelow (fun _ h => nomatch h)
  | some a => exact Iff.rfl

/-- What is wrong with a value written over a good one is wrong with the value itself. -/
theorem given_of_getD {value : Option α} {below : α} (hbelow : ¬P below) (h : P (value.getD below)) :
    ∃ a ∈ value, P a := by
  cases value with
  | none => exact absurd h hbelow
  | some a => exact ⟨a, rfl, h⟩

theorem given_of_orElse {value below : Option α} (hbelow : ∀ a ∈ below, ¬P a)
    (h : ∃ a ∈ (value <|> below), P a) : ∃ a ∈ value, P a := by
  cases value with
  | none =>
      obtain ⟨a, ha, hP⟩ := h
      exact absurd hP (hbelow a ha)
  | some a => exact h

end Layers

/-- The log level, if there is one, is the name of a level. -/
def FileConfig.LevelNamed (c : FileConfig) : Prop :=
  ∀ level ∈ c.logLevel?, ∃ name ∈ ["trace", "debug", "info", "warn", "error"], Text.Spells level name

theorem FileConfig.levelNamed_iff (c : FileConfig) :
    c.LevelNamed ↔ ∀ level ∈ c.logLevel?, asciiLower level ∈ logLevels :=
  forall₂_congr fun level _ => (Text.asciiLower_mem_iff (by simp) level).symm

namespace Settings

/-- Every value of the settings can be used. -/
structure Sound (s : Settings) : Prop where
  input : ∀ p ∈ s.input, p.Usable
  iterations : 1 ≤ s.iterations
  label : Text.Visible s.label
  logLevel : ∀ l ∈ s.logLevel, ∃ name ∈ ["trace", "debug", "info", "warn", "error"], Text.Spells l name

theorem default_sound : default.Sound where
  input _ h := nomatch h
  iterations := by decide
  label := ⟨'m', by decide, by decide⟩
  logLevel _ h := nomatch h

/-- The settings of a checked file. -/
theorem ofFile_of_sound {c : FileConfig} (hsound : c.Sound) : ∃ s, ofFile c = .ok s ∧ s.Sound := by
  obtain ⟨format, hformat⟩ := hsound.reportFormat
  refine ⟨_, bind_eq_ok_iff.mpr ⟨format, hformat, rfl⟩, ?_⟩
  exact
    { input := hsound.input
      iterations := (getD_iff (P := fun n => 1 ≤ n) default_sound.iterations).mpr hsound.iterations
      label := (getD_iff default_sound.label).mpr hsound.label
      logLevel := c.levelNamed_iff.mpr hsound.logLevel }

theorem validate_eq_ok_iff (s : Settings) :
    s.validate = .ok () ↔ (∀ p ∈ s.input, p.Usable) ∧ 1 ≤ s.iterations ∧ Text.Visible s.label := by
  simp only [validate, then_eq_ok_iff, FileConfig.check_eq_ok_iff, Validation.path_eq_ok_iff,
    Validation.atLeast_eq_ok_iff, Validation.notBlank_eq_ok_iff]

theorem validate_eq_error_iff (s : Settings) (e : Error) :
    s.validate = .error e ↔
      (∃ p ∈ s.input, Validation.path "input" p = .error e) ∨
      (∀ p ∈ s.input, p.Usable) ∧
        (Validation.atLeast "iterations" s.iterations 1 = .error e ∨
          1 ≤ s.iterations ∧ Validation.notBlank "label" s.label = .error e) := by
  simp only [validate, then_eq_error_iff, FileConfig.check_eq_error_iff, FileConfig.check_eq_ok_iff,
    Validation.path_eq_ok_iff, Validation.atLeast_eq_ok_iff]

end Settings

namespace CommandLine

/-- The configuration file, if one is named, can be read and is in order. -/
def FileUsable (c : CommandLine) (env : Environment) (files : Path → Except IoError (List UInt8)) : Prop :=
  c.config = none ∨
    ∃ path text file, c.config = some path ∧ files path = .ok (Utf8.encode text) ∧
      FileConfig.ofToml (Reference.substitute env.text? text) = .ok file ∧ file.validate = .ok ()

/-- Every value that is given is valid by itself. -/
structure FlagsValid (c : CommandLine) : Prop where
  input : ∀ p ∈ c.input, p.Usable
  iterations : ∀ n ∈ c.iterations, 1 ≤ n
  label : ∀ l ∈ c.label, Text.Visible l
  format : ∀ s ∈ c.format, Text.Spells s "text" ∨ Text.Spells s "json"

/-- The check of a given value ends with the error. -/
def FlagRefused (c : CommandLine) (e : Error) : Prop :=
  (∃ p ∈ c.input, Validation.path "input" p = .error e) ∨
  (∃ n ∈ c.iterations, Validation.atLeast "iterations" n 1 = .error e) ∨
  ∃ l ∈ c.label, Validation.notBlank "label" l = .error e

/-- The settings that those of the command line are written over. -/
def base : Option FileConfig → Except Error Settings
  | some file => Settings.ofFile file
  | none => .ok Settings.default

/-- The format of the report. -/
def chosenFormat (c : CommandLine) (below : Settings) : Except Error ReportFormat :=
  match c.format with
  | some s => ReportFormat.parse s
  | none => .ok below.format

/-- The given values written over settings. -/
def overlay (c : CommandLine) (below : Settings) (format : ReportFormat) : Settings :=
  { below with
    input := c.input <|> below.input
    iterations := c.iterations.getD below.iterations
    warmup := c.warmup.getD below.warmup
    label := c.label.getD below.label
    format := format
    monitor := below.monitor || c.monitor }

theorem merge_eq (c : CommandLine) (file : Option FileConfig) :
    c.merge file = (do
      let below ← base file
      let format ← c.chosenFormat below
      .ok (c.overlay below format)) := by
  rcases c with ⟨_, _, _, _, format, _, _, _⟩
  cases file <;> cases format <;> rfl

theorem loadFile_eq_ok_iff (c : CommandLine) (env : Environment) (files : Path → Except IoError (List UInt8))
    (file : Option FileConfig) :
    c.loadFile env files = .ok file ↔
      c.config = none ∧ file = none ∨
      ∃ path f, c.config = some path ∧ FileConfig.load env files path = .ok f ∧ f.validate = .ok () ∧
        file = some f := by
  unfold loadFile
  cases c.config with
  | none =>
      constructor
      · rintro ⟨⟩
        exact Or.inl ⟨rfl, rfl⟩
      · rintro (⟨_, rfl⟩ | ⟨_, _, h, _⟩)
        · rfl
        · cases h
  | some path =>
      simp only [bind_eq_ok_iff]
      constructor
      · rintro ⟨f, hload, _, hvalid, ⟨⟩⟩
        exact Or.inr ⟨path, f, rfl, hload, hvalid, rfl⟩
      · rintro (⟨h, _⟩ | ⟨_, f, ⟨⟩, hload, hvalid, rfl⟩)
        · cases h
        · exact ⟨f, hload, (), hvalid, rfl⟩

theorem fileUsable_iff (c : CommandLine) (env : Environment) (files : Path → Except IoError (List UInt8)) :
    c.FileUsable env files ↔ ∃ file, c.loadFile env files = .ok file := by
  simp only [loadFile_eq_ok_iff, FileConfig.load_eq_ok_iff, FileUsable]
  constructor
  · rintro (hnone | ⟨path, text, file, hpath, hread, hparse, hvalid⟩)
    · exact ⟨none, Or.inl ⟨hnone, rfl⟩⟩
    · exact ⟨some file, Or.inr ⟨path, file, hpath, ⟨text, hread, hparse⟩, hvalid, rfl⟩⟩
  · rintro ⟨_, ⟨hnone, _⟩ | ⟨path, file, hpath, ⟨text, hread, hparse⟩, hvalid, _⟩⟩
    · exact Or.inl hnone
    · exact Or.inr ⟨path, text, file, hpath, hread, hparse, hvalid⟩

/-- What lies below the command line is sound, whether it comes from a file or not. -/
theorem base_of_loadFile {c : CommandLine} {env : Environment} {files : Path → Except IoError (List UInt8)}
    {file : Option FileConfig} (h : c.loadFile env files = .ok file) :
    ∃ below, base file = .ok below ∧ below.Sound := by
  rcases (loadFile_eq_ok_iff c env files file).mp h with ⟨_, rfl⟩ | ⟨_, f, _, _, hvalid, rfl⟩
  · exact ⟨Settings.default, rfl, Settings.default_sound⟩
  · exact Settings.ofFile_of_sound ((FileConfig.validate_eq_ok_iff f).mp hvalid)

theorem chosenFormat_isOk_iff (c : CommandLine) (below : Settings) :
    (∃ format, c.chosenFormat below = .ok format) ↔ ∀ s ∈ c.format, Text.Spells s "text" ∨ Text.Spells s "json" := by
  unfold chosenFormat
  cases c.format with
  | none => exact iff_of_true ⟨below.format, rfl⟩ (fun _ h => nomatch h)
  | some s =>
      simp only [← ReportFormat.named_iff, ReportFormat.named_iff_spells, Option.mem_def, Option.some.injEq,
        forall_eq']

theorem chosenFormat_refuses {c : CommandLine} {below : Settings} {e : Error}
    (h : c.chosenFormat below = .error e) : e.Refuses "format" := by
  unfold chosenFormat at h
  split at h
  · exact ReportFormat.parse_refuses h
  · cases h

theorem merge_eq_ok_iff {c : CommandLine} {file : Option FileConfig} {below : Settings}
    (hbase : base file = .ok below) (s : Settings) :
    c.merge file = .ok s ↔ ∃ format, c.chosenFormat below = .ok format ∧ c.overlay below format = s := by
  rw [merge_eq, hbase]
  simp only [bind_eq_ok_iff, Except.ok.injEq, exists_eq_left']

/-- Of the values that are checked a second time only the given ones matter. -/
theorem overlay_validate_eq_ok_iff {c : CommandLine} {below : Settings} (hbelow : below.Sound)
    (format : ReportFormat) :
    (c.overlay below format).validate = .ok () ↔
      (∀ p ∈ c.input, p.Usable) ∧ (∀ n ∈ c.iterations, 1 ≤ n) ∧ ∀ l ∈ c.label, Text.Visible l := by
  rw [Settings.validate_eq_ok_iff]
  exact and_congr (orElse_iff hbelow.input)
    (and_congr (getD_iff (P := fun n => 1 ≤ n) hbelow.iterations) (getD_iff hbelow.label))

theorem overlay_sound {c : CommandLine} {below : Settings} (hbelow : below.Sound) {format : ReportFormat}
    (h : (c.overlay below format).validate = .ok ()) : (c.overlay below format).Sound := by
  obtain ⟨hinput, hiterations, hlabel⟩ := (Settings.validate_eq_ok_iff _).mp h
  exact ⟨hinput, hiterations, hlabel, hbelow.logLevel⟩

theorem flagRefused_of_overlay {c : CommandLine} {below : Settings} (hbelow : below.Sound)
    {format : ReportFormat} {e : Error} (h : (c.overlay below format).validate = .error e) : c.FlagRefused e := by
  have hpath : ∀ p ∈ below.input, Validation.path "input" p ≠ .error e := by
    intro p hp herror
    rw [(Validation.path_eq_ok_iff "input" p).mpr (hbelow.input p hp)] at herror
    cases herror
  have hleast : Validation.atLeast "iterations" below.iterations 1 ≠ .error e := by
    rw [(Validation.atLeast_eq_ok_iff _ _ _).mpr hbelow.iterations]
    exact nofun
  have hblank : Validation.notBlank "label" below.label ≠ .error e := by
    rw [(Validation.notBlank_eq_ok_iff _ _).mpr hbelow.label]
    exact nofun
  rcases (Settings.validate_eq_error_iff _ e).mp h with herror | ⟨_, herror | ⟨_, herror⟩⟩
  · exact Or.inl (given_of_orElse hpath herror)
  · exact Or.inr (Or.inl (given_of_getD (P := fun n => Validation.atLeast "iterations" n 1 = .error e) hleast herror))
  · exact Or.inr (Or.inr (given_of_getD (P := fun l => Validation.notBlank "label" l = .error e) hblank herror))

theorem toSettings_eq_ok_iff (c : CommandLine) (env : Environment) (files : Path → Except IoError (List UInt8))
    (s : Settings) :
    c.toSettings env files = .ok s ↔
      ∃ file, c.loadFile env files = .ok file ∧ c.merge file = .ok s ∧ s.validate = .ok () := by
  simp only [toSettings, bind_eq_ok_iff]
  constructor
  · rintro ⟨file, hfile, settings, hmerge, _, hvalid, ⟨⟩⟩
    exact ⟨file, hfile, hmerge, hvalid⟩
  · rintro ⟨file, hfile, hmerge, hvalid⟩
    exact ⟨file, hfile, s, hmerge, (), hvalid, rfl⟩

theorem loadFile_category {c : CommandLine} {env : Environment} {files : Path → Except IoError (List UInt8)}
    {e : Error} (h : c.loadFile env files = .error e) : e.category = .configuration := by
  unfold loadFile at h
  split at h
  · cases h
  · rcases bind_eq_error_iff.mp h with hload | ⟨f, _, h⟩
    · exact FileConfig.load_category hload
    · rcases bind_eq_error_iff.mp h with hvalid | ⟨_, _, h⟩
      · exact FileConfig.validate_category hvalid
      · cases h

theorem FlagRefused.category {c : CommandLine} {e : Error} (h : c.FlagRefused e) : e.category = .configuration := by
  rcases h with ⟨_, _, h⟩ | ⟨_, _, h⟩ | ⟨_, _, h⟩
  · exact (Validation.path_refuses h).category
  · exact (Validation.atLeast_refuses h).category
  · exact (Validation.notBlank_refuses h).category

/-- Whatever is wrong with the settings is a matter of configuration. -/
theorem toSettings_category {c : CommandLine} {env : Environment} {files : Path → Except IoError (List UInt8)}
    {e : Error} (h : c.toSettings env files = .error e) : e.category = .configuration := by
  rcases bind_eq_error_iff.mp h with hload | ⟨file, hfile, h⟩
  · exact loadFile_category hload
  · obtain ⟨below, hbase, hbelow⟩ := base_of_loadFile hfile
    rcases bind_eq_error_iff.mp h with hmerge | ⟨s, hmerge, h⟩
    · rw [merge_eq, hbase] at hmerge
      change (c.chosenFormat below >>= fun format => .ok (c.overlay below format)) = .error e at hmerge
      rcases bind_eq_error_iff.mp hmerge with hformat | ⟨_, _, h⟩
      · exact (chosenFormat_refuses hformat).category
      · cases h
    · obtain ⟨format, _, rfl⟩ := (merge_eq_ok_iff hbase s).mp hmerge
      rcases bind_eq_error_iff.mp h with hvalid | ⟨_, _, h⟩
      · exact (flagRefused_of_overlay hbelow hvalid).category
      · cases h

theorem sound_of_toSettings {c : CommandLine} {env : Environment} {files : Path → Except IoError (List UInt8)}
    {s : Settings} (h : c.toSettings env files = .ok s) : s.Sound := by
  obtain ⟨file, hfile, hmerge, hvalid⟩ := (toSettings_eq_ok_iff c env files s).mp h
  obtain ⟨below, hbase, hbelow⟩ := base_of_loadFile hfile
  obtain ⟨format, _, rfl⟩ := (merge_eq_ok_iff hbase s).mp hmerge
  exact overlay_sound hbelow hvalid

/-- Without a configuration file the input can only come from the command line. -/
theorem input_of_no_config {c : CommandLine} {env : Environment} {files : Path → Except IoError (List UInt8)}
    {s : Settings} (hconfig : c.config = none) (h : c.toSettings env files = .ok s) : s.input = c.input := by
  obtain ⟨file, hfile, hmerge, _⟩ := (toSettings_eq_ok_iff c env files s).mp h
  rcases (loadFile_eq_ok_iff c env files file).mp hfile with ⟨_, rfl⟩ | ⟨_, _, hpath, _⟩
  · have hdefault : base none = .ok Settings.default := rfl
    obtain ⟨format, _, rfl⟩ := (merge_eq_ok_iff hdefault s).mp hmerge
    change (c.input <|> none) = c.input
    cases c.input <;> rfl
  · rw [hconfig] at hpath
    cases hpath

/-- **Settings are accepted exactly for valid values.** There are settings if and only if the named file, if any,
is usable and every given flag is valid by itself; the second check refuses nothing but given flags; and what comes
out is sound. -/
theorem toSettings_accepts_valid_values (c : CommandLine) (env : Environment)
    (files : Path → Except IoError (List UInt8)) :
    ((∃ s, c.toSettings env files = .ok s) ↔ c.FileUsable env files ∧ c.FlagsValid) ∧
    (∀ file s e, c.loadFile env files = .ok file → c.merge file = .ok s → s.validate = .error e → c.FlagRefused e) ∧
    ∀ s, c.toSettings env files = .ok s → s.Sound := by
  refine ⟨?_, ?_, ?_⟩
  · rw [fileUsable_iff]
    constructor
    · rintro ⟨s, hs⟩
      obtain ⟨file, hfile, hmerge, hvalid⟩ := (toSettings_eq_ok_iff c env files s).mp hs
      obtain ⟨below, hbase, hbelow⟩ := base_of_loadFile hfile
      obtain ⟨format, hformat, rfl⟩ := (merge_eq_ok_iff hbase s).mp hmerge
      obtain ⟨hinput, hiterations, hlabel⟩ := (overlay_validate_eq_ok_iff hbelow format).mp hvalid
      exact ⟨⟨file, hfile⟩, hinput, hiterations, hlabel, (chosenFormat_isOk_iff c below).mp ⟨format, hformat⟩⟩
    · rintro ⟨⟨file, hfile⟩, hinput, hiterations, hlabel, hformats⟩
      obtain ⟨below, hbase, hbelow⟩ := base_of_loadFile hfile
      obtain ⟨format, hformat⟩ := (chosenFormat_isOk_iff c below).mpr hformats
      refine ⟨c.overlay below format, (toSettings_eq_ok_iff c env files _).mpr ⟨file, hfile, ?_, ?_⟩⟩
      · exact (merge_eq_ok_iff hbase _).mpr ⟨format, hformat, rfl⟩
      · exact (overlay_validate_eq_ok_iff hbelow format).mpr ⟨hinput, hiterations, hlabel⟩
  · intro file s e hfile hmerge herror
    obtain ⟨below, hbase, hbelow⟩ := base_of_loadFile hfile
    obtain ⟨format, _, rfl⟩ := (merge_eq_ok_iff hbase s).mp hmerge
    exact flagRefused_of_overlay hbelow herror
  · exact fun s hs => sound_of_toSettings hs

/-- No iterations at all: what the second check refuses is the flag. -/
theorem toSettings_accepts_valid_values_no_iterations :
    let c : CommandLine := { CommandLine.empty with iterations := some 0 }
    let merged : Settings := { Settings.default with iterations := 0 }
    let e : Error := .invalidValue "iterations" "0" "Value must be at least 1"
    c.merge none = .ok merged ∧ merged.validate = .error e ∧ c.FlagRefused e := by
  intro c merged e
  have hmerge : c.merge none = .ok merged := rfl
  have hrefused : merged.validate = .error e := by decide +kernel
  exact ⟨hmerge, hrefused, (toSettings_accepts_valid_values c (fun _ => none)
    (fun _ => .error .noSuchFile)).2.1 none merged e rfl hmerge hrefused⟩

end CommandLine

end TemplateTiming
