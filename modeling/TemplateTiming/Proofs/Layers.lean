import TemplateTiming.Proofs.LetterCase
import TemplateTiming.Proofs.Settings

/-! The layers of the settings: the command line lies over the configuration file, and the file over the defaults.
Merging comes down to writing what is given on the command line into the file and reading the settings off it, and
there every setting is seen to come from the topmost layer that has it. Only a report format can be refused, and the
file's format is looked at first. -/

namespace TemplateTiming

/-- The value is that of the topmost of three layers that has one: what is given, what the file says, the default. -/
inductive Layered {α : Type} : Option α → Option α → α → α → Prop
  | given (a : α) (inFile : Option α) (default : α) : Layered (some a) inFile default a
  | inFile (a default : α) : Layered none (some a) default a
  | default (default : α) : Layered none none default default

theorem Layered.getD {α : Type} (given inFile : Option α) (default : α) :
    Layered given inFile default ((given <|> inFile).getD default) := by
  cases given with
  | some a => exact .given a inFile default
  | none =>
      cases inFile with
      | some a => exact .inFile a default
      | none => exact .default default

/-- A value that every layer may leave open. -/
theorem Layered.orElse {α : Type} (given inFile : Option α) :
    Layered (given.map some) (inFile.map some) none (given <|> inFile) := by
  cases given with
  | some a => exact .given (some a) (inFile.map some) none
  | none =>
      cases inFile with
      | some a => exact .inFile (some a) none
      | none => exact .default none

theorem getD_getD {α : Type} (a b : Option α) (d : α) : a.getD (b.getD d) = (a <|> b).getD d := by
  cases a <;> rfl

namespace ReportFormat

/-- The format of that name, which is `text` for want of one. -/
def ofName (name : Option String) : Except Error ReportFormat := parse (name.getD "text")

theorem ofName_none : ofName none = .ok .text := (parse_eq_ok_iff "text" .text).mpr (by decide +kernel)

theorem ofName_of_named {name : Option String} (h : ∀ n ∈ name, Named n) : ∃ format, ofName name = .ok format := by
  cases name with
  | none => exact ⟨.text, ofName_none⟩
  | some n => exact (named_iff n).mp (h n rfl)

theorem ofName_of_not_named {name : Option String} {n : String} (hn : n ∈ name) (h : ¬Named n) :
    ofName name = .error (unknown n) := by
  rw [Option.mem_def.mp hn]
  exact parse_of_not_named h

end ReportFormat

namespace Settings

/-- The settings of a file, in a format that is already known. -/
def withFormat (f : FileConfig) (format : ReportFormat) : Settings where
  input := f.bench.input
  iterations := f.bench.iterations.getD default.iterations
  warmup := f.bench.warmup.getD default.warmup
  label := f.bench.label.getD default.label
  format := format
  monitor := f.monitoringEnabled
  logLevel := f.logLevel?
  render := f.render

theorem ofFile_eq (f : FileConfig) :
    ofFile f = (ReportFormat.ofName f.bench.format >>= fun format => .ok (withFormat f format)) := by
  unfold ofFile FileConfig.reportFormat
  cases f.bench.format with
  | none =>
      rw [ReportFormat.ofName_none]
      rfl
  | some n =>
      change ((ReportFormat.parse n).map some >>= _) =
        (ReportFormat.parse n >>= fun format => .ok (withFormat f format))
      cases ReportFormat.parse n <;> rfl

end Settings

namespace CommandLine

/-- The given values written into a file. Asking for monitoring leaves the file's log level as it is. -/
def writtenInto (c : CommandLine) (f : FileConfig) : FileConfig where
  bench := {
    input := c.input <|> f.bench.input
    iterations := c.iterations <|> f.bench.iterations
    warmup := c.warmup <|> f.bench.warmup
    label := c.label <|> f.bench.label
    format := c.format <|> f.bench.format }
  render := f.render
  monitoring := if c.monitor then some ⟨true, f.logLevel?⟩ else f.monitoring

theorem writtenInto_monitoringEnabled (c : CommandLine) (f : FileConfig) :
    (c.writtenInto f).monitoringEnabled = (f.monitoringEnabled || c.monitor) := by
  cases hmonitor : c.monitor <;> simp [writtenInto, FileConfig.monitoringEnabled, hmonitor]

theorem writtenInto_logLevel? (c : CommandLine) (f : FileConfig) : (c.writtenInto f).logLevel? = f.logLevel? := by
  cases hmonitor : c.monitor <;> simp [writtenInto, FileConfig.logLevel?, hmonitor]

/-- Writing values over the settings of a file is the same as writing them into the file. -/
theorem overlay_withFormat (c : CommandLine) (f : FileConfig) (fileFormat format : ReportFormat) :
    c.overlay (Settings.withFormat f fileFormat) format = Settings.withFormat (c.writtenInto f) format := by
  simp only [overlay, Settings.withFormat, writtenInto_monitoringEnabled, writtenInto_logLevel?, getD_getD]
  rfl

theorem base_eq (file : Option FileConfig) : base file = Settings.ofFile (file.getD .empty) := by
  cases file <;> rfl

theorem merge_eq_written (c : CommandLine) (file : Option FileConfig) :
    c.merge file = (do
      let _ ← ReportFormat.ofName (file.getD .empty).bench.format
      let format ← ReportFormat.ofName (c.format <|> (file.getD .empty).bench.format)
      .ok (Settings.withFormat (c.writtenInto (file.getD .empty)) format)) := by
  rw [merge_eq, base_eq, Settings.ofFile_eq]
  generalize file.getD .empty = f
  cases hfile : ReportFormat.ofName f.bench.format with
  | error e => rfl
  | ok fileFormat =>
      change (c.chosenFormat (Settings.withFormat f fileFormat) >>= fun format =>
        .ok (c.overlay (Settings.withFormat f fileFormat) format)) = _
      simp only [overlay_withFormat]
      unfold chosenFormat
      cases c.format with
      | some n => rfl
      | none =>
          change _ = (ReportFormat.ofName f.bench.format >>= fun format =>
            .ok (Settings.withFormat (c.writtenInto f) format))
          rw [hfile]
          rfl

/-- What the settings owe to the command line and to the file, setting by setting. -/
structure Overlaid (c : CommandLine) (f : FileConfig) (s : Settings) : Prop where
  input : Layered (c.input.map some) (f.bench.input.map some) none s.input
  iterations : Layered c.iterations f.bench.iterations 100 s.iterations
  warmup : Layered c.warmup f.bench.warmup 0 s.warmup
  label : Layered c.label f.bench.label "mjml" s.label
  format : ∃ name, Layered c.format f.bench.format "text" name ∧ Text.Spells name s.format.name
  monitor : s.monitor = true ↔ c.monitor = true ∨ ∃ m ∈ f.monitoring, m.enabled = true
  logLevel : s.logLevel = f.monitoring.bind (·.logLevel)
  render : s.render = f.render

theorem overlaid_withFormat {c : CommandLine} {f : FileConfig} {format : ReportFormat}
    (hformat : ReportFormat.ofName (c.format <|> f.bench.format) = .ok format) :
    Overlaid c f (Settings.withFormat (c.writtenInto f) format) where
  input := Layered.orElse c.input f.bench.input
  iterations := Layered.getD c.iterations f.bench.iterations 100
  warmup := Layered.getD c.warmup f.bench.warmup 0
  label := Layered.getD c.label f.bench.label "mjml"
  format := ⟨_, Layered.getD c.format f.bench.format "text", (ReportFormat.parse_eq_ok_iff_spells _ _).mp hformat⟩
  monitor := by
    change (c.writtenInto f).monitoringEnabled = true ↔ _
    rw [writtenInto_monitoringEnabled, Bool.or_eq_true, or_comm, FileConfig.monitoringEnabled]
    cases f.monitoring <;> simp
  logLevel := writtenInto_logLevel? c f
  render := rfl

theorem merge_eq_ofFile {c : CommandLine} {file : Option FileConfig}
    (hfile : ∀ n ∈ (file.getD .empty).bench.format, ReportFormat.Named n) :
    c.merge file = Settings.ofFile (c.writtenInto (file.getD .empty)) := by
  obtain ⟨fileFormat, hformat⟩ := ReportFormat.ofName_of_named hfile
  rw [merge_eq_written, hformat, Settings.ofFile_eq]
  rfl

theorem merge_of_bad_file {c : CommandLine} {file : Option FileConfig} {n : String}
    (hn : n ∈ (file.getD .empty).bench.format) (hbad : ¬ReportFormat.Named n) :
    c.merge file = .error (ReportFormat.unknown n) := by
  rw [merge_eq_written, ReportFormat.ofName_of_not_named hn hbad]
  rfl

theorem merge_of_bad_flag {c : CommandLine} {file : Option FileConfig} {n : String} (hn : n ∈ c.format)
    (hbad : ¬ReportFormat.Named n) (hfile : ∀ m ∈ (file.getD .empty).bench.format, ReportFormat.Named m) :
    c.merge file = .error (ReportFormat.unknown n) := by
  have hchosen : n ∈ (c.format <|> (file.getD .empty).bench.format) := by
    rw [Option.mem_def.mp hn]
    rfl
  rw [merge_eq_ofFile hfile, Settings.ofFile_eq]
  change (ReportFormat.ofName (c.format <|> (file.getD .empty).bench.format) >>= _) = _
  rw [ReportFormat.ofName_of_not_named hchosen hbad]
  rfl

theorem merge_of_named {c : CommandLine} {file : Option FileConfig}
    (hfile : ∀ n ∈ (file.getD .empty).bench.format, ReportFormat.Named n)
    (hflag : ∀ n ∈ c.format, ReportFormat.Named n) : ∃ s, c.merge file = .ok s := by
  have hchosen : ∀ n ∈ (c.format <|> (file.getD .empty).bench.format), ReportFormat.Named n := by
    intro n hn
    cases hc : c.format with
    | some m =>
        rw [hc] at hn hflag
        exact hflag n hn
    | none =>
        rw [hc] at hn
        exact hfile n hn
  obtain ⟨format, hformat⟩ := ReportFormat.ofName_of_named hchosen
  refine ⟨Settings.withFormat (c.writtenInto (file.getD .empty)) format, ?_⟩
  rw [merge_eq_ofFile hfile, Settings.ofFile_eq]
  exact bind_eq_ok_iff.mpr ⟨format, hformat, rfl⟩

/-- **The command line lies over the file, and the file over the defaults.** Settings are refused exactly for a
format that does not exist, and then for that of the file before that of the command line. Otherwise each setting comes
from the topmost layer that has it; monitoring is on if the command line or the file asks for it, and the log level and
what concerns rendering are the file's. All this amounts to writing the command line into the file. Without a file
everything is as with an empty one. -/
theorem merge_layers (c : CommandLine) (file : Option FileConfig) :
    let f := file.getD .empty
    ((∃ e, c.merge file = .error e) ↔
      (∃ n ∈ f.bench.format, ¬ReportFormat.Named n) ∨ ∃ n ∈ c.format, ¬ReportFormat.Named n) ∧
    (∀ n ∈ f.bench.format, ¬ReportFormat.Named n → c.merge file = .error (ReportFormat.unknown n)) ∧
    (∀ n ∈ c.format, ¬ReportFormat.Named n → (∀ m ∈ f.bench.format, ReportFormat.Named m) →
      c.merge file = .error (ReportFormat.unknown n)) ∧
    (∀ s, c.merge file = .ok s → Overlaid c f s) ∧
    ((∀ n ∈ f.bench.format, ReportFormat.Named n) → c.merge file = Settings.ofFile (c.writtenInto f)) := by
  intro f
  refine ⟨?_, fun n hn hbad => merge_of_bad_file hn hbad, fun n hn hbad hfile => merge_of_bad_flag hn hbad hfile, ?_,
    merge_eq_ofFile⟩
  · constructor
    · rintro ⟨e, he⟩
      by_contra hgood
      push Not at hgood
      obtain ⟨s, hs⟩ := merge_of_named hgood.1 hgood.2
      rw [hs] at he
      cases he
    · rintro (⟨n, hn, hbad⟩ | ⟨n, hn, hbad⟩)
      · exact ⟨_, merge_of_bad_file hn hbad⟩
      · by_cases hfile : ∀ m ∈ f.bench.format, ReportFormat.Named m
        · exact ⟨_, merge_of_bad_flag hn hbad hfile⟩
        · push Not at hfile
          obtain ⟨m, hm, hbad'⟩ := hfile
          exact ⟨_, merge_of_bad_file hm hbad'⟩
  · intro s hs
    rw [merge_eq_written] at hs
    obtain ⟨_, _, hs⟩ := bind_eq_ok_iff.mp hs
    obtain ⟨format, hformat, ⟨⟩⟩ := bind_eq_ok_iff.mp hs
    exact overlaid_withFormat hformat

/-- Flags over a file that asks for `JSON` and keeps monitoring off; and two bad formats, of which the file's is
reported. -/
theorem merge_layers_flags_over_file :
    let c : CommandLine := { CommandLine.empty with iterations := some 5, monitor := true }
    let f : FileConfig := ⟨⟨none, some 50, none, some "cfg", some "JSON"⟩, ⟨none, none⟩, some ⟨false, some "debug"⟩⟩
    let xml : CommandLine := { CommandLine.empty with format := some "xml" }
    let yaml : FileConfig := { FileConfig.empty with bench.format := some "Yaml" }
    ReportFormat.Named "JSON" ∧ c.merge (some f) = Settings.ofFile (c.writtenInto f) ∧
      (∃ s, c.merge (some f) = .ok s ∧ Overlaid c f s) ∧
      ¬ReportFormat.Named "Yaml" ∧ ¬ReportFormat.Named "xml" ∧
      xml.merge (some yaml) = .error (.invalidValue "format" "yaml" "Valid formats: text, json") := by
  intro c f xml yaml
  have hnamed : ∀ n ∈ f.bench.format, ReportFormat.Named n := by
    rintro n ⟨⟩
    exact (ReportFormat.named_iff "JSON").mpr ⟨.json, by decide +kernel⟩
  have hbad : ∀ n : String, asciiLower n ∉ ReportFormat.names → ¬ReportFormat.Named n :=
    fun n hn hname => hn ((ReportFormat.parse_isOk_iff n).mp ((ReportFormat.named_iff n).mp hname))
  have hyaml : ¬ReportFormat.Named "Yaml" := hbad "Yaml" (by decide +kernel)
  have hmerged := merge_layers c (some f)
  have hrefused := (merge_layers xml (some yaml)).2.1 "Yaml" rfl hyaml
  have hok : ∃ s, c.merge (some f) = .ok s := merge_of_named hnamed (fun n hn => nomatch hn)
  obtain ⟨s, hs⟩ := hok
  refine ⟨hnamed "JSON" rfl, hmerged.2.2.2.2 hnamed, ⟨s, hs, hmerged.2.2.2.1 s hs⟩, hyaml,
    hbad "xml" (by decide +kernel), ?_⟩
  rw [hrefused]
  decide +kernel

end CommandLine

end TemplateTiming
