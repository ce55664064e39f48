import TemplateTiming.Proofs.Layers

/-! A configuration file is checked twice: on its own, where a missing value is passed over and a format is looked up
in a list of names, and as settings, where defaults stand for missing values and a format has been read. Both ask the
same of it, except that only the first one looks at the log level. -/

namespace TemplateTiming

namespace ReportFormat

/-- The list of names and the reader of formats know the same spellings. -/
theorem oneOf_names_eq_ok_iff (field text : String) :
    Validation.oneOf field (asciiLower text) names = .ok () ↔ Named text := by
  rw [Validation.oneOf_eq_ok_iff, ← parse_isOk_iff, named_iff]

theorem ofName_isOk_iff (name : Option String) : (∃ format, ofName name = .ok format) ↔ ∀ n ∈ name, Named n := by
  constructor
  · rintro ⟨format, hformat⟩ n hn
    by_contra hbad
    rw [ofName_of_not_named hn hbad] at hformat
    cases hformat
  · exact ofName_of_named

end ReportFormat

namespace FileConfig

/-- The file with its default in place of every value that it leaves open. There is none for the input. -/
def completed (c : FileConfig) : FileConfig where
  bench := {
    input := c.bench.input
    iterations := some (c.bench.iterations.getD Settings.default.iterations)
    warmup := some (c.bench.warmup.getD Settings.default.warmup)
    label := some (c.bench.label.getD Settings.default.label)
    format := some (c.bench.format.getD Settings.default.format.name) }
  render := c.render
  monitoring := some ⟨c.monitoringEnabled, c.logLevel?⟩

theorem ofFile_completed (c : FileConfig) : Settings.ofFile c.completed = Settings.ofFile c := by
  rw [Settings.ofFile_eq, Settings.ofFile_eq]
  rfl

theorem completed_levelNamed (c : FileConfig) : c.completed.LevelNamed ↔ c.LevelNamed := Iff.rfl

/-- The settings of a file can be used exactly if its values can. -/
theorem withFormat_validate_eq_ok_iff (c : FileConfig) (format : ReportFormat) :
    (Settings.withFormat c format).validate = .ok () ↔
      (∀ p ∈ c.bench.input, p.Usable) ∧ (∀ n ∈ c.bench.iterations, 1 ≤ n) ∧ ∀ l ∈ c.bench.label, Text.Visible l := by
  rw [Settings.validate_eq_ok_iff]
  refine and_congr Iff.rfl (and_congr ?_ (getD_iff Settings.default_sound.label))
  exact getD_iff (P := fun n => 1 ≤ n) Settings.default_sound.iterations

theorem validate_iff_settings (c : FileConfig) :
    c.validate = .ok () ↔ ∃ s, Settings.ofFile c = .ok s ∧ s.validate = .ok () ∧ c.LevelNamed := by
  rw [validate_eq_ok_iff, Settings.ofFile_eq]
  constructor
  · intro hsound
    have hnamed : ∀ n ∈ c.bench.format, ReportFormat.Named n := fun n hn =>
      (ReportFormat.named_iff n).mpr ((ReportFormat.parse_isOk_iff n).mpr (hsound.format n hn))
    obtain ⟨format, hformat⟩ := ReportFormat.ofName_of_named hnamed
    exact ⟨Settings.withFormat c format, bind_eq_ok_iff.mpr ⟨format, hformat, rfl⟩,
      (withFormat_validate_eq_ok_iff c format).mpr ⟨hsound.input, hsound.iterations, hsound.label⟩,
      (levelNamed_iff c).mpr hsound.logLevel⟩
  · rintro ⟨s, hs, hvalid, hlevel⟩
    obtain ⟨format, hformat, ⟨⟩⟩ := bind_eq_ok_iff.mp hs
    obtain ⟨hinput, hiterations, hlabel⟩ := (withFormat_validate_eq_ok_iff c format).mp hvalid
    have hnamed := (ReportFormat.ofName_isOk_iff c.bench.format).mp ⟨format, hformat⟩
    exact
      { input := hinput
        iterations := hiterations
        label := hlabel
        format := fun n hn => (ReportFormat.parse_isOk_iff n).mp ((ReportFormat.named_iff n).mp (hnamed n hn))
        logLevel := (levelNamed_iff c).mp hlevel }

/-- **The two checks of a file agree.** A file passes its own check if and only if it yields settings that pass theirs
and its log level, if it has one, exists. A format is in the list of names exactly if it can be read, and these are the
spellings of the two names. With its defaults filled in the file yields the same settings and passes the check as
before. -/
theorem validate_agrees_with_settings (c : FileConfig) :
    (c.validate = .ok () ↔ ∃ s, Settings.ofFile c = .ok s ∧ s.validate = .ok () ∧ c.LevelNamed) ∧
    (∀ field text : String,
      (Validation.oneOf field (asciiLower text) ReportFormat.names = .ok () ↔
        ∃ format, ReportFormat.parse text = .ok format) ∧
      ((∃ format, ReportFormat.parse text = .ok format) ↔ Text.Spells text "text" ∨ Text.Spells text "json")) ∧
    Settings.ofFile c.completed = Settings.ofFile c ∧
    (c.completed.validate = .ok () ↔ c.validate = .ok ()) := by
  refine ⟨validate_iff_settings c, ?_, ofFile_completed c, ?_⟩
  · intro field text
    refine ⟨(ReportFormat.oneOf_names_eq_ok_iff field text).trans (ReportFormat.named_iff text), ?_⟩
    rw [← ReportFormat.named_iff, ReportFormat.named_iff_spells]
  · rw [validate_iff_settings, validate_iff_settings, ofFile_completed, completed_levelNamed]

end FileConfig

end TemplateTiming
