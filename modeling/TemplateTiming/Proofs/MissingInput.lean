import TemplateTiming.Proofs.Ending

/-! Runs for which no input is named. Without a configuration file the usage line is shown whatever else the command
line says. With one, the values of the file and the given flags are checked before the missing input is noticed: the
usage line is shown if they are all in order, and else the run is refused. -/

namespace TemplateTiming

namespace CommandLine

variable {c : CommandLine} {env : Environment} {files : Path → Except IoError (List UInt8)}

/-- Of a file that is a configuration only the values can still be refused. -/
theorem loadFile_of_parse {path : Path} {text : List Char} {file : FileConfig} (hpath : c.config = some path)
    (hcontent : files path = .ok (Utf8.encode text)) (hparse : FileConfig.parse env text = .ok file)
    (loaded : Option FileConfig) : c.loadFile env files = .ok loaded ↔ file.validate = .ok () ∧ loaded = some file := by
  have hload : FileConfig.load env files path = .ok file :=
    (FileConfig.load_eq_ok_iff env files path file).mpr ⟨text, hcontent, mapError_eq_ok_iff.mp hparse⟩
  rw [loadFile_eq_ok_iff]
  constructor
  · rintro (⟨hnone, _⟩ | ⟨path', file', hpath', hload', hvalid, rfl⟩)
    · rw [hpath] at hnone
      cases hnone
    · cases hpath.symm.trans hpath'
      cases hload.symm.trans hload'
      exact ⟨hvalid, rfl⟩
  · rintro ⟨hvalid, rfl⟩
    exact Or.inr ⟨path, file, hpath, hload, hvalid, rfl⟩

/-- Behind a file that is in order only the given flags can be at fault. -/
theorem toSettings_isOk_of_loadFile {file : Option FileConfig} (hfile : c.loadFile env files = .ok file) :
    (∃ s, c.toSettings env files = .ok s) ↔ c.FlagsValid := by
  obtain ⟨below, hbase, hbelow⟩ := base_of_loadFile hfile
  simp only [toSettings_eq_ok_iff, hfile, Except.ok.injEq, exists_eq_left', merge_eq_ok_iff hbase]
  constructor
  · rintro ⟨_, ⟨format, hformat, rfl⟩, hvalid⟩
    obtain ⟨hinput, hiterations, hlabel⟩ := (overlay_validate_eq_ok_iff hbelow format).mp hvalid
    exact ⟨hinput, hiterations, hlabel, (chosenFormat_isOk_iff c below).mp ⟨format, hformat⟩⟩
  · rintro ⟨hinput, hiterations, hlabel, hformats⟩
    obtain ⟨format, hformat⟩ := (chosenFormat_isOk_iff c below).mpr hformats
    exact ⟨_, ⟨format, hformat, rfl⟩,
      (overlay_validate_eq_ok_iff hbelow format).mpr ⟨hinput, hiterations, hlabel⟩⟩

/-- The input comes from the command line, else from the file. -/
theorem input_of_loadFile {file : FileConfig} (hfile : c.loadFile env files = .ok (some file)) {s : Settings}
    (h : c.toSettings env files = .ok s) : s.input = (c.input <|> file.bench.input) := by
  obtain ⟨file', hfile', hmerge, _⟩ := (toSettings_eq_ok_iff c env files s).mp h
  cases hfile.symm.trans hfile'
  obtain ⟨below, hbase, _⟩ := base_of_loadFile hfile
  obtain ⟨format, _, rfl⟩ := (merge_eq_ok_iff hbase s).mp hmerge
  obtain ⟨_, _, ⟨⟩⟩ := bind_eq_ok_iff.mp hbase
  rfl

end CommandLine

namespace Program

variable {δ : Type} {r : Markup.Routine δ} {w : World} {m : Measured} {line : CommandLine} {o : Outcome}

/-- Of a run without an input only the settings are of interest: they are made, or refused. -/
theorem Course.without_input (h : Course r w m line o) (hconfig : line.config ≠ none)
    (hinput : ∀ s, line.toSettings w.environment w.fileContent = .ok s → s.input = none) :
    (o.exit = 1 ∧ o.stdout = CommandLine.usage ++ "\n" ↔ ∃ s, line.toSettings w.environment w.fileContent = .ok s) ∧
    (o.exit = 2 ∧ o.stdout = "" ↔ ¬∃ s, line.toSettings w.environment w.fileContent = .ok s) := by
  cases h with
  | unnamed _ hnone => exact absurd hnone hconfig
  | refused _ hsettings hexit hout =>
      have hrefused : ¬∃ s, line.toSettings w.environment w.fileContent = .ok s := by
        rintro ⟨s, hs⟩
        rw [hsettings] at hs
        cases hs
      refine ⟨iff_of_false ?_ hrefused, iff_of_true ⟨hexit, hout⟩ hrefused⟩
      rw [hexit]
      exact fun h => absurd h.1 (by decide)
  | withoutInput _ hsettings _ hexit hout =>
      refine ⟨iff_of_true ⟨hexit, hout⟩ ⟨_, hsettings⟩, iff_of_false ?_ (not_not_intro ⟨_, hsettings⟩)⟩
      rw [hexit]
      exact fun h => absurd h.1 (by decide)
  | delivered _ hsettings hsome | undelivered _ hsettings hsome =>
      rw [hinput _ hsettings] at hsome
      cases hsome

/-- **Runs without an input.** Without a configuration file the run shows the usage line and exits with 1, whatever the
options are. With a file that can be read as a configuration and names no input either, it does so if and only if the
values of the file and the given flags are all valid; otherwise it shows nothing and exits with 2. -/
theorem runWith_without_input (r : Markup.Routine δ) (w : World) (m : Measured) {arguments : List (List UInt8)}
    (hread : CommandLine.read arguments = .ok line) (hinput : line.input = none) :
    let o := runWith r w m arguments
    (line.config = none → o.exit = 1 ∧ o.stdout = CommandLine.usage ++ "\n") ∧
    ∀ path text file, line.config = some path → w.fileContent path = .ok (Utf8.encode text) →
      FileConfig.parse w.environment text = .ok file → file.bench.input = none →
        (o.exit = 1 ∧ o.stdout = CommandLine.usage ++ "\n" ↔ file.validate = .ok () ∧ line.FlagsValid) ∧
        (o.exit = 2 ∧ o.stdout = "" ↔ ¬(file.validate = .ok () ∧ line.FlagsValid)) := by
  intro o
  constructor
  · intro hconfig
    cases course_of_unnamed r w m hread hinput hconfig with
    | unnamed _ _ hexit hout => exact ⟨hexit, hout⟩
    | refused hnamed | withoutInput hnamed | delivered hnamed | undelivered hnamed =>
        exact absurd hnamed (CommandLine.not_named hinput hconfig)
  · intro path text file hpath hcontent hparse hfileInput
    have hload := CommandLine.loadFile_of_parse hpath hcontent hparse
    have hmade : (∃ s, line.toSettings w.environment w.fileContent = .ok s) ↔
        file.validate = .ok () ∧ line.FlagsValid := by
      constructor
      · rintro ⟨s, hs⟩
        obtain ⟨loaded, hloaded, _⟩ := (CommandLine.toSettings_eq_ok_iff line _ _ s).mp hs
        exact ⟨((hload loaded).mp hloaded).1, (CommandLine.toSettings_isOk_of_loadFile hloaded).mp ⟨s, hs⟩⟩
      · rintro ⟨hvalid, hflags⟩
        exact (CommandLine.toSettings_isOk_of_loadFile ((hload _).mpr ⟨hvalid, rfl⟩)).mpr hflags
    have hnone : ∀ s, line.toSettings w.environment w.fileContent = .ok s → s.input = none := by
      intro s hs
      obtain ⟨hvalid, _⟩ := hmade.mp ⟨s, hs⟩
      rw [CommandLine.input_of_loadFile ((hload _).mpr ⟨hvalid, rfl⟩) hs, hinput, hfileInput]
      rfl
    rw [← hmade]
    exact (course r w m hread).without_input (by rw [hpath]; exact Option.some_ne_none path) hnone

/-- The file is in order and so are the flags: the usage line is shown. -/
theorem runWith_without_input_valid :
    let r : Markup.Routine Unit := ⟨fun _ => .ok ((), 0), fun _ _ => .ok "page"⟩
    let text := "[bench]\nwarmup = 2\n".toList
    let file : FileConfig := { FileConfig.empty with bench := { FileConfig.empty.bench with warmup := some 2 } }
    let w : World := ⟨fun _ => none, Path.ofString "/srv", fun _ => .ok (Utf8.encode text)⟩
    let m : Measured := ⟨.epoch, .zero, none, none, none⟩
    let arguments := ["--config", "c.toml", "-n", "5"].map fun a => Utf8.encode a.toList
    let line : CommandLine :=
      { CommandLine.empty with config := some (Path.ofString "c.toml"), iterations := some 5 }
    CommandLine.read arguments = .ok line ∧ FileConfig.parse w.environment text = .ok file ∧
      file.bench.input = none ∧ file.validate = .ok () ∧ line.FlagsValid ∧
      (runWith r w m arguments).exit = 1 ∧ (runWith r w m arguments).stdout = CommandLine.usage ++ "\n" := by
  intro r text file w m arguments line
  have hread : CommandLine.read arguments = .ok line := by decide +kernel
  have hparse : FileConfig.parse w.environment text = .ok file := by decide +kernel
  have hvalid : file.validate = .ok () := by decide +kernel
  have hflags : line.FlagsValid :=
    { input := nofun
      iterations := by
        rintro n ⟨⟩
        decide
      label := nofun
      format := nofun }
  exact ⟨hread, hparse, rfl, hvalid, hflags,
    ((runWith_without_input r w m hread rfl).2 _ text file rfl rfl hparse rfl).1.mpr ⟨hvalid, hflags⟩⟩

/-- The order of the checks shows with a flag that is not valid: the file names no input, and yet the run is refused
for the flag. -/
theorem no_usage_with_zero_iterations :
    let r : Markup.Routine Unit := ⟨fun _ => .ok ((), 0), fun _ _ => .ok "page"⟩
    let text := "[bench]\nwarmup = 2\n".toList
    let file : FileConfig := { FileConfig.empty with bench := { FileConfig.empty.bench with warmup := some 2 } }
    let w : World := ⟨fun _ => none, Path.ofString "/srv", fun _ => .ok (Utf8.encode text)⟩
    let m : Measured := ⟨.epoch, .zero, none, none, none⟩
    let arguments := ["--config", "c.toml", "-n", "0"].map fun a => Utf8.encode a.toList
    let line : CommandLine :=
      { CommandLine.empty with config := some (Path.ofString "c.toml"), iterations := some 0 }
    CommandLine.read arguments = .ok line ∧ line.input = none ∧ FileConfig.parse w.environment text = .ok file ∧
      file.bench.input = none ∧ (runWith r w m arguments).exit = 2 ∧ (runWith r w m arguments).stdout = "" ∧
      ¬((runWith r w m arguments).exit = 1 ∧ (runWith r w m arguments).stdout = CommandLine.usage ++ "\n") := by
  intro r text file w m arguments line
  have hread : CommandLine.read arguments = .ok line := by decide +kernel
  have hparse : FileConfig.parse w.environment text = .ok file := by decide +kernel
  have hexit : (runWith r w m arguments).exit = 2 := by decide +kernel
  have hout : (runWith r w m arguments).stdout = "" := by decide +kernel
  refine ⟨hread, rfl, hparse, rfl, hexit, hout, ?_⟩
  rw [hexit]
  exact fun h => absurd h.1 (by decide)

end Program

end TemplateTiming
