import TemplateTiming.Proofs.Delivery

/-! How a run of the program ends, from the reading of the command line to the exit status. Standard output holds
the report, the usage line or nothing, and the exit status says which: with nothing on it, 2 stands for settings
that were refused and 1 for a template that could not be read or converted. -/

namespace TemplateTiming

theorem Error.exitCode_of_configuration {e : Error} (h : e.category = .configuration) : e.exitCode = 2 := by
  rw [exitCode, severity, h]
  rfl

theorem Error.exitCode_of_io_or_conversion {e : Error} (h : e.category = .io ∨ e.category = .conversion) :
    e.exitCode = 1 := by
  rcases h with h | h <;> rw [exitCode, severity, h] <;> rfl

/-- An input or a configuration file is named. -/
def CommandLine.Named (c : CommandLine) : Prop := c.input.isSome ∨ c.config.isSome

theorem CommandLine.not_named {c : CommandLine} (hinput : c.input = none) (hconfig : c.config = none) : ¬c.Named := by
  rw [Named, hinput, hconfig]
  rintro (h | h) <;> cases h

theorem CommandLine.Named.not_none {c : CommandLine} (h : c.Named) :
    ¬(c.input.isNone = true ∧ c.config.isNone = true) := by
  rw [Option.isNone_iff_eq_none, Option.isNone_iff_eq_none]
  exact fun ⟨hinput, hconfig⟩ => not_named hinput hconfig h

theorem CommandLine.named_of_input {c : CommandLine} {env : Environment}
    {files : Path → Except IoError (List UInt8)} {s : Settings} (h : c.toSettings env files = .ok s) {input : Path}
    (hinput : s.input = some input) : c.Named := by
  by_cases hconfig : c.config = none
  · rw [input_of_no_config hconfig h] at hinput
    exact Or.inl (Option.isSome_of_eq_some hinput)
  · exact Or.inr (Option.isSome_iff_ne_none.mpr hconfig)

namespace Program

/-- The ways in which a run can end. -/
inductive Way where
  | reported
  | explained
  | failed
  deriving DecidableEq, Repr

/-- The text of the report that follows from the command line. -/
def ReportText (w : World) (m : Measured) (line : CommandLine) (text : String) : Prop :=
  ∃ settings input t, line.toSettings w.environment w.fileContent = .ok settings ∧ settings.input = some input ∧
    Template.load w.workingDir w.fileContent input = .ok t ∧
    (reportOn settings t m).render settings.format = .ok text

/-- Exit status and standard output show the way in which a run has ended. -/
def Way.Shown (w : World) (m : Measured) (line : CommandLine) (o : Outcome) : Way → Prop
  | .reported => o.exit = 0 ∧ ∃ text, ReportText w m line text ∧ o.stdout = text ++ "\n"
  | .explained => o.exit = 1 ∧ o.stdout = CommandLine.usage ++ "\n"
  | .failed => (o.exit = 1 ∨ o.exit = 2) ∧ o.stdout = ""

/-- The only way that an outcome can show. -/
def Way.ofOutcome (o : Outcome) : Way :=
  if o.exit = 0 then .reported else if o.stdout = "" then .failed else .explained

theorem Way.Shown.eq {w : World} {m : Measured} {line : CommandLine} {o : Outcome} {way : Way}
    (h : way.Shown w m line o) : way = ofOutcome o := by
  have husage : CommandLine.usage ++ "\n" ≠ "" := by decide
  unfold ofOutcome
  cases way with
  | reported =>
      obtain ⟨hexit, _⟩ := h
      rw [if_pos hexit]
  | explained =>
      obtain ⟨hexit, hout⟩ := h
      rw [if_neg (by rw [hexit]; decide), if_neg (by rw [hout]; exact husage)]
  | failed =>
      obtain ⟨hexit, hout⟩ := h
      rw [if_neg (by omega), if_pos hout]

/-- The courses that a run can take, and what each of them shows. -/
inductive Course {δ : Type} (r : Markup.Routine δ) (w : World) (m : Measured) (line : CommandLine) (o : Outcome) :
    Prop where
  | unnamed (hinput : line.input = none) (hconfig : line.config = none) (hexit : o.exit = 1)
      (hout : o.stdout = CommandLine.usage ++ "\n")
  | refused {e : Error} (hnamed : line.Named) (hsettings : line.toSettings w.environment w.fileContent = .error e)
      (hexit : o.exit = 2) (hout : o.stdout = "")
  | withoutInput {settings : Settings} (hnamed : line.Named)
      (hsettings : line.toSettings w.environment w.fileContent = .ok settings) (hinput : settings.input = none)
      (hexit : o.exit = 1) (hout : o.stdout = CommandLine.usage ++ "\n")
  | delivered {settings : Settings} {input : Path} {text : String} (hnamed : line.Named)
      (hsettings : line.toSettings w.environment w.fileContent = .ok settings) (hinput : settings.input = some input)
      (hdeliver : deliver r w m settings input = .ok text) (hexit : o.exit = 0) (hout : o.stdout = text ++ "\n")
  | undelivered {settings : Settings} {input : Path} {e : Error} (hnamed : line.Named)
      (hsettings : line.toSettings w.environment w.fileContent = .ok settings) (hinput : settings.input = some input)
      (hdeliver : deliver r w m settings input = .error e) (hexit : o.exit = 1) (hout : o.stdout = "")

section Courses

variable {δ : Type} (r : Markup.Routine δ) (w : World) (m : Measured) {arguments : List (List UInt8)}
  {line : CommandLine} (hread : CommandLine.read arguments = .ok line)

include hread

theorem course_of_unnamed (hinput : line.input = none) (hconfig : line.config = none) :
    Course r w m line (runWith r w m arguments) := by
  have hrun : runWith r w m arguments = .usage := by
    simp only [runWith, prepare, hread, hinput, hconfig, Option.isNone_none, and_self, if_true]
  rw [hrun]
  exact .unnamed hinput hconfig rfl rfl

theorem course_of_refused (hnamed : line.Named) {e : Error}
    (h : line.toSettings w.environment w.fileContent = .error e) : Course r w m line (runWith r w m arguments) := by
  have hrun : ∃ filter, runWith r w m arguments = .failed filter .text [] e := by
    simp only [runWith, prepare, hread, if_neg hnamed.not_none, h]
    exact ⟨_, rfl⟩
  obtain ⟨filter, hrun⟩ := hrun
  rw [hrun]
  exact .refused hnamed h (Error.exitCode_of_configuration (CommandLine.toSettings_category h)) rfl

theorem course_of_no_input (hnamed : line.Named) {settings : Settings}
    (h : line.toSettings w.environment w.fileContent = .ok settings) (hinput : settings.input = none) :
    Course r w m line (runWith r w m arguments) := by
  refine .withoutInput hnamed h hinput ?_ ?_ <;>
    simp only [runWith, prepare, hread, if_neg hnamed.not_none, h, hinput] <;> rfl

/-- With settings and an input the run ends as the delivery does. -/
theorem runWith_of_input (hnamed : line.Named) {settings : Settings}
    (h : line.toSettings w.environment w.fileContent = .ok settings) {input : Path}
    (hinput : settings.input = some input) :
    (∀ text, deliver r w m settings input = .ok text →
      (runWith r w m arguments).exit = 0 ∧ (runWith r w m arguments).stdout = text ++ "\n") ∧
    ∀ e, deliver r w m settings input = .error e →
      (runWith r w m arguments).exit = e.exitCode ∧ (runWith r w m arguments).stdout = "" := by
  simp only [runWith, prepare, hread, if_neg hnamed.not_none, h, hinput, deliver]
  cases hload : Template.load w.workingDir w.fileContent input with
  | error cause =>
      refine ⟨fun text hdeliver => ?_, fun e hdeliver => ?_⟩
      · cases hdeliver
      · cases hdeliver
        exact ⟨rfl, rfl⟩
  | ok t =>
      simp only [conclude]
      change (∀ text, ((engineFor r settings).run t m).result.bind (·.render settings.format) = .ok text → _) ∧
        ∀ e, ((engineFor r settings).run t m).result.bind (·.render settings.format) = .error e → _
      refine ⟨fun text hdeliver => ?_, fun e hdeliver => ?_⟩
      · rw [hdeliver]
        exact ⟨rfl, rfl⟩
      · rw [hdeliver]
        exact ⟨rfl, rfl⟩

theorem course_of_input (hnamed : line.Named) {settings : Settings}
    (h : line.toSettings w.environment w.fileContent = .ok settings) {input : Path}
    (hinput : settings.input = some input) : Course r w m line (runWith r w m arguments) := by
  obtain ⟨hdelivered, hfailed⟩ := runWith_of_input r w m hread hnamed h hinput
  cases hdeliver : deliver r w m settings input with
  | ok text =>
      obtain ⟨hexit, hout⟩ := hdelivered text hdeliver
      exact .delivered hnamed h hinput hdeliver hexit hout
  | error e =>
      obtain ⟨hexit, hout⟩ := hfailed e hdeliver
      have hcategory := deliver_category (CommandLine.sound_of_toSettings h) hinput hdeliver
      exact .undelivered hnamed h hinput hdeliver (hexit.trans (Error.exitCode_of_io_or_conversion hcategory)) hout

/-- Every run takes one of the courses. -/
theorem course : Course r w m line (runWith r w m arguments) := by
  by_cases hnamed : line.Named
  · cases hsettings : line.toSettings w.environment w.fileContent with
    | error e => exact course_of_refused r w m hread hnamed hsettings
    | ok settings =>
        cases hinput : settings.input with
        | none => exact course_of_no_input r w m hread hnamed hsettings hinput
        | some input => exact course_of_input r w m hread hnamed hsettings hinput
  · rw [CommandLine.Named, not_or, Option.not_isSome_iff_eq_none, Option.not_isSome_iff_eq_none] at hnamed
    exact course_of_unnamed r w m hread hnamed.1 hnamed.2

end Courses

namespace Course

variable {δ : Type} {r : Markup.Routine δ} {w : World} {m : Measured} {line : CommandLine} {o : Outcome}

theorem exists_way (h : Course r w m line o) : ∃ way : Way, way.Shown w m line o := by
  cases h with
  | unnamed _ _ hexit hout => exact ⟨.explained, hexit, hout⟩
  | refused _ _ hexit hout => exact ⟨.failed, Or.inr hexit, hout⟩
  | withoutInput _ _ _ hexit hout => exact ⟨.explained, hexit, hout⟩
  | delivered _ hsettings hinput hdeliver hexit hout =>
      obtain ⟨t, hload, hrender⟩ := deliver_report (CommandLine.sound_of_toSettings hsettings) hdeliver
      exact ⟨.reported, hexit, _, ⟨_, _, t, hsettings, hinput, hload, hrender⟩, hout⟩
  | undelivered _ _ _ _ hexit hout => exact ⟨.failed, Or.inl hexit, hout⟩

theorem refused_iff (h : Course r w m line o) :
    o.exit = 2 ∧ o.stdout = "" ↔
      line.Named ∧ ∃ e, line.toSettings w.environment w.fileContent = .error e := by
  constructor
  · rintro ⟨hexit, _⟩
    cases h with
    | refused hnamed hsettings => exact ⟨hnamed, _, hsettings⟩
    | unnamed _ _ h | withoutInput _ _ _ h | delivered _ _ _ _ h | undelivered _ _ _ _ h =>
        rw [h] at hexit
        cases hexit
  · rintro ⟨hnamed, e, herror⟩
    cases h with
    | refused _ _ hexit hout => exact ⟨hexit, hout⟩
    | unnamed hinput hconfig => exact absurd hnamed (CommandLine.not_named hinput hconfig)
    | withoutInput _ hsettings | delivered _ hsettings | undelivered _ hsettings =>
        rw [hsettings] at herror
        cases herror

theorem undelivered_iff (h : Course r w m line o) :
    o.exit = 1 ∧ o.stdout = "" ↔
      ∃ settings input, line.toSettings w.environment w.fileContent = .ok settings ∧ settings.input = some input ∧
        ∃ e, deliver r w m settings input = .error e := by
  have husage : CommandLine.usage ++ "\n" ≠ "" := by decide
  constructor
  · rintro ⟨hexit, hout⟩
    cases h with
    | undelivered _ hsettings hinput hdeliver => exact ⟨_, _, hsettings, hinput, _, hdeliver⟩
    | unnamed _ _ _ h | withoutInput _ _ _ _ h => exact absurd (h.symm.trans hout) husage
    | refused _ _ h | delivered _ _ _ _ h =>
        rw [h] at hexit
        cases hexit
  · rintro ⟨settings, input, hok, hsome, e, herror⟩
    cases h with
    | undelivered _ _ _ _ hexit hout => exact ⟨hexit, hout⟩
    | unnamed hinput hconfig =>
        exact absurd (CommandLine.named_of_input hok hsome) (CommandLine.not_named hinput hconfig)
    | refused _ hsettings =>
        rw [hsettings] at hok
        cases hok
    | withoutInput _ hsettings hinput =>
        cases hsettings.symm.trans hok
        rw [hinput] at hsome
        cases hsome
    | delivered _ hsettings hinput hdeliver =>
        cases hsettings.symm.trans hok
        cases hinput.symm.trans hsome
        rw [hdeliver] at herror
        cases herror

theorem exit_ne_three (h : Course r w m line o) : o.exit ≠ 3 := by
  cases h with
  | unnamed _ _ h | refused _ _ h | withoutInput _ _ _ h | delivered _ _ _ _ h | undelivered _ _ _ _ h =>
      rw [h]
      decide

end Course

/-- **How a run ends.** Whatever the routine for the conversions does, a run with a command line that can be read
shows a report, the usage line or nothing, and only one of them. It shows nothing and exits with 2 if and only if
settings were asked for and refused; it shows nothing and exits with 1 if and only if the template could not be
loaded or converted. Settings that are in order leave nothing of the configuration to fail later: with them the run
ends as the delivery of the report does. -/
theorem runWith_ends {δ : Type} (r : Markup.Routine δ) (w : World) (m : Measured) {arguments : List (List UInt8)}
    {line : CommandLine} (hread : CommandLine.read arguments = .ok line) :
    let o := runWith r w m arguments
    let made := line.toSettings w.environment w.fileContent
    (∃! way : Way, way.Shown w m line o) ∧
    (o.exit = 2 ∧ o.stdout = "" ↔ (line.input.isSome ∨ line.config.isSome) ∧ ∃ e, made = .error e) ∧
    (o.exit = 1 ∧ o.stdout = "" ↔
      ∃ settings input, made = .ok settings ∧ settings.input = some input ∧
        ((∃ e, Template.load w.workingDir w.fileContent input = .error e) ∨
          ∃ t e, Template.load w.workingDir w.fileContent input = .ok t ∧
            (r.convert settings.render t.content).outcome = .error e)) ∧
    o.exit ≠ 3 ∧
    ∀ settings input, made = .ok settings → settings.input = some input →
      Validation.path "input" input = .ok () ∧
      (∀ text, deliver r w m settings input = .ok text → o.exit = 0 ∧ o.stdout = text ++ "\n") ∧
      ∀ e, deliver r w m settings input = .error e →
        o.exit = e.exitCode ∧ o.stdout = "" ∧ e.category ≠ .configuration := by
  intro o made
  have hcourse : Course r w m line o := course r w m hread
  refine ⟨?_, hcourse.refused_iff, ?_, hcourse.exit_ne_three, ?_⟩
  · obtain ⟨way, hway⟩ := hcourse.exists_way
    exact ⟨way, hway, fun other hother => hother.eq.trans hway.eq.symm⟩
  · rw [hcourse.undelivered_iff]
    refine exists_congr fun settings => exists_congr fun input => and_congr_right fun hsettings => ?_
    have hsound := CommandLine.sound_of_toSettings hsettings
    refine and_congr Iff.rfl ?_
    simp only [deliver_eq_error_iff r w m hsound input, exists_or]
    exact or_congr Iff.rfl ⟨fun ⟨e, t, h⟩ => ⟨t, e, h⟩, fun ⟨t, e, h⟩ => ⟨e, t, h⟩⟩
  · intro settings input hsettings hinput
    have hsound := CommandLine.sound_of_toSettings hsettings
    have hnamed := CommandLine.named_of_input hsettings hinput
    obtain ⟨hdelivered, hfailed⟩ := runWith_of_input r w m hread hnamed hsettings hinput
    refine ⟨(Validation.path_eq_ok_iff "input" input).mpr (hsound.input input hinput), hdelivered, ?_⟩
    intro e herror
    obtain ⟨hexit, hout⟩ := hfailed e herror
    refine ⟨hexit, hout, ?_⟩
    rcases deliver_category hsound hinput herror with h | h <;> rw [h] <;> decide

/-- The settings are in order, but there is no template. -/
theorem runWith_ends_missing_template :
    let r : Markup.Routine Unit := ⟨fun _ => .ok ((), 0), fun _ _ => .ok "page"⟩
    let w : World := ⟨fun _ => none, Path.ofString "/srv", fun _ => .error .noSuchFile⟩
    let m : Measured := ⟨.epoch, .zero, none, none, none⟩
    let arguments := [Utf8.encode "a.mjml".toList]
    let line : CommandLine := { CommandLine.empty with input := some (Path.ofString "a.mjml") }
    CommandLine.read arguments = .ok line ∧
      (runWith r w m arguments).exit = 1 ∧ (runWith r w m arguments).stdout = "" := by
  intro r w m arguments line
  have hread : CommandLine.read arguments = .ok line := by decide +kernel
  have hsettings : line.toSettings w.environment w.fileContent =
      .ok { Settings.default with input := some (Path.ofString "a.mjml") } := by decide +kernel
  have hload : Template.load w.workingDir w.fileContent (Path.ofString "a.mjml") =
      .error (.templateRead (Path.ofString "/srv/a.mjml") .noSuchFile) := rfl
  exact ⟨hread, (runWith_ends r w m hread).2.2.1.mpr ⟨_, _, hsettings, rfl, Or.inl ⟨_, hload⟩⟩⟩

end Program

end TemplateTiming
