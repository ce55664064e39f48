import TemplateTiming.Program
import TemplateTiming.Proofs.Batch
import TemplateTiming.Proofs.Report
import TemplateTiming.Proofs.Settings

/-! What can still fail once the settings are in order: reading the template and converting it. Its path has been
checked with the settings, and a report can always be written. -/

namespace TemplateTiming

namespace Template

theorem resolve_of_usable {p : Path} (hp : p.Usable) (workingDir : Path) :
    resolve workingDir p = .ok (Path.absolute workingDir p) := by
  rw [resolve, (Validation.path_eq_ok_iff "input" p).mpr hp]
  rfl

/-- A template whose path is in order fails only because the file cannot be read. -/
theorem load_of_usable {p : Path} (hp : p.Usable) (workingDir : Path)
    (files : Path → Except IoError (List UInt8)) :
    load workingDir files p =
      match files (Path.absolute workingDir p) with
      | .error cause => .error (.templateRead (Path.absolute workingDir p) cause)
      | .ok octets => .ok ⟨Path.absolute workingDir p, String.ofList (Utf8.lossy octets)⟩ := by
  rw [load, resolve_of_usable hp]
  change ((files (Path.absolute workingDir p)).mapError _ >>= _) = _
  cases files (Path.absolute workingDir p) with
  | error cause => rfl
  | ok octets => rfl

theorem load_category {p : Path} (hp : p.Usable) {workingDir : Path}
    {files : Path → Except IoError (List UInt8)} {e : Error} (h : load workingDir files p = .error e) :
    e.category = .io := by
  rw [load_of_usable hp] at h
  split at h
  · cases h
    rfl
  · cases h

end Template

namespace Markup.Routine

variable {δ : Type}

theorem convert_category {r : Routine δ} {settings : RenderSettings} {text : String} {e : Error}
    (h : (r.convert settings text).outcome = .error e) : e.category = .conversion := by
  unfold convert at h
  split at h
  · cases h
    rfl
  · obtain ⟨_, _, rfl⟩ := mapError_eq_error_iff.mp h
    rfl

/-- Without a state to keep, the first conversion decides about all of them. -/
theorem convertTimes_failure (r : Routine δ) (settings : RenderSettings) (text : String) (n : Nat)
    (log : List LogEvent) :
    (Engine.convertTimes (r.converter settings) text (n + 1) log ()).failure =
      match (r.convert settings text).outcome with
      | .error e => some e
      | .ok _ => none := by
  rcases hcall : r.convert settings text with ⟨outcome, more⟩
  cases outcome with
  | error e => simp only [Engine.convertTimes, converter, hcall]
  | ok out =>
      induction n generalizing log with
      | zero => simp only [Engine.convertTimes, converter, hcall]
      | succ n ih =>
          rw [Engine.convertTimes]
          simp only [converter, hcall]
          exact ih (log ++ more)

end Markup.Routine

namespace Program

variable {δ : Type}

/-- The report of a run whose settings are in order, as it is written. -/
def deliver (r : Markup.Routine δ) (w : World) (m : Measured) (settings : Settings) (input : Path) :
    Except Error String := do
  let template ← Template.load w.workingDir w.fileContent input
  let report ← ((engineFor r settings).run template m).result
  report.render settings.format

/-- What there is to report about a template. -/
def reportOn (settings : Settings) (t : Template) (m : Measured) : Report where
  label := settings.label
  converter := "mrml"
  input := t.path
  inputBytes := t.size
  iterations := settings.iterations
  warmup := settings.warmup
  elapsed := m.elapsed
  startedAt := m.startedAt

theorem run_result_of_settings (r : Markup.Routine δ) {settings : Settings} (hsound : settings.Sound) (t : Template)
    (m : Measured) :
    ((engineFor r settings).run t m).result =
      match (r.convert settings.render t.content).outcome with
      | .error e => .error e
      | .ok _ => .ok (reportOn settings t m) := by
  have hpositive : 1 ≤ settings.iterations.toNat := UInt64.le_iff_toNat_le.mp hsound.iterations
  obtain ⟨n, hn⟩ : ∃ n, settings.warmup.toNat + settings.iterations.toNat = n + 1 :=
    ⟨settings.warmup.toNat + settings.iterations.toNat - 1, by omega⟩
  have hfailure : ((engineFor r settings).conversions t).failure =
      match (r.convert settings.render t.content).outcome with
      | .error e => some e
      | .ok _ => none := by
    rw [← r.convertTimes_failure settings.render t.content n [], ← hn]
    rfl
  rw [Engine.run_result, hfailure]
  cases (r.convert settings.render t.content).outcome with
  | error e => rfl
  | ok out => rfl

/-- Of all the conversions only one has to be looked at. -/
theorem deliver_eq (r : Markup.Routine δ) (w : World) (m : Measured) {settings : Settings} (hsound : settings.Sound)
    (input : Path) :
    deliver r w m settings input = (do
      let t ← Template.load w.workingDir w.fileContent input
      let _ ← (r.convert settings.render t.content).outcome
      (reportOn settings t m).render settings.format) := by
  unfold deliver
  congr 1
  funext t
  rw [run_result_of_settings r hsound]
  cases (r.convert settings.render t.content).outcome with
  | error e => rfl
  | ok out => rfl

/-- Delivery fails for one of two reasons. -/
theorem deliver_eq_error_iff (r : Markup.Routine δ) (w : World) (m : Measured) {settings : Settings}
    (hsound : settings.Sound) (input : Path) (e : Error) :
    deliver r w m settings input = .error e ↔
      Template.load w.workingDir w.fileContent input = .error e ∨
      ∃ t, Template.load w.workingDir w.fileContent input = .ok t ∧
        (r.convert settings.render t.content).outcome = .error e := by
  rw [deliver_eq r w m hsound]
  simp only [bind_eq_error_iff]
  refine or_congr Iff.rfl (exists_congr fun t => and_congr Iff.rfl (or_iff_left ?_))
  rintro ⟨_, _, hrender⟩
  obtain ⟨text, htext⟩ := (reportOn settings t m).render_isOk settings.format
  rw [htext] at hrender
  cases hrender

theorem deliver_category {r : Markup.Routine δ} {w : World} {m : Measured} {settings : Settings}
    (hsound : settings.Sound) {input : Path} (hinput : settings.input = some input) {e : Error}
    (h : deliver r w m settings input = .error e) : e.category = .io ∨ e.category = .conversion := by
  rcases (deliver_eq_error_iff r w m hsound input e).mp h with hload | ⟨t, _, hconvert⟩
  · exact Or.inl (Template.load_category (hsound.input input hinput) hload)
  · exact Or.inr (Markup.Routine.convert_category hconvert)

/-- What is delivered is the report on the template that was loaded. -/
theorem deliver_report {r : Markup.Routine δ} {w : World} {m : Measured} {settings : Settings}
    (hsound : settings.Sound) {input : Path} {text : String} (h : deliver r w m settings input = .ok text) :
    ∃ t, Template.load w.workingDir w.fileContent input = .ok t ∧
      (reportOn settings t m).render settings.format = .ok text := by
  rw [deliver_eq r w m hsound] at h
  obtain ⟨t, hload, h⟩ := bind_eq_ok_iff.mp h
  obtain ⟨_, _, hrender⟩ := bind_eq_ok_iff.mp h
  exact ⟨t, hload, hrender⟩

end Program

end TemplateTiming
