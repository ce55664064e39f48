import TemplateTiming.FileConfig.Reader
import TemplateTiming.Proofs.Validation

/-! Which configuration files can be used. A file is readable text, what it says is a configuration once the
references are replaced, and every value that it holds passes its check. -/

namespace TemplateTiming

namespace ReportFormat

theorem parse_eq_ok_iff (s : String) (f : ReportFormat) : parse s = .ok f ↔ asciiLower s = f.name := by
  unfold parse
  cases f <;> simp only [name] <;> split_ifs with htext hjson <;> simp_all

theorem parse_isOk_iff (s : String) : (∃ f, parse s = .ok f) ↔ asciiLower s ∈ names := by
  simp only [parse_eq_ok_iff, names, List.mem_cons, List.not_mem_nil, or_false]
  constructor
  · rintro ⟨f, h⟩
    cases f
    · exact Or.inl h
    · exact Or.inr h
  · rintro (h | h)
    · exact ⟨.text, h⟩
    · exact ⟨.json, h⟩

theorem parse_refuses {s : String} {e : Error} (h : parse s = .error e) : e.Refuses "format" := by
  simp only [parse] at h
  split_ifs at h
  exact ⟨_, _, (Except.error.inj h).symm⟩

end ReportFormat

namespace FileConfig

theorem check_eq_ok_iff {α : Type} (value : Option α) (f : α → Except Error Unit) :
    check value f = .ok () ↔ ∀ a ∈ value, f a = .ok () := by
  cases value with
  | none => exact iff_of_true rfl (fun _ h => nomatch h)
  | some a =>
      constructor
      · rintro h _ ⟨⟩
        exact h
      · intro h
        exact h a rfl

theorem check_eq_error_iff {α : Type} (value : Option α) (f : α → Except Error Unit) (e : Error) :
    check value f = .error e ↔ ∃ a ∈ value, f a = .error e := by
  cases value with
  | none =>
      constructor
      · intro h
        cases h
      · rintro ⟨_, h, _⟩
        cases h
  | some a =>
      constructor
      · intro h
        exact ⟨a, rfl, h⟩
      · rintro ⟨_, ⟨⟩, h⟩
        exact h

/-- Every value that the file holds can be used. -/
structure Sound (c : FileConfig) : Prop where
  input : ∀ p ∈ c.bench.input, p.Usable
  iterations : ∀ n ∈ c.bench.iterations, 1 ≤ n
  label : ∀ l ∈ c.bench.label, Text.Visible l
  format : ∀ f ∈ c.bench.format, asciiLower f ∈ ReportFormat.names
  logLevel : ∀ l ∈ c.logLevel?, asciiLower l ∈ logLevels

theorem validate_eq_ok_iff (c : FileConfig) : c.validate = .ok () ↔ c.Sound := by
  simp only [validate, then_eq_ok_iff, check_eq_ok_iff, Validation.path_eq_ok_iff, Validation.atLeast_eq_ok_iff,
    Validation.notBlank_eq_ok_iff, Validation.oneOf_eq_ok_iff]
  constructor
  · rintro ⟨hinput, hiterations, hlabel, hformat, hlevel⟩
    exact ⟨hinput, hiterations, hlabel, hformat, hlevel⟩
  · rintro ⟨hinput, hiterations, hlabel, hformat, hlevel⟩
    exact ⟨hinput, hiterations, hlabel, hformat, hlevel⟩

theorem validate_category {c : FileConfig} {e : Error} (h : c.validate = .error e) : e.category = .configuration := by
  simp only [validate, then_eq_error_iff, check_eq_error_iff] at h
  rcases h with ⟨_, _, h⟩ | ⟨_, ⟨_, _, h⟩ | ⟨_, ⟨_, _, h⟩ | ⟨_, ⟨_, _, h⟩ | ⟨_, _, _, h⟩⟩⟩⟩
  · exact (Validation.path_refuses h).category
  · exact (Validation.atLeast_refuses h).category
  · exact (Validation.notBlank_refuses h).category
  · exact (Validation.oneOf_refuses h).category
  · exact (Validation.oneOf_refuses h).category

/-- A checked file asks for a format that exists, if it asks for one. -/
theorem Sound.reportFormat {c : FileConfig} (hsound : c.Sound) : ∃ format, c.reportFormat = .ok format := by
  unfold FileConfig.reportFormat
  cases hformat : c.bench.format with
  | none => exact ⟨none, rfl⟩
  | some s =>
      obtain ⟨f, hf⟩ := (ReportFormat.parse_isOk_iff s).mpr (hsound.format s hformat)
      exact ⟨some f, congrArg (Except.map some) hf⟩

theorem load_eq_ok_iff (env : Environment) (files : Path → Except IoError (List UInt8)) (path : Path)
    (file : FileConfig) :
    load env files path = .ok file ↔
      ∃ text, files path = .ok (Utf8.encode text) ∧ ofToml (Reference.substitute env.text? text) = .ok file := by
  simp only [load, bind_eq_ok_iff, mapError_eq_ok_iff]
  constructor
  · rintro ⟨octets, hread, h⟩
    cases htext : Utf8.decode? octets with
    | none =>
        rw [htext] at h
        cases h
    | some text =>
        rw [htext] at h
        rw [(Utf8.decode?_eq_some_iff octets text).mp htext] at hread
        exact ⟨text, hread, mapError_eq_ok_iff.mp h⟩
  · rintro ⟨text, hread, h⟩
    refine ⟨Utf8.encode text, hread, ?_⟩
    rw [(Utf8.decode?_eq_some_iff _ text).mpr rfl]
    exact mapError_eq_ok_iff.mpr h

theorem load_category {env : Environment} {files : Path → Except IoError (List UInt8)} {path : Path} {e : Error}
    (h : load env files path = .error e) : e.category = .configuration := by
  simp only [load, bind_eq_error_iff, mapError_eq_error_iff] at h
  rcases h with ⟨_, _, rfl⟩ | ⟨octets, _, h⟩
  · rfl
  · cases htext : Utf8.decode? octets with
    | none =>
        rw [htext] at h
        cases h
        rfl
    | some text =>
        rw [htext] at h
        obtain ⟨_, _, rfl⟩ := mapError_eq_error_iff.mp h
        rfl

end FileConfig

end TemplateTiming
