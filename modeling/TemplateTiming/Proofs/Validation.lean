import TemplateTiming.Proofs.Result
import TemplateTiming.Proofs.Utf8
import TemplateTiming.Validation

/-! What the checks of single values accept, said of the values themselves, and that a refusal names the field it is
about. -/

namespace TemplateTiming

/-- The errors by which a value of `field` is refused. -/
def Error.Refuses (field : String) (e : Error) : Prop := ∃ value reason, e = .invalidValue field value reason

theorem Error.Refuses.category {field : String} {e : Error} (h : e.Refuses field) :
    e.category = .configuration := by
  obtain ⟨value, reason, rfl⟩ := h
  rfl

/-- Something can be seen of the text. -/
def Text.Visible (text : String) : Prop := ∃ c ∈ text.toList, isBlank c = false

/-- Something is named, and the system can be given the name. -/
def Path.Usable (p : Path) : Prop := p.octets ≠ [] ∧ 0 ∉ p.octets

namespace Validation

/-- The check looks at the text of a path, but it decides about the bytes. -/
theorem path_eq_ok_iff (field : String) (p : Path) : path field p = .ok () ↔ p.Usable := by
  have hnul : (Utf8.lossy p.octets).contains '\x00' = true ↔ 0 ∈ p.octets := by
    rw [List.contains_iff_mem]
    exact Utf8.mem_lossy_ascii (b := 0) (by decide) p.octets
  simp only [path, Path.Usable]
  by_cases hempty : p.octets = []
  · rw [if_pos (List.isEmpty_iff.mpr hempty)]
    exact iff_of_false (fun h => nomatch h) (fun h => h.1 hempty)
  · rw [if_neg (fun h => hempty (List.isEmpty_iff.mp h)), refuse_eq_ok_iff, hnul]
    exact ⟨fun h => ⟨hempty, h⟩, fun h => h.2⟩

theorem path_refuses {field : String} {p : Path} {e : Error} (h : path field p = .error e) : e.Refuses field := by
  simp only [path] at h
  split_ifs at h
  · exact ⟨_, _, (Except.error.inj h).symm⟩
  · exact ⟨_, _, (Except.error.inj h).symm⟩

theorem atLeast_eq_ok_iff (field : String) (value least : UInt64) :
    atLeast field value least = .ok () ↔ least ≤ value := by
  rw [atLeast, refuse_eq_ok_iff, UInt64.not_lt]

theorem atLeast_refuses {field : String} {value least : UInt64} {e : Error}
    (h : atLeast field value least = .error e) : e.Refuses field := by
  unfold atLeast at h
  split_ifs at h
  exact ⟨_, _, (Except.error.inj h).symm⟩

theorem fileExtension_eq_ok_iff (field : String) (p : Path) (allowed : List String) :
    fileExtension field p allowed = .ok () ↔ ∃ ext ∈ allowed, p.extension? = some (Utf8.encode ext.toList) := by
  have htext : ∀ text, p.extension?.bind Utf8.decode? = some text ↔ p.extension? = some (Utf8.encode text) := by
    intro text
    simp only [Option.bind_eq_some_iff, Utf8.decode?_eq_some_iff, exists_eq_right]
  unfold fileExtension
  split
  next hnone =>
    refine iff_of_false (fun h => nomatch h) ?_
    rintro ⟨ext, -, hext⟩
    rw [(htext ext.toList).mpr hext] at hnone
    cases hnone
  next text hsome =>
    rw [accept_eq_ok_iff, List.contains_iff_mem]
    constructor
    · intro hmem
      exact ⟨String.ofList text, hmem, by rw [String.toList_ofList, ← htext, hsome]⟩
    · rintro ⟨ext, hmem, hext⟩
      rw [← htext, hsome, Option.some.injEq] at hext
      rwa [hext, String.ofList_toList]

theorem fileExtension_refuses {field : String} {p : Path} {allowed : List String} {e : Error}
    (h : fileExtension field p allowed = .error e) : e.Refuses field := by
  unfold fileExtension at h
  split at h
  · exact ⟨_, _, (Except.error.inj h).symm⟩
  · simp only at h
    split_ifs at h
    exact ⟨_, _, (Except.error.inj h).symm⟩

theorem notBlank_eq_ok_iff (field value : String) :
    notBlank field value = .ok () ↔ Text.Visible value := by
  rw [notBlank, refuse_eq_ok_iff, Text.allBlank, Bool.not_eq_true, List.all_eq_false]
  simp only [Text.Visible, Bool.not_eq_true]

theorem notBlank_refuses {field value : String} {e : Error} (h : notBlank field value = .error e) :
    e.Refuses field := by
  unfold notBlank at h
  split_ifs at h
  exact ⟨_, _, (Except.error.inj h).symm⟩

theorem oneOf_eq_ok_iff (field value : String) (allowed : List String) :
    oneOf field value allowed = .ok () ↔ value ∈ allowed := by
  rw [oneOf, accept_eq_ok_iff, List.contains_iff_mem]

theorem oneOf_refuses {field value : String} {allowed : List String} {e : Error}
    (h : oneOf field value allowed = .error e) : e.Refuses field := by
  unfold oneOf at h
  split_ifs at h
  exact ⟨_, _, (Except.error.inj h).symm⟩

end Validation

end TemplateTiming
