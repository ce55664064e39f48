import TemplateTiming.FileTree
import TemplateTiming.Proofs.Resolution

/-! A NUL within a path. The check of a path looks for it in the text that the path is shown as, in which a broken run
of bytes is one character; a NUL never belongs to such a run, so the bytes decide all the same. What resolving adds
to a path are slashes and the working directory, so that no NUL comes in behind the check, and the system is never
given a name with a NUL in it. -/

namespace TemplateTiming

namespace Path

theorem mem_withTrailingSlash {octets : List UInt8} {b : UInt8} (h : b ∈ withTrailingSlash octets) :
    b ∈ octets ∨ b = slash := by
  unfold withTrailingSlash at h
  split_ifs at h
  · exact Or.inl h
  · simpa using h

theorem mem_foldl_descend {names : List (List UInt8)} {base : List UInt8} {b : UInt8}
    (h : b ∈ names.foldl descend base) : b ∈ base ∨ b = slash ∨ ∃ part ∈ names, b ∈ part := by
  induction names generalizing base with
  | nil => exact Or.inl h
  | cons part rest ih =>
      rw [List.foldl_cons] at h
      rcases ih h with hbase | hslash | ⟨part', hpart', hmem⟩
      · rcases List.mem_append.mp hbase with hbase | hpart
        · exact (mem_withTrailingSlash hbase).imp_right Or.inl
        · exact Or.inr (Or.inr ⟨part, List.mem_cons_self, hpart⟩)
      · exact Or.inr (Or.inl hslash)
      · exact Or.inr (Or.inr ⟨part', List.mem_cons_of_mem part hpart', hmem⟩)

/-- An absolute form consists of slashes and of bytes of the path and the directory. -/
theorem mem_absolute {d p : Path} {b : UInt8} (hb : b ≠ slash) (h : b ∈ (absolute d p).octets) :
    b ∈ d.octets ∨ b ∈ p.octets := by
  have hjoined : b ∈ p.components.foldl descend (origin d p) := by
    unfold absolute at h
    split_ifs at h
    · exact (mem_withTrailingSlash h).resolve_right hb
    · exact h
  rcases mem_foldl_descend hjoined with horigin | hslash | ⟨part, hpart, hmem⟩
  · rw [origin_eq] at horigin
    split_ifs at horigin
    · simp [hb] at horigin
    · simp [hb] at horigin
    · exact Or.inl horigin
  · exact absurd hslash hb
  · exact Or.inr ((mem_iff_of_ne_slash hb).mpr ⟨part, (mem_components.mp hpart).1, hmem⟩)

end Path

namespace FileTree

theorem follow_error {t : FileTree} {here parts : List (List UInt8)} {e : IoError}
    (h : t.follow here parts = .error e) : ∃ number, e = .system number := by
  fun_induction follow t here parts with
  | case1 => cases h
  | case2 => exact ⟨20, (Except.error.inj h).symm⟩
  | case3 here part rest hdir hsame ih => exact ih h
  | case4 here rest _ _ ih => exact ih h
  | case5 => exact ⟨36, (Except.error.inj h).symm⟩
  | case6 => exact ⟨2, (Except.error.inj h).symm⟩
  | case7 here part rest _ _ _ _ _ ih => exact ih h

/-- A file whose name has no NUL in it fails to be read for a reason that the system has a number for. -/
theorem read_error {t : FileTree} {d p : Path} {e : IoError} (hp : 0 ∉ p.octets) (h : t.read d p = .error e) :
    ∃ number, e = .system number := by
  unfold read at h
  rw [if_neg (by simpa using hp)] at h
  by_cases hempty : p.octets = []
  · rw [if_pos hempty] at h
    exact ⟨2, (Except.error.inj h).symm⟩
  by_cases hlong : maxPath < p.octets.length
  · rw [if_neg hempty, if_pos hlong] at h
    exact ⟨36, (Except.error.inj h).symm⟩
  rw [if_neg hempty, if_neg hlong] at h
  rcases bind_eq_error_iff.mp h with hfollow | ⟨names, -, hentry⟩
  · exact follow_error hfollow
  · split at hentry
    · cases hentry
    · exact ⟨21, (Except.error.inj hentry).symm⟩
    · exact ⟨2, (Except.error.inj hentry).symm⟩

theorem nul_mem_of_read {t : FileTree} {d p : Path} (h : t.read d p = .error .nulInName) : 0 ∈ p.octets := by
  by_contra hp
  obtain ⟨_, hnumber⟩ := read_error hp h
  cases hnumber

end FileTree

namespace Template

/-- A template whose path is in order fails only as its file does, and the name of that file has no NUL in it. -/
theorem load_error {p d : Path} {files : Path → Except IoError (List UInt8)} {e : Error} (hp : p.Usable)
    (hd : 0 ∉ d.octets) (h : load d files p = .error e) :
    ∃ q cause, e = .templateRead q cause ∧ files q = .error cause ∧ 0 ∉ q.octets := by
  rw [load_of_usable hp] at h
  split at h
  next cause hcause =>
    have hnul : 0 ∉ (Path.absolute d p).octets := fun hmem =>
      (Path.mem_absolute (by decide) hmem).elim hd hp.2
    exact ⟨_, cause, (Except.error.inj h).symm, hcause, hnul⟩
  next => cases h

end Template

namespace Validation

/-- **The check of a path decides on its bytes.** It accepts a path if and only if the path is not empty and no byte of
it is 0, broken runs of bytes or not. In a working directory without a NUL such a path resolves to a name without
a NUL. So a system that finds a NUL only in names that have one does not find one when the template is loaded, and
the files of a tree fail for reasons that have a number, which an embedded NUL has not. -/
theorem path_decides_on_octets (field : String) (p : Path) :
    (path field p = .ok () ↔ p.octets ≠ [] ∧ 0 ∉ p.octets) ∧
    ∀ d : Path, path field p = .ok () → 0 ∉ d.octets →
      (∃ r, Template.resolve d p = .ok r ∧ 0 ∉ r.octets) ∧
      (∀ files : Path → Except IoError (List UInt8), (∀ q, files q = .error .nulInName → 0 ∈ q.octets) →
        ∀ q, Template.load d files p ≠ .error (.templateRead q .nulInName)) ∧
      ∀ (t : FileTree) (e : Error), Template.load d (t.read d) p = .error e →
        ∃ q number, e = .templateRead q (.system number) := by
  refine ⟨path_eq_ok_iff field p, fun d haccepted hd => ?_⟩
  have hp : p.Usable := (path_eq_ok_iff field p).mp haccepted
  refine ⟨⟨_, Template.resolve_of_usable hp d, fun hmem => ?_⟩, fun files hfiles q hload => ?_, fun t e hload => ?_⟩
  · exact (Path.mem_absolute (by decide) hmem).elim hd hp.2
  · obtain ⟨q', cause, heq, hcause, hnul⟩ := Template.load_error hp hd hload
    cases heq
    exact hnul (hfiles q hcause)
  · obtain ⟨q, cause, heq, hcause, hnul⟩ := Template.load_error hp hd hload
    obtain ⟨number, rfl⟩ := FileTree.read_error hnul hcause
    exact ⟨q, number, heq⟩

/-- A broken run of bytes, with and without a NUL behind it, in a tree that does not have the file. -/
theorem path_decides_on_octets_broken :
    let p : Path := ⟨[0xE2, 0x82, 0x2E, 0x6D]⟩
    let d : Path := Path.ofString "/srv"
    let t : FileTree := ⟨[([Utf8.encode "srv".toList], .directory)]⟩
    path "input" p = .ok () ∧ 0 ∉ d.octets ∧ (∀ q, t.read d q = .error .nulInName → 0 ∈ q.octets) ∧
      (∃ e, Template.load d (t.read d) p = .error e ∧ ∃ q number, e = .templateRead q (.system number)) ∧
      (∀ q, Template.load d (t.read d) p ≠ .error (.templateRead q .nulInName)) ∧
      path "input" ⟨[0xE2, 0x82, 0x00, 0x2E, 0x6D]⟩ ≠ .ok () := by
  intro p d t
  obtain ⟨haccepts, hreadable⟩ := path_decides_on_octets "input" p
  have haccepted : path "input" p = .ok () := haccepts.mpr ⟨by decide, by decide⟩
  have hd : 0 ∉ d.octets := by decide
  have hfiles : ∀ q, t.read d q = .error .nulInName → 0 ∈ q.octets := fun _ => FileTree.nul_mem_of_read
  obtain ⟨-, hnul, htree⟩ := hreadable d haccepted hd
  have hload : ∃ e, Template.load d (t.read d) p = .error e :=
    ⟨.templateRead (Path.absolute d p) .noSuchFile, by decide +kernel⟩
  obtain ⟨e, he⟩ := hload
  refine ⟨haccepted, hd, hfiles, ⟨e, he, htree t e he⟩, hnul _ hfiles, ?_⟩
  rw [ne_eq, (path_decides_on_octets "input" _).1]
  exact fun h => h.2 (by decide)

end Validation

end TemplateTiming
