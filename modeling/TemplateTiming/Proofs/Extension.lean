import TemplateTiming.Proofs.Resolution

/-! The extension of a path. It is looked for in the last component, behind which slashes and `.` may stand; resolving
a path keeps its components in order, the last one with them, so that the file that is read has the extension of the
path that was given. -/

namespace TemplateTiming

namespace Path

/-- The path ends in the component `name`. A slash stands in front of it if anything does, and behind it nothing is
named. -/
structure EndsIn (p : Path) (name : List UInt8) : Prop where
  isName : IsName name
  place : ∃ (front : List UInt8) (silent : List (List UInt8)),
    p.octets = front ++ (name ++ silent.flatMap (slash :: ·)) ∧
    (front = [] ∨ endsInSlash front = true) ∧ ∀ part ∈ silent, part = [] ∨ part = [dot]

/-- A text made of names or silent parts with a slash behind each. -/
theorem segments_flatMap_append {parts : List (List UInt8)} (hparts : ∀ part ∈ parts, slash ∉ part)
    (rest : List UInt8) : segments (parts.flatMap (· ++ [slash]) ++ rest) = parts ++ segments rest := by
  induction parts with
  | nil => rfl
  | cons part parts ih =>
      rw [List.flatMap_cons, List.append_assoc, List.append_assoc, List.singleton_append, segments_append_slash,
        segments_of_noSlash (hparts part List.mem_cons_self),
        ih fun part' h => hparts part' (List.mem_cons_of_mem part h)]
      rfl

/-- The same with a slash in front of each but the first. -/
theorem segments_append_flatMap {first : List UInt8} {parts : List (List UInt8)} (hfirst : slash ∉ first)
    (hparts : ∀ part ∈ parts, slash ∉ part) :
    segments (first ++ parts.flatMap (slash :: ·)) = first :: parts := by
  induction parts generalizing first with
  | nil => rw [List.flatMap_nil, List.append_nil, segments_of_noSlash hfirst]
  | cons part parts ih =>
      rw [List.flatMap_cons, List.cons_append, segments_append_slash, segments_of_noSlash hfirst,
        ih (hparts part List.mem_cons_self) fun part' h => hparts part' (List.mem_cons_of_mem part h)]
      rfl

theorem EndsIn.getLast?_components {p : Path} {name : List UInt8} (h : p.EndsIn name) :
    p.components.getLast? = some name := by
  obtain ⟨front, silent, hoctets, hfront, hsilent⟩ := h.place
  have hback : segments (name ++ silent.flatMap (slash :: ·)) = name :: silent := by
    refine segments_append_flatMap h.isName.noSlash fun part hpart => ?_
    rcases hsilent part hpart with rfl | rfl <;> decide
  have hsegments : ∃ before, segments p.octets = before ++ name :: silent := by
    rw [hoctets, ← hback]
    rcases hfront with rfl | hfront
    · exact ⟨[], rfl⟩
    · exact ⟨stem front, segments_append_of_endsInSlash hfront _⟩
  obtain ⟨before, hbefore⟩ := hsegments
  have hnone : silent.filter (fun part => part ≠ [] ∧ part ≠ [dot]) = [] := by
    refine List.filter_eq_nil_iff.mpr fun part hpart => ?_
    rcases hsilent part hpart with rfl | rfl <;> decide
  have hkept : decide (name ≠ [] ∧ name ≠ [dot]) = true := decide_eq_true ⟨h.isName.nonempty, h.isName.notDot⟩
  rw [components, hbefore, List.filter_append, List.filter_cons, if_pos hkept, hnone, List.getLast?_concat]

theorem endsIn_of_getLast?_components {p : Path} {name : List UInt8} (h : p.components.getLast? = some name) :
    p.EndsIn name := by
  have hname : IsName name := isName_of_mem_components (List.mem_of_getLast? h)
  rw [components, List.getLast?_filter, List.find?_eq_some_iff_append] at h
  obtain ⟨-, silent, before, hreverse, hsilent⟩ := h
  have hsegments : segments p.octets = before.reverse ++ name :: silent.reverse := by
    rw [← List.reverse_reverse (segments p.octets), hreverse]
    simp
  have hslash : ∀ part ∈ before.reverse ++ name :: silent.reverse, slash ∉ part := by
    rw [← hsegments]
    exact fun _ => slash_not_mem_of_mem_segments
  refine ⟨hname, before.reverse.flatMap (· ++ [slash]), silent.reverse, ?_, ?_, ?_⟩
  · apply segments_injective
    rw [hsegments, segments_flatMap_append fun part hpart => hslash part (List.mem_append_left _ hpart),
      segments_append_flatMap hname.noSlash fun part hpart =>
        hslash part (List.mem_append_right _ (List.mem_cons_of_mem name hpart))]
  · cases before with
    | nil => exact Or.inl rfl
    | cons last before =>
        refine Or.inr ((endsInSlash_iff _).mpr ⟨before.reverse.flatMap (· ++ [slash]) ++ last, ?_⟩)
        simp
  · intro part hpart
    have hpart := hsilent part (List.mem_reverse.mp hpart)
    by_contra hnamed
    rw [not_or] at hnamed
    simp [hnamed.1, hnamed.2] at hpart

theorem endsIn_iff (p : Path) (name : List UInt8) : p.EndsIn name ↔ p.components.getLast? = some name :=
  ⟨EndsIn.getLast?_components, endsIn_of_getLast?_components⟩

theorem fileName?_eq_some_iff (p : Path) (name : List UInt8) :
    p.fileName? = some name ↔ p.EndsIn name ∧ name ≠ [dot, dot] := by
  rw [endsIn_iff, fileName?]
  cases p.components.getLast? with
  | none => simp
  | some last =>
      simp only [Option.some.injEq]
      split_ifs with hdots
      · refine iff_of_false (fun h => nomatch h) ?_
        rintro ⟨rfl, hname⟩
        exact hname hdots
      · rw [Option.some.injEq]
        refine ⟨?_, fun h => h.1⟩
        rintro rfl
        exact ⟨rfl, hdots⟩

/-- The extension begins behind the last dot, in front of which something stands. -/
theorem extensionOf?_eq_some_iff (name ext : List UInt8) :
    extensionOf? name = some ext ↔ ∃ stem, stem ≠ [] ∧ name = stem ++ dot :: ext ∧ dot ∉ ext := by
  have hsplit := List.takeWhile_append_dropWhile (p := (· != dot)) (l := name.reverse)
  constructor
  · intro h
    unfold extensionOf? at h
    split at h
    next d b more hdrop =>
      cases h
      have hd : d = dot := by
        have hhead := List.head?_dropWhile_not (fun b => b != dot) name.reverse
        rw [hdrop] at hhead
        simpa using hhead
      refine ⟨(b :: more).reverse, by simp, ?_, ?_⟩
      · rw [hdrop, hd] at hsplit
        have hname := congrArg List.reverse hsplit
        rw [List.reverse_reverse] at hname
        exact hname.symm.trans (by simp)
      · intro hmem
        have hkept := List.mem_takeWhile_imp (List.mem_reverse.mp hmem)
        simp at hkept
    next => cases h
  · rintro ⟨stem, hstem, rfl, hdot⟩
    have hkept : ∀ b ∈ ext.reverse, (b != dot) = true := by
      intro b hb
      rw [bne_iff_ne]
      rintro rfl
      exact hdot (List.mem_reverse.mp hb)
    have hreverse : (stem ++ dot :: ext).reverse = ext.reverse ++ dot :: stem.reverse := by simp
    obtain ⟨b, more, hcons⟩ := List.exists_cons_of_ne_nil (List.reverse_ne_nil_iff.mpr hstem)
    rw [extensionOf?, hreverse, List.dropWhile_append_of_pos hkept, List.takeWhile_append_of_pos hkept, hcons]
    simp

theorem extension?_eq_some_iff (p : Path) (ext : List UInt8) :
    p.extension? = some ext ↔
      ∃ stem, stem ≠ [] ∧ dot ∉ ext ∧ stem ++ dot :: ext ≠ [dot, dot] ∧ p.EndsIn (stem ++ dot :: ext) := by
  simp only [extension?, Option.bind_eq_some_iff, fileName?_eq_some_iff, extensionOf?_eq_some_iff]
  constructor
  · rintro ⟨name, ⟨hends, hdots⟩, stem, hstem, rfl, hext⟩
    exact ⟨stem, hstem, hext, hdots, hends⟩
  · rintro ⟨stem, hstem, hext, hdots, hends⟩
    exact ⟨_, ⟨hends, hdots⟩, stem, hstem, rfl, hext⟩

/-- An absolute form ends in the last component of the path, if that has one. -/
theorem IsWorkingDir.extension?_absolute {d p : Path} (h : d.IsWorkingDir) (hp : p.components ≠ []) :
    (absolute d p).extension? = p.extension? := by
  rw [extension?, extension?, fileName?, fileName?, h.components_absolute, names, List.getLast?_append_of_ne_nil _ hp]

end Path

namespace Validation

/-- **The extension of a path is that of the file.** A path is accepted if and only if it ends in a component, slashes
and `.` behind it left aside, that is not `..` and in which something stands before the last dot and one of the allowed
extensions behind it, letter for letter. Resolving a path that names something does not change the answer, and the
path that a template is loaded from is the resolved one. -/
theorem fileExtension_resolved (field : String) (p : Path) (allowed : List String) :
    (fileExtension field p allowed = .ok () ↔
      ∃ stem, stem ≠ [] ∧ ∃ ext ∈ allowed, Path.dot ∉ Utf8.encode ext.toList ∧
        stem ++ Path.dot :: Utf8.encode ext.toList ≠ [Path.dot, Path.dot] ∧
        p.EndsIn (stem ++ Path.dot :: Utf8.encode ext.toList)) ∧
    ∀ d : Path, d.IsWorkingDir → p.Usable → p.components ≠ [] →
      ∃ r, Template.resolve d p = .ok r ∧
        (∀ files t, Template.load d files p = .ok t → t.path = r) ∧
        (fileExtension field r allowed = .ok () ↔ fileExtension field p allowed = .ok ()) := by
  constructor
  · simp only [fileExtension_eq_ok_iff, Path.extension?_eq_some_iff]
    constructor
    · rintro ⟨ext, hmem, stem, hstem, hext, hdots, hends⟩
      exact ⟨stem, hstem, ext, hmem, hext, hdots, hends⟩
    · rintro ⟨stem, hstem, ext, hmem, hext, hdots, hends⟩
      exact ⟨ext, hmem, stem, hstem, hext, hdots, hends⟩
  · intro d hd hp hnames
    refine ⟨_, Template.resolve_of_usable hp d, fun files t hload => ?_, ?_⟩
    · rw [Template.load_of_usable hp] at hload
      split at hload
      · cases hload
      · cases hload
        rfl
    · simp only [fileExtension_eq_ok_iff, hd.extension?_absolute hnames]

/-- Two dots in the name, `..` before it and dots and slashes behind it, in a directory with an extension. -/
theorem fileExtension_resolved_dotted :
    let d := Path.ofString "/srv/y.txt"
    let p := Path.ofString "./x/../b.old.mjml//./"
    d.IsWorkingDir ∧ p.Usable ∧ p.components ≠ [] ∧ fileExtension "input" p ["mjml"] = .ok () ∧
      p.EndsIn (Utf8.encode "b.old.mjml".toList) ∧
      ∃ r, Template.resolve d p = .ok r ∧ r = Path.ofString "/srv/y.txt/x/../b.old.mjml/" ∧
        fileExtension "input" r ["mjml"] = .ok () := by
  intro d p
  have hd : d.IsWorkingDir := ⟨⟨Utf8.encode "srv/y.txt".toList, by decide, Or.inr (by decide)⟩, by decide⟩
  have hp : p.Usable := ⟨by decide, by decide⟩
  have hnames : p.components ≠ [] := by decide
  have hends : p.EndsIn (Utf8.encode "b.old.mjml".toList) := (Path.endsIn_iff p _).mpr (by decide)
  obtain ⟨haccepts, hresolved⟩ := fileExtension_resolved "input" p ["mjml"]
  have haccepted : fileExtension "input" p ["mjml"] = .ok () :=
    haccepts.mpr ⟨Utf8.encode "b.old".toList, by decide, "mjml", List.mem_singleton_self _, by decide, by decide, hends⟩
  obtain ⟨r, hr, -, hsame⟩ := hresolved d hd hp hnames
  refine ⟨hd, hp, hnames, haccepted, hends, r, hr, ?_, hsame.mpr haccepted⟩
  rw [Template.resolve_of_usable hp, Except.ok.injEq] at hr
  rw [← hr]
  decide

-- a path that names nothing resolves to the directory, which may have an extension of its own
example :
    let d := Path.ofString "/srv/x.mjml"
    let p := Path.ofString "./"
    p.extension? = none ∧ (Path.absolute d p).extension? = some (Utf8.encode "mjml".toList) := by
  decide

end Validation

end TemplateTiming
