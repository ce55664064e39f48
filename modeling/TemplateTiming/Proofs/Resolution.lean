import TemplateTiming.Proofs.Delivery
import TemplateTiming.Proofs.Path

/-! Absolute paths. What a path resolves to is told by its segments: the root, the names on the way to the working
directory if the path starts there, the path's own names, and an empty segment at the end where a slash stands. Such
a path resolves to itself, in any working directory. -/

namespace TemplateTiming

namespace Path

def leadingSlashes (octets : List UInt8) : Nat := (octets.takeWhile (· == slash)).length

/-- The empty segments at the front of an absolute form: exactly two leading slashes are kept, others are one. -/
def root (octets : List UInt8) : List (List UInt8) := if leadingSlashes octets = 2 then [[], []] else [[]]

/-- A directory's path as the system gives it: from the root and without anything that says nothing. -/
structure IsWorkingDir (d : Path) : Prop where
  /-- One slash stands in front. Behind it there is nothing, or names with one slash between any two. -/
  normal : ∃ rest, d.octets = slash :: rest ∧ (rest = [] ∨ ∀ part ∈ segments rest, part ≠ [] ∧ part ≠ [dot])
  noNul : 0 ∉ d.octets

/-- The names on the way from the root to what `p` means in `workingDir`. -/
def names (workingDir p : Path) : List (List UInt8) :=
  (if p.isAbsolute then [] else workingDir.components) ++ p.components

/-- What an absolute form has at its end: an empty segment behind a slash. -/
def ending (workingDir p : Path) : List (List UInt8) :=
  if endsInSlash p.octets = true ∨ names workingDir p = [] then [[]] else []

theorem isAbsolute_iff (p : Path) : p.isAbsolute = true ↔ ∃ rest, p.octets = slash :: rest := by
  rw [isAbsolute, beq_iff_eq, List.head?_eq_some_iff]

theorem origin_eq (workingDir p : Path) :
    origin workingDir p =
      if p.isAbsolute then (if leadingSlashes p.octets = 2 then [slash, slash] else [slash])
      else workingDir.octets := by
  obtain ⟨octets⟩ := p
  match octets with
  | [] => rfl
  | [a] => by_cases ha : a = slash <;> simp [origin, isAbsolute, leadingSlashes, ha]
  | [a, b] =>
      by_cases ha : a = slash <;> by_cases hb : b = slash <;> simp [origin, isAbsolute, leadingSlashes, ha, hb]
  | a :: b :: c :: rest =>
      by_cases ha : a = slash <;> by_cases hb : b = slash <;> by_cases hc : c = slash <;>
        simp [origin, isAbsolute, leadingSlashes, ha, hb, hc]

theorem leadingSlashes_cons_slash (rest : List UInt8) :
    leadingSlashes (slash :: rest) = leadingSlashes rest + 1 := by
  simp [leadingSlashes]

theorem leadingSlashes_of_head_ne {octets : List UInt8} (h : octets.head? ≠ some slash) :
    leadingSlashes octets = 0 := by
  cases octets with
  | nil => rfl
  | cons a rest =>
      have ha : a ≠ slash := fun heq => h (congrArg some heq)
      simp [leadingSlashes, ha]

theorem root_of_relative {p : Path} (h : p.isAbsolute = false) : root p.octets = [[]] := by
  have hhead : p.octets.head? ≠ some slash := by simpa only [isAbsolute, beq_eq_false_iff_ne] using h
  rw [root, leadingSlashes_of_head_ne hhead, if_neg (by decide)]

theorem eq_nil_of_mem_root {octets part : List UInt8} (h : part ∈ root octets) : part = [] := by
  unfold root at h
  split_ifs at h
  · simpa using h
  · simpa using h

theorem eq_nil_of_mem_ending {d p : Path} {part : List UInt8} (h : part ∈ ending d p) : part = [] := by
  unfold ending at h
  split_ifs at h
  · simpa using h
  · cases h

theorem isName_of_mem_names {workingDir p : Path} {part : List UInt8} (h : part ∈ names workingDir p) :
    IsName part := by
  rcases List.mem_append.mp h with h | h
  · split_ifs at h
    · cases h
    · exact isName_of_mem_components h
  · exact isName_of_mem_components h

namespace IsWorkingDir

variable {d : Path}

/-- The root is the one directory whose path ends in a slash. -/
theorem stem_eq (h : d.IsWorkingDir) :
    stem d.octets = [] :: d.components ∧ (endsInSlash d.octets = true ↔ d.components = []) := by
  obtain ⟨rest, hrest, hnames⟩ := h.normal
  have hsegments : segments d.octets = [] :: segments rest := by
    rw [hrest, ← List.nil_append (slash :: rest), segments_append_slash]
    rfl
  rcases hnames with rfl | hnames
  · have hcomponents : d.components = [] := by
      rw [components, hsegments]
      rfl
    rw [hcomponents, hrest]
    exact ⟨rfl, iff_of_true rfl rfl⟩
  · have hcomponents : d.components = segments rest := by
      rw [components, hsegments, List.filter_cons_of_neg (by simp), List.filter_eq_self]
      intro part hpart
      exact decide_eq_true (hnames part hpart)
    have hends : endsInSlash d.octets = false := by
      rw [Bool.eq_false_iff]
      intro hends
      have hlast := congrArg List.getLast? (hsegments.symm.trans (stem_of_endsInSlash hends))
      rw [List.getLast?_concat, List.getLast?_cons_of_ne_nil (segments_ne_nil rest)] at hlast
      exact (hnames [] (List.mem_of_getLast? hlast)).1 rfl
    rw [stem_of_not_endsInSlash hends, hends, hcomponents]
    exact ⟨hsegments, iff_of_false Bool.false_ne_true (segments_ne_nil rest)⟩

theorem stem_origin (h : d.IsWorkingDir) (p : Path) :
    stem (origin d p) = root p.octets ++ (if p.isAbsolute then [] else d.components) := by
  rw [origin_eq]
  cases habsolute : p.isAbsolute with
  | true =>
      simp only [if_true, root]
      split_ifs <;> rfl
  | false =>
      rw [root_of_relative habsolute]
      exact h.stem_eq.1

theorem origin_endsInSlash (h : d.IsWorkingDir) (p : Path) :
    endsInSlash (origin d p) = true ↔ (if p.isAbsolute then [] else d.components) = [] := by
  rw [origin_eq]
  cases p.isAbsolute with
  | true =>
      simp only [if_true]
      split_ifs <;> exact iff_of_true rfl trivial
  | false => exact h.stem_eq.2

/-- Following the names of a path ends at a slash only if there are none on the whole way from the root. -/
theorem joined_endsInSlash (h : d.IsWorkingDir) (p : Path) :
    endsInSlash (p.components.foldl descend (origin d p)) = true ↔ names d p = [] := by
  rw [foldl_descend_endsInSlash _ fun _ => isName_of_mem_components, h.origin_endsInSlash, names,
    List.append_eq_nil_iff, and_comm]

/-- An absolute form ends in a slash if the path does, and at the root. -/
theorem absolute_endsInSlash (h : d.IsWorkingDir) (p : Path) :
    endsInSlash (absolute d p).octets = true ↔ endsInSlash p.octets = true ∨ names d p = [] := by
  unfold absolute
  by_cases hslash : endsInSlash p.octets = true
  · simp only [if_pos hslash]
    exact iff_of_true (withTrailingSlash_endsInSlash _) (Or.inl hslash)
  · simp only [if_neg hslash]
    rw [h.joined_endsInSlash, or_iff_right hslash]

/-- What an absolute form consists of. -/
theorem segments_absolute (h : d.IsWorkingDir) (p : Path) :
    segments (absolute d p).octets = root p.octets ++ names d p ++ ending d p := by
  have hstem : stem (p.components.foldl descend (origin d p)) = root p.octets ++ names d p := by
    rw [stem_foldl_descend _ fun _ => isName_of_mem_components, h.stem_origin, names, List.append_assoc]
  unfold absolute ending
  by_cases hslash : endsInSlash p.octets = true
  · simp only [if_pos hslash, if_pos (Or.inl hslash), segments_withTrailingSlash, hstem]
  · simp only [if_neg hslash]
    by_cases hnames : names d p = []
    · rw [if_pos (Or.inr hnames), stem_of_endsInSlash ((h.joined_endsInSlash p).mpr hnames), hstem]
    · rw [if_neg (not_or_intro hslash hnames), List.append_nil, ← hstem,
        stem_of_not_endsInSlash (Bool.eq_false_iff.mpr (mt (h.joined_endsInSlash p).mp hnames))]

theorem tail_ne_nil (d p : Path) : names d p ++ ending d p ≠ [] := by
  intro h
  obtain ⟨hnames, hending⟩ := List.append_eq_nil_iff.mp h
  rw [ending, if_pos (Or.inr hnames)] at hending
  cases hending

theorem tail_head_ne (d p : Path) : ([slash].intercalate (names d p ++ ending d p)).head? ≠ some slash := by
  rcases hnames : names d p with _ | ⟨name, more⟩
  · rw [ending, if_pos (Or.inr hnames)]
    exact fun h => nomatch h
  · have hname : IsName name := isName_of_mem_names (hnames ▸ List.mem_cons_self)
    rcases name with _ | ⟨b, name⟩
    · exact absurd rfl hname.nonempty
    · have hb : b ≠ slash := fun heq => hname.noSlash (heq ▸ List.mem_cons_self)
      rcases more ++ ending d p with _ | ⟨next, more'⟩ <;> simp [hb]

theorem absolute_octets (h : d.IsWorkingDir) (p : Path) :
    (absolute d p).octets =
      (if leadingSlashes p.octets = 2 then [slash, slash] else [slash]) ++
        [slash].intercalate (names d p ++ ending d p) := by
  obtain ⟨next, more, hcons⟩ := List.exists_cons_of_ne_nil (tail_ne_nil d p)
  rw [← intercalate_segments (absolute d p).octets, h.segments_absolute, List.append_assoc, root, hcons]
  split_ifs
  · simp only [List.cons_append, List.nil_append, List.intercalate_cons_cons]
  · simp only [List.cons_append, List.nil_append, List.intercalate_cons_cons]

theorem isAbsolute_absolute (h : d.IsWorkingDir) (p : Path) : (absolute d p).isAbsolute = true := by
  rw [isAbsolute_iff, h.absolute_octets]
  split_ifs
  · exact ⟨slash :: _, rfl⟩
  · exact ⟨_, rfl⟩

theorem root_absolute (h : d.IsWorkingDir) (p : Path) : root (absolute d p).octets = root p.octets := by
  have hnone := leadingSlashes_of_head_ne (tail_head_ne d p)
  rw [root, root, h.absolute_octets]
  by_cases htwo : leadingSlashes p.octets = 2
  · rw [if_pos htwo, if_pos htwo, if_pos]
    simp only [List.cons_append, List.nil_append, leadingSlashes_cons_slash, hnone]
  · rw [if_neg htwo, if_neg htwo, if_neg]
    simp only [List.cons_append, List.nil_append, leadingSlashes_cons_slash, hnone]
    decide

theorem components_absolute (h : d.IsWorkingDir) (p : Path) : (absolute d p).components = names d p := by
  have hroot : (root p.octets).filter (fun part => part ≠ [] ∧ part ≠ [dot]) = [] :=
    List.filter_eq_nil_iff.mpr fun part hpart => by simp [eq_nil_of_mem_root hpart]
  have hending : (ending d p).filter (fun part => part ≠ [] ∧ part ≠ [dot]) = [] :=
    List.filter_eq_nil_iff.mpr fun part hpart => by simp [eq_nil_of_mem_ending hpart]
  have hnames : (names d p).filter (fun part => part ≠ [] ∧ part ≠ [dot]) = names d p := by
    refine List.filter_eq_self.mpr fun part hpart => ?_
    have hname := isName_of_mem_names hpart
    exact decide_eq_true ⟨hname.nonempty, hname.notDot⟩
  rw [components, h.segments_absolute, List.filter_append, List.filter_append, hroot, hending, hnames,
    List.nil_append, List.append_nil]

theorem names_absolute (h : d.IsWorkingDir) (d' p : Path) : names d' (absolute d p) = names d p := by
  rw [names, if_pos (h.isAbsolute_absolute p), List.nil_append, h.components_absolute]

theorem ending_absolute (h : d.IsWorkingDir) (d' p : Path) : ending d' (absolute d p) = ending d p := by
  simp only [ending, h.names_absolute, h.absolute_endsInSlash, or_assoc, or_self]

/-- An absolute form is its own absolute form, wherever it is looked at. -/
theorem absolute_absolute (h : d.IsWorkingDir) {d' : Path} (h' : d'.IsWorkingDir) (p : Path) :
    absolute d' (absolute d p) = absolute d p := by
  apply eq_of_segments
  rw [h'.segments_absolute, h.segments_absolute, h.root_absolute, h.names_absolute, h.ending_absolute]

/-- A relative path means the same as the path that begins with its directory. -/
theorem absolute_joined (h : d.IsWorkingDir) (hroot : d.octets ≠ [slash]) {p : Path} (hp : p.octets ≠ [])
    (hrelative : p.isAbsolute = false) : absolute d ⟨d.octets ++ [slash] ++ p.octets⟩ = absolute d p := by
  obtain ⟨rest, hrest, hnames⟩ := h.normal
  have hjoined : d.octets ++ [slash] ++ p.octets = d.octets ++ slash :: p.octets := by
    rw [List.append_assoc, List.singleton_append]
  have habsolute : (Path.mk (d.octets ++ [slash] ++ p.octets)).isAbsolute = true :=
    (isAbsolute_iff _).mpr ⟨rest ++ [slash] ++ p.octets, by rw [hrest]; rfl⟩
  have hone : root (d.octets ++ [slash] ++ p.octets) = root p.octets := by
    have hhead : (rest ++ [slash] ++ p.octets).head? ≠ some slash := by
      rcases hnames with rfl | hnames
      · exact absurd hrest hroot
      rcases rest with _ | ⟨b, more⟩
      · exact absurd hrest hroot
      · intro hb
        obtain rfl : b = slash := Option.some.inj hb
        have hempty : [] ∈ segments (slash :: more) := by
          rw [← List.nil_append (slash :: more), segments_append_slash]
          exact List.mem_append_left _ (List.mem_singleton_self [])
        exact (hnames [] hempty).1 rfl
    rw [root_of_relative hrelative, root, hrest, List.cons_append, List.cons_append, leadingSlashes_cons_slash,
      leadingSlashes_of_head_ne hhead, if_neg (by decide)]
  have hsame : names d ⟨d.octets ++ [slash] ++ p.octets⟩ = names d p := by
    rw [names, names, if_pos habsolute, hrelative, components, hjoined, segments_append_slash, List.filter_append]
    rfl
  apply eq_of_segments
  rw [h.segments_absolute, h.segments_absolute, hone, ending, hsame, endsInSlash_append hp, ending]

theorem absolute_usable (h : d.IsWorkingDir) {p : Path} (hp : p.Usable) : (absolute d p).Usable := by
  constructor
  · obtain ⟨rest, hrest⟩ := (isAbsolute_iff _).mp (h.isAbsolute_absolute p)
    rw [hrest]
    exact List.cons_ne_nil slash rest
  · have hnul : (0 : UInt8) ≠ slash := by decide
    rw [mem_iff_of_ne_slash hnul, h.segments_absolute]
    rintro ⟨part, hpart, hmem⟩
    rcases List.mem_append.mp hpart with hpart | hpart
    · rcases List.mem_append.mp hpart with hpart | hpart
      · rw [eq_nil_of_mem_root hpart] at hmem
        cases hmem
      · rcases List.mem_append.mp hpart with hpart | hpart
        · split_ifs at hpart
          · cases hpart
          · exact h.noNul ((mem_iff_of_ne_slash hnul).mpr ⟨part, (mem_components.mp hpart).1, hmem⟩)
        · exact hp.2 ((mem_iff_of_ne_slash hnul).mpr ⟨part, (mem_components.mp hpart).1, hmem⟩)
    · rw [eq_nil_of_mem_ending hpart] at hmem
      cases hmem

end IsWorkingDir

theorem intercalate_concat_nil {parts : List (List UInt8)} (h : parts ≠ []) :
    [slash].intercalate (parts ++ [[]]) = [slash].intercalate parts ++ [slash] := by
  induction parts with
  | nil => exact absurd rfl h
  | cons part rest ih =>
      rcases rest with _ | ⟨next, more⟩
      · simp
      · rw [List.cons_append, List.cons_append, List.intercalate_cons_cons, List.intercalate_cons_cons,
          ← List.cons_append, ih (List.cons_ne_nil next more), ← List.append_assoc]

theorem intercalate_ending (d p : Path) :
    [slash].intercalate (names d p ++ ending d p) =
      [slash].intercalate (names d p) ++ (if endsInSlash p.octets = true ∧ names d p ≠ [] then [slash] else []) := by
  by_cases hnames : names d p = []
  · rw [if_neg (fun hboth => hboth.2 hnames), ending, if_pos (Or.inr hnames), hnames]
    rfl
  by_cases hslash : endsInSlash p.octets = true
  · rw [if_pos ⟨hslash, hnames⟩, ending, if_pos (Or.inl hslash), intercalate_concat_nil hnames]
  · rw [if_neg (fun hboth => hslash hboth.1), ending, if_neg (not_or_intro hslash hnames), List.append_nil,
      List.append_nil]

/-- What the path `p` resolves to in the directory `d`: the root, the names with one slash between any two, and a
slash at the end if `p` ends in one and there is a name. -/
structure Resolved (d p r : Path) : Prop where
  octets : r.octets =
    (if leadingSlashes p.octets = 2 then [slash, slash] else [slash]) ++ [slash].intercalate (names d p) ++
      (if endsInSlash p.octets = true ∧ names d p ≠ [] then [slash] else [])
  names : ∀ part ∈ names d p, IsName part
  components : r.components = (if p.isAbsolute then [] else d.components) ++ p.components
  noDot : [dot] ∉ segments r.octets

theorem IsWorkingDir.resolved {d : Path} (h : d.IsWorkingDir) (p : Path) : Resolved d p (absolute d p) where
  octets := by rw [h.absolute_octets, List.append_assoc, intercalate_ending]
  names := fun _ => isName_of_mem_names
  components := h.components_absolute p
  noDot := by
    rw [h.segments_absolute, List.mem_append, List.mem_append]
    rintro ((hmem | hmem) | hmem)
    · cases eq_nil_of_mem_root hmem
    · exact (isName_of_mem_names hmem).notDot rfl
    · cases eq_nil_of_mem_ending hmem

example : absolute (ofString "/srv/x") (ofString "./..//a/./b/") = ofString "/srv/x/../a/b/" := by decide

end Path

namespace Template

/-- **Resolving gives a normal form.** A path that the system can be given always resolves, without a look at any file.
What it resolves to begins at the root, has no `.` and no empty component but for the slashes that say something, and
keeps the components of the path in order, `..` included, behind the directory if the path is relative. It resolves
to itself; a relative path resolves as it does with its directory in front, the root excepted, which would give it a
second slash; and other paths are refused by the name of their field. -/
theorem resolve_normal_form (d p : Path) :
    (d.IsWorkingDir → p.Usable → ∃ r, resolve d p = .ok r ∧ Path.Resolved d p r ∧
      ∀ d' : Path, d'.IsWorkingDir → resolve d' r = .ok r) ∧
    (d.IsWorkingDir → p.Usable → p.isAbsolute = false → d.octets ≠ [Path.slash] →
      resolve d p = resolve d ⟨d.octets ++ [Path.slash] ++ p.octets⟩) ∧
    (¬p.Usable → ∃ value reason, resolve d p = .error (.invalidValue "input" value reason)) := by
  refine ⟨fun hd hp => ?_, fun hd hp hrelative hroot => ?_, fun hp => ?_⟩
  · refine ⟨_, resolve_of_usable hp d, hd.resolved p, fun d' hd' => ?_⟩
    rw [resolve_of_usable (hd.absolute_usable hp), hd.absolute_absolute hd']
  · have hjoined : (Path.mk (d.octets ++ [Path.slash] ++ p.octets)).Usable := by
      refine ⟨List.append_ne_nil_of_right_ne_nil _ hp.1, fun hnul => ?_⟩
      rcases List.mem_append.mp hnul with hnul | hnul
      · rcases List.mem_append.mp hnul with hnul | hnul
        · exact hd.noNul hnul
        · exact absurd (List.mem_singleton.mp hnul) (by decide)
      · exact hp.2 hnul
    rw [resolve_of_usable hp, resolve_of_usable hjoined, hd.absolute_joined hroot hp.1 hrelative]
  · cases hcheck : Validation.path "input" p with
    | ok _ => exact absurd ((Validation.path_eq_ok_iff "input" p).mp hcheck) hp
    | error e =>
        obtain ⟨value, reason, rfl⟩ := Validation.path_refuses hcheck
        exact ⟨value, reason, by rw [resolve, hcheck]; rfl⟩

/-- Dots, doubled slashes and a slash at the end, seen from a directory below the root. -/
theorem resolve_normal_form_dotted :
    let d := Path.ofString "/srv/x"
    let p := Path.ofString "./..//a/./b/"
    let empty := Path.ofString ""
    d.IsWorkingDir ∧ p.Usable ∧ p.isAbsolute = false ∧ d.octets ≠ [Path.slash] ∧ ¬empty.Usable ∧
      (∃ r, resolve d p = .ok r ∧ Path.Resolved d p r ∧ ∀ d' : Path, d'.IsWorkingDir → resolve d' r = .ok r) ∧
      resolve d p = resolve d ⟨d.octets ++ [Path.slash] ++ p.octets⟩ ∧
      ∃ value reason, resolve d empty = .error (.invalidValue "input" value reason) := by
  intro d p empty
  have hd : d.IsWorkingDir := ⟨⟨Utf8.encode "srv/x".toList, by decide, Or.inr (by decide)⟩, by decide⟩
  have hp : p.Usable := ⟨by decide, by decide⟩
  have hrelative : p.isAbsolute = false := by decide
  have hroot : d.octets ≠ [Path.slash] := by decide
  have hempty : ¬empty.Usable := fun h => h.1 (by decide)
  obtain ⟨hresolved, hjoined, _⟩ := resolve_normal_form d p
  exact ⟨hd, hp, hrelative, hroot, hempty, hresolved hd hp, hjoined hd hp hrelative hroot,
    (resolve_normal_form d empty).2.2 hempty⟩

end Template

end TemplateTiming
