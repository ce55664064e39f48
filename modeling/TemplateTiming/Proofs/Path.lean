import Mathlib.Data.List.Basic
import Mathlib.Tactic.SplitIfs
import TemplateTiming.Path

/-! Paths and their segments. The segments say everything about a path, so two paths are compared by them. Going down
by names adds segments at the end; a slash that was there before gives way to the next name. -/

namespace TemplateTiming.Path

theorem segments_eq_splitOn (octets : List UInt8) : segments octets = octets.splitOn slash := by
  rw [List.splitOn_eq_splitOnP]
  induction octets with
  | nil => rfl
  | cons b rest ih =>
      rw [segments, List.splitOnP_cons_eq_if_modifyHead, ih]
      rcases hrest : List.splitOnP (· == slash) rest with _ | ⟨first, more⟩
      · exact absurd hrest (List.splitOnP_ne_nil _ _)
      · simp only [beq_iff_eq, List.modifyHead_cons]

theorem segments_ne_nil (octets : List UInt8) : segments octets ≠ [] := by
  rw [segments_eq_splitOn]
  exact List.splitOn_ne_nil slash octets

theorem segments_append_slash (front back : List UInt8) :
    segments (front ++ slash :: back) = segments front ++ segments back := by
  simp only [segments_eq_splitOn, List.splitOn_eq_splitOnP]
  exact List.splitOnP_append_cons front back (beq_self_eq_true slash)

theorem segments_of_noSlash {part : List UInt8} (h : slash ∉ part) : segments part = [part] := by
  rw [segments_eq_splitOn, List.splitOn_eq_splitOnP]
  refine List.splitOnP_eq_singleton fun b hb => ?_
  rw [beq_eq_false_iff_ne]
  rintro rfl
  exact h hb

theorem intercalate_segments (octets : List UInt8) : [slash].intercalate (segments octets) = octets := by
  rw [segments_eq_splitOn]
  exact List.intercalate_splitOn slash

theorem segments_injective {a b : List UInt8} (h : segments a = segments b) : a = b := by
  rw [← intercalate_segments a, h, intercalate_segments]

theorem eq_of_segments {p q : Path} (h : segments p.octets = segments q.octets) : p = q :=
  congrArg Path.mk (segments_injective h)

theorem slash_not_mem_of_mem_segments {octets part : List UInt8} (h : part ∈ segments octets) : slash ∉ part := by
  induction octets generalizing part with
  | nil =>
      rw [segments, List.mem_singleton] at h
      rw [h]
      exact List.not_mem_nil
  | cons b rest ih =>
      rw [segments] at h
      rcases hrest : segments rest with _ | ⟨first, more⟩
      · exact absurd hrest (segments_ne_nil rest)
      rw [hrest] at h ih
      simp only at h
      split_ifs at h with hb
      · rcases List.mem_cons.mp h with rfl | h
        · exact List.not_mem_nil
        · exact ih h
      · rcases List.mem_cons.mp h with rfl | h
        · rw [List.mem_cons, not_or]
          exact ⟨fun heq => hb heq.symm, ih List.mem_cons_self⟩
        · exact ih (List.mem_cons_of_mem first h)

/-- The bytes of a path are its slashes and the bytes of its segments. -/
theorem mem_iff_of_ne_slash {octets : List UInt8} {b : UInt8} (hb : b ≠ slash) :
    b ∈ octets ↔ ∃ part ∈ segments octets, b ∈ part := by
  induction octets with
  | nil => simp [segments]
  | cons a rest ih =>
      rw [List.mem_cons, ih, segments]
      rcases hrest : segments rest with _ | ⟨first, more⟩
      · exact absurd hrest (segments_ne_nil rest)
      simp only
      split_ifs with ha
      · simp [ha, hb]
      · simp [or_assoc]

/-- A segment that names something. -/
structure IsName (part : List UInt8) : Prop where
  nonempty : part ≠ []
  notDot : part ≠ [dot]
  noSlash : slash ∉ part

theorem mem_components {p : Path} {part : List UInt8} :
    part ∈ p.components ↔ part ∈ segments p.octets ∧ part ≠ [] ∧ part ≠ [dot] := by
  simp only [components, List.mem_filter, decide_eq_true_eq]

theorem isName_of_mem_components {p : Path} {part : List UInt8} (h : part ∈ p.components) : IsName part := by
  obtain ⟨hmem, hnonempty, hdot⟩ := mem_components.mp h
  exact ⟨hnonempty, hdot, slash_not_mem_of_mem_segments hmem⟩

theorem endsInSlash_iff (octets : List UInt8) : endsInSlash octets = true ↔ ∃ front, octets = front ++ [slash] := by
  rw [endsInSlash, beq_iff_eq, List.getLast?_eq_some_iff]

theorem endsInSlash_append {front back : List UInt8} (hback : back ≠ []) :
    endsInSlash (front ++ back) = endsInSlash back := by
  rw [endsInSlash, endsInSlash, List.getLast?_append, List.getLast?_eq_some_getLast hback, Option.some_or]

theorem IsName.endsInSlash {part : List UInt8} (h : IsName part) : endsInSlash part = false := by
  rw [Bool.eq_false_iff]
  intro hends
  obtain ⟨front, rfl⟩ := (endsInSlash_iff part).mp hends
  exact h.noSlash (List.mem_append_right front (List.mem_singleton_self slash))

/-- The segments behind which the next name goes: those of the path, but for an empty one at the end. -/
def stem (octets : List UInt8) : List (List UInt8) :=
  if endsInSlash octets then (segments octets).dropLast else segments octets

theorem stem_of_endsInSlash {octets : List UInt8} (h : endsInSlash octets = true) :
    segments octets = stem octets ++ [[]] := by
  rw [stem, if_pos h]
  obtain ⟨front, rfl⟩ := (endsInSlash_iff octets).mp h
  rw [segments_append_slash, segments, List.dropLast_concat]

theorem stem_of_not_endsInSlash {octets : List UInt8} (h : endsInSlash octets = false) :
    stem octets = segments octets :=
  if_neg (Bool.eq_false_iff.mp h)

theorem segments_append_of_endsInSlash {front : List UInt8} (h : endsInSlash front = true) (rest : List UInt8) :
    segments (front ++ rest) = stem front ++ segments rest := by
  have hstem := stem_of_endsInSlash h
  obtain ⟨before, rfl⟩ := (endsInSlash_iff front).mp h
  rw [segments_append_slash, segments] at hstem
  rw [List.append_assoc, List.singleton_append, segments_append_slash, List.append_cancel_right hstem]

theorem segments_withTrailingSlash (octets : List UInt8) :
    segments (withTrailingSlash octets) = stem octets ++ [[]] := by
  unfold withTrailingSlash
  split_ifs with h
  · exact stem_of_endsInSlash h
  · rw [segments_append_slash, stem_of_not_endsInSlash (Bool.eq_false_iff.mpr h), segments]

theorem withTrailingSlash_endsInSlash (octets : List UInt8) : endsInSlash (withTrailingSlash octets) = true := by
  unfold withTrailingSlash
  split_ifs with h
  · exact h
  · exact (endsInSlash_iff _).mpr ⟨octets, rfl⟩

theorem descend_endsInSlash (base : List UInt8) {part : List UInt8} (hpart : IsName part) :
    endsInSlash (descend base part) = false := by
  rw [descend, endsInSlash_append hpart.nonempty, hpart.endsInSlash]

theorem stem_withTrailingSlash (octets : List UInt8) : stem (withTrailingSlash octets) = stem octets :=
  List.append_cancel_right ((stem_of_endsInSlash (withTrailingSlash_endsInSlash octets)).symm.trans
    (segments_withTrailingSlash octets))

theorem stem_descend (base : List UInt8) {part : List UInt8} (hpart : IsName part) :
    stem (descend base part) = stem base ++ [part] := by
  rw [stem_of_not_endsInSlash (descend_endsInSlash base hpart), descend,
    segments_append_of_endsInSlash (withTrailingSlash_endsInSlash base), stem_withTrailingSlash,
    segments_of_noSlash hpart.noSlash]

theorem stem_foldl_descend (base : List UInt8) {names : List (List UInt8)} (hnames : ∀ part ∈ names, IsName part) :
    stem (names.foldl descend base) = stem base ++ names := by
  induction names generalizing base with
  | nil => rw [List.foldl_nil, List.append_nil]
  | cons part rest ih =>
      rw [List.foldl_cons, ih _ (fun part' h => hnames part' (List.mem_cons_of_mem part h)),
        stem_descend base (hnames part List.mem_cons_self), List.append_assoc, List.singleton_append]

theorem foldl_descend_endsInSlash (base : List UInt8) {names : List (List UInt8)}
    (hnames : ∀ part ∈ names, IsName part) :
    endsInSlash (names.foldl descend base) = true ↔ names = [] ∧ endsInSlash base = true := by
  rcases List.eq_nil_or_concat names with rfl | ⟨front, last, rfl⟩
  · simp
  · rw [List.concat_eq_append] at hnames ⊢
    have hlast := hnames last (List.mem_append_right front (List.mem_singleton_self last))
    rw [List.foldl_append, List.foldl_cons, List.foldl_nil, descend_endsInSlash _ hlast]
    simp

end TemplateTiming.Path
