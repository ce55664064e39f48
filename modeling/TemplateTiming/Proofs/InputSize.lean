import TemplateTiming.Proofs.Batch
import TemplateTiming.Proofs.Decoding

/-! The size of a template against the size of its file. A report counts the bytes of the text, in which a broken run is
one U+FFFD of three bytes. A broken run has one byte at least and three at most, so that showing it never makes the
text shorter than the file, and at most three times as long. -/

namespace TemplateTiming

namespace Utf8

/-- How many bytes a piece is longer when it is shown. -/
def Piece.growth : Piece → Nat
  | .scalar _ => 0
  | .broken run => 3 - run.length

theorem length_encodeChar (c : Char) : (encodeChar c).length = c.utf8Size := by
  rw [encodeChar_eq, String.length_utf8EncodeChar]

theorem Piece.utf8Size_shown {p : Piece} (hp : p.Sound) : p.shown.utf8Size = p.octets.length + p.growth := by
  cases p with
  | scalar c => exact (length_encodeChar c).symm
  | broken run =>
      have hshort : run.length ≤ 3 := hp.2.1
      have hmark : Char.utf8Size '\ufffd' = 3 := by decide
      rw [shown, octets, growth, hmark]
      omega

theorem Piece.growth_le {p : Piece} (hp : p.Sound) : p.growth ≤ 2 * p.octets.length := by
  cases p with
  | scalar c => exact Nat.zero_le _
  | broken run =>
      have hpos : 0 < run.length := List.length_pos_iff.mpr hp.1
      rw [growth, octets]
      omega

theorem size_shown {ps : List Piece} (hps : ∀ p ∈ ps, p.Sound) :
    size (ps.map Piece.shown) = (ps.flatMap Piece.octets).length + (ps.map Piece.growth).sum := by
  induction ps with
  | nil => rfl
  | cons p ps ih =>
      have hrest := ih fun q hq => hps q (List.mem_cons_of_mem p hq)
      have hsize : size ((p :: ps).map Piece.shown) = p.shown.utf8Size + size (ps.map Piece.shown) := rfl
      rw [hsize, hrest, Piece.utf8Size_shown (hps p List.mem_cons_self), List.flatMap_cons, List.length_append,
        List.map_cons, List.sum_cons]
      omega

theorem growth_sum_le {ps : List Piece} (hps : ∀ p ∈ ps, p.Sound) :
    (ps.map Piece.growth).sum ≤ 2 * (ps.flatMap Piece.octets).length := by
  induction ps with
  | nil => exact Nat.zero_le _
  | cons p ps ih =>
      have hrest := ih fun q hq => hps q (List.mem_cons_of_mem p hq)
      have hfirst := Piece.growth_le (hps p List.mem_cons_self)
      rw [List.map_cons, List.sum_cons, List.flatMap_cons, List.length_append]
      omega

theorem size_lossy (octets : List UInt8) :
    size (lossy octets) = octets.length + ((pieces octets).map Piece.growth).sum := by
  rw [lossy, size_shown (pieces_sound octets), pieces_octets]

theorem growth_sum_encode (text : List Char) : ((pieces (encode text)).map Piece.growth).sum = 0 := by
  rw [pieces_encode, List.map_map]
  exact List.sum_eq_zero fun n hn => by
    obtain ⟨c, -, rfl⟩ := List.mem_map.mp hn
    rfl

example : size (lossy [0xFF, 0xF0, 0x9F, 0x98]) = 6 := by decide

end Utf8

namespace Engine

/-- A report is always about the template of its run. -/
theorem inputBytes_of_run {σ : Type} {e : Engine σ} {t : Template} {m : Measured} {r : Report}
    (h : (e.run t m).result = .ok r) : r.inputBytes = t.size := by
  rw [run_result] at h
  split at h
  · cases h
  · cases h
    rfl

end Engine

namespace Template

/-- Only a text without characters has no bytes. -/
theorem isEmpty_iff (t : Template) : t.isEmpty = true ↔ t.size = 0 := by
  unfold isEmpty size
  cases t.content.toList with
  | nil => exact iff_of_true rfl rfl
  | cons c cs =>
      have hpos : 0 < c.utf8Size := c.utf8Size_pos
      have hsize : Utf8.size (c :: cs) = c.utf8Size + Utf8.size cs := rfl
      exact iff_of_false Bool.false_ne_true (by omega)

/-- **The size in a report against the size of the file.** A file that can be read is loaded, and cut into characters
and maximal subparts in the one way there is. Its size grows by what each subpart lacks of three bytes, of which it
has between one and three; so it is at most three times that of the file, and the same if the file is well-formed, and
only an empty file makes an empty template. Every report on the template gives that size. -/
theorem size_of_loaded {p : Path} (hp : p.Usable) {workingDir : Path} {files : Path → Except IoError (List UInt8)}
    {octets : List UInt8} (hread : files (Path.absolute workingDir p) = .ok octets) :
    ∃ t ps, load workingDir files p = .ok t ∧ (∀ qs, Utf8.Cut octets qs ↔ qs = ps) ∧
      (∀ run, Utf8.Piece.broken run ∈ ps → 1 ≤ run.length ∧ run.length ≤ 3) ∧
      t.size = octets.length + (ps.map Utf8.Piece.growth).sum ∧
      octets.length ≤ t.size ∧ t.size ≤ 3 * octets.length ∧
      (∀ text, octets = Utf8.encode text → t.size = octets.length) ∧ (t.isEmpty = true ↔ octets = []) ∧
      ∀ (σ : Type) (e : Engine σ) (m : Measured) (r : Report), (e.run t m).result = .ok r → r.inputBytes = t.size := by
  have hload : load workingDir files p =
      .ok ⟨Path.absolute workingDir p, String.ofList (Utf8.lossy octets)⟩ := by
    rw [load_of_usable hp, hread]
  have hsize : size ⟨Path.absolute workingDir p, String.ofList (Utf8.lossy octets)⟩ =
      octets.length + ((Utf8.pieces octets).map Utf8.Piece.growth).sum := by
    rw [size, String.toList_ofList, Utf8.size_lossy]
  have hgrowth := Utf8.growth_sum_le (Utf8.pieces_sound octets)
  rw [Utf8.pieces_octets] at hgrowth
  refine ⟨_, Utf8.pieces octets, hload, Utf8.cut_iff octets, fun run hrun => ?_, hsize, by omega, by omega,
    fun text htext => ?_, ?_, fun σ e m r hr => Engine.inputBytes_of_run hr⟩
  · obtain ⟨hnonempty, hshort, -⟩ := Utf8.pieces_sound octets _ hrun
    exact ⟨List.length_pos_iff.mpr hnonempty, hshort⟩
  · rw [hsize, htext, Utf8.growth_sum_encode, Nat.add_zero]
  · rw [isEmpty_iff, ← List.length_eq_zero_iff]
    omega

/-- A letter and broken runs of one, two and three bytes: seven bytes that make a text of ten. -/
theorem size_of_loaded_broken :
    let p := Path.ofString "a.mjml"
    let workingDir := Path.ofString "/srv"
    let octets : List UInt8 := [0x61, 0xFF, 0xE2, 0x82, 0xF0, 0x9F, 0x98]
    let files : Path → Except IoError (List UInt8) := fun _ => .ok octets
    p.Usable ∧ files (Path.absolute workingDir p) = .ok octets ∧
      ∃ t, load workingDir files p = .ok t ∧ t.size = 10 ∧
        ∀ (e : Engine Unit) (m : Measured) (r : Report), (e.run t m).result = .ok r → r.inputBytes = 10 := by
  intro p workingDir octets files
  have hp : p.Usable := ⟨by decide, by decide⟩
  have hread : files (Path.absolute workingDir p) = .ok octets := rfl
  obtain ⟨t, ps, hload, hcut, -, hsize, -, -, -, -, hreports⟩ := size_of_loaded hp hread
  have hps : ps = Utf8.pieces octets := (Utf8.cut_iff octets ps).mp ((hcut ps).mpr rfl)
  have hten : t.size = 10 := by
    rw [hsize, hps]
    decide
  refine ⟨hp, hread, t, hload, hten, fun e m r hr => ?_⟩
  rw [← hten]
  exact hreports Unit e m r hr

end Template

end TemplateTiming
