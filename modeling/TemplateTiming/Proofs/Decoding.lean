import TemplateTiming.Proofs.Delivery

/-! What decoding leaves alone. A byte that cannot continue what has been begun ends it, and the first byte of a
character never continues anything; so whole characters come out as they are, whatever is broken around them. The
broken runs are the maximal subparts: each begins a character, or is a single byte, and no longer stretch begins
one. -/

namespace TemplateTiming.Utf8

/-- The next byte of an unfinished character is a continuation byte, and one is admitted. -/
def State.Narrow : State → Prop
  | .start => True
  | .inside _ low high _ _ => 0x80 ≤ low ∧ low ≤ high ∧ high ≤ 0xBF

theorem enter_narrow (b : UInt8) : (enter b).2.Narrow := by
  rw [enter_eq]
  split_ifs <;> simp only [State.Narrow] <;> decide

theorem step_narrow {s : State} (hs : s.Narrow) (b : UInt8) : (step s b).2.Narrow := by
  cases s with
  | start => exact enter_narrow b
  | inside seen low high more bits =>
      simp only [step]
      split_ifs with hb
      · cases more with
        | zero => trivial
        | succ more => exact ⟨by decide, by decide, by decide⟩
      · exact enter_narrow b

/-- A byte that is not admitted ends what has been begun, and is then read afresh. -/
theorem run_outside {seen : List UInt8} {low high b : UInt8} {more bits : Nat} (hb : ¬(low ≤ b ∧ b ≤ high))
    (rest : List UInt8) :
    run (.inside seen low high more bits) (b :: rest) = .broken seen :: run .start (b :: rest) := by
  rw [run, step, if_neg hb]
  rfl

/-- A character does not begin with a continuation byte. -/
theorem encodeChar_head (c : Char) : ∃ b rest, encodeChar c = b :: rest ∧ (b.toNat < 0x80 ∨ 0xBF < b.toNat) := by
  obtain ⟨n, hn, rfl⟩ : ∃ n, n.isValidChar ∧ Char.ofNat n = c := ⟨c.toNat, c.valid, c.ofNat_toNat⟩
  have hvalid : n < 0xD800 ∨ 0xDFFF < n ∧ n < 0x110000 := hn
  by_cases h1 : n < 0x80
  · exact ⟨_, _, encodeChar_one h1, by rw [toNat_toUInt8 (by omega)]; omega⟩
  by_cases h2 : n < 0x800
  · exact ⟨_, _, encodeChar_two (by omega) h2, by rw [toNat_toUInt8 (by omega)]; omega⟩
  by_cases h3 : n < 0x10000
  · exact ⟨_, _, encodeChar_three (by omega) h3 (by omega), by rw [toNat_toUInt8 (by omega)]; omega⟩
  · exact ⟨_, _, encodeChar_four (by omega) (by omega), by rw [toNat_toUInt8 (by omega)]; omega⟩

theorem encodeChar_ne_nil (c : Char) : encodeChar c ≠ [] := by
  obtain ⟨b, rest, hencode, _⟩ := encodeChar_head c
  rw [hencode]
  exact List.cons_ne_nil b rest

/-- In front of a character everything that is unfinished ends. -/
theorem run_before_char {s : State} (hs : s.Narrow) (c : Char) (rest : List UInt8) :
    run s (encodeChar c ++ rest) = finish s ++ .scalar c :: run .start rest := by
  cases s with
  | start => exact run_encodeChar c rest
  | inside seen low high more bits =>
      obtain ⟨b, more', hencode, hb⟩ := encodeChar_head c
      have hout : ¬(low ≤ b ∧ b ≤ high) := by
        rintro ⟨hlow, hhigh⟩
        have hfirst := UInt8.le_iff_toNat_le.mp (UInt8.le_trans hs.1 hlow)
        have hlast := UInt8.le_iff_toNat_le.mp (UInt8.le_trans hhigh hs.2.2)
        simp only [UInt8.reduceToNat] at hfirst hlast
        omega
      rw [← run_encodeChar c rest, hencode, List.cons_append, run_outside hout]
      rfl

theorem run_append_char {s : State} (hs : s.Narrow) (octets : List UInt8) (c : Char) (rest : List UInt8) :
    run s (octets ++ (encodeChar c ++ rest)) = run s octets ++ .scalar c :: run .start rest := by
  induction octets generalizing s with
  | nil => exact run_before_char hs c rest
  | cons b octets ih =>
      rw [List.cons_append, run, run, ih (step_narrow hs b), List.append_assoc]

theorem run_encode (text : List Char) (rest : List UInt8) :
    run .start (encode text ++ rest) = text.map .scalar ++ run .start rest := by
  induction text with
  | nil => rfl
  | cons c text ih =>
      rw [encode, List.flatMap_cons, List.append_assoc, run_encodeChar, ← encode, ih]
      rfl

/-- The pieces around a text are the pieces of the bytes before it and of those behind it. -/
theorem pieces_append_text (a b : List UInt8) {text : List Char} (htext : text ≠ []) :
    pieces (a ++ encode text ++ b) = pieces a ++ text.map .scalar ++ pieces b := by
  cases text with
  | nil => exact absurd rfl htext
  | cons c text =>
      rw [pieces, encode, List.flatMap_cons, List.append_assoc, List.append_assoc,
        run_append_char (s := .start) trivial, ← encode, run_encode, List.map_cons, List.append_assoc]
      rfl

theorem lossy_append_text (a b : List UInt8) {text : List Char} (htext : text ≠ []) :
    lossy (a ++ encode text ++ b) = lossy a ++ text ++ lossy b := by
  simp only [lossy, pieces_append_text a b htext, List.map_append, List.map_map]
  rw [show text.map (Piece.shown ∘ .scalar) = text from List.map_id text]

-- with no character between them the two sides can complete each other
example : lossy ([0xC3] ++ [0xA9]) = ['é'] ∧ lossy [0xC3] ++ lossy [0xA9] = ['\ufffd', '\ufffd'] := by decide

/-- Some character's encoding begins with these bytes. -/
def Begins (octets : List UInt8) : Prop := ∃ c, octets <+: encodeChar c

/-- The broken run at the front of `run ++ rest`: no character stands there; `run` begins one or is a single byte,
and no longer stretch begins one. -/
structure MaximalSubpart (run rest : List UInt8) : Prop where
  nonempty : run ≠ []
  begins : Begins run ∨ run.length = 1
  noChar : ∀ c, ¬ encodeChar c <+: run ++ rest
  longest : ∀ longer, longer <+: run ++ rest → run.length < longer.length → ¬ Begins longer

/-- Bytes cut into characters and maximal subparts. -/
inductive Cut : List UInt8 → List Piece → Prop where
  | nil : Cut [] []
  | scalar (c : Char) {rest : List UInt8} {ps : List Piece} (behind : Cut rest ps) :
      Cut (encodeChar c ++ rest) (.scalar c :: ps)
  | broken {run rest : List UInt8} {ps : List Piece} (subpart : MaximalSubpart run rest) (behind : Cut rest ps) :
      Cut (run ++ rest) (.broken run :: ps)

theorem pieces_encodeChar (c : Char) (rest : List UInt8) :
    pieces (encodeChar c ++ rest) = .scalar c :: pieces rest :=
  run_encodeChar c rest

theorem encodeChar_prefix_free {c d : Char} {rest rest' : List UInt8}
    (h : encodeChar c ++ rest = encodeChar d ++ rest') : c = d ∧ rest = rest' := by
  have hpieces := congrArg pieces h
  rw [pieces_encodeChar, pieces_encodeChar, List.cons.injEq, Piece.scalar.injEq] at hpieces
  obtain rfl := hpieces.1
  exact ⟨rfl, List.append_cancel_left h⟩

theorem MaximalSubpart.length_le {run rest run' rest' : List UInt8} (h : MaximalSubpart run rest)
    (h' : MaximalSubpart run' rest') (heq : run ++ rest = run' ++ rest') : run'.length ≤ run.length := by
  by_contra hlonger
  have hpos := List.length_pos_iff.mpr h.nonempty
  rcases h'.begins with hbegins | hsingle
  · exact h.longest run' (heq ▸ List.prefix_append run' rest') (Nat.not_le.mp hlonger) hbegins
  · omega

theorem Cut.unique {octets : List UInt8} {ps qs : List Piece} (h : Cut octets ps) (h' : Cut octets qs) :
    ps = qs := by
  induction h generalizing qs with
  | nil =>
      generalize hempty : ([] : List UInt8) = octets at h'
      cases h' with
      | nil => rfl
      | scalar c behind => exact absurd (List.append_eq_nil_iff.mp hempty.symm).1 (encodeChar_ne_nil c)
      | broken subpart behind => exact absurd (List.append_eq_nil_iff.mp hempty.symm).1 subpart.nonempty
  | @scalar c rest ps behind ih =>
      generalize hoctets : encodeChar c ++ rest = octets at h'
      cases h' with
      | nil => exact absurd (List.append_eq_nil_iff.mp hoctets).1 (encodeChar_ne_nil c)
      | scalar d behind' =>
          obtain ⟨rfl, rfl⟩ := encodeChar_prefix_free hoctets
          rw [ih behind']
      | broken subpart behind' => exact absurd (hoctets ▸ List.prefix_append _ _) (subpart.noChar c)
  | @broken run rest ps subpart behind ih =>
      generalize hoctets : run ++ rest = octets at h'
      cases h' with
      | nil => exact absurd (List.append_eq_nil_iff.mp hoctets).1 subpart.nonempty
      | scalar c behind' => exact absurd (hoctets ▸ List.prefix_append _ _) (subpart.noChar c)
      | broken subpart' behind' =>
          have hlength := Nat.le_antisymm (subpart'.length_le subpart hoctets.symm)
            (subpart.length_le subpart' hoctets)
          obtain ⟨rfl, rfl⟩ := List.append_inj hoctets hlength
          rw [ih behind']

/-- What the automaton keeps begins a character. -/
theorem begins_of_completes {more : Nat} {seen : List UInt8} {low high : UInt8} {bits : Nat}
    (h : Completes more seen low high bits) (hrange : low ≤ high) : Begins seen := by
  induction more generalizing seen low high bits with
  | zero => exact ⟨_, (h low (UInt8.le_refl low) hrange) ▸ List.prefix_append seen [low]⟩
  | succ more ih =>
      obtain ⟨c, hc⟩ := ih (h low (UInt8.le_refl low) hrange) (by decide)
      exact ⟨c, (List.prefix_append seen [low]).trans hc⟩

/-- A run is a maximal subpart if the automaton breaks it off for the sake of the byte behind it. -/
theorem maximalSubpart_of_pieces {run rest : List UInt8} (hnonempty : run ≠ [])
    (hbegins : Begins run ∨ run.length = 1)
    (hbreaks : ∀ behind : List UInt8, behind.head? = rest.head? →
      ∃ ps, pieces (run ++ behind) = .broken run :: ps) : MaximalSubpart run rest where
  nonempty := hnonempty
  begins := hbegins
  noChar := by
    rintro c ⟨behind, hc⟩
    obtain ⟨ps, hps⟩ := hbreaks rest rfl
    rw [← hc, pieces_encodeChar] at hps
    cases hps
  longest := by
    rintro longer ⟨behind, hlonger⟩ hlength ⟨c, ⟨missing, hc⟩⟩
    obtain ⟨more, rfl⟩ : run <+: longer :=
      List.prefix_of_prefix_length_le (List.prefix_append run rest) ⟨behind, hlonger⟩ hlength.le
    have hmore : more ≠ [] := by
      rintro rfl
      rw [List.append_nil] at hlength
      exact Nat.lt_irrefl _ hlength
    rw [List.append_assoc] at hlonger hc
    have hrest : (more ++ missing).head? = rest.head? := by
      rw [← List.append_cancel_left hlonger, List.head?_append_of_ne_nil _ hmore,
        List.head?_append_of_ne_nil _ hmore]
    obtain ⟨ps, hps⟩ := hbreaks (more ++ missing) hrest
    rw [hc, ← List.append_nil (encodeChar c), pieces_encodeChar] at hps
    cases hps

/-- The automaton comes to the state by the bytes that it keeps. -/
def State.Reached (s : State) : Prop := ∀ behind, pieces (s.seen ++ behind) = run s behind

/-- What is known of the automaton wherever it stands. -/
structure State.Known (s : State) : Prop where
  sound : s.Sound
  narrow : s.Narrow
  reached : s.Reached

theorem known_start : State.Known .start where
  sound := trivial
  narrow := trivial
  reached := fun _ => rfl

theorem enter_cases (b : UInt8) :
    (∃ c, enter b = ([.scalar c], .start)) ∨
      (∃ low high more bits, enter b = ([], .inside [b] low high more bits)) ∨
      enter b = ([.broken [b]], .start) := by
  generalize hresult : enter b = result
  rw [enter_eq] at hresult
  split_ifs at hresult <;> subst hresult
  · exact Or.inl ⟨_, rfl⟩
  · exact Or.inr (Or.inr rfl)
  iterate 7 exact Or.inr (Or.inl ⟨_, _, _, _, rfl⟩)
  · exact Or.inr (Or.inr rfl)

/-- A character or a run is begun by `b`, or ends with it. -/
theorem cut_first {rest : List UInt8} (hrest : ∀ s : State, s.Known → Cut (s.seen ++ rest) (run s rest))
    (b : UInt8) : Cut (b :: rest) (run .start (b :: rest)) := by
  have hfaithful := enter_faithful b
  have hnarrow := enter_narrow b
  have hrun : ∀ behind, run .start (b :: behind) = (enter b).1 ++ run (enter b).2 behind := fun _ => rfl
  rcases enter_cases b with ⟨c, henter⟩ | ⟨low, high, more, bits, henter⟩ | henter
  · have hencode : encodeChar c = [b] := by
      have hoctets := hfaithful.octets
      rw [henter] at hoctets
      simpa only [List.flatMap_cons, List.flatMap_nil, Piece.octets, State.seen, List.append_nil] using hoctets
    rw [hrun, henter, ← List.singleton_append, ← hencode]
    exact Cut.scalar c (hrest .start known_start)
  · have hknown : (State.inside [b] low high more bits).Known := by
      refine ⟨?_, ?_, fun behind => ?_⟩
      · rw [henter] at hfaithful
        exact hfaithful.state
      · rw [henter] at hnarrow
        exact hnarrow
      · change run .start (b :: behind) = _
        rw [hrun, henter]
        rfl
    rw [hrun, henter]
    exact hrest _ hknown
  · have hsubpart : MaximalSubpart [b] rest := by
      refine maximalSubpart_of_pieces (List.cons_ne_nil b []) (Or.inr rfl) fun behind _ => ⟨run .start behind, ?_⟩
      change run .start (b :: behind) = _
      rw [hrun, henter]
      rfl
    rw [hrun, henter]
    exact Cut.broken hsubpart (hrest .start known_start)

/-- What has been begun and not finished is a maximal subpart in front of `rest`, if `rest` breaks it off. -/
theorem State.Known.maximalSubpart {seen : List UInt8} {low high : UInt8} {more bits : Nat}
    (h : (State.inside seen low high more bits).Known) {rest : List UInt8}
    (hbreaks : ∀ behind : List UInt8, behind.head? = rest.head? →
      ∃ ps, run (.inside seen low high more bits) behind = .broken seen :: ps) : MaximalSubpart seen rest := by
  refine maximalSubpart_of_pieces h.sound.nonempty (Or.inl (begins_of_completes h.sound.completes h.narrow.2.1)) ?_
  intro behind hbehind
  obtain ⟨ps, hps⟩ := hbreaks behind hbehind
  exact ⟨ps, (h.reached behind).trans hps⟩

/-- The step lemma for an unfinished character: `b` completes it, continues it or breaks it off. -/
theorem cut_inside {rest : List UInt8} (hrest : ∀ s : State, s.Known → Cut (s.seen ++ rest) (run s rest))
    {seen : List UInt8} {low high : UInt8} {more bits : Nat} (h : (State.inside seen low high more bits).Known)
    (b : UInt8) : Cut (seen ++ b :: rest) (run (.inside seen low high more bits) (b :: rest)) := by
  by_cases hb : low ≤ b ∧ b ≤ high
  · cases more with
    | zero =>
        rw [run_last hb.1 hb.2, ← List.singleton_append, ← List.append_assoc,
          ← h.sound.completes b hb.1 hb.2]
        exact Cut.scalar _ (hrest .start known_start)
    | succ more =>
        have hnext : (State.inside (seen ++ [b]) 0x80 0xBF more (bits * 64 + (b.toNat - 0x80))).Known := by
          refine ⟨Inside.next h.sound hb.1 hb.2, ⟨by decide, by decide, by decide⟩, fun behind => ?_⟩
          rw [← run_inside hb.1 hb.2, ← h.reached]
          exact congrArg pieces (List.append_assoc seen [b] behind)
        rw [run_inside hb.1 hb.2, ← List.singleton_append, ← List.append_assoc]
        exact hrest _ hnext
  · rw [run_outside hb]
    refine Cut.broken (h.maximalSubpart fun behind hbehind => ?_) (cut_first hrest b)
    obtain ⟨more', rfl⟩ := List.head?_eq_some_iff.mp hbehind
    exact ⟨run .start (b :: more'), run_outside hb more'⟩

theorem cut_run {s : State} (hs : s.Known) (octets : List UInt8) : Cut (s.seen ++ octets) (run s octets) := by
  induction octets generalizing s with
  | nil =>
      cases s with
      | start => exact Cut.nil
      | inside seen low high more bits =>
          refine Cut.broken (hs.maximalSubpart fun behind hbehind => ⟨[], ?_⟩) Cut.nil
          rw [List.head?_eq_none_iff.mp hbehind]
          rfl
  | cons b rest ih =>
      cases s with
      | start => exact cut_first (fun _ => ih) b
      | inside seen low high more bits => exact cut_inside (fun _ => ih) hs b

/-- The automaton cuts bytes into characters and maximal subparts, and there is only one way to do so. -/
theorem cut_iff (octets : List UInt8) (ps : List Piece) : Cut octets ps ↔ ps = pieces octets := by
  have hcut : Cut octets (pieces octets) := cut_run known_start octets
  constructor
  · intro h
    exact h.unique hcut
  · rintro rfl
    exact hcut

end TemplateTiming.Utf8

namespace TemplateTiming.Template

/-- **Loading keeps every well-formed piece of a template.** A file that can be read is always loaded. Its text shows
each maximal subpart as one U+FFFD, and a text that stands in the file comes out as it is, with what stands before it
and behind it decoded as if it were alone; so well-formed bytes are loaded exactly, and the bytes of a loaded text
are. -/
theorem load_keeps_text (workingDir p : Path) (hp : p.Usable) :
    ∃ decode : List UInt8 → List Char,
      (∀ (files : Path → Except IoError (List UInt8)) (octets : List UInt8),
        files (Path.absolute workingDir p) = .ok octets →
          load workingDir files p = .ok ⟨Path.absolute workingDir p, String.ofList (decode octets)⟩) ∧
      (∀ octets, ∃ ps, (∀ qs, Utf8.Cut octets qs ↔ qs = ps) ∧ decode octets = ps.map Utf8.Piece.shown) ∧
      (∀ (a b : List UInt8) (text : List Char), text ≠ [] →
        decode (a ++ Utf8.encode text ++ b) = decode a ++ text ++ decode b) ∧
      (∀ text, decode (Utf8.encode text) = text) ∧
      ∀ octets, decode (Utf8.encode (decode octets)) = decode octets := by
  refine ⟨Utf8.lossy, ?_, ?_, ?_, Utf8.lossy_encode, fun octets => Utf8.lossy_encode _⟩
  · intro files octets hread
    rw [load_of_usable hp, hread]
  · intro octets
    exact ⟨Utf8.pieces octets, Utf8.cut_iff octets, rfl⟩
  · intro a b text htext
    exact Utf8.lossy_append_text a b htext

/-- A sign between the beginning of a character and the end of one. -/
theorem load_keeps_text_between_halves :
    let p := Path.ofString "a.mjml"
    let workingDir := Path.ofString "/srv"
    p.Usable ∧ ['<'] ≠ [] ∧ ∃ decode : List UInt8 → List Char,
      (∀ files octets, files (Path.absolute workingDir p) = .ok octets →
        load workingDir files p = .ok ⟨Path.absolute workingDir p, String.ofList (decode octets)⟩) ∧
      decode ([0xE2, 0x82] ++ Utf8.encode ['<'] ++ [0xAC]) = decode [0xE2, 0x82] ++ ['<'] ++ decode [0xAC] := by
  intro p workingDir
  have hp : p.Usable := ⟨by decide, by decide⟩
  have htext : ['<'] ≠ [] := by decide
  obtain ⟨decode, hload, _, hkeeps, _⟩ := load_keeps_text workingDir p hp
  exact ⟨hp, htext, decode, hload, hkeeps _ _ _ htext⟩

end TemplateTiming.Template
