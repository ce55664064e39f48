import Mathlib
import TemplateTiming.Text.Utf8

/-! Decoding and encoding of UTF-8. The bytes of the pieces of a sequence are the sequence again, a scalar value
standing for its own encoding; so well-formed bytes are exactly the encodings of texts, and a byte below 80 can
neither hide in a broken run nor come out of one. -/

namespace TemplateTiming.Utf8

theorem encodeChar_eq (c : Char) : encodeChar c = String.utf8EncodeChar c := by
  have hmax : c.toNat ≤ 0x10FFFF := c.toNat_le_max
  simp only [encodeChar, String.utf8EncodeChar, Char.toNat_val, Nat.toUInt8_eq]
  -- both tables ask the same questions, so only four of the cases are left
  split_ifs <;> try omega
  · rfl
  · rw [show 0xC0 + c.toNat / 64 = c.toNat / 64 % 0x20 + 0xC0 by omega,
      show 0x80 + c.toNat % 64 = c.toNat % 0x40 + 0x80 by omega]
  · rw [show 0xE0 + c.toNat / 4096 = c.toNat / 4096 % 0x10 + 0xE0 by omega,
      show 0x80 + c.toNat / 64 % 64 = c.toNat / 64 % 0x40 + 0x80 by omega,
      show 0x80 + c.toNat % 64 = c.toNat % 0x40 + 0x80 by omega]
  · rw [show 0xF0 + c.toNat / 262144 = c.toNat / 262144 % 0x08 + 0xF0 by omega,
      show 0x80 + c.toNat / 4096 % 64 = c.toNat / 4096 % 0x40 + 0x80 by omega,
      show 0x80 + c.toNat / 64 % 64 = c.toNat / 64 % 0x40 + 0x80 by omega,
      show 0x80 + c.toNat % 64 = c.toNat % 0x40 + 0x80 by omega]

theorem size_eq_utf8ByteSize (s : String) : size s.toList = s.utf8ByteSize := by
  have hlength : ∀ text : List Char, size text = (text.flatMap String.utf8EncodeChar).length := by
    intro text
    induction text with
    | nil => rfl
    | cons c rest ih =>
        rw [List.flatMap_cons, List.length_append, String.length_utf8EncodeChar, ← ih]
        rfl
  rw [hlength, ← String.size_toByteArray, ← String.utf8Encode_toList, List.utf8Encode, List.size_toByteArray]

theorem toUInt8_eq {n : Nat} {b : UInt8} (h : n = b.toNat) : n.toUInt8 = b := by
  rw [h, Nat.toUInt8_eq, UInt8.ofNat_toNat]

/-- The bytes of the input that a piece stands for. -/
def Piece.octets : Piece → List UInt8
  | .scalar c => encodeChar c
  | .broken octets => octets

/-- The bytes that the automaton has read and not yet put out. -/
def State.seen : State → List UInt8
  | .start => []
  | .inside seen _ _ _ _ => seen

/-- Whatever admitted bytes follow, `seen` and they are the encoding of the scalar value that comes out. -/
def Completes : Nat → List UInt8 → UInt8 → UInt8 → Nat → Prop
  | 0, seen, low, high, bits => ∀ b, low ≤ b → b ≤ high →
      encodeChar (Char.ofNat (bits * 64 + (b.toNat - 0x80))) = seen ++ [b]
  | more + 1, seen, low, high, bits => ∀ b, low ≤ b → b ≤ high →
      Completes more (seen ++ [b]) 0x80 0xBF (bits * 64 + (b.toNat - 0x80))

structure Inside (seen : List UInt8) (low high : UInt8) (more bits : Nat) : Prop where
  completes : Completes more seen low high bits
  nonempty : seen ≠ []
  notAscii : ∀ b ∈ seen, 0x80 ≤ b
  continuation : 0x80 ≤ low
  short : seen.length + more ≤ 3

/-- What holds of the automaton at every place of an input. -/
def State.Sound : State → Prop
  | .start => True
  | .inside seen low high more bits => Inside seen low high more bits

theorem toNat_ofNat_of_valid {n : Nat} (hvalid : n.isValidChar) : (Char.ofNat n).toNat = n := by
  rw [Char.toNat_ofNat, if_pos hvalid]

theorem encodeChar_one {n : Nat} (hn : n < 0x80) : encodeChar (Char.ofNat n) = [n.toUInt8] := by
  have hvalid : n.isValidChar := Or.inl (by omega)
  simp only [encodeChar, toNat_ofNat_of_valid hvalid]
  rw [if_pos hn]

theorem encodeChar_two {n : Nat} (hlow : 0x80 ≤ n) (hhigh : n < 0x800) :
    encodeChar (Char.ofNat n) = [(0xC0 + n / 64).toUInt8, (0x80 + n % 64).toUInt8] := by
  have hvalid : n.isValidChar := Or.inl (by omega)
  simp only [encodeChar, toNat_ofNat_of_valid hvalid]
  rw [if_neg (by omega), if_pos hhigh]

theorem encodeChar_three {n : Nat} (hlow : 0x800 ≤ n) (hhigh : n < 0x10000) (hsurrogate : n < 0xD800 ∨ 0xDFFF < n) :
    encodeChar (Char.ofNat n) =
      [(0xE0 + n / 4096).toUInt8, (0x80 + n / 64 % 64).toUInt8, (0x80 + n % 64).toUInt8] := by
  have hvalid : n.isValidChar := by simp only [Nat.isValidChar]; omega
  simp only [encodeChar, toNat_ofNat_of_valid hvalid]
  rw [if_neg (by omega), if_neg (by omega), if_pos hhigh]

theorem encodeChar_four {n : Nat} (hlow : 0x10000 ≤ n) (hhigh : n < 0x110000) :
    encodeChar (Char.ofNat n) =
      [(0xF0 + n / 262144).toUInt8, (0x80 + n / 4096 % 64).toUInt8, (0x80 + n / 64 % 64).toUInt8,
        (0x80 + n % 64).toUInt8] := by
  have hvalid : n.isValidChar := by simp only [Nat.isValidChar]; omega
  simp only [encodeChar, toNat_ofNat_of_valid hvalid]
  rw [if_neg (by omega), if_neg (by omega), if_neg (by omega)]

theorem completes_two {first : UInt8} (hfirst : 0xC2 ≤ first.toNat ∧ first.toNat < 0xE0) :
    Completes 0 [first] 0x80 0xBF (first.toNat - 0xC0) := by
  intro b hlow hhigh
  rw [UInt8.le_iff_toNat_le] at hlow hhigh
  simp only [UInt8.reduceToNat] at hlow hhigh
  rw [encodeChar_two (by omega) (by omega), toUInt8_eq (b := first) (by omega), toUInt8_eq (b := b) (by omega)]
  rfl

/-- Three bytes: the range of the second one keeps out overlong forms and surrogates. -/
theorem completes_three {first low high : UInt8} {bits : Nat} (hfirst : first.toNat = 0xE0 + bits)
    (hsecond : ∀ b : Nat, low.toNat ≤ b → b ≤ high.toNat →
      0x80 ≤ b ∧ b ≤ 0xBF ∧ 0x20 ≤ bits * 64 + (b - 0x80) ∧ bits * 64 + (b - 0x80) < 0x400 ∧
        (bits * 64 + (b - 0x80) < 0x360 ∨ 0x37F < bits * 64 + (b - 0x80))) :
    Completes 1 [first] low high bits := by
  intro b hlow hhigh c hlow' hhigh'
  rw [UInt8.le_iff_toNat_le] at hlow hhigh hlow' hhigh'
  simp only [UInt8.reduceToNat] at hlow' hhigh'
  have hb := hsecond b.toNat hlow hhigh
  rw [encodeChar_three (by omega) (by omega) (by omega), toUInt8_eq (b := first) (by omega),
    toUInt8_eq (b := b) (by omega), toUInt8_eq (b := c) (by omega)]
  rfl

/-- Four bytes: the range of the second one keeps out overlong forms and values above 10FFFF. -/
theorem completes_four {first low high : UInt8} {bits : Nat} (hfirst : first.toNat = 0xF0 + bits)
    (hsecond : ∀ b : Nat, low.toNat ≤ b → b ≤ high.toNat →
      0x80 ≤ b ∧ b ≤ 0xBF ∧ 0x10 ≤ bits * 64 + (b - 0x80) ∧ bits * 64 + (b - 0x80) < 0x110) :
    Completes 2 [first] low high bits := by
  intro b hlow hhigh c hlow' hhigh' d hlow'' hhigh''
  rw [UInt8.le_iff_toNat_le] at hlow hhigh hlow' hhigh' hlow'' hhigh''
  simp only [UInt8.reduceToNat] at hlow' hhigh' hlow'' hhigh''
  have hb := hsecond b.toNat hlow hhigh
  rw [encodeChar_four (by omega) (by omega), toUInt8_eq (b := first) (by omega),
    toUInt8_eq (b := b) (by omega), toUInt8_eq (b := c) (by omega), toUInt8_eq (b := d) (by omega)]
  rfl

theorem inside_of_completes {first low high : UInt8} {more bits : Nat} (hfirst : 0x80 ≤ first) (hlow : 0x80 ≤ low)
    (hmore : more ≤ 2) (hcompletes : Completes more [first] low high bits) : Inside [first] low high more bits where
  completes := hcompletes
  nonempty := List.cons_ne_nil first []
  notAscii := by
    intro b hb
    rw [List.mem_singleton.mp hb]
    exact hfirst
  continuation := hlow
  short := by simp only [List.length_singleton]; omega

/-- A broken run has one to three bytes, none of them below 80. -/
def Piece.Sound : Piece → Prop
  | .scalar _ => True
  | .broken octets => octets ≠ [] ∧ octets.length ≤ 3 ∧ ∀ b ∈ octets, 0x80 ≤ b

theorem Inside.broken_sound {seen : List UInt8} {low high : UInt8} {more bits : Nat}
    (h : Inside seen low high more bits) : (Piece.broken seen).Sound :=
  ⟨h.nonempty, by have := h.short; omega, h.notAscii⟩

/-- A result of the automaton that accounts for the bytes `input`: they are put out or kept. -/
structure Faithful (input : List UInt8) (result : List Piece × State) : Prop where
  octets : result.1.flatMap Piece.octets ++ result.2.seen = input
  pieces : ∀ p ∈ result.1, p.Sound
  state : result.2.Sound

theorem faithful_scalar {input : List UInt8} {c : Char} (h : encodeChar c = input) :
    Faithful input ([.scalar c], .start) where
  octets := by simpa only [List.flatMap_cons, List.flatMap_nil, Piece.octets, State.seen, List.append_nil] using h
  pieces := by
    intro p hp
    rw [List.mem_singleton.mp hp]
    exact trivial
  state := trivial

theorem faithful_inside {seen : List UInt8} {low high : UInt8} {more bits : Nat}
    (h : Inside seen low high more bits) : Faithful seen ([], .inside seen low high more bits) where
  octets := rfl
  pieces := by
    intro p hp
    cases hp
  state := h

theorem faithful_broken {input seen : List UInt8} {result : List Piece × State} (hseen : (Piece.broken seen).Sound)
    (h : Faithful input result) : Faithful (seen ++ input) (.broken seen :: result.1, result.2) where
  octets := by
    rw [List.flatMap_cons, List.append_assoc, h.octets]
    rfl
  pieces := by
    intro p hp
    rcases List.mem_cons.mp hp with hp | hp
    · rw [hp]
      exact hseen
    · exact h.pieces p hp
  state := h.state

theorem faithful_start : Faithful [] ([], .start) where
  octets := rfl
  pieces := by
    intro p hp
    cases hp
  state := trivial

/-- The table of first bytes, read as numbers. -/
theorem enter_eq (b : UInt8) :
    enter b =
      if b.toNat < 0x80 then ([.scalar (Char.ofNat b.toNat)], .start)
      else if b.toNat < 0xC2 then ([.broken [b]], .start)
      else if b.toNat < 0xE0 then ([], .inside [b] 0x80 0xBF 0 (b.toNat - 0xC0))
      else if b.toNat = 0xE0 then ([], .inside [b] 0xA0 0xBF 1 0)
      else if b.toNat = 0xED then ([], .inside [b] 0x80 0x9F 1 0xD)
      else if b.toNat < 0xF0 then ([], .inside [b] 0x80 0xBF 1 (b.toNat - 0xE0))
      else if b.toNat = 0xF0 then ([], .inside [b] 0x90 0xBF 2 0)
      else if b.toNat < 0xF4 then ([], .inside [b] 0x80 0xBF 2 (b.toNat - 0xF0))
      else if b.toNat = 0xF4 then ([], .inside [b] 0x80 0x8F 2 4)
      else ([.broken [b]], .start) := by
  simp only [enter, UInt8.lt_iff_toNat_lt, UInt8.reduceToNat, ← UInt8.toNat_inj]

theorem enter_faithful (b : UInt8) : Faithful [b] (enter b) := by
  rw [enter_eq]
  by_cases hascii : b.toNat < 0x80
  · rw [if_pos hascii]
    exact faithful_scalar ((encodeChar_one hascii).trans (by rw [toUInt8_eq rfl]))
  have hb : 0x80 ≤ b := UInt8.le_iff_toNat_le.mpr (Nat.not_lt.mp hascii)
  have hbroken : (Piece.broken [b]).Sound := by
    refine ⟨List.cons_ne_nil b [], by rw [List.length_singleton]; decide, ?_⟩
    intro x hx
    rw [List.mem_singleton.mp hx]
    exact hb
  rw [if_neg hascii]
  by_cases hoverlong : b.toNat < 0xC2
  · rw [if_pos hoverlong]
    exact faithful_broken hbroken faithful_start
  rw [if_neg hoverlong]
  by_cases htwo : b.toNat < 0xE0
  · rw [if_pos htwo]
    exact faithful_inside (inside_of_completes hb (by decide) (by decide) (completes_two (by omega)))
  rw [if_neg htwo]
  by_cases he0 : b.toNat = 0xE0
  · rw [if_pos he0]
    exact faithful_inside (inside_of_completes hb (by decide) (by decide) (completes_three (by omega)
      (by simp only [UInt8.reduceToNat]; omega)))
  rw [if_neg he0]
  by_cases hed : b.toNat = 0xED
  · rw [if_pos hed]
    exact faithful_inside (inside_of_completes hb (by decide) (by decide) (completes_three (by omega)
      (by simp only [UInt8.reduceToNat]; omega)))
  rw [if_neg hed]
  by_cases hthree : b.toNat < 0xF0
  · rw [if_pos hthree]
    exact faithful_inside (inside_of_completes hb (by decide) (by decide) (completes_three (by omega)
      (by simp only [UInt8.reduceToNat]; omega)))
  rw [if_neg hthree]
  by_cases hf0 : b.toNat = 0xF0
  · rw [if_pos hf0]
    exact faithful_inside (inside_of_completes hb (by decide) (by decide) (completes_four (by omega)
      (by simp only [UInt8.reduceToNat]; omega)))
  rw [if_neg hf0]
  by_cases hfour : b.toNat < 0xF4
  · rw [if_pos hfour]
    exact faithful_inside (inside_of_completes hb (by decide) (by decide) (completes_four (by omega)
      (by simp only [UInt8.reduceToNat]; omega)))
  rw [if_neg hfour]
  by_cases hf4 : b.toNat = 0xF4
  · rw [if_pos hf4]
    exact faithful_inside (inside_of_completes hb (by decide) (by decide) (completes_four (by omega)
      (by simp only [UInt8.reduceToNat]; omega)))
  · rw [if_neg hf4]
    exact faithful_broken hbroken faithful_start

theorem Inside.next {seen : List UInt8} {low high b : UInt8} {more bits : Nat}
    (h : Inside seen low high (more + 1) bits) (hlow : low ≤ b) (hhigh : b ≤ high) :
    Inside (seen ++ [b]) 0x80 0xBF more (bits * 64 + (b.toNat - 0x80)) where
  completes := h.completes b hlow hhigh
  nonempty := List.append_ne_nil_of_right_ne_nil seen (List.cons_ne_nil b [])
  notAscii := by
    intro x hx
    rcases List.mem_append.mp hx with hx | hx
    · exact h.notAscii x hx
    · rw [List.mem_singleton.mp hx]
      exact UInt8.le_trans h.continuation hlow
  continuation := by decide
  short := by
    have := h.short
    rw [List.length_append, List.length_singleton]
    omega

theorem step_faithful {s : State} (hs : s.Sound) (b : UInt8) : Faithful (s.seen ++ [b]) (step s b) := by
  cases s with
  | start => exact enter_faithful b
  | inside seen low high more bits =>
      simp only [step]
      split_ifs with hb
      · cases more with
        | zero => exact faithful_scalar (hs.completes b hb.1 hb.2)
        | succ more => exact faithful_inside (Inside.next hs hb.1 hb.2)
      · exact faithful_broken (Inside.broken_sound hs) (enter_faithful b)

theorem finish_octets (s : State) : (finish s).flatMap Piece.octets = s.seen := by
  cases s with
  | start => rfl
  | inside seen low high more bits =>
      simp only [finish, List.flatMap_cons, List.flatMap_nil, Piece.octets, State.seen, List.append_nil]

theorem run_octets {s : State} (hs : s.Sound) (octets : List UInt8) :
    (run s octets).flatMap Piece.octets = s.seen ++ octets := by
  induction octets generalizing s with
  | nil => rw [run, finish_octets, List.append_nil]
  | cons b rest ih =>
      have hstep := step_faithful hs b
      rw [run, List.flatMap_append, ih hstep.state, ← List.append_assoc, hstep.octets, List.append_assoc]
      rfl

theorem run_sound {s : State} (hs : s.Sound) (octets : List UInt8) : ∀ p ∈ run s octets, p.Sound := by
  induction octets generalizing s with
  | nil =>
      intro p hp
      cases s with
      | start => cases hp
      | inside seen low high more bits =>
          rw [List.mem_singleton.mp hp]
          exact Inside.broken_sound hs
  | cons b rest ih =>
      intro p hp
      have hstep := step_faithful hs b
      rcases List.mem_append.mp hp with hp | hp
      · exact hstep.pieces p hp
      · exact ih hstep.state p hp

/-- Nothing is lost in the pieces and nothing is added. -/
theorem pieces_octets (octets : List UInt8) : (pieces octets).flatMap Piece.octets = octets :=
  run_octets (s := .start) trivial octets

theorem pieces_sound (octets : List UInt8) : ∀ p ∈ pieces octets, p.Sound :=
  run_sound (s := .start) trivial octets

theorem run_inside {seen : List UInt8} {low high b : UInt8} {more bits : Nat} (hlow : low ≤ b) (hhigh : b ≤ high)
    (rest : List UInt8) :
    run (.inside seen low high (more + 1) bits) (b :: rest) =
      run (.inside (seen ++ [b]) 0x80 0xBF more (bits * 64 + (b.toNat - 0x80))) rest := by
  rw [run, step, if_pos ⟨hlow, hhigh⟩]
  rfl

theorem run_last {seen : List UInt8} {low high b : UInt8} {bits : Nat} (hlow : low ≤ b) (hhigh : b ≤ high)
    (rest : List UInt8) :
    run (.inside seen low high 0 bits) (b :: rest) =
      .scalar (Char.ofNat (bits * 64 + (b.toNat - 0x80))) :: run .start rest := by
  rw [run, step, if_pos ⟨hlow, hhigh⟩]
  rfl

theorem toNat_toUInt8 {n : Nat} (hn : n < 0x100) : n.toUInt8.toNat = n := by
  rw [Nat.toUInt8_eq, UInt8.toNat_ofNat_of_lt' hn]

theorem enter_two {b : UInt8} (hb : 0xC2 ≤ b.toNat ∧ b.toNat < 0xE0) :
    enter b = ([], .inside [b] 0x80 0xBF 0 (b.toNat - 0xC0)) := by
  rw [enter_eq, if_neg (by omega), if_neg (by omega), if_pos (by omega)]

/-- The state behind the first of three bytes admits every second one but those of overlong forms and
surrogates. -/
theorem enter_three {b : UInt8} (hb : 0xE0 ≤ b.toNat ∧ b.toNat < 0xF0) :
    ∃ low high, enter b = ([], .inside [b] low high 1 (b.toNat - 0xE0)) ∧
      ∀ x : UInt8, 0x80 ≤ x.toNat → x.toNat ≤ 0xBF → 0x20 ≤ (b.toNat - 0xE0) * 64 + (x.toNat - 0x80) →
        ((b.toNat - 0xE0) * 64 + (x.toNat - 0x80) < 0x360 ∨ 0x37F < (b.toNat - 0xE0) * 64 + (x.toNat - 0x80)) →
        low ≤ x ∧ x ≤ high := by
  simp only [UInt8.le_iff_toNat_le]
  rw [enter_eq, if_neg (by omega), if_neg (by omega), if_neg (by omega)]
  by_cases he0 : b.toNat = 0xE0
  · rw [if_pos he0, he0]
    exact ⟨0xA0, 0xBF, rfl, fun x _ _ _ _ => by simp only [UInt8.reduceToNat]; omega⟩
  by_cases hed : b.toNat = 0xED
  · rw [if_neg he0, if_pos hed, hed]
    exact ⟨0x80, 0x9F, rfl, fun x _ _ _ _ => by simp only [UInt8.reduceToNat]; omega⟩
  · rw [if_neg he0, if_neg hed, if_pos (by omega)]
    exact ⟨0x80, 0xBF, rfl, fun x _ _ _ _ => by simp only [UInt8.reduceToNat]; omega⟩

/-- The state behind the first of four bytes admits every second one but those of overlong forms and of values
above 10FFFF. -/
theorem enter_four {b : UInt8} (hb : 0xF0 ≤ b.toNat ∧ b.toNat < 0xF5) :
    ∃ low high, enter b = ([], .inside [b] low high 2 (b.toNat - 0xF0)) ∧
      ∀ x : UInt8, 0x80 ≤ x.toNat → x.toNat ≤ 0xBF → 0x10 ≤ (b.toNat - 0xF0) * 64 + (x.toNat - 0x80) →
        (b.toNat - 0xF0) * 64 + (x.toNat - 0x80) < 0x110 → low ≤ x ∧ x ≤ high := by
  simp only [UInt8.le_iff_toNat_le]
  rw [enter_eq, if_neg (by omega), if_neg (by omega), if_neg (by omega), if_neg (by omega), if_neg (by omega),
    if_neg (by omega)]
  by_cases hf0 : b.toNat = 0xF0
  · rw [if_pos hf0, hf0]
    exact ⟨0x90, 0xBF, rfl, fun x _ _ _ _ => by simp only [UInt8.reduceToNat]; omega⟩
  by_cases hf4 : b.toNat = 0xF4
  · rw [if_neg hf0, if_neg (by omega), if_pos hf4, hf4]
    exact ⟨0x80, 0x8F, rfl, fun x _ _ _ _ => by simp only [UInt8.reduceToNat]; omega⟩
  · rw [if_neg hf0, if_pos (by omega)]
    exact ⟨0x80, 0xBF, rfl, fun x _ _ _ _ => by simp only [UInt8.reduceToNat]; omega⟩

theorem continuation_range {b : UInt8} {x : Nat} (hb : b.toNat = 0x80 + x % 64) : 0x80 ≤ b ∧ b ≤ 0xBF := by
  simp only [UInt8.le_iff_toNat_le, UInt8.reduceToNat, hb]
  omega

theorem run_encodeChar (c : Char) (rest : List UInt8) :
    run .start (encodeChar c ++ rest) = .scalar c :: run .start rest := by
  obtain ⟨n, hn, rfl⟩ : ∃ n, n.isValidChar ∧ Char.ofNat n = c := ⟨c.toNat, c.valid, c.ofNat_toNat⟩
  have hvalid : n < 0xD800 ∨ 0xDFFF < n ∧ n < 0x110000 := hn
  by_cases h1 : n < 0x80
  · have hfirst := toNat_toUInt8 (n := n) (by omega)
    have hascii : n.toUInt8 < 0x80 := by
      rw [UInt8.lt_iff_toNat_lt, hfirst]
      exact h1
    rw [encodeChar_one h1, List.singleton_append, run, step, enter, if_pos hascii, hfirst]
    rfl
  by_cases h2 : n < 0x800
  · have hfirst := toNat_toUInt8 (n := 0xC0 + n / 64) (by omega)
    have hlast := toNat_toUInt8 (n := 0x80 + n % 64) (by omega)
    obtain ⟨hlow, hhigh⟩ := continuation_range (x := n) hlast
    rw [encodeChar_two (by omega) h2]
    simp only [List.cons_append, List.nil_append]
    rw [run, step, enter_two (by omega), List.nil_append, run_last hlow hhigh, hfirst, hlast,
      show (0xC0 + n / 64 - 0xC0) * 64 + (0x80 + n % 64 - 0x80) = n by omega]
  by_cases h3 : n < 0x10000
  · have hfirst := toNat_toUInt8 (n := 0xE0 + n / 4096) (by omega)
    have hsecond := toNat_toUInt8 (n := 0x80 + n / 64 % 64) (by omega)
    have hlast := toNat_toUInt8 (n := 0x80 + n % 64) (by omega)
    obtain ⟨low, high, henter, hadmits⟩ := enter_three (b := (0xE0 + n / 4096).toUInt8) (by omega)
    obtain ⟨hlow, hhigh⟩ := hadmits (0x80 + n / 64 % 64).toUInt8 (by omega) (by omega) (by omega) (by omega)
    obtain ⟨hlow', hhigh'⟩ := continuation_range (x := n) hlast
    rw [encodeChar_three (by omega) h3 (by omega)]
    simp only [List.cons_append, List.nil_append]
    rw [run, step, henter, List.nil_append, run_inside hlow hhigh, run_last hlow' hhigh', hfirst, hsecond, hlast,
      show ((0xE0 + n / 4096 - 0xE0) * 64 + (0x80 + n / 64 % 64 - 0x80)) * 64 + (0x80 + n % 64 - 0x80) = n by omega]
  · have hfirst := toNat_toUInt8 (n := 0xF0 + n / 262144) (by omega)
    have hsecond := toNat_toUInt8 (n := 0x80 + n / 4096 % 64) (by omega)
    have hthird := toNat_toUInt8 (n := 0x80 + n / 64 % 64) (by omega)
    have hlast := toNat_toUInt8 (n := 0x80 + n % 64) (by omega)
    obtain ⟨low, high, henter, hadmits⟩ := enter_four (b := (0xF0 + n / 262144).toUInt8) (by omega)
    obtain ⟨hlow, hhigh⟩ := hadmits (0x80 + n / 4096 % 64).toUInt8 (by omega) (by omega) (by omega) (by omega)
    obtain ⟨hlow', hhigh'⟩ := continuation_range (x := n / 64) hthird
    obtain ⟨hlow'', hhigh''⟩ := continuation_range (x := n) hlast
    rw [encodeChar_four (by omega) (by omega)]
    simp only [List.cons_append, List.nil_append]
    rw [run, step, henter, List.nil_append, run_inside hlow hhigh, run_inside hlow' hhigh', run_last hlow'' hhigh'',
      hfirst, hsecond, hthird, hlast,
      show (((0xF0 + n / 262144 - 0xF0) * 64 + (0x80 + n / 4096 % 64 - 0x80)) * 64 + (0x80 + n / 64 % 64 - 0x80)) * 64
        + (0x80 + n % 64 - 0x80) = n by omega]

/-- The automaton reads back what was encoded. -/
theorem pieces_encode (text : List Char) : pieces (encode text) = text.map .scalar := by
  induction text with
  | nil => rfl
  | cons c rest ih =>
      rw [pieces, encode, List.flatMap_cons, run_encodeChar, List.map_cons, ← ih]
      rfl

theorem lossy_encode (text : List Char) : lossy (encode text) = text := by
  rw [lossy, pieces_encode, List.map_map]
  exact List.map_id text

theorem mapM_scalar?_eq_some_iff (ps : List Piece) (text : List Char) :
    ps.mapM Piece.scalar? = some text ↔ ps = text.map .scalar := by
  induction ps generalizing text with
  | nil => cases text <;> simp
  | cons p rest ih =>
      cases p with
      | broken octets => cases text <;> simp [List.mapM_cons, Piece.scalar?]
      | scalar c =>
          simp only [List.mapM_cons, Piece.scalar?, Option.pure_def, Option.bind_eq_bind, Option.bind_some,
            Option.bind_eq_some_iff, Option.some.injEq]
          cases text with
          | nil => simp
          | cons d text => simp [ih, and_comm]

/-- Well-formed bytes are exactly the encodings of texts. -/
theorem decode?_eq_some_iff (octets : List UInt8) (text : List Char) :
    decode? octets = some text ↔ octets = encode text := by
  rw [decode?, mapM_scalar?_eq_some_iff]
  constructor
  · intro h
    rw [← pieces_octets octets, h, encode, List.flatMap_map]
    rfl
  · intro h
    rw [h, pieces_encode]

theorem encodeChar_notAscii {n : Nat} (hn : n.isValidChar) (hlow : 0x80 ≤ n) :
    ∀ b ∈ encodeChar (Char.ofNat n), 0x80 ≤ b.toNat := by
  have hvalid : n < 0xD800 ∨ 0xDFFF < n ∧ n < 0x110000 := hn
  intro b hb
  by_cases h2 : n < 0x800
  · rw [encodeChar_two hlow h2] at hb
    simp only [List.mem_cons, List.not_mem_nil, or_false] at hb
    rcases hb with rfl | rfl <;> rw [toNat_toUInt8 (by omega)] <;> omega
  by_cases h3 : n < 0x10000
  · rw [encodeChar_three (by omega) h3 (by omega)] at hb
    simp only [List.mem_cons, List.not_mem_nil, or_false] at hb
    rcases hb with rfl | rfl | rfl <;> rw [toNat_toUInt8 (by omega)] <;> omega
  · rw [encodeChar_four (by omega) (by omega)] at hb
    simp only [List.mem_cons, List.not_mem_nil, or_false] at hb
    rcases hb with rfl | rfl | rfl | rfl <;> rw [toNat_toUInt8 (by omega)] <;> omega

theorem mem_encodeChar_ascii {b : UInt8} (hb : b.toNat < 0x80) (c : Char) :
    b ∈ encodeChar c ↔ c = Char.ofNat b.toNat := by
  obtain ⟨n, hn, rfl⟩ : ∃ n, n.isValidChar ∧ Char.ofNat n = c := ⟨c.toNat, c.valid, c.ofNat_toNat⟩
  constructor
  · intro hmem
    by_cases h1 : n < 0x80
    · rw [encodeChar_one h1, List.mem_singleton] at hmem
      rw [hmem, toNat_toUInt8 (by omega)]
    · have := encodeChar_notAscii hn (by omega) b hmem
      omega
  · intro heq
    rw [heq, encodeChar_one hb, toUInt8_eq rfl]
    exact List.mem_singleton_self b

/-- A byte below 80 stands in a sequence exactly if its character stands in the text, wherever that is broken. -/
theorem mem_lossy_ascii {b : UInt8} (hb : b.toNat < 0x80) (octets : List UInt8) :
    Char.ofNat b.toNat ∈ lossy octets ↔ b ∈ octets := by
  have hpiece : ∀ p ∈ pieces octets, p.shown = Char.ofNat b.toNat ↔ b ∈ p.octets := by
    intro p hp
    have hsound := pieces_sound octets p hp
    cases p with
    | scalar c => exact (mem_encodeChar_ascii hb c).symm
    | broken run =>
        constructor
        · intro hshown
          have htoNat := congrArg Char.toNat hshown
          rw [toNat_ofNat_of_valid (Or.inl (by omega))] at htoNat
          have : Char.toNat '\ufffd' = 0xFFFD := rfl
          simp only [Piece.shown] at htoNat
          omega
        · intro hmem
          have hhigh := hsound.2.2 b hmem
          rw [UInt8.le_iff_toNat_le] at hhigh
          simp only [UInt8.reduceToNat] at hhigh
          omega
  conv => rhs; rw [← pieces_octets octets]
  rw [lossy, List.mem_map, List.mem_flatMap]
  constructor
  · rintro ⟨p, hp, hshown⟩
    exact ⟨p, hp, (hpiece p hp).mp hshown⟩
  · rintro ⟨p, hp, hmem⟩
    exact ⟨p, hp, (hpiece p hp).mpr hmem⟩

end TemplateTiming.Utf8
