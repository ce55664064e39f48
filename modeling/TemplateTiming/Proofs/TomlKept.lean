import Mathlib
import TemplateTiming.Proofs.TomlTable

/-! Values that stay. Once a line has given a key of an explicit table its value, no later statement takes it away or
puts another one in its place: it is refused, or it leaves that key alone. -/

namespace TemplateTiming.Toml

/-- The scalar stands at the path, which leads through tables that have a header of their own. -/
def Value.Pins (s : Scalar) : List (List Char) → Value → Prop
  | [], v => ∃ span, v = .scalar s span
  | k :: path, v => ∃ origin entries span, v = .table origin entries span ∧ origin.implied = false ∧
      (∃ e ∈ entries, e.1.name = k) ∧ ∀ e ∈ entries, e.1.name = k → e.2.Pins s path

/-- Every entry of that name has the scalar at the path, and there is one. -/
def Table.Pins (s : Scalar) (k : List Char) (path : List (List Char)) (t : Table) : Prop :=
  (∃ e ∈ t.entries, e.1.name = k) ∧ ∀ e ∈ t.entries, e.1.name = k → e.2.Pins s path

/-! ### Entries -/

theorem mem_insertEntry {key : Key} {value : Value} {entries : List (Key × Value)} {e : Key × Value}
    (he : e ∈ Table.insertEntry key value entries) : e = (key, value) ∨ e ∈ entries := by
  induction entries with
  | nil => exact Or.inl (List.mem_singleton.mp he)
  | cons first entries ih =>
      obtain ⟨k, v⟩ := first
      rw [Table.insertEntry] at he
      split_ifs at he
      · exact (List.mem_cons.mp he).imp_right (List.mem_cons_of_mem _)
      · exact List.mem_cons.mp he
      · rcases List.mem_cons.mp he with rfl | he
        · exact Or.inr List.mem_cons_self
        · exact (ih he).imp_right (List.mem_cons_of_mem _)

theorem insertEntry_self (key : Key) (value : Value) (entries : List (Key × Value)) :
    (key, value) ∈ Table.insertEntry key value entries := by
  induction entries with
  | nil => exact List.mem_cons_self
  | cons first entries ih =>
      obtain ⟨k, v⟩ := first
      rw [Table.insertEntry]
      split_ifs
      · exact List.mem_cons_self
      · exact List.mem_cons_self
      · exact List.mem_cons_of_mem _ ih

theorem insertEntry_of_ne {key : Key} {entries : List (Key × Value)} {e : Key × Value} (he : e ∈ entries)
    (hne : e.1.name ≠ key.name) (value : Value) : e ∈ Table.insertEntry key value entries := by
  induction entries with
  | nil => cases he
  | cons first entries ih =>
      obtain ⟨k, v⟩ := first
      rw [Table.insertEntry]
      split_ifs with hsame
      · rcases List.mem_cons.mp he with rfl | he
        · exact absurd hsame.symm hne
        · exact List.mem_cons_of_mem _ he
      · exact List.mem_cons_of_mem _ he
      · rcases List.mem_cons.mp he with rfl | he
        · exact List.mem_cons_self
        · exact List.mem_cons_of_mem _ (ih he)

namespace Table

variable {s : Scalar} {k : List Char} {path : List (List Char)} {t : Table}

theorem Pins.insert (h : t.Pins s k path) {key : Key} {value : Value} (hvalue : key.name = k → value.Pins s path) :
    (t.insert key value).Pins s k path := by
  obtain ⟨⟨e, he, hname⟩, hall⟩ := h
  constructor
  · by_cases hkey : key.name = k
    · exact ⟨(key, value), insertEntry_self key value t.entries, hkey⟩
    · exact ⟨e, insertEntry_of_ne he (hname ▸ Ne.symm hkey) value, hname⟩
  · intro e he hname
    rcases mem_insertEntry he with rfl | he
    · exact hvalue hname
    · exact hall e he hname

theorem Pins.erase (h : t.Pins s k path) {name : List Char} (hne : name ≠ k) : (t.erase name).Pins s k path := by
  obtain ⟨⟨e, he, hname⟩, hall⟩ := h
  refine ⟨⟨e, List.mem_filter.mpr ⟨he, decide_eq_true (hname ▸ hne.symm)⟩, hname⟩, ?_⟩
  exact fun e he => hall e (List.mem_filter.mp he).1

/-- What a look-up finds under that name has the scalar at the path. -/
theorem Pins.find? (h : t.Pins s k path) {name : List Char} (hname : name = k) :
    ∃ key v, t.entries.find? (fun e => decide (e.1.name = name)) = some (key, v) ∧ key.name = k ∧ v.Pins s path := by
  subst hname
  obtain ⟨⟨e, he, hname⟩, hall⟩ := h
  cases hfind : t.entries.find? (fun e => decide (e.1.name = name)) with
  | none => exact absurd (decide_eq_true hname) (List.find?_eq_none.mp hfind e he)
  | some found =>
      have hfound : found.1.name = name := by simpa using List.find?_some hfind
      exact ⟨found.1, found.2, rfl, hfound, hall found (List.mem_of_find?_eq_some hfind) hfound⟩

theorem Pins.value_of_find? (h : t.Pins s k path) {name : List Char} {key : Key} {v : Value}
    (hfind : t.entries.find? (fun e => decide (e.1.name = name)) = some (key, v)) (hkey : key.name = k) :
    v.Pins s path :=
  h.2 (key, v) (List.mem_of_find?_eq_some hfind) hkey

theorem Pins.lookup? (h : t.Pins s k path) : ∃ v, t.lookup? k = some v ∧ v.Pins s path := by
  obtain ⟨key, v, hfind, _, hv⟩ := h.find? rfl
  exact ⟨v, by rw [Table.lookup?, hfind]; rfl, hv⟩

/-- Arrays are not on the path. -/
theorem not_pins_array {items : List Value} {ofTables : Bool} {span : Span} :
    ¬(Value.array items ofTables span).Pins s path := by
  cases path with
  | nil =>
      rintro ⟨_, heq⟩
      cases heq
  | cons k path =>
      rintro ⟨_, _, _, heq, _⟩
      cases heq

/-- A change keeps the scalar if it does so wherever it comes to a table along the path. -/
theorem modify_keeps {α : Type} {dotted : Bool} {f : Table → Except Problem (α × Table)} {keys : List Key}
    (hf : ∀ k' path', k :: path = keys.map Key.name ++ k' :: path' → ∀ u a u', u.Pins s k' path' → f u = .ok (a, u') →
      u'.origin = u.origin ∧ u'.Pins s k' path')
    (ht : t.Pins s k path) {a : α} {t' : Table} (h : modify dotted f keys t = .ok (a, t')) :
    t'.origin = t.origin ∧ t'.Pins s k path := by
  induction keys generalizing k path t a t' with
  | nil => exact hf k path rfl t a t' ht h
  | cons q keys ih =>
      rw [modify] at h
      split at h
      · rename_i hfind
        obtain ⟨⟨_, child⟩, _, heq⟩ := bind_eq_ok_iff.mp h
        cases heq
        -- The path of the scalar goes through entries that exist, so this step has left it.
        refine ⟨rfl, ht.insert fun hq => ?_⟩
        obtain ⟨_, _, hsome, _⟩ := ht.find? hq
        rw [hfind] at hsome
        cases hsome
      · rename_i key origin entries span hfind
        split_ifs at h
        · cases h
        · cases h
        obtain ⟨⟨_, child⟩, hchild, heq⟩ := bind_eq_ok_iff.mp h
        cases heq
        refine ⟨rfl, ht.insert fun hkey => ?_⟩
        have hq : key.name = q.name := by simpa using List.find?_some hfind
        have hfound := ht.value_of_find? hfind hkey
        -- The step goes along the path, and what `f` does below is known for the rest of it.
        cases path with
        | nil =>
            obtain ⟨_, heq⟩ := hfound
            cases heq
        | cons k' path =>
            obtain ⟨_, _, _, heq, himplied, hpins⟩ := hfound
            cases heq
            have hrest : ∀ k'' path'', k' :: path = keys.map Key.name ++ k'' :: path'' →
                k :: k' :: path = (q :: keys).map Key.name ++ k'' :: path'' := by
              intro k'' path'' heq
              rw [heq, List.map_cons, ← hq, hkey, List.cons_append]
            have hbelow : Pins s k' path ⟨origin, entries⟩ := hpins
            obtain ⟨horigin, hkept⟩ := ih (fun k'' path'' heq => hf k'' path'' (hrest k'' path'' heq)) hbelow hchild
            exact ⟨_, _, _, rfl, horigin ▸ himplied, hkept⟩
      · rename_i key items span hfind
        split at h
        · obtain ⟨⟨_, child⟩, _, heq⟩ := bind_eq_ok_iff.mp h
          cases heq
          exact ⟨rfl, ht.insert fun hkey => absurd (ht.value_of_find? hfind hkey) not_pins_array⟩
        · cases h
      · cases h

/-- A change below the path of the scalar comes to a table from which the rest of the path leads to it. -/
theorem modify_reaches {α : Type} {dotted : Bool} {f : Table → Except Problem (α × Table)} {keys : List Key}
    {k' : List Char} {path' : List (List Char)} (hpath : k :: path = keys.map Key.name ++ k' :: path')
    (ht : t.Pins s k path) {a : α} {t' : Table} (h : modify dotted f keys t = .ok (a, t')) :
    ∃ u u', u.Pins s k' path' ∧ f u = .ok (a, u') := by
  induction keys generalizing k path t a t' with
  | nil =>
      cases hpath
      exact ⟨t, t', ht, h⟩
  | cons q keys ih =>
      rw [List.map_cons, List.cons_append, List.cons.injEq] at hpath
      obtain ⟨hq, rfl⟩ := hpath
      obtain ⟨key, v, hfind, _, hv⟩ := ht.find? hq.symm
      obtain ⟨k'', path'', hrest⟩ := List.exists_cons_of_ne_nil
        (List.append_ne_nil_of_right_ne_nil (keys.map Key.name) (List.cons_ne_nil k' path'))
      rw [hrest] at hv
      obtain ⟨origin, entries, span, rfl, _, hpins⟩ := hv
      rw [modify, hfind] at h
      simp only at h
      split_ifs at h
      · cases h
      · cases h
      obtain ⟨⟨_, child⟩, hchild, heq⟩ := bind_eq_ok_iff.mp h
      cases heq
      have hbelow : Pins s k'' path'' ⟨origin, entries⟩ := hpins
      exact ih hrest.symm hbelow hchild

theorem modifyAt_eq_ok {α : Type} {dotted : Bool} {keys : List Key} {f : Table → Except Problem (α × Table)}
    {a : α} {t' : Table} (h : modifyAt dotted keys f t = .ok (a, t')) : modify dotted f keys t = .ok (a, t') := by
  rw [modifyAt] at h
  split_ifs at h
  exact h

/-- An entry leaves the scalar alone. -/
theorem Pins.addEntry (ht : t.Pins s k path) {keys : List Key} {key : Key} {value : Value} {t' : Table}
    (h : t.addEntry keys key value = .ok t') : t'.origin = t.origin ∧ t'.Pins s k path := by
  obtain ⟨⟨_, u⟩, hmodify, heq⟩ := bind_eq_ok_iff.mp h
  cases heq
  refine modify_keeps (fun k' path' _ u _ u' hu hrun => ?_) ht (modifyAt_eq_ok hmodify)
  split_ifs at hrun with hdotted hused
  · cases hrun
  · cases hrun
  · cases hrun
    refine ⟨rfl, hu.insert fun hkey => ?_⟩
    obtain ⟨v, hv, _⟩ := hu.lookup?
    rw [hkey, hv] at hused
    exact absurd rfl hused

end Table

namespace Builder

open Table

variable {s : Scalar} {k : List Char} {path : List (List Char)}

/-- A header opens no table that has been opened before, and none in the place of a value. -/
theorem openTable_refuses {h : Header} {u : Table} (hu : u.Pins s h.key.name path) {r : Table × Table} :
    openTable h u ≠ .ok r := by
  intro hopen
  obtain ⟨v, hv, hpins⟩ := hu.lookup?
  rw [openTable, hv] at hopen
  cases path with
  | nil =>
      obtain ⟨_, rfl⟩ := hpins
      cases hopen
  | cons k' path =>
      obtain ⟨origin, entries, span, rfl, himplied, _⟩ := hpins
      simp only [himplied, Bool.false_eq_true, false_and, if_false] at hopen
      cases hopen

/-- The header names nothing that the path leads through. -/
def Clear (k : List Char) (path : List (List Char)) (h : Header) : Prop :=
  ∀ path', k :: path ≠ h.path.map Key.name ++ h.key.name :: path'

theorem openTable_keeps (h : Header) {t t' current : Table}
    (hopen : modifyAt false h.path (openTable h) t = .ok (current, t')) (ht : t.Pins s k path) :
    t'.Pins s k path ∧ Clear k path h := by
  have hmodify := modifyAt_eq_ok hopen
  have hclear : Clear k path h := by
    intro path' hpath
    obtain ⟨u, u', hu, hrun⟩ := modify_reaches hpath ht hmodify
    exact openTable_refuses hu hrun
  refine ⟨(modify_keeps (fun k' path' hpath u a u' hu hrun => ?_) ht hmodify).2, hclear⟩
  have hne : h.key.name ≠ k' := by
    rintro rfl
    exact hclear path' hpath
  rw [openTable] at hrun
  split at hrun
  · cases hrun
    exact ⟨rfl, hu⟩
  · split_ifs at hrun
    · cases hrun
      exact ⟨rfl, hu.erase hne⟩
    · cases hrun
  · cases hrun

/-- The document keeps the scalar wherever it ends. -/
structure Kept (s : Scalar) (k : List Char) (path : List (List Char)) (b : Builder) : Prop where
  root : b.root.Pins s k path
  header : ∃ h, b.header = some h ∧ (h.ofArray = false → Clear k path h)

theorem Kept.close {b : Builder} (hb : b.Kept s k path) {t : Table} (h : b.close = .ok t) : t.Pins s k path := by
  obtain ⟨hroot, header, hheader, hclear⟩ := hb
  rw [Builder.close, hheader] at h
  obtain ⟨⟨_, u⟩, hmodify, heq⟩ := bind_eq_ok_iff.mp h
  cases heq
  refine (modify_keeps (fun k' path' hpath u a u' hu hrun => ?_) hroot (modifyAt_eq_ok hmodify)).2
  -- An array is put neither in the place of a value nor of a table; a table is put where its header has opened it.
  split_ifs at hrun with harray
  · split at hrun
    · rename_i hlookup
      cases hrun
      refine ⟨rfl, hu.insert fun hkey => ?_⟩
      obtain ⟨v, hv, hpins⟩ := hu.lookup?
      rw [hkey, hv] at hlookup
      cases hlookup
      exact absurd hpins not_pins_array
    · cases hrun
    · rename_i hlookup
      cases hrun
      refine ⟨rfl, hu.insert fun hkey => ?_⟩
      obtain ⟨v, hv, _⟩ := hu.lookup?
      rw [hkey, hv] at hlookup
      cases hlookup
  · cases hrun
    refine ⟨rfl, hu.insert fun hkey => ?_⟩
    exact absurd (hkey ▸ hpath) (hclear (Bool.eq_false_of_not_eq_true harray) path')

/-- A header leaves what it closes and opens a table elsewhere. -/
theorem step_header_keeps {b b' : Builder} (hclose : ∀ t, b.close = .ok t → t.Pins s k path) {ofArray : Bool}
    {tokens : List Token} {span : Span} (h : b.step (.header ofArray tokens span) = .ok b') : b'.Kept s k path := by
  obtain ⟨root, hroot, h⟩ := bind_eq_ok_iff.mp h
  obtain ⟨⟨keys, key⟩, _, h⟩ := bind_eq_ok_iff.mp h
  simp only at h
  split_ifs at h with harray
  · cases h
    exact ⟨hclose root hroot, _, rfl, fun hnot => absurd harray (Bool.not_eq_true _ ▸ hnot)⟩
  · obtain ⟨⟨current, root'⟩, hopen, h⟩ := bind_eq_ok_iff.mp h
    cases h
    obtain ⟨hpins, hclear⟩ := openTable_keeps ⟨ofArray, keys, key, span⟩ hopen (hclose root hroot)
    exact ⟨hpins, _, rfl, fun _ => hclear⟩

theorem Kept.step {b b' : Builder} (hb : b.Kept s k path) {statement : Statement} (h : b.step statement = .ok b') :
    b'.Kept s k path := by
  cases statement with
  | header ofArray tokens span => exact step_header_keeps (fun _ => hb.close) h
  | entry tokens node =>
      obtain ⟨_, _, h⟩ := bind_eq_ok_iff.mp h
      obtain ⟨_, _, h⟩ := bind_eq_ok_iff.mp h
      obtain ⟨_, _, h⟩ := bind_eq_ok_iff.mp h
      cases h
      exact ⟨hb.root, hb.header⟩

/-- The table of the last header has the scalar. -/
structure Filling (s : Scalar) (k k' : List Char) (b : Builder) : Prop where
  root : b.root.entries = []
  header : ∃ key span, b.header = some ⟨false, [], key, span⟩ ∧ key.name = k
  explicit : b.current.origin.implied = false
  current : b.current.Pins s k' []

theorem Filling.close {k' : List Char} {b : Builder} (hb : b.Filling s k k') {t : Table} (h : b.close = .ok t) :
    t.Pins s k [k'] := by
  obtain ⟨hroot, ⟨key, span, hheader, hkey⟩, hexplicit, hcurrent⟩ := hb
  rw [Builder.close, hheader] at h
  obtain ⟨⟨_, u⟩, hmodify, heq⟩ := bind_eq_ok_iff.mp h
  cases heq
  cases modifyAt_eq_ok hmodify
  have hentries : (b.root.insert key (b.current.toValue span)).entries = [(key, b.current.toValue span)] := by
    rw [Table.insert, hroot]
    rfl
  rw [Table.Pins, hentries]
  refine ⟨⟨_, List.mem_cons_self, hkey⟩, fun e he _ => ?_⟩
  rw [List.mem_singleton.mp he]
  exact ⟨_, _, _, rfl, hexplicit, hcurrent⟩

theorem Filling.step_entry {k' : List Char} {b b' : Builder} (hb : b.Filling s k k') {tokens : List Token} {node : Node}
    (h : b.step (.entry tokens node) = .ok b') : b'.Filling s k k' := by
  obtain ⟨⟨keys, key⟩, _, h⟩ := bind_eq_ok_iff.mp h
  obtain ⟨value, _, h⟩ := bind_eq_ok_iff.mp h
  obtain ⟨current, hadd, h⟩ := bind_eq_ok_iff.mp h
  cases h
  obtain ⟨horigin, hcurrent⟩ := hb.current.addEntry hadd
  exact ⟨hb.root, hb.header, horigin ▸ hb.explicit, hcurrent⟩

theorem Kept.run {b b' : Builder} {statements : List Statement} (hb : b.Kept s k path)
    (h : statements.foldlM Builder.step b = .ok b') : b'.Kept s k path := by
  induction statements generalizing b with
  | nil =>
      cases h
      exact hb
  | cons statement statements ih =>
      obtain ⟨next, hstep, hmore⟩ := bind_eq_ok_iff.mp h
      exact ih (hb.step hstep) hmore

/-- A value that has been set stays, whatever statements follow. -/
theorem Filling.run {k' : List Char} {b b' : Builder} {statements : List Statement} (hb : b.Filling s k k')
    (h : statements.foldlM Builder.step b = .ok b') {t : Table} (hclose : b'.close = .ok t) : t.Pins s k [k'] := by
  induction statements generalizing b with
  | nil =>
      cases h
      exact hb.close hclose
  | cons statement statements ih =>
      obtain ⟨next, hstep, hmore⟩ := bind_eq_ok_iff.mp h
      cases statement with
      | header ofArray tokens span => exact ((step_header_keeps (fun _ => hb.close) hstep).run hmore).close hclose
      | entry tokens node => exact ih (hb.step_entry hstep) hmore

/-- The first entry of a table fills it. -/
theorem filling_of_first {b : Builder} {name key : List Char} {header statement : Statement}
    (hheader : header.Says (.header name)) (hstatement : statement.Says (.entry key s))
    (h : [header, statement].foldlM step start = .ok b) : b.Filling s name key := by
  obtain ⟨opened, hopen, h⟩ := bind_eq_ok_iff.mp h
  obtain ⟨filled, hfill, heq⟩ := bind_eq_ok_iff.mp h
  cases heq
  obtain ⟨place, span, hplace, hopened⟩ := step_header hheader (rfl : start.close = .ok .opened) nofun
  cases hopened.symm.trans hopen
  let empty : Builder := ⟨.opened, some ⟨false, [], place, span⟩, .opened⟩
  obtain ⟨k, v, hk, hv, hfilled⟩ := step_entry hstatement (rfl : empty.current.origin.dotted = false) nofun
  cases hfilled.symm.trans hfill
  refine ⟨rfl, ⟨place, span, rfl, hplace⟩, rfl, ⟨(k, v), List.mem_cons_self, hk⟩, fun e he _ => ?_⟩
  rw [List.mem_singleton.mp he]
  exact hv

end Builder

/-- A text that begins with a table and a string in it holds that string, whatever follows. -/
theorem Table.parse_first_string {name key body : List Char} (hname : Bare name) (hkey : Bare key) {t : Table}
    (h : parse ('[' :: (name ++ [']']) ++ '\n' :: (key ++ " = ".toList ++ '"' :: body)) = .ok t) :
    ∃ start s, Scalar.ofToken (quotedToken body start) = .ok s ∧ t.Pins s name [key] := by
  obtain ⟨statements, hread, h⟩ := bind_eq_ok_iff.mp h
  obtain ⟨b, hrun, hclose⟩ := bind_eq_ok_iff.mp h
  obtain ⟨header, k, start, more, rfl, hheader, hk⟩ := Document.ofTokens_first_string hname hkey hread
  obtain ⟨opened, hopen, hrun⟩ := bind_eq_ok_iff.mp hrun
  obtain ⟨filled, hfill, hrun⟩ := bind_eq_ok_iff.mp hrun
  obtain ⟨_, _, hvalue⟩ := bind_eq_ok_iff.mp hfill
  obtain ⟨_, hvalue, _⟩ := bind_eq_ok_iff.mp hvalue
  obtain ⟨s, hs, _⟩ := bind_eq_ok_iff.mp hvalue
  have hfirst : [header, .entry [k] (.scalar (quotedToken body start))].foldlM Builder.step .start = .ok filled :=
    bind_eq_ok_iff.mpr ⟨opened, hopen, bind_eq_ok_iff.mpr ⟨filled, hfill, rfl⟩⟩
  exact ⟨start, s, hs, (Builder.filling_of_first hheader (.entry hk hs) hfirst).run hrun hclose⟩

end TemplateTiming.Toml
