import Mathlib
import TemplateTiming.Proofs.TomlLine

/-! Tables of plain documents. A document that gives every table one header, and every key of a table one value, is
read into a table that holds them all. Entries are kept in the order of their keys, so what is known about them is known
up to their order. -/

namespace TemplateTiming.Toml

/-- A table of a plain document, with its keys and their values. -/
structure Section where
  name : List Char
  fields : List (List Char × Scalar)

def Section.lines (s : Section) : List Line := .header s.name :: s.fields.map fun f => .entry f.1 f.2

/-- The entries stand for the items, in an order of their own. -/
def Holds {α : Type} (name : α → List Char) (meant : α → Value → Prop) (items : List α)
    (entries : List (Key × Value)) : Prop :=
  ∃ stored, List.Forall₂ (fun item e => e.1.name = name item ∧ meant item e.2) items stored ∧ stored.Perm entries

/-- The entry of a key. -/
def FieldValue (f : List Char × Scalar) (v : Value) : Prop := ∃ span, v = .scalar f.2 span

def Section.Stored (s : Section) (v : Value) : Prop :=
  ∃ origin entries span, v = .table origin entries span ∧ Holds Prod.fst FieldValue s.fields entries

/-! ### Entries -/

theorem insertEntry_perm {key : Key} {entries : List (Key × Value)} (hnew : ∀ e ∈ entries, e.1.name ≠ key.name)
    (value : Value) : (Table.insertEntry key value entries).Perm ((key, value) :: entries) := by
  induction entries with
  | nil => exact List.Perm.refl _
  | cons e entries ih =>
      obtain ⟨k, v⟩ := e
      obtain ⟨he, hnew⟩ := List.forall_mem_cons.mp hnew
      rw [Table.insertEntry, if_neg (Ne.symm he)]
      split_ifs with hless
      · exact List.Perm.refl _
      · exact ((ih hnew).cons (k, v)).trans (List.Perm.swap (key, value) (k, v) entries)

theorem find?_eq_none_of_new {name : List Char} {entries : List (Key × Value)} (hnew : ∀ e ∈ entries, e.1.name ≠ name) :
    entries.find? (fun e => decide (e.1.name = name)) = none := by
  rw [List.find?_eq_none]
  intro e he heq
  exact hnew e he (of_decide_eq_true heq)

theorem lookup?_eq_none_of_new {name : List Char} {t : Table} (hnew : ∀ e ∈ t.entries, e.1.name ≠ name) :
    t.lookup? name = none := by
  rw [Table.lookup?, find?_eq_none_of_new hnew]
  rfl

section Holds

variable {α : Type} {name : α → List Char} {meant : α → Value → Prop} {items : List α} {entries : List (Key × Value)}

theorem holds_nil : Holds name meant [] [] := ⟨[], .nil, .nil⟩

theorem Holds.names (h : Holds name meant items entries) :
    (entries.map fun e => e.1.name).Perm (items.map name) := by
  obtain ⟨stored, hstored, hperm⟩ := h
  have hnames : stored.map (fun e => e.1.name) = items.map name := by
    clear hperm
    induction hstored with
    | nil => rfl
    | cons hhead _ ih => rw [List.map_cons, List.map_cons, hhead.1, ih]
  rw [← hnames]
  exact (hperm.map _).symm

/-- Every entry stands for an item. -/
theorem Holds.item (h : Holds name meant items entries) {e : Key × Value} (he : e ∈ entries) :
    ∃ item ∈ items, e.1.name = name item ∧ meant item e.2 := by
  obtain ⟨stored, hstored, hperm⟩ := h
  have hmem : e ∈ stored := hperm.mem_iff.mpr he
  clear hperm he
  induction hstored with
  | nil => cases hmem
  | cons hhead _ ih =>
      rename_i item first _ _ _
      rcases List.mem_cons.mp hmem with rfl | hmem
      · exact ⟨item, List.mem_cons_self, hhead⟩
      · obtain ⟨other, hother, hmeant⟩ := ih hmem
        exact ⟨other, List.mem_cons_of_mem item hother, hmeant⟩

theorem Holds.new (h : Holds name meant items entries) {n : List Char} (hn : n ∉ items.map name) :
    ∀ e ∈ entries, e.1.name ≠ n := by
  rintro e he rfl
  exact hn (h.names.mem_iff.mp (List.mem_map_of_mem he))

theorem Holds.insert (h : Holds name meant items entries) {item : α} {key : Key} {value : Value}
    (hkey : key.name = name item) (hvalue : meant item value) (hnew : name item ∉ items.map name) :
    Holds name meant (items ++ [item]) (Table.insertEntry key value entries) := by
  have hentries := insertEntry_perm (h.new (hkey ▸ hnew)) value
  obtain ⟨stored, hstored, hperm⟩ := h
  refine ⟨stored ++ [(key, value)], List.rel_append hstored (.cons ⟨hkey, hvalue⟩ .nil), ?_⟩
  exact (List.perm_append_singleton _ _).trans ((hperm.cons _).trans hentries.symm)

theorem not_mem_of_nodup {item : α} {more : List α} (h : ((items ++ item :: more).map name).Nodup) :
    name item ∉ items.map name := by
  rw [List.map_append, List.map_cons, List.nodup_middle, List.nodup_cons, List.mem_append, not_or] at h
  exact h.1.1

end Holds

/-! ### Statements -/

theorem keysOf_singleton {token : Token} {name : List Char} (h : Quotation.key token = .ok name) :
    keysOf [token] = .ok ([], ⟨name, ⟨token.start, token.stop⟩⟩) := by
  simp [keysOf, h, bind, Except.bind, pure, Except.pure]

theorem addEntry_new {t : Table} {key : Key} (horigin : t.origin.dotted = false)
    (hnew : ∀ e ∈ t.entries, e.1.name ≠ key.name) (value : Value) :
    t.addEntry [] key value = .ok (t.insert key value) := by
  simp [Table.addEntry, Table.modifyAt, Table.modify, Table.pathLimit, horigin, lookup?_eq_none_of_new hnew, bind,
    Except.bind]

namespace Builder

/-- What has been read so far makes up these tables. -/
def Complete (secs : List Section) (b : Builder) : Prop :=
  ∃ root, b.close = .ok root ∧ Holds Section.name Section.Stored secs root.entries

theorem complete_start : Complete [] .start := ⟨.opened, rfl, holds_nil⟩

theorem step_entry {key : List Char} {value : Scalar} {statement : Statement}
    (h : statement.Says (.entry key value)) {b : Builder} (hdotted : b.current.origin.dotted = false)
    (hnew : ∀ e ∈ b.current.entries, e.1.name ≠ key) :
    ∃ k v, k.name = key ∧ FieldValue (key, value) v ∧
      step b statement = .ok { b with current := b.current.insert k v } := by
  cases h with
  | entry hkey hvalue =>
      rename_i k v
      refine ⟨⟨key, ⟨k.start, k.stop⟩⟩, .scalar value ⟨v.start, v.stop⟩, rfl, ⟨_, rfl⟩, ?_⟩
      have hadd := @addEntry_new b.current ⟨key, ⟨k.start, k.stop⟩⟩ hdotted hnew (.scalar value ⟨v.start, v.stop⟩)
      simp only [step, keysOf_singleton hkey, Value.ofNode, hvalue, hadd, bind, Except.bind]

theorem step_header {name : List Char} {statement : Statement} (h : statement.Says (.header name)) {b : Builder}
    {root : Table} (hclose : b.close = .ok root) (hnew : ∀ e ∈ root.entries, e.1.name ≠ name) :
    ∃ key span, key.name = name ∧ step b statement = .ok ⟨root, some ⟨false, [], key, span⟩, .opened⟩ := by
  cases h with
  | header hname =>
      rename_i token span
      refine ⟨⟨name, ⟨token.start, token.stop⟩⟩, span, rfl, ?_⟩
      simp [step, hclose, keysOf_singleton hname, Table.modifyAt, Table.modify, Table.pathLimit, openTable,
        lookup?_eq_none_of_new hnew, bind, Except.bind]

/-- Every field of a table is put among its entries. -/
theorem foldlM_fields {fields : List (List Char × Scalar)} {statements : List Statement}
    (h : List.Forall₂ Statement.Says statements (fields.map fun f => .entry f.1 f.2)) (done : List (List Char × Scalar))
    (hkeys : ((done ++ fields).map Prod.fst).Nodup) (b : Builder) (hdotted : b.current.origin.dotted = false)
    (hdone : Holds Prod.fst FieldValue done b.current.entries) :
    ∃ current, statements.foldlM step b = .ok { b with current := current } ∧
      Holds Prod.fst FieldValue (done ++ fields) current.entries := by
  induction fields generalizing statements done b with
  | nil =>
      cases h
      exact ⟨b.current, rfl, by rwa [List.append_nil]⟩
  | cons f fields ih =>
      cases h with
      | cons hfirst hmore =>
          have hf := not_mem_of_nodup hkeys
          obtain ⟨k, v, hk, hv, hstep⟩ := step_entry hfirst hdotted (hdone.new hf)
          rw [List.append_cons] at hkeys ⊢
          obtain ⟨current, hcurrent, hall⟩ := ih hmore (done ++ [f]) hkeys { b with current := b.current.insert k v }
            hdotted (hdone.insert hk hv hf)
          refine ⟨current, ?_, hall⟩
          rw [List.foldlM_cons, hstep]
          exact hcurrent

/-- A table is complete with its last line. -/
theorem foldlM_section {s : Section} {statements : List Statement} (h : List.Forall₂ Statement.Says statements s.lines)
    (hkeys : (s.fields.map Prod.fst).Nodup) {done : List Section} (hs : s.name ∉ done.map Section.name) {b : Builder}
    (hb : Complete done b) : ∃ b', statements.foldlM step b = .ok b' ∧ Complete (done ++ [s]) b' := by
  obtain ⟨root, hclose, hdone⟩ := hb
  cases h with
  | cons hheader hfields =>
      obtain ⟨key, span, hkey, hopen⟩ := step_header hheader hclose (hdone.new hs)
      obtain ⟨current, hcurrent, hall⟩ :=
        foldlM_fields hfields [] hkeys ⟨root, some ⟨false, [], key, span⟩, .opened⟩ rfl holds_nil
      refine ⟨⟨root, some ⟨false, [], key, span⟩, current⟩, ?_, root.insert key (current.toValue span), rfl, ?_⟩
      · rw [List.foldlM_cons, hopen]
        exact hcurrent
      · exact hdone.insert hkey ⟨_, _, _, rfl, hall⟩ hs

theorem foldlM_sections {secs : List Section} {statements : List Statement}
    (h : List.Forall₂ Statement.Says statements (secs.flatMap Section.lines)) (done : List Section)
    (hnames : ((done ++ secs).map Section.name).Nodup) (hkeys : ∀ s ∈ secs, (s.fields.map Prod.fst).Nodup) (b : Builder)
    (hb : Complete done b) : ∃ b', statements.foldlM step b = .ok b' ∧ Complete (done ++ secs) b' := by
  induction secs generalizing statements done b with
  | nil =>
      cases h
      exact ⟨b, rfl, by rwa [List.append_nil]⟩
  | cons s secs ih =>
      obtain ⟨hskeys, hkeys⟩ := List.forall_mem_cons.mp hkeys
      have hs := not_mem_of_nodup hnames
      rw [List.append_cons] at hnames ⊢
      rw [List.flatMap_cons] at h
      obtain ⟨b', hfirst, hb'⟩ := foldlM_section (List.forall₂_take_append _ _ _ h) hskeys hs hb
      obtain ⟨b'', hmore, hb''⟩ := ih (List.forall₂_drop_append _ _ _ h) (done ++ [s]) hnames hkeys b' hb'
      refine ⟨b'', ?_, hb''⟩
      rw [← List.take_append_drop s.lines.length statements, List.foldlM_append, hfirst]
      exact hmore

end Builder

/-- A plain document in which neither a table nor a key of a table comes twice is read into tables with those
entries. -/
theorem Table.parse_sections {text : List Char} {secs : List Section}
    (h : Line.AllWritten text (secs.flatMap Section.lines)) (hnames : (secs.map Section.name).Nodup)
    (hkeys : ∀ s ∈ secs, (s.fields.map Prod.fst).Nodup) :
    ∃ t, parse text = .ok t ∧ Holds Section.name Section.Stored secs t.entries := by
  obtain ⟨statements, hsays, hread⟩ := h.statements
  obtain ⟨b, hrun, t, hclose, hholds⟩ := Builder.foldlM_sections hsays [] hnames hkeys .start Builder.complete_start
  refine ⟨t, ?_, hholds⟩
  rw [parse, hread]
  exact bind_eq_ok_iff.mpr ⟨statements, rfl, bind_eq_ok_iff.mpr ⟨b, hrun, hclose⟩⟩

end TemplateTiming.Toml
