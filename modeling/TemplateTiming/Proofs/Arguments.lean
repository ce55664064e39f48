import TemplateTiming.CommandLine.Writer
import TemplateTiming.Proofs.Decimal
import TemplateTiming.Proofs.Result
import TemplateTiming.Proofs.Utf8

/-! Written arguments are read back. An option that is written with its value in one argument is settled by itself:
it sets its own part of the command line and nothing is left pending. Different options set different parts, so their
order is of no account; and behind the mark that ends the options whatever stands there is the file. -/

namespace TemplateTiming.CommandLine

/-- An option of a command line, with its value if it takes one. -/
inductive Given where
  | iterations (n : UInt64)
  | warmup (n : UInt64)
  | label (s : String)
  | format (s : String)
  | config (p : Path)
  | monitor
  | verbose

namespace Given

def option : Given → ValueOption ⊕ Switch
  | iterations _ => .inl .iterations
  | warmup _ => .inl .warmup
  | label _ => .inl .label
  | format _ => .inl .format
  | config _ => .inl .config
  | monitor => .inr .monitor
  | verbose => .inr .verbose

def written : Given → List UInt8
  | iterations n => ValueOption.iterations.written (Utf8.encode (Decimal.digits n.toNat))
  | warmup n => ValueOption.warmup.written (Utf8.encode (Decimal.digits n.toNat))
  | label s => ValueOption.label.written (Utf8.encode s.toList)
  | format s => ValueOption.format.written (Utf8.encode s.toList)
  | config p => ValueOption.config.written p.octets
  | monitor => Switch.monitor.written
  | verbose => Switch.verbose.written

/-- Writes the option into a command line. -/
def put (line : CommandLine) : Given → CommandLine
  | iterations n => { line with iterations := some n }
  | warmup n => { line with warmup := some n }
  | label s => { line with label := some s }
  | format s => { line with format := some s }
  | config p => { line with config := some p }
  | monitor => { line with monitor := true }
  | verbose => { line with verbose := true }

/-- The command line does not have the option yet. -/
def Missing (line : CommandLine) : Given → Prop
  | iterations _ => line.iterations = none
  | warmup _ => line.warmup = none
  | label _ => line.label = none
  | format _ => line.format = none
  | config _ => line.config = none
  | monitor => line.monitor = false
  | verbose => line.verbose = false

/-- Only a path can have a form that is refused. -/
def Nonempty : Given → Prop
  | config p => p.octets ≠ []
  | _ => True

end Given

/-- The options of a command line, in a fixed order. -/
def given (c : CommandLine) : List Given :=
  (c.iterations.map .iterations).toList ++ (c.warmup.map .warmup).toList ++ (c.label.map .label).toList
    ++ (c.format.map .format).toList ++ (c.config.map .config).toList ++ (if c.monitor then [.monitor] else [])
    ++ (if c.verbose then [.verbose] else [])

theorem map_toList_map {α β γ : Type} (o : Option α) (f : α → β) (g : β → γ) :
    (o.map f).toList.map g = (o.map fun a => g (f a)).toList := by
  cases o <;> rfl

theorem optionArguments_eq (c : CommandLine) : c.optionArguments = c.given.map Given.written := by
  simp only [given, optionArguments, List.map_append, map_toList_map, Given.written]
  cases c.monitor <;> cases c.verbose <;> rfl

/-! ### One argument -/

/-- Nothing pending, and options still to come. -/
def State.settled (line : CommandLine) : State := ⟨line, none, false, false⟩

theorem readLong_value (s : State) (o : ValueOption) (value : List UInt8) :
    readLong s (Utf8.encode o.name.toList ++ equals :: value) = giveValue s o value := by
  have hequals : '=' ∉ o.name.toList := by
    cases o <;> decide
  have hkeep : ∀ b ∈ Utf8.encode o.name.toList, decide (b ≠ equals) = true := by
    intro b hb
    refine decide_eq_true fun heq => hequals ?_
    obtain ⟨c, hc, hmem⟩ := List.mem_flatMap.mp hb
    rw [heq, Utf8.mem_encodeChar_ascii (by decide)] at hmem
    rwa [hmem] at hc
  have hname : (Utf8.encode o.name.toList ++ equals :: value).takeWhile (fun b => decide (b ≠ equals)) =
      Utf8.encode o.name.toList := by
    rw [List.takeWhile_append_of_pos hkeep]
    simp
  have hvalue : (Utf8.encode o.name.toList ++ equals :: value).dropWhile (fun b => decide (b ≠ equals)) =
      equals :: value := by
    rw [List.dropWhile_append_of_pos hkeep]
    simp
  have hoption : longName? o.name.toList = some (.inl o) := by
    cases o <;> rfl
  simp only [readLong, hname, hvalue, (Utf8.decode?_eq_some_iff _ _).mpr rfl, Option.bind_some, hoption]

theorem step_value (line : CommandLine) (o : ValueOption) (value : List UInt8) :
    step (.settled line) (o.written value) = (accept line o value).map State.settled := by
  have hlong : o.written value = hyphen :: hyphen :: (Utf8.encode o.name.toList ++ equals :: value) := by
    simp only [ValueOption.written, List.cons_append, List.nil_append, List.append_assoc]
  have hne : o.written value ≠ [hyphen, hyphen] := by
    rw [hlong]
    simp
  have hstep : step (.settled line) (o.written value) =
      readLong (.settled line) (Utf8.encode o.name.toList ++ equals :: value) := by
    unfold step
    rw [if_neg hne, hlong]
    rfl
  rw [hstep, readLong_value]
  exact bind_ok_eq_map (accept line o value) State.settled

theorem step_switch (line : CommandLine) (w : Switch) : step (.settled line) w.written = flip (.settled line) w := by
  cases w <;> rfl

theorem toText_encode (s : String) : toText (Utf8.encode s.toList) = .ok s := by
  rw [toText, (Utf8.decode?_eq_some_iff _ _).mpr rfl]
  simp only [String.ofList_toList]

theorem le_foldl_digits (ds : List Char) (n : Nat) :
    n ≤ ds.foldl (fun n d => 10 * n + Decimal.digitValue d) n := by
  induction ds generalizing n with
  | nil => exact le_rfl
  | cons d ds ih => exact le_trans (by omega) (ih (10 * n + Decimal.digitValue d))

/-- A count that does not become too large with its last digit has not been so before. -/
theorem countFrom_digits {ds : List Char} (hds : ∀ d ∈ ds, Decimal.isDigit d = true) {n m : Nat}
    (hm : ds.foldl (fun n d => 10 * n + Decimal.digitValue d) n = m) (hsize : m < UInt64.size) :
    countFrom n ds = .ok m.toUInt64 := by
  induction ds generalizing n with
  | nil => rw [countFrom, ← hm, List.foldl_nil]
  | cons d ds ih =>
      have hd := hds d List.mem_cons_self
      have hle : 10 * n + Decimal.digitValue d ≤ m := hm ▸ le_foldl_digits ds _
      rw [countFrom, hd]
      simp only [Bool.not_true, Bool.false_eq_true, if_false]
      rw [if_neg (by omega)]
      exact ih (fun c hc => hds c (List.mem_cons_of_mem d hc)) hm

theorem readCount_digits (n : UInt64) : readCount (Decimal.digits n.toNat) = .ok n := by
  obtain ⟨d, ds, hcons⟩ := List.exists_cons_of_ne_nil (Decimal.digits_ne_nil n.toNat)
  have hdigits : ∀ c ∈ d :: ds, Decimal.isDigit c = true := by
    rw [← hcons]
    exact fun c hc => Decimal.isDigit_of_mem_digits hc
  have hplus : d ≠ '+' := by
    rintro rfl
    exact absurd (hdigits '+' List.mem_cons_self) (by decide)
  have hvalue : Decimal.value (d :: ds) = n.toNat := by rw [← hcons, Decimal.value_digits]
  have hcount : countFrom 0 (d :: ds) = .ok n := by
    rw [countFrom_digits hdigits hvalue n.toNat_lt]
    simp
  rw [hcons, readCount]
  · exact hcount
  · rintro rfl
    exact fun _ => hplus rfl
  · rintro c cs rfl
    exact fun _ => hplus rfl

theorem toCount_encode (o : ValueOption) (n : UInt64) :
    toCount o (Utf8.encode (Decimal.digits n.toNat)) = .ok n := by
  have htext : toText (Utf8.encode (Decimal.digits n.toNat)) = .ok (Decimal.text n.toNat) := by
    rw [toText, (Utf8.decode?_eq_some_iff _ _).mpr rfl]
    rfl
  rw [toCount, htext]
  simp only [Decimal.text, String.toList_ofList, readCount_digits, bind, Except.bind]

theorem toPath_octets {p : Path} (hp : p.octets ≠ []) (what : String) : toPath what p.octets = .ok p := by
  rw [toPath, if_neg]
  rwa [List.isEmpty_iff]

/-- An option that is missing yet is written down, and nothing else changes. -/
theorem step_written {line : CommandLine} {g : Given} (hmissing : g.Missing line) (hnonempty : g.Nonempty) :
    step (.settled line) g.written = .ok (.settled (g.put line)) := by
  cases g with
  | iterations n =>
      rw [Given.written, step_value]
      simp only [accept, show line.iterations = none from hmissing, toCount_encode]
      rfl
  | warmup n =>
      rw [Given.written, step_value]
      simp only [accept, show line.warmup = none from hmissing, toCount_encode]
      rfl
  | label s =>
      rw [Given.written, step_value]
      simp only [accept, show line.label = none from hmissing, toText_encode]
      rfl
  | format s =>
      rw [Given.written, step_value]
      simp only [accept, show line.format = none from hmissing, toText_encode]
      rfl
  | config p =>
      rw [Given.written, step_value]
      simp only [accept, show line.config = none from hmissing, toPath_octets (show p.octets ≠ [] from hnonempty)]
      rfl
  | monitor =>
      rw [Given.written, step_switch]
      simp only [flip, settle, State.settled, bind, Except.bind, show line.monitor = false from hmissing]
      rfl
  | verbose =>
      rw [Given.written, step_switch]
      simp only [flip, settle, State.settled, bind, Except.bind, show line.verbose = false from hmissing]
      rfl

/-! ### All arguments -/

namespace Given

variable {a b : Given} {line : CommandLine}

theorem Missing.put (hdistinct : a.option ≠ b.option) (h : b.Missing line) : b.Missing (a.put line) := by
  cases a <;> cases b <;> first | exact h | exact absurd rfl hdistinct

theorem put_comm (hdistinct : a.option ≠ b.option) : b.put (a.put line) = a.put (b.put line) := by
  cases a <;> cases b <;> first | rfl | exact absurd rfl hdistinct

theorem missing_empty (g : Given) : g.Missing empty := by
  cases g <;> rfl

end Given

/-- Options that are given once each are written down one after the other. -/
theorem foldlM_written {gs : List Given} (hdistinct : gs.Pairwise fun a b => a.option ≠ b.option)
    (hnonempty : ∀ g ∈ gs, g.Nonempty) {line : CommandLine} (hmissing : ∀ g ∈ gs, g.Missing line) :
    (gs.map Given.written).foldlM step (.settled line) =
      .ok (.settled (gs.foldl (fun line g => g.put line) line)) := by
  induction gs generalizing line with
  | nil => rfl
  | cons g gs ih =>
      obtain ⟨hg, hdistinct⟩ := List.pairwise_cons.mp hdistinct
      obtain ⟨hgnonempty, hnonempty⟩ := List.forall_mem_cons.mp hnonempty
      obtain ⟨hgmissing, hmissing⟩ := List.forall_mem_cons.mp hmissing
      rw [List.map_cons, List.foldlM_cons, step_written hgmissing hgnonempty, List.foldl_cons]
      exact ih hdistinct hnonempty fun b hb => (hmissing b hb).put (hg b hb)

theorem map_option_sublist {α : Type} (o : Option α) {f : α → Given} {k : ValueOption ⊕ Switch}
    (hf : ∀ a, (f a).option = k) : ((o.map f).toList.map Given.option).Sublist [k] := by
  cases o with
  | none => exact List.nil_sublist [k]
  | some a => exact (hf a) ▸ List.Sublist.refl [(f a).option]

theorem if_option_sublist (on : Bool) (g : Given) : ((if on then [g] else []).map Given.option).Sublist [g.option] := by
  cases on with
  | false => exact List.nil_sublist [g.option]
  | true => exact List.Sublist.refl [g.option]

theorem given_distinct (c : CommandLine) : c.given.Pairwise fun a b => a.option ≠ b.option := by
  have hiterations := map_option_sublist c.iterations fun n => Eq.refl (Given.iterations n).option
  have hwarmup := map_option_sublist c.warmup fun n => Eq.refl (Given.warmup n).option
  have hlabel := map_option_sublist c.label fun s => Eq.refl (Given.label s).option
  have hformat := map_option_sublist c.format fun s => Eq.refl (Given.format s).option
  have hconfig := map_option_sublist c.config fun p => Eq.refl (Given.config p).option
  have hall := (((((hiterations.append hwarmup).append hlabel).append hformat).append hconfig).append
    (if_option_sublist c.monitor .monitor)).append (if_option_sublist c.verbose .verbose)
  simp only [← List.map_append] at hall
  exact List.pairwise_map.mp (List.Nodup.sublist hall (by decide))

/-- The options make up the command line, all but the file. -/
theorem foldl_given (c : CommandLine) :
    c.given.foldl (fun line g => g.put line) empty = { c with input := none } := by
  obtain ⟨input, iterations, warmup, label, format, config, monitor, verbose⟩ := c
  have hmap : ∀ {α : Type} (o : Option α) (f : α → Given) (line : CommandLine),
      (o.map f).toList.foldl (fun line g => g.put line) line = o.elim line fun a => (f a).put line := by
    intro α o f line
    cases o <;> rfl
  simp only [given, List.foldl_append, hmap]
  cases iterations <;> cases warmup <;> cases label <;> cases format <;> cases config <;> cases monitor <;>
    cases verbose <;> rfl

theorem read_eq {arguments : List (List UInt8)} {s : State} (h : arguments.foldlM step .start = .ok s) :
    read arguments = (settle s).map State.line := by
  rw [read, h]
  exact bind_ok_eq_map (settle s) State.line

theorem given_nonempty {c : CommandLine} (hconfig : ∀ p ∈ c.config, p.octets ≠ []) : ∀ g ∈ c.given, g.Nonempty := by
  intro g hg
  cases g with
  | config p =>
      have hp : p ∈ c.config := by simpa [given] using hg
      exact hconfig p hp
  | _ => trivial

theorem option_ne {gs : List Given} (hdistinct : gs.Pairwise fun a b => a.option ≠ b.option) {a b : Given}
    (ha : a ∈ gs) (hb : b ∈ gs) (hab : a ≠ b) : a.option ≠ b.option :=
  have : Std.Symm fun a b : Given => a.option ≠ b.option := ⟨fun _ _ => Ne.symm⟩
  hdistinct.forall ha hb hab

/-- The order of the options is of no account. -/
theorem foldlM_options {c : CommandLine} (hconfig : ∀ p ∈ c.config, p.octets ≠ []) {options : List (List UInt8)}
    (horder : options.Perm c.optionArguments) :
    options.foldlM step .start = .ok (.settled { c with input := none }) := by
  rw [optionArguments_eq] at horder
  obtain ⟨gs, rfl, hperm⟩ : ∃ gs : List Given, options = gs.map Given.written ∧ gs.Perm c.given :=
    (congrFun₂ (List.eq_map_comp_perm Given.written) options c.given).mpr horder
  have hdistinct : gs.Pairwise fun a b => a.option ≠ b.option := (given_distinct c).perm hperm.symm Ne.symm
  have hnonempty : ∀ g ∈ gs, g.Nonempty := fun g hg => given_nonempty hconfig g (hperm.mem_iff.mp hg)
  have hfold : gs.foldl (fun line g => g.put line) empty = c.given.foldl (fun line g => g.put line) empty := by
    refine hperm.foldl_eq' (fun a ha b hb line => ?_) empty
    by_cases hab : a = b
    · rw [hab]
    · exact Given.put_comm (option_ne hdistinct ha hb hab)
  rw [← foldl_given, ← hfold]
  exact foldlM_written hdistinct hnonempty fun g _ => g.missing_empty

/-- **Written arguments are read back**, in whatever order the options stand. Every option carries its value in one
argument, and the file stands behind the mark that ends the options; without a file that mark may stand there too. -/
theorem read_written_arguments {c : CommandLine} (hconfig : ∀ p ∈ c.config, p.octets ≠ [])
    (hinput : ∀ p ∈ c.input, p.octets ≠ []) {options : List (List UInt8)} (horder : options.Perm c.optionArguments) :
    read (options ++ c.operandArguments) = .ok c ∧
    (c.input = none → read (options ++ [[hyphen, hyphen]]) = .ok c) := by
  have hoptions := foldlM_options hconfig horder
  have hend : ∀ {more : List (List UInt8)} {s : State}, more.foldlM step (.settled { c with input := none }) = .ok s →
      read (options ++ more) = (settle s).map State.line := by
    intro more s hmore
    apply read_eq
    rw [List.foldlM_append, hoptions]
    exact hmore
  constructor
  · cases hfile : c.input with
    | none =>
        have hoperand : c.operandArguments = [] := by rw [operandArguments, hfile]
        have hline : { c with input := none } = c := by rw [← hfile]
        rw [hoperand, hend rfl, hline]
        rfl
    | some p =>
        have hoperand : c.operandArguments = [[hyphen, hyphen], p.octets] := by rw [operandArguments, hfile]
        have hline : { c with input := some p } = c := by rw [← hfile]
        have hpending : ([[hyphen, hyphen], p.octets] : List (List UInt8)).foldlM step
            (.settled { c with input := none }) =
              .ok ⟨{ c with input := none }, some (.file p.octets), true, true⟩ := rfl
        rw [hoperand, hend hpending]
        simp only [settle, toPath_octets (hinput p hfile)]
        exact congrArg Except.ok hline
  · intro hfile
    have hline : { c with input := none } = c := by rw [← hfile]
    rw [hend rfl]
    exact congrArg Except.ok hline

/-- The largest counts, values that look like options, and paths that are no text, from the last option to the
first. -/
theorem read_written_arguments_lookalikes :
    let c : CommandLine := ⟨some (Path.ofString "--help"), some 18446744073709551615, some 0, some "--monitor",
      some "-n=5", some ⟨[0x3D, 0xFF, hyphen]⟩, true, true⟩
    (∀ p ∈ c.config, p.octets ≠ []) ∧ (∀ p ∈ c.input, p.octets ≠ []) ∧
      c.optionArguments.reverse.Perm c.optionArguments ∧
      read (c.optionArguments.reverse ++ c.operandArguments) = .ok c := by
  intro c
  have hconfig : ∀ p ∈ c.config, p.octets ≠ [] := by
    rintro p ⟨⟩
    decide
  have hinput : ∀ p ∈ c.input, p.octets ≠ [] := by
    rintro p ⟨⟩
    decide +kernel
  have horder := List.reverse_perm c.optionArguments
  exact ⟨hconfig, hinput, horder, (read_written_arguments hconfig hinput horder).1⟩

end TemplateTiming.CommandLine
