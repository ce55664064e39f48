import TemplateTiming.Proofs.Batch
import TemplateTiming.Proofs.Utf8

/-! Runs with a converter whose outcomes are fixed beforehand. The first outcome that is a failure decides how many
calls a run makes and how it ends; of the outcomes that are texts nothing is seen. -/

namespace TemplateTiming

/-- Of the calls behind the first `calls` ones number `i`, counted from 0, fails with `e`, and none before it
fails. -/
structure FirstFailure (outcome : Nat → Except Error String) (calls i : Nat) (e : Error) : Prop where
  fails : outcome (calls + i) = .error e
  before : ∀ j < i, ∃ text, outcome (calls + j) = .ok text

theorem FirstFailure.succ {outcome : Nat → Except Error String} {calls i : Nat} {e : Error}
    (h : FirstFailure outcome calls (i + 1) e) :
    FirstFailure outcome (calls + 1) i e where
  fails := by
    rw [Nat.add_assoc, Nat.add_comm 1 i]
    exact h.fails
  before := by
    intro j hj
    rw [Nat.add_assoc, Nat.add_comm 1 j]
    exact h.before (j + 1) (Nat.succ_lt_succ hj)

namespace Engine

variable {name : String} {outcome : Nat → Except Error String} {text : String}

/-- One failing call ends the batch, one that succeeds is counted and leaves the rest as it is. -/
theorem convertTimes_scripted_succ (n calls : Nat) (log : List LogEvent) (seen : List String) :
    convertTimes (Converter.scripted name outcome).recorded text (n + 1) log (calls, seen) =
      match outcome calls with
      | .error e => ⟨some e, log, (calls + 1, text :: seen)⟩
      | .ok _ => convertTimes (Converter.scripted name outcome).recorded text n log (calls + 1, text :: seen) := by
  cases hcall : outcome calls with
  | error e => simp only [convertTimes, Converter.recorded, Converter.scripted, hcall, List.append_nil]
  | ok out => simp only [convertTimes, Converter.recorded, Converter.scripted, hcall, List.append_nil]

theorem convertTimes_scripted_of_ok {n calls : Nat} (log : List LogEvent) (seen : List String)
    (hok : ∀ i < n, ∃ out, outcome (calls + i) = .ok out) :
    convertTimes (Converter.scripted name outcome).recorded text n log (calls, seen) =
      ⟨none, log, (calls + n, List.replicate n text ++ seen)⟩ := by
  induction n generalizing calls seen with
  | zero => rfl
  | succ n ih =>
      obtain ⟨out, hout⟩ := hok 0 (Nat.succ_pos n)
      rw [Nat.add_zero] at hout
      have hrest : ∀ i < n, ∃ out, outcome (calls + 1 + i) = .ok out := by
        intro i hi
        rw [Nat.add_assoc, Nat.add_comm 1 i]
        exact hok (i + 1) (Nat.succ_lt_succ hi)
      rw [convertTimes_scripted_succ, hout]
      simp only
      rw [ih (text :: seen) hrest, Nat.add_assoc, Nat.add_comm 1 n, List.replicate_succ', List.append_assoc]
      rfl

theorem convertTimes_scripted_of_failure {n calls i : Nat} {e : Error} (log : List LogEvent) (seen : List String)
    (hi : i < n) (h : FirstFailure outcome calls i e) :
    convertTimes (Converter.scripted name outcome).recorded text n log (calls, seen) =
      ⟨some e, log, (calls + (i + 1), List.replicate (i + 1) text ++ seen)⟩ := by
  induction i generalizing n calls seen with
  | zero =>
      obtain ⟨n, rfl⟩ : ∃ k, n = k + 1 := ⟨n - 1, by omega⟩
      have hfails := h.fails
      rw [Nat.add_zero] at hfails
      rw [convertTimes_scripted_succ, hfails]
      rfl
  | succ i ih =>
      obtain ⟨n, rfl⟩ : ∃ k, n = k + 1 := ⟨n - 1, by omega⟩
      obtain ⟨out, hout⟩ := h.before 0 (Nat.succ_pos i)
      rw [Nat.add_zero] at hout
      rw [convertTimes_scripted_succ, hout]
      simp only
      rw [ih (text :: seen) (Nat.lt_of_succ_lt_succ hi) h.succ, Nat.add_assoc, Nat.add_comm 1 (i + 1),
        List.replicate_succ' (n := i + 1), List.append_assoc]
      rfl

/-- Among the next `n` outcomes there is a first failure, unless none of them is one. -/
theorem exists_firstFailure_or_ok (outcome : Nat → Except Error String) (n calls : Nat) :
    (∃ i < n, ∃ e, FirstFailure outcome calls i e) ∨ ∀ i < n, ∃ out, outcome (calls + i) = .ok out := by
  induction n with
  | zero => exact Or.inr (fun i hi => absurd hi (Nat.not_lt_zero i))
  | succ n ih =>
      rcases ih with ⟨i, hi, e, hfirst⟩ | hok
      · exact Or.inl ⟨i, Nat.lt_succ_of_lt hi, e, hfirst⟩
      · cases hlast : outcome (calls + n) with
        | error e => exact Or.inl ⟨n, Nat.lt_succ_self n, e, hlast, hok⟩
        | ok out =>
            refine Or.inr (fun i hi => ?_)
            rcases Nat.lt_succ_iff_lt_or_eq.mp hi with hlt | rfl
            · exact hok i hlt
            · exact ⟨out, hlast⟩

/-- Scripts with the same failures make the same batches. -/
theorem convertTimes_scripted_congr {outcome' : Nat → Except Error String}
    (h : ∀ i e, outcome' i = .error e ↔ outcome i = .error e) (n : Nat) (log : List LogEvent)
    (s : Nat × List String) :
    convertTimes (Converter.scripted name outcome').recorded text n log s =
      convertTimes (Converter.scripted name outcome).recorded text n log s := by
  obtain ⟨calls, seen⟩ := s
  induction n generalizing calls seen with
  | zero => rfl
  | succ n ih =>
      rw [convertTimes_scripted_succ, convertTimes_scripted_succ]
      cases hcall : outcome calls with
      | error e => rw [(h calls e).mpr hcall]
      | ok out =>
          cases hcall' : outcome' calls with
          | error e =>
              rw [(h calls e).mp hcall'] at hcall
              cases hcall
          | ok out' => exact ih (calls + 1) (text :: seen)

/-- A run uses its converter only for the name and for batches. -/
theorem run_with_converter {σ : Type} (e : Engine σ) (c : Converter σ) (t : Template) (m : Measured)
    (hname : c.name = e.converter.name)
    (hbatch : ∀ n log s, convertTimes c t.content n log s = convertTimes e.converter t.content n log s) :
    ({ e with converter := c } : Engine σ).run t m =
      { e.run t m with engine := { (e.run t m).engine with converter := c } } := by
  have hwarm : ({ e with converter := c } : Engine σ).warmUp t = e.warmUp t := hbatch _ _ _
  have htimed : ∀ warm, ({ e with converter := c } : Engine σ).timedLoop t warm = e.timedLoop t warm := by
    intro warm
    simp only [timedLoop, hbatch]
  simp only [run, hwarm, htimed, conclude, opening, report, hname]
  cases (e.warmUp t).failure with
  | some failure => rfl
  | none =>
      simp only
      cases (e.timedLoop t (e.warmUp t)).failure with
      | some failure => rfl
      | none => rfl

/-- An engine whose converter follows a script and keeps what it is called with. -/
def scriptedEngine (name : String) (outcome : Nat → Except Error String) (calls : Nat) (seen : List String)
    (iterations warmup : UInt64) (label : String) (monitor : Monitor) : Engine (Nat × List String) :=
  ⟨(Converter.scripted name outcome).recorded, (calls, seen), iterations, warmup, label, monitor⟩

/-- **How often a run converts, and how it ends.** The converter is asked for the text of the template, once for
each warm-up and each iteration, until a call fails; that failure is the result, and otherwise there is a report,
which shows the settings of the engine. Changing the texts that successful calls yield changes nothing. -/
theorem run_scripted_calls (name : String) (outcome : Nat → Except Error String) (calls : Nat) (seen : List String)
    (iterations warmup : UInt64) (label : String) (monitor : Monitor) (t : Template) (m : Measured) :
    let total := warmup.toNat + iterations.toNat
    let run := (scriptedEngine name outcome calls seen iterations warmup label monitor).run t m
    (∀ i < total, ∀ e, FirstFailure outcome calls i e →
      run.result = .error e ∧
        run.engine.state = (calls + (i + 1), List.replicate (i + 1) t.content ++ seen)) ∧
    ((∀ i < total, ∃ out, outcome (calls + i) = .ok out) →
      run.result = .ok {
        label := label
        converter := name
        input := t.path
        inputBytes := t.content.utf8ByteSize
        iterations := iterations
        warmup := warmup
        elapsed := m.elapsed
        startedAt := m.startedAt } ∧
        run.engine.state = (calls + total, List.replicate total t.content ++ seen)) ∧
    ((∃ e, run.result = .error e) ↔ ∃ i < total, ∃ e, outcome (calls + i) = .error e) ∧
    ∀ outcome' : Nat → Except Error String, (∀ i e, outcome' i = .error e ↔ outcome i = .error e) →
      (scriptedEngine name outcome' calls seen iterations warmup label monitor).run t m =
        { run with engine := { run.engine with converter := (Converter.scripted name outcome').recorded } } := by
  intro total run
  set engine := scriptedEngine name outcome calls seen iterations warmup label monitor
  have hfailure : ∀ i < total, ∀ e, FirstFailure outcome calls i e →
      engine.conversions t = ⟨some e, [], (calls + (i + 1), List.replicate (i + 1) t.content ++ seen)⟩ :=
    fun i hi e hfirst => convertTimes_scripted_of_failure [] seen hi hfirst
  have hsuccess : (∀ i < total, ∃ out, outcome (calls + i) = .ok out) →
      engine.conversions t = ⟨none, [], (calls + total, List.replicate total t.content ++ seen)⟩ :=
    fun hok => convertTimes_scripted_of_ok [] seen hok
  have hresult : run.result = _ := run_result engine t m
  have hstate : run.engine.state = (engine.conversions t).state := by
    rw [show run.engine = _ from run_engine engine t m]
  refine ⟨?_, ?_, ?_, ?_⟩
  · intro i hi e hfirst
    rw [hresult, hstate, hfailure i hi e hfirst]
    exact ⟨rfl, rfl⟩
  · intro hok
    rw [hresult, hstate, hsuccess hok, ← Utf8.size_eq_utf8ByteSize]
    exact ⟨rfl, rfl⟩
  · constructor
    · rintro ⟨e, he⟩
      rcases exists_firstFailure_or_ok outcome total calls with ⟨i, hi, e', hfirst⟩ | hok
      · exact ⟨i, hi, e', hfirst.fails⟩
      · rw [hresult, hsuccess hok] at he
        cases he
    · rintro ⟨i, hi, e, he⟩
      rcases exists_firstFailure_or_ok outcome total calls with ⟨j, hj, e', hfirst⟩ | hok
      · rw [hresult, hfailure j hj e' hfirst]
        exact ⟨e', rfl⟩
      · obtain ⟨out, hout⟩ := hok i hi
        rw [hout] at he
        cases he
  · intro outcome' hsame
    exact run_with_converter engine (Converter.scripted name outcome').recorded t m rfl
      (convertTimes_scripted_congr hsame)

/-- The first timed conversion behind two warm-up ones fails: of five calls three are made. -/
theorem run_scripted_calls_border :
    let outcome : Nat → Except Error String := fun i => if i = 7 then .error (.render "bad size") else .ok "page"
    let t : Template := ⟨Path.ofString "/a.mjml", "<mjml/>"⟩
    let m : Measured := ⟨.epoch, .zero, none, none, none⟩
    let run := (scriptedEngine "probe" outcome 5 [] 3 2 "mjml" (.new true)).run t m
    FirstFailure outcome 5 2 (.render "bad size") ∧ run.result = .error (.render "bad size") ∧
      run.engine.state = (8, ["<mjml/>", "<mjml/>", "<mjml/>"]) := by
  intro outcome t m run
  have hfirst : FirstFailure outcome 5 2 (.render "bad size") :=
    ⟨rfl, fun j hj => ⟨"page", if_neg (by omega)⟩⟩
  exact ⟨hfirst, (run_scripted_calls "probe" outcome 5 [] 3 2 "mjml" (.new true) t m).1 2 (by decide) _ hfirst⟩

end Engine

end TemplateTiming
