import TemplateTiming.Engine

/-! Conversions in a row. The log that a batch starts with is only carried along, and a batch of `a + b`
conversions is a batch of `a` and, unless that fails, one of `b`; so the warm-up and the timed loop of a run are
one batch. -/

namespace TemplateTiming.Engine

variable {σ : Type}

theorem convertTimes_log (c : Converter σ) (text : String) (n : Nat) (log : List LogEvent) (s : σ) :
    convertTimes c text n log s =
      ⟨(convertTimes c text n [] s).failure, log ++ (convertTimes c text n [] s).log,
        (convertTimes c text n [] s).state⟩ := by
  induction n generalizing log s with
  | zero => simp only [convertTimes, List.append_nil]
  | succ n ih =>
      rcases hcall : c.convert s text with ⟨⟨outcome, more⟩, next⟩
      cases outcome with
      | error e => simp only [convertTimes, hcall, List.nil_append]
      | ok out =>
          simp only [convertTimes, hcall, List.nil_append]
          rw [ih (log ++ more), ih more, List.append_assoc]

theorem convertTimes_add (c : Converter σ) (text : String) (a b : Nat) (log : List LogEvent) (s : σ) :
    convertTimes c text (a + b) log s =
      match (convertTimes c text a log s).failure with
      | some _ => convertTimes c text a log s
      | none => convertTimes c text b (convertTimes c text a log s).log (convertTimes c text a log s).state := by
  induction a generalizing log s with
  | zero => simp only [convertTimes, Nat.zero_add]
  | succ a ih =>
      rcases hcall : c.convert s text with ⟨⟨outcome, more⟩, next⟩
      rw [Nat.add_right_comm]
      cases outcome with
      | error e => simp only [convertTimes, hcall]
      | ok out =>
          simp only [convertTimes, hcall]
          exact ih (log ++ more) next

/-- All conversions of a run: those of the warm-up, and those of the timed loop behind them. -/
def conversions (e : Engine σ) (t : Template) : Batch σ :=
  convertTimes e.converter t.content (e.warmup.toNat + e.iterations.toNat) [] e.state

theorem conversions_eq (e : Engine σ) (t : Template) :
    e.conversions t =
      ⟨(e.timedLoop t (e.warmUp t)).failure, (e.warmUp t).log ++ (e.timedLoop t (e.warmUp t)).log,
        (e.timedLoop t (e.warmUp t)).state⟩ := by
  rw [conversions, convertTimes_add]
  change (match (e.warmUp t).failure with
    | some _ => e.warmUp t
    | none => convertTimes e.converter t.content e.iterations.toNat (e.warmUp t).log (e.warmUp t).state) = _
  rcases hwarm : e.warmUp t with ⟨failure, log, s⟩
  cases failure with
  | some err => simp only [timedLoop, List.append_nil]
  | none =>
      simp only [timedLoop]
      exact convertTimes_log e.converter t.content e.iterations.toNat log s

/-- A run fails with the first conversion that fails, and reports otherwise. -/
theorem run_result (e : Engine σ) (t : Template) (m : Measured) :
    (e.run t m).result =
      match (e.conversions t).failure with
      | some err => .error err
      | none => .ok (e.report t m) := by
  rw [conversions_eq, run, conclude]
  rcases hwarm : e.warmUp t with ⟨failure, log, s⟩
  cases failure with
  | some err => rfl
  | none =>
      simp only
      cases (e.timedLoop t ⟨none, log, s⟩).failure with
      | some err => rfl
      | none => rfl

/-- What a run leaves behind is the state of the converter and what the monitor has seen. -/
theorem run_engine (e : Engine σ) (t : Template) (m : Measured) :
    (e.run t m).engine = { e with state := (e.conversions t).state, monitor := (e.run t m).engine.monitor } := by
  rw [conversions_eq, run, conclude]
  rcases hwarm : e.warmUp t with ⟨failure, log, s⟩
  cases failure with
  | some err => rfl
  | none =>
      simp only
      cases (e.timedLoop t ⟨none, log, s⟩).failure with
      | some err => rfl
      | none => rfl

end TemplateTiming.Engine
