import TemplateTiming.Proofs.Run

/-! An engine in use. Settings are changed and runs are made in any order, over one converter that only knows how often
it has been called. Each run is what a fresh engine makes of it that has the settings last set and whose converter
starts where the one before has stopped: a run leaves nothing behind but its calls, also if it fails. -/

namespace TemplateTiming

/-- The report without what the clock has said. -/
def Report.untimed (r : Report) : Report := { r with elapsed := .zero, startedAt := .epoch }

namespace Engine

/-- What can be done with an engine. -/
inductive Step where
  | iterations (n : UInt64)
  | warmup (n : UInt64)
  | label (text : String)
  | monitoring (enabled : Bool)
  | run (t : Template) (m : Measured)

namespace Step

def iterations? : Step → Option UInt64
  | .iterations n => some n
  | _ => none

def warmup? : Step → Option UInt64
  | .warmup n => some n
  | _ => none

def label? : Step → Option String
  | .label text => some text
  | _ => none

def monitoring? : Step → Option Bool
  | .monitoring enabled => some enabled
  | _ => none

end Step

/-- The last value that some steps set, or the initial one. -/
def lastSet {α : Type} (value? : Step → Option α) (initial : α) (steps : List Step) : α :=
  (steps.filterMap value?).getLast?.getD initial

theorem lastSet_concat {α : Type} (value? : Step → Option α) (initial : α) (steps : List Step) (step : Step) :
    lastSet value? initial (steps ++ [step]) = (value? step).getD (lastSet value? initial steps) := by
  unfold lastSet
  rw [List.filterMap_append, List.getLast?_append, List.filterMap_cons]
  cases value? step <;> rfl

section Session

variable {σ : Type}

/-- A new engine, with the defaults or with given settings. -/
def make (c : Converter σ) (s : σ) : Option Settings → Engine σ
  | none => new c s
  | some settings => ofSettings c s settings

/-- The engine after a step. -/
def perform (e : Engine σ) : Step → Engine σ
  | .iterations n => e.withIterations n
  | .warmup n => e.withWarmup n
  | .label text => e.withLabel text
  | .monitoring enabled => e.withMonitoring enabled
  | .run t m => (e.run t m).engine

def performAll (e : Engine σ) (steps : List Step) : Engine σ := steps.foldl perform e

/-- The results of the runs among some steps, in order. -/
def results (e : Engine σ) : List Step → List (Except Error Report)
  | [] => []
  | .run t m :: rest => (e.run t m).result :: results (e.perform (.run t m)) rest
  | step :: rest => results (e.perform step) rest

theorem run_settings (e : Engine σ) (t : Template) (m : Measured) :
    (e.run t m).engine.converter = e.converter ∧ (e.run t m).engine.iterations = e.iterations ∧
      (e.run t m).engine.warmup = e.warmup ∧ (e.run t m).engine.label = e.label := by
  rw [run_engine]
  exact ⟨rfl, rfl, rfl, rfl⟩

theorem perform_converter (e : Engine σ) (step : Step) : (e.perform step).converter = e.converter := by
  cases step with
  | run t m => exact (run_settings e t m).1
  | _ => rfl

theorem perform_iterations (e : Engine σ) (step : Step) :
    (e.perform step).iterations = step.iterations?.getD e.iterations := by
  cases step with
  | run t m => exact (run_settings e t m).2.1
  | _ => rfl

theorem perform_warmup (e : Engine σ) (step : Step) : (e.perform step).warmup = step.warmup?.getD e.warmup := by
  cases step with
  | run t m => exact (run_settings e t m).2.2.1
  | _ => rfl

theorem perform_label (e : Engine σ) (step : Step) : (e.perform step).label = step.label?.getD e.label := by
  cases step with
  | run t m => exact (run_settings e t m).2.2.2
  | _ => rfl

end Session

section Scripted

variable {name : String} {outcome : Nat → Except Error String}

/-- A fresh engine with what `made` and then `before` have set, over a converter that has been called `calls` times
already. -/
def fresh (name : String) (outcome : Nat → Except Error String) (made : Engine Nat) (before : List Step) (calls : Nat) :
    Engine Nat :=
  ((((new (Converter.scripted name fun i => outcome (calls + i)) 0).withIterations
    (lastSet Step.iterations? made.iterations before)).withWarmup
    (lastSet Step.warmup? made.warmup before)).withLabel
    (lastSet Step.label? made.label before)).withMonitoring
    (lastSet Step.monitoring? made.monitor.enabled before)

/-- The runs among some steps, each made by a fresh engine and timed by another clock. Behind `before` the converter
has been called `calls` times. -/
def freshRuns (name : String) (outcome : Nat → Except Error String) (made : Engine Nat) (clock : List Step → Measured) :
    List Step → Nat → List Step → List (Run Nat)
  | _, _, [] => []
  | before, calls, .run t m :: rest =>
    let run := (fresh name outcome made before calls).run t (clock before)
    run :: freshRuns name outcome made clock (before ++ [.run t m]) (calls + run.engine.state) rest
  | before, calls, step :: rest => freshRuns name outcome made clock (before ++ [step]) calls rest

/-- A script from a later call on makes the same batches, and the calls before come on top. -/
theorem convertTimes_shift (text : String) (n calls : Nat) (log : List LogEvent) (s : Nat) :
    convertTimes (Converter.scripted name outcome) text n log (calls + s) =
      let batch := convertTimes (Converter.scripted name fun i => outcome (calls + i)) text n log s
      ⟨batch.failure, batch.log, calls + batch.state⟩ := by
  induction n generalizing log s with
  | zero => rfl
  | succ n ih =>
      cases hcall : outcome (calls + s) with
      | error e => simp only [convertTimes, Converter.scripted, hcall]; rfl
      | ok out =>
          simp only [convertTimes, Converter.scripted, hcall]
          exact ih (log ++ []) (s + 1)

/-- What an engine is like after the steps `before`, as far as the results of its runs depend on it. -/
structure Follows (name : String) (outcome : Nat → Except Error String) (made : Engine Nat) (before : List Step)
    (calls : Nat) (e : Engine Nat) : Prop where
  converter : e.converter = Converter.scripted name outcome
  state : e.state = calls
  iterations : e.iterations = lastSet Step.iterations? made.iterations before
  warmup : e.warmup = lastSet Step.warmup? made.warmup before
  label : e.label = lastSet Step.label? made.label before

namespace Follows

variable {made e : Engine Nat} {before : List Step} {calls : Nat}

theorem conversions (h : Follows name outcome made before calls e) (t : Template) :
    e.conversions t =
      let batch := (fresh name outcome made before calls).conversions t
      ⟨batch.failure, batch.log, calls + batch.state⟩ := by
  rw [Engine.conversions, h.converter, h.state, h.iterations, h.warmup]
  exact convertTimes_shift t.content _ calls [] 0

theorem result (h : Follows name outcome made before calls e) (t : Template) (m clock : Measured) :
    (e.run t m).result.map Report.untimed =
      ((fresh name outcome made before calls).run t clock).result.map Report.untimed := by
  rw [run_result, run_result, h.conversions t]
  cases ((fresh name outcome made before calls).conversions t).failure with
  | some err => rfl
  | none =>
      simp only [Except.map, Report.untimed, report, h.converter, h.iterations, h.warmup, h.label]
      rfl

theorem step (h : Follows name outcome made before calls e) {s : Step} {calls' : Nat}
    (hstate : (e.perform s).state = calls') : Follows name outcome made (before ++ [s]) calls' (e.perform s) where
  converter := (perform_converter e s).trans h.converter
  state := hstate
  iterations := by rw [perform_iterations, lastSet_concat, h.iterations]
  warmup := by rw [perform_warmup, lastSet_concat, h.warmup]
  label := by rw [perform_label, lastSet_concat, h.label]

theorem run (h : Follows name outcome made before calls e) (t : Template) (m clock : Measured) :
    Follows name outcome made (before ++ [.run t m])
      (calls + ((fresh name outcome made before calls).run t clock).engine.state) (e.perform (.run t m)) := by
  apply h.step
  have hstate : (e.run t m).engine.state = (e.conversions t).state := by rw [run_engine]
  have hfresh : ((fresh name outcome made before calls).run t clock).engine.state =
      ((fresh name outcome made before calls).conversions t).state := by rw [run_engine]
  rw [perform, hstate, hfresh, h.conversions t]

/-- The steps behind `before`: their runs yield what fresh engines yield, whose calls add up. -/
theorem runs (h : Follows name outcome made before calls e) (clock : List Step → Measured) (steps : List Step) :
    (e.results steps).map (·.map Report.untimed) =
        (freshRuns name outcome made clock before calls steps).map (·.result.map Report.untimed) ∧
      (e.performAll steps).state =
        calls + ((freshRuns name outcome made clock before calls steps).map (·.engine.state)).sum := by
  induction steps generalizing e before calls with
  | nil => exact ⟨rfl, h.state⟩
  | cons s rest ih =>
      cases s with
      | run t m =>
          obtain ⟨hresults, hcalls⟩ := ih (h.run t m (clock before))
          simp only [results, freshRuns, List.map_cons, List.sum_cons]
          refine ⟨?_, ?_⟩
          · rw [h.result t m (clock before), hresults]
          · rw [← Nat.add_assoc]
            exact hcalls
      | iterations n => exact ih (h.step h.state)
      | warmup n => exact ih (h.step h.state)
      | label text => exact ih (h.step h.state)
      | monitoring enabled => exact ih (h.step h.state)

end Follows

end Scripted

end Engine

end TemplateTiming
