import TemplateTiming.Proofs.Session

/-! The log of a run. It is cut off where the first conversion fails: behind the opening, behind the sample that is
taken before the timed loop, or not at all. The monitor only adds its own lines; neither the result nor the calls nor the
other lines depend on it. -/

namespace TemplateTiming

/-- The event, with another time where it tells how long the timed loop took. -/
def LogEvent.retimed (elapsed : Duration) : LogEvent → LogEvent
  | .timedLoopFinished _ => .timedLoopFinished elapsed
  | e => e

/-- What a log shows of an event. -/
def LogEvent.line (e : LogEvent) : LogLevel × String := (e.level, e.message)

theorem LogEvent.sampled_message (phase : String) (stats : Stats) :
    ∃ rest, (LogEvent.sampled phase stats).message = "📊 " ++ phase ++ " - CPU: " ++ rest := by
  refine ⟨percent stats.cpu ++ "%, Memory: " ++ Decimal.text stats.memoryMiB ++ "MB ("
    ++ percent stats.memoryPercent ++ "%), Peak: " ++ Decimal.text stats.peakMiB ++ "MB, Time: "
    ++ stats.elapsed.text, ?_⟩
  unfold message
  simp only [String.append_assoc]

theorem LogEvent.finalStats_message (stats : Stats) :
    ∃ rest, (LogEvent.finalStats stats).message = "📊 Final Stats - Total Time: " ++ rest := by
  refine ⟨stats.elapsed.text ++ ", Peak Memory: " ++ Decimal.text stats.peakMiB ++ "MB", ?_⟩
  unfold message
  simp only [String.append_assoc]

theorem FirstFailure.add {outcome : Nat → Except Error String} {calls k i : Nat} {e : Error}
    (h : FirstFailure outcome calls (k + i) e) : FirstFailure outcome (calls + k) i e where
  fails := by
    rw [Nat.add_assoc]
    exact h.fails
  before := by
    intro j hj
    rw [Nat.add_assoc]
    exact h.before (k + j) (Nat.add_lt_add_left hj k)

namespace Monitor

variable {m : Monitor}

theorem sample_of_disabled (h : m.enabled = false) (reading : Option Reading) : m.sample reading = (none, m) := by
  simp only [sample, h]

/-- A monitor that is on takes a sample from every reading, and stays on. -/
theorem sample_of_enabled (h : m.enabled = true) {reading : Option Reading} (hreading : reading.isSome) :
    ∃ stats m', m.sample reading = (some stats, m') ∧ m'.enabled = true := by
  obtain ⟨r, rfl⟩ := Option.isSome_iff_exists.mp hreading
  obtain ⟨enabled, peak⟩ := m
  obtain rfl : enabled = true := h
  exact ⟨_, _, rfl, rfl⟩

theorem logStats_of_disabled (h : m.enabled = false) (phase : String) (reading : Option Reading) :
    m.logStats phase reading = ([], m) := by
  rw [logStats, sample_of_disabled h]

theorem logFinalStats_of_disabled (h : m.enabled = false) (reading : Option Reading) :
    m.logFinalStats reading = ([], m) := by
  rw [logFinalStats, sample_of_disabled h]

theorem logStats_of_enabled (h : m.enabled = true) (phase : String) {reading : Option Reading}
    (hreading : reading.isSome) :
    ∃ stats m', m.logStats phase reading = ([.sampled phase stats], m') ∧ m'.enabled = true := by
  obtain ⟨stats, m', hsample, hm'⟩ := sample_of_enabled h hreading
  exact ⟨stats, m', by rw [logStats, hsample], hm'⟩

theorem logFinalStats_of_enabled (h : m.enabled = true) {reading : Option Reading} (hreading : reading.isSome) :
    ∃ stats m', m.logFinalStats reading = ([.finalStats stats], m') := by
  obtain ⟨stats, m', hsample, _⟩ := sample_of_enabled h hreading
  exact ⟨stats, m', by rw [logFinalStats, hsample]⟩

/-- Every line that the monitor writes is one of its own. -/
theorem logStats_filter (m : Monitor) (phase : String) (reading : Option Reading) :
    (m.logStats phase reading).1.filter (!·.isMonitored) = [] := by
  unfold logStats
  rcases m.sample reading with ⟨_ | stats, m'⟩ <;> rfl

theorem logFinalStats_filter (m : Monitor) (reading : Option Reading) :
    (m.logFinalStats reading).1.filter (!·.isMonitored) = [] := by
  unfold logFinalStats
  rcases m.sample reading with ⟨_ | stats, m'⟩ <;> rfl

end Monitor

namespace Engine

variable {σ : Type}

/-- What the monitor writes in front of the timed loop. -/
def linesBefore (e : Engine σ) (m : Measured) : List LogEvent :=
  (e.monitor.logStats "Before timed loop" m.before).1

/-- What the monitor writes behind the timed loop. -/
def linesAfter (e : Engine σ) (m : Measured) : List LogEvent :=
  let watched := (e.monitor.logStats "Before timed loop" m.before).2
  let (after, watched) := watched.logStats "After timed loop" m.after
  after ++ (watched.logFinalStats m.final).1

/-- What a log goes on with behind the opening, by the failure of the warm-up and that of the timed loop. -/
def closing (before after : List LogEvent) (elapsed : Duration) : Option Error → Option Error → List LogEvent
  | some _, _ => []
  | none, some _ => before
  | none, none => before ++ after ++ [.timedLoopFinished elapsed]

theorem closing_filter {before after : List LogEvent} (hbefore : before.filter (!·.isMonitored) = [])
    (hafter : after.filter (!·.isMonitored) = []) (elapsed elapsed' : Duration) (warm timed : Option Error) :
    ((closing before after elapsed warm timed).filter (!·.isMonitored)).map (LogEvent.retimed elapsed') =
      closing [] [] elapsed' warm timed := by
  cases warm with
  | some failure => rfl
  | none =>
      cases timed with
      | some failure => rw [closing, hbefore, closing, List.map_nil]
      | none =>
          rw [closing, List.filter_append, List.filter_append, hbefore, hafter]
          rfl

/-- The log of a run whose conversions write nothing. -/
theorem run_log (e : Engine σ) (t : Template) (m : Measured) (hwarm : (e.warmUp t).log = [])
    (htimed : (e.timedLoop t (e.warmUp t)).log = []) :
    (e.run t m).log =
      [.benchmarking t.path t.size e.converter.name e.iterations e.warmup]
        ++ (if e.warmup = 0 then [] else [.warmingUp])
        ++ closing (e.linesBefore m) (e.linesAfter m) m.elapsed (e.warmUp t).failure
          (e.timedLoop t (e.warmUp t)).failure := by
  rw [run, conclude, opening, hwarm, htimed]
  cases (e.warmUp t).failure with
  | some failure => rfl
  | none =>
      cases (e.timedLoop t (e.warmUp t)).failure with
      | some failure => simp only [closing, linesBefore, List.append_nil]
      | none => simp only [closing, linesBefore, linesAfter, List.append_nil, List.append_assoc]

theorem opening_lines (path : Path) (size : Nat) (converter : String) (iterations warmup : UInt64) :
    ([.benchmarking path size converter iterations warmup]
        ++ (if warmup = 0 then [] else [.warmingUp]) : List LogEvent).map LogEvent.line =
      [(.info, "Benchmarking " ++ path.shown ++ " (" ++ Decimal.text size ++ " bytes) with " ++ converter ++ ": "
          ++ Decimal.text iterations.toNat ++ " iterations, " ++ Decimal.text warmup.toNat ++ " warm-up")]
        ++ (if warmup = 0 then [] else [(.debug, "Warming up...")]) := by
  split_ifs <;> rfl

theorem linesBefore_of_disabled {e : Engine σ} (h : e.monitor.enabled = false) (m : Measured) :
    e.linesBefore m = [] := by
  rw [linesBefore, Monitor.logStats_of_disabled h]

theorem linesAfter_of_disabled {e : Engine σ} (h : e.monitor.enabled = false) (m : Measured) :
    e.linesAfter m = [] := by
  simp only [linesAfter, Monitor.logStats_of_disabled h, Monitor.logFinalStats_of_disabled h, List.append_nil]

theorem linesBefore_of_enabled {e : Engine σ} (h : e.monitor.enabled = true) {m : Measured} (hm : m.before.isSome) :
    ∃ stats, e.linesBefore m = [.sampled "Before timed loop" stats] := by
  obtain ⟨stats, m', hlog, _⟩ := Monitor.logStats_of_enabled h "Before timed loop" hm
  exact ⟨stats, by rw [linesBefore, hlog]⟩

theorem linesAfter_of_enabled {e : Engine σ} (h : e.monitor.enabled = true) {m : Measured} (hbefore : m.before.isSome)
    (hafter : m.after.isSome) (hfinal : m.final.isSome) :
    ∃ stats final, e.linesAfter m = [.sampled "After timed loop" stats, .finalStats final] := by
  obtain ⟨_, m₁, hlog₁, hon₁⟩ := Monitor.logStats_of_enabled h "Before timed loop" hbefore
  obtain ⟨stats, m₂, hlog₂, hon₂⟩ := Monitor.logStats_of_enabled hon₁ "After timed loop" hafter
  obtain ⟨final, m₃, hlog₃⟩ := Monitor.logFinalStats_of_enabled hon₂ hfinal
  exact ⟨stats, final, by simp only [linesAfter, hlog₁, hlog₂, hlog₃, List.singleton_append]⟩

/-- The lines of the monitor as a log shows them. -/
theorem lines_of_monitor (e : Engine σ) (m : Measured)
    (hsamples : e.monitor.enabled = true → m.before.isSome ∧ m.after.isSome ∧ m.final.isSome) :
    ∃ before after final : String,
      (e.linesBefore m).map LogEvent.line =
        (if e.monitor.enabled then [(.info, "📊 Before timed loop - CPU: " ++ before)] else []) ∧
      (e.linesAfter m).map LogEvent.line =
        (if e.monitor.enabled then
          [(.info, "📊 After timed loop - CPU: " ++ after), (.info, "📊 Final Stats - Total Time: " ++ final)]
        else []) := by
  cases hon : e.monitor.enabled with
  | false =>
      rw [linesBefore_of_disabled hon, linesAfter_of_disabled hon]
      exact ⟨"", "", "", rfl, rfl⟩
  | true =>
      obtain ⟨hbefore, hafter, hfinal⟩ := hsamples hon
      obtain ⟨stats, hlinesBefore⟩ := linesBefore_of_enabled hon hbefore
      obtain ⟨stats', final, hlinesAfter⟩ := linesAfter_of_enabled hon hbefore hafter hfinal
      obtain ⟨before, hmessage⟩ := LogEvent.sampled_message "Before timed loop" stats
      obtain ⟨after, hmessage'⟩ := LogEvent.sampled_message "After timed loop" stats'
      obtain ⟨final', hmessage''⟩ := LogEvent.finalStats_message final
      refine ⟨before, after, final', ?_, ?_⟩
      · rw [hlinesBefore, List.map_singleton, LogEvent.line, hmessage]
        rfl
      · rw [hlinesAfter, List.map_cons, List.map_singleton, LogEvent.line, LogEvent.line, hmessage', hmessage'']
        rfl

theorem linesBefore_filter (e : Engine σ) (m : Measured) : (e.linesBefore m).filter (!·.isMonitored) = [] :=
  Monitor.logStats_filter _ _ _

theorem linesAfter_filter (e : Engine σ) (m : Measured) : (e.linesAfter m).filter (!·.isMonitored) = [] := by
  simp only [linesAfter, List.filter_append, Monitor.logStats_filter, Monitor.logFinalStats_filter, List.append_nil]

/-- What a run with another monitor and another clock has in common with one that is not watched. -/
theorem run_unwatched (e : Engine σ) {quiet : Monitor} (hquiet : quiet.enabled = false) (t : Template)
    (m m' : Measured) (hwarm : (e.warmUp t).log = []) (htimed : (e.timedLoop t (e.warmUp t)).log = []) :
    let bare := ({ e with monitor := quiet } : Engine σ).run t m'
    bare.result.map Report.untimed = (e.run t m).result.map Report.untimed ∧
      bare.engine.state = (e.run t m).engine.state ∧
      bare.log = ((e.run t m).log.filter (!·.isMonitored)).map (LogEvent.retimed m'.elapsed) := by
  have hconversions : ({ e with monitor := quiet } : Engine σ).conversions t = e.conversions t := rfl
  refine ⟨?_, ?_, ?_⟩
  · rw [run_result, run_result, hconversions]
    cases (e.conversions t).failure <;> rfl
  · rw [run_engine, run_engine e, hconversions]
  · have hopening : ∀ elapsed : Duration, (([.benchmarking t.path t.size e.converter.name e.iterations e.warmup]
        ++ (if e.warmup = 0 then [] else [.warmingUp]) : List LogEvent).filter (!·.isMonitored)).map
          (LogEvent.retimed elapsed) =
        [.benchmarking t.path t.size e.converter.name e.iterations e.warmup]
          ++ (if e.warmup = 0 then [] else [.warmingUp]) := by
      intro elapsed
      split_ifs <;> rfl
    rw [run_log e t m hwarm htimed, run_log { e with monitor := quiet } t m' hwarm htimed, List.filter_append,
      List.map_append, hopening, closing_filter (e.linesBefore_filter m) (e.linesAfter_filter m),
      linesBefore_of_disabled (e := { e with monitor := quiet }) hquiet,
      linesAfter_of_disabled (e := { e with monitor := quiet }) hquiet]
    rfl

section Scripted

variable {name : String} {outcome : Nat → Except Error String} {text : String}

theorem convertTimes_scripted_log (n : Nat) (s : Nat × List String) :
    (convertTimes (Converter.scripted name outcome).recorded text n [] s).log = [] := by
  obtain ⟨calls, seen⟩ := s
  rcases exists_firstFailure_or_ok outcome n calls with ⟨i, hi, e, hfirst⟩ | hok
  · rw [convertTimes_scripted_of_failure [] seen hi hfirst]
  · rw [convertTimes_scripted_of_ok [] seen hok]

theorem timedLoop_log (e : Engine σ) (t : Template) (warm : Batch σ)
    (h : ∀ n s, (convertTimes e.converter t.content n [] s).log = []) : (e.timedLoop t warm).log = [] := by
  unfold timedLoop
  cases warm.failure with
  | some failure => rfl
  | none => exact h _ _

variable {calls : Nat} {seen : List String} {iterations warmup : UInt64} {label : String}
  {monitor : Monitor} {e : Error} {i : Nat}

theorem warmUp_of_failure (t : Template) (hi : i < warmup.toNat) (h : FirstFailure outcome calls i e) :
    ((scriptedEngine name outcome calls seen iterations warmup label monitor).warmUp t).failure = some e := by
  rw [warmUp, scriptedEngine, convertTimes_scripted_of_failure [] seen hi h]

theorem warmUp_of_ok (t : Template) (hok : ∀ i < warmup.toNat, ∃ out, outcome (calls + i) = .ok out) :
    (scriptedEngine name outcome calls seen iterations warmup label monitor).warmUp t =
      ⟨none, [], (calls + warmup.toNat, List.replicate warmup.toNat t.content ++ seen)⟩ := by
  rw [warmUp, scriptedEngine, convertTimes_scripted_of_ok [] seen hok]

variable (seen label monitor) in
theorem timedLoop_of_failure (t : Template) (hi : i < iterations.toNat)
    (h : FirstFailure outcome calls (warmup.toNat + i) e) :
    let engine := scriptedEngine name outcome calls seen iterations warmup label monitor
    (engine.warmUp t).failure = none ∧ (engine.timedLoop t (engine.warmUp t)).failure = some e := by
  intro engine
  have hok : ∀ j < warmup.toNat, ∃ out, outcome (calls + j) = .ok out := fun j hj => h.before j (by omega)
  have hwarm : engine.warmUp t = _ := warmUp_of_ok t hok
  rw [hwarm]
  refine ⟨rfl, ?_⟩
  change (convertTimes (Converter.scripted name outcome).recorded t.content iterations.toNat []
    (calls + warmup.toNat, _)).failure = some e
  rw [convertTimes_scripted_of_failure [] _ hi h.add]

variable (seen label monitor) in
theorem timedLoop_of_ok (t : Template)
    (hok : ∀ i < warmup.toNat + iterations.toNat, ∃ out, outcome (calls + i) = .ok out) :
    let engine := scriptedEngine name outcome calls seen iterations warmup label monitor
    (engine.warmUp t).failure = none ∧ (engine.timedLoop t (engine.warmUp t)).failure = none := by
  intro engine
  have htimed : ∀ j < iterations.toNat, ∃ out, outcome (calls + warmup.toNat + j) = .ok out := by
    intro j hj
    rw [Nat.add_assoc]
    exact hok (warmup.toNat + j) (Nat.add_lt_add_left hj _)
  have hwarm : engine.warmUp t = _ := warmUp_of_ok t fun j hj => hok j (by omega)
  rw [hwarm]
  refine ⟨rfl, ?_⟩
  change (convertTimes (Converter.scripted name outcome).recorded t.content iterations.toNat []
    (calls + warmup.toNat, _)).failure = none
  rw [convertTimes_scripted_of_ok [] _ htimed]

/-- **The log of a run, and that watching it changes nothing else.** The lines end with the phase in which the first
conversion fails. With the monitor on, one sample is taken in front of the timed loop and two are behind it; without
their lines the log is that of a run which is not watched, as are the result and the calls, all but the times. -/
theorem run_trace (name : String) (outcome : Nat → Except Error String) (calls : Nat) (seen : List String)
    (iterations warmup : UInt64) (label : String) (monitor : Monitor) (t : Template) (m : Measured)
    (hsamples : monitor.enabled = true → m.before.isSome ∧ m.after.isSome ∧ m.final.isSome) :
    let run := (scriptedEngine name outcome calls seen iterations warmup label monitor).run t m
    let lines := run.log.map LogEvent.line
    let opening := [(LogLevel.info, "Benchmarking " ++ t.path.shown ++ " (" ++ Decimal.text t.size ++ " bytes) with "
        ++ name ++ ": " ++ Decimal.text iterations.toNat ++ " iterations, " ++ Decimal.text warmup.toNat ++ " warm-up")]
      ++ (if warmup = 0 then [] else [(.debug, "Warming up...")])
    let watched (lines : List (LogLevel × String)) := if monitor.enabled then lines else []
    ∃ before after final : String,
      (∀ i < warmup.toNat, ∀ e, FirstFailure outcome calls i e → lines = opening) ∧
      (∀ i < iterations.toNat, ∀ e, FirstFailure outcome calls (warmup.toNat + i) e →
        lines = opening ++ watched [(.info, "📊 Before timed loop - CPU: " ++ before)]) ∧
      ((∀ i < warmup.toNat + iterations.toNat, ∃ out, outcome (calls + i) = .ok out) →
        lines = opening ++ watched [(.info, "📊 Before timed loop - CPU: " ++ before)]
          ++ watched [(.info, "📊 After timed loop - CPU: " ++ after), (.info, "📊 Final Stats - Total Time: " ++ final)]
          ++ [(.debug, "Timed loop finished in " ++ m.elapsed.text)]) ∧
      ∀ quiet : Monitor, quiet.enabled = false → ∀ m' : Measured,
        let bare := (scriptedEngine name outcome calls seen iterations warmup label quiet).run t m'
        bare.result.map Report.untimed = run.result.map Report.untimed ∧
          bare.engine.state = run.engine.state ∧
          bare.log = (run.log.filter (!·.isMonitored)).map (LogEvent.retimed m'.elapsed) := by
  intro run lines opening watched
  have hwarm : ((scriptedEngine name outcome calls seen iterations warmup label monitor).warmUp t).log = [] :=
    convertTimes_scripted_log _ _
  have htimed := timedLoop_log (scriptedEngine name outcome calls seen iterations warmup label monitor) t
    ((scriptedEngine name outcome calls seen iterations warmup label monitor).warmUp t)
    fun n s => convertTimes_scripted_log n s
  obtain ⟨before, after, final, hbefore, hafter⟩ :=
    lines_of_monitor (scriptedEngine name outcome calls seen iterations warmup label monitor) m hsamples
  have hlines := congrArg (List.map LogEvent.line) (run_log _ t m hwarm htimed)
  rw [List.map_append, opening_lines] at hlines
  change lines = opening ++ _ at hlines
  refine ⟨before, after, final, ?_, ?_, ?_, ?_⟩
  · intro i hi e hfirst
    rw [hlines, warmUp_of_failure t hi hfirst]
    exact List.append_nil opening
  · intro i hi e hfirst
    obtain ⟨hnone, hsome⟩ := timedLoop_of_failure seen label monitor t hi hfirst
    rw [hlines, hnone, hsome, closing, hbefore]
    rfl
  · intro hok
    obtain ⟨hnone, hnone'⟩ := timedLoop_of_ok seen label monitor t hok
    rw [hlines, hnone, hnone', closing, List.map_append, List.map_append, hbefore, hafter, ← List.append_assoc,
      ← List.append_assoc]
    rfl
  · intro quiet hquiet m'
    exact run_unwatched _ hquiet t m m' hwarm htimed

/-- The first timed conversion fails behind two of the warm-up, so of three samples one is taken. -/
theorem run_trace_border :
    let outcome : Nat → Except Error String := fun i => if i = 7 then .error (.render "bad size") else .ok "page"
    let t : Template := ⟨Path.ofString "/a.mjml", "<mjml/>"⟩
    let reading : Reading := ⟨3000000, 8000000, 15, .zero⟩
    let m : Measured := ⟨.epoch, .zero, some reading, some reading, some reading⟩
    let run := (scriptedEngine "probe" outcome 5 [] 3 2 "mjml" (.new true)).run t m
    let bare := (scriptedEngine "probe" outcome 5 [] 3 2 "mjml" (.new false)).run t m
    (m.before.isSome ∧ m.after.isSome ∧ m.final.isSome) ∧ FirstFailure outcome 5 2 (.render "bad size") ∧
      (Monitor.new false).enabled = false ∧
      (∃ before, run.log.map LogEvent.line =
        [(.info, "Benchmarking " ++ t.path.shown ++ " (" ++ Decimal.text t.size ++ " bytes) with " ++ "probe"
            ++ ": " ++ Decimal.text 3 ++ " iterations, " ++ Decimal.text 2 ++ " warm-up"),
          (.debug, "Warming up..."), (.info, "📊 Before timed loop - CPU: " ++ before)]) ∧
      bare.result.map Report.untimed = run.result.map Report.untimed ∧ bare.engine.state = run.engine.state ∧
      bare.log = (run.log.filter (!·.isMonitored)).map (LogEvent.retimed m.elapsed) := by
  intro outcome t reading m run bare
  have hfirst : FirstFailure outcome 5 2 (.render "bad size") := ⟨rfl, fun j hj => ⟨"page", if_neg (by omega)⟩⟩
  obtain ⟨before, _, _, _, htimed, _, hbare⟩ :=
    run_trace "probe" outcome 5 [] 3 2 "mjml" (.new true) t m fun _ => ⟨rfl, rfl, rfl⟩
  exact ⟨⟨rfl, rfl, rfl⟩, hfirst, rfl, ⟨before, htimed 0 (by decide) _ hfirst⟩, hbare (.new false) rfl m⟩

end Scripted

end Engine

end TemplateTiming
