import TemplateTiming.Proofs.SinglePrecision
import TemplateTiming.Proofs.Trace

/-! The peak of a monitor. A sample may be asked for by itself or for the log; each way is the same step, which either
leaves the monitor as it is or raises its peak to the reading. Over any sequence of calls the peak is therefore the
largest of the readings so far. The share that a sample gives is computed in single precision, and close to the exact
one. -/

namespace TemplateTiming

/-- The sample that an event tells of. -/
def LogEvent.stats? : LogEvent → Option Stats
  | .sampled _ stats | .finalStats stats => some stats
  | _ => none

namespace Monitor

/-- The ways to take a sample, with what the system then says of the process, if it says anything. -/
inductive Call where
  | stats (reading : Option Reading)
  | logStats (phase : String) (reading : Option Reading)
  | logFinalStats (reading : Option Reading)

def Call.reading? : Call → Option Reading
  | .stats reading | .logStats _ reading | .logFinalStats reading => reading

/-- The samples that a call gives back or logs, and the monitor behind it. -/
def perform (m : Monitor) : Call → List Stats × Monitor
  | .stats reading =>
    let (stats, m) := m.sample reading
    (stats.toList, m)
  | .logStats phase reading =>
    let (events, m) := m.logStats phase reading
    (events.filterMap LogEvent.stats?, m)
  | .logFinalStats reading =>
    let (events, m) := m.logFinalStats reading
    (events.filterMap LogEvent.stats?, m)

/-- What successive calls report, call by call, and the monitor behind them. -/
def watch (m : Monitor) : List Call → List (List Stats) × Monitor
  | [] => ([], m)
  | c :: calls => ((m.perform c).1 :: ((m.perform c).2.watch calls).1, ((m.perform c).2.watch calls).2)

/-- The readings that some calls sample. -/
def readings (calls : List Call) : List Reading := calls.filterMap Call.reading?

/-- The most memory among some readings, in bytes. -/
def largest? (sofar : List Reading) : Option Nat := (sofar.map fun r => r.memory.toNat).max?

/-- How a share in percent comes about. Without a total nothing is divided. With one the divisor is still positive in
single precision, the quotient and the percentage are finite, and the percentage is close to the exact one. -/
inductive ShareBy (part total : Nat) : Binary64 → Prop
  | unknown : total = 0 → ShareBy part total (.finite 0)
  | divided {p t quotient percent : Nat} :
      0 < total → Binary32.ofNat part = .finite p → Binary32.ofNat total = .finite t → 0 < t →
      Binary32.div (.finite p) (.finite t) = .finite quotient →
      Binary32.mul (.finite quotient) (Binary32.ofNat 100) = .finite percent →
      |(percent : ℚ) / Binary64.one - part / total * 100| ≤ part / total * 100 / 2 ^ 19 →
      ShareBy part total (.finite percent)

/-- What a sample says of a reading, where `sofar` are the readings so far with this one. -/
structure Sampled (sofar : List Reading) (r : Reading) (s : Stats) : Prop where
  current : s.memoryMiB = r.memory.toNat / 2 ^ 20
  peak : (largest? sofar).map (· / 2 ^ 20) = some s.peakMiB
  covers : s.memoryMiB ≤ s.peakMiB
  share : ShareBy s.memoryMiB (r.total.toNat / 2 ^ 20) s.memoryPercent

/-- What a monitor that is on reports: a sample of the reading, if there is one. -/
inductive Reports (sofar : List Reading) : Option Reading → List Stats → Prop
  | nothing : Reports sofar none []
  | sample {r : Reading} {s : Stats} : Sampled sofar r s → Reports sofar (some r) [s]

/-! ### One call -/

/-- The monitor when it has seen a reading. -/
def raised (m : Monitor) (r : Reading) : Monitor := { m with peakMiB := max m.peakMiB (mib r.memory) }

/-- The sample that a monitor makes of a reading. -/
def statsOf (m : Monitor) (r : Reading) : Stats :=
  ⟨r.cpu, mib r.memory, share (mib r.memory) (mib r.total), (m.raised r).peakMiB, r.elapsed⟩

variable {m : Monitor} {c : Call} {r : Reading} {sofar : List Reading}

/-- A sample is the same whether it is given back or logged. -/
theorem perform_eq_sample (m : Monitor) (c : Call) :
    m.perform c = ((m.sample c.reading?).1.toList, (m.sample c.reading?).2) := by
  cases c with
  | stats reading => rfl
  | logStats phase reading =>
      simp only [perform, logStats, Call.reading?]
      rcases m.sample reading with ⟨_ | stats, m'⟩ <;> rfl
  | logFinalStats reading =>
      simp only [perform, logFinalStats, Call.reading?]
      rcases m.sample reading with ⟨_ | stats, m'⟩ <;> rfl

theorem perform_of_disabled (h : m.enabled = false) (c : Call) : m.perform c = ([], m) := by
  rw [perform_eq_sample, sample_of_disabled h]
  rfl

theorem perform_of_unavailable (m : Monitor) (hc : c.reading? = none) : m.perform c = ([], m) := by
  obtain ⟨enabled, peak⟩ := m
  rw [perform_eq_sample, hc]
  cases enabled <;> rfl

theorem perform_of_enabled (h : m.enabled = true) (hc : c.reading? = some r) :
    m.perform c = ([m.statsOf r], m.raised r) := by
  obtain ⟨enabled, peak⟩ := m
  obtain rfl : enabled = true := h
  rw [perform_eq_sample, hc]
  rfl

/-- A call changes nothing, or it reports the peak that it raises. -/
theorem perform_cases (m : Monitor) (c : Call) :
    m.perform c = ([], m) ∨ ∃ r, m.perform c = ([m.statsOf r], m.raised r) := by
  cases hon : m.enabled with
  | false => exact .inl (perform_of_disabled hon c)
  | true =>
      cases hc : c.reading? with
      | none => exact .inl (perform_of_unavailable m hc)
      | some r => exact .inr ⟨r, perform_of_enabled hon hc⟩

theorem mib_eq (octets : UInt64) : mib octets = octets.toNat / 2 ^ 20 :=
  Nat.div_div_eq_div_mul _ _ _

theorem mib_le (octets : UInt64) : mib octets ≤ 2 ^ 44 := by
  have hsize := octets.toNat_lt
  rw [mib_eq]
  omega

section

variable {part total : Nat}

theorem ratio_sized (hpart : part ≤ 2 ^ 44) (htotal : total ≤ 2 ^ 44) : Sized 99 ((part : ℚ) / total) :=
  ((Sized.natCast hpart).div (Sized.natCast htotal)).mono (by decide)

theorem percentage_sized (hpart : part ≤ 2 ^ 44) (htotal : total ≤ 2 ^ 44) :
    Sized 99 ((part : ℚ) / total * (100 : Nat)) := by
  have hproduct : part * 100 ≤ 2 ^ 51 := by omega
  rw [div_mul_eq_mul_div, ← Nat.cast_mul]
  exact ((Sized.natCast hproduct).div (Sized.natCast htotal)).mono (by decide)

/-- The share goes through five roundings, of both amounts, the quotient, the number 100 and the product. -/
theorem share_shareBy (hpart : part ≤ 2 ^ 44) (htotal : total ≤ 2 ^ 44) : ShareBy part total (share part total) := by
  rw [share]
  split_ifs with hzero
  · exact .unknown hzero
  · have hpos : 0 < total := Nat.pos_of_ne_zero hzero
    have hposcast : (0 : ℚ) < total := by exact_mod_cast hpos
    obtain ⟨p, hp, hpnear⟩ := Binary32.ofNat_near (hpart.trans (by decide))
    obtain ⟨t, ht, htnear⟩ := Binary32.ofNat_near (htotal.trans (by decide))
    have hdivisor : (Binary64.finite t).Near coarse total := ⟨t, rfl, htnear⟩
    obtain ⟨quotient, hquotient, hqnear⟩ := Binary32.div_near ⟨p, rfl, hpnear⟩ hdivisor hposcast
      (by rw [coarse_eq]; decide) (ratio_sized hpart htotal)
    have hhundred : (Binary32.ofNat 100).Near coarse (100 : Nat) := Binary32.ofNat_near (by decide)
    obtain ⟨percent, hpercent, hnear⟩ := Binary32.mul_near ⟨quotient, rfl, hqnear⟩ hhundred
      (by rw [coarse_eq]; decide) (percentage_sized hpart htotal)
    have hroundings : coarse + coarse + coarse + coarse + coarse = 5 * coarse := by omega
    rw [hroundings] at hnear
    have hnonneg := hnear.nonneg
    have herror := hnear.coarse_error (by decide)
    push_cast at hnonneg herror
    rw [hp, ht, hquotient, hpercent]
    exact .divided hpos hp ht (hdivisor.units_pos hposcast) hquotient hpercent (by linarith)

end

/-- One decimal of what single precision makes of 0.05 and of 0.95, which is a little more and a little less. -/
example : (share 8 16000).withPlaces 1 = ['0', '.', '1'] ∧ (share 19 2000).withPlaces 1 = ['0', '.', '9'] := by
  decide +kernel

theorem largest?_concat (sofar : List Reading) (r : Reading) :
    largest? (sofar ++ [r]) = some (max ((largest? sofar).getD 0) r.memory.toNat) := by
  cases sofar with
  | nil => simp [largest?]
  | cons first more =>
      simp only [largest?, List.cons_append, List.map_cons, List.map_append, List.map_nil, List.max?_cons',
        List.foldl_append, List.foldl_cons, List.foldl_nil, Option.getD_some]

/-- The monitor is on, and its peak is the largest of the readings so far in whole MiB. -/
structure Tracks (sofar : List Reading) (m : Monitor) : Prop where
  enabled : m.enabled = true
  peak : m.peakMiB = (largest? sofar).getD 0 / 2 ^ 20

namespace Tracks

/-- Rounding down is monotone, so it does not matter that every reading is rounded before it is compared. -/
theorem raised_peak (h : Tracks sofar m) (r : Reading) :
    (largest? (sofar ++ [r])).map (· / 2 ^ 20) = some (m.raised r).peakMiB := by
  have hmonotone : Monotone fun octets : Nat => octets / 2 ^ 20 := fun _ _ hle => Nat.div_le_div_right hle
  rw [largest?_concat, Option.map_some, raised, h.peak, mib_eq, hmonotone.map_max]

theorem raised (h : Tracks sofar m) (r : Reading) : Tracks (sofar ++ [r]) (m.raised r) where
  enabled := h.enabled
  peak := by
    have hpeak := h.raised_peak r
    rw [largest?_concat, Option.map_some, Option.some.injEq] at hpeak
    rw [largest?_concat, Option.getD_some, hpeak]

theorem sampled (h : Tracks sofar m) (r : Reading) : Sampled (sofar ++ [r]) r (m.statsOf r) where
  current := mib_eq r.memory
  peak := h.raised_peak r
  covers := Nat.le_max_right _ _
  share := by
    rw [← mib_eq]
    exact share_shareBy (mib_le r.memory) (mib_le r.total)

/-- A call reports what it has to, and the peak is the largest reading again. -/
theorem perform (h : Tracks sofar m) (c : Call) :
    Reports (sofar ++ c.reading?.toList) c.reading? (m.perform c).1 ∧
      Tracks (sofar ++ c.reading?.toList) (m.perform c).2 := by
  cases hc : c.reading? with
  | none =>
      rw [perform_of_unavailable m hc, Option.toList_none, List.append_nil]
      exact ⟨.nothing, h⟩
  | some r =>
      rw [perform_of_enabled h.enabled hc, Option.toList_some]
      exact ⟨.sample (h.sampled r), h.raised r⟩

end Tracks

/-! ### A sequence of calls -/

theorem readings_cons (c : Call) (calls : List Call) : readings (c :: calls) = c.reading?.toList ++ readings calls := by
  rw [readings, readings, List.filterMap_cons]
  cases c.reading? <;> rfl

/-- Behind the readings `sofar`, each of the calls reports what it has to. -/
theorem Tracks.watch (h : Tracks sofar m) {calls : List Call} {i : Nat} (hc : calls[i]? = some c) :
    ∃ reported, (m.watch calls).1[i]? = some reported ∧
      Reports (sofar ++ readings (calls.take (i + 1))) c.reading? reported := by
  induction calls generalizing m sofar i with
  | nil => cases hc
  | cons first calls ih =>
      obtain ⟨hreports, htracks⟩ := h.perform first
      cases i with
      | zero =>
          cases hc
          refine ⟨_, rfl, ?_⟩
          rwa [List.take_succ_cons, List.take_zero, readings_cons, readings, List.filterMap_nil, List.append_nil]
      | succ i =>
          obtain ⟨reported, hreported, hrest⟩ := ih htracks hc
          refine ⟨reported, hreported, ?_⟩
          rwa [List.take_succ_cons, readings_cons, ← List.append_assoc]

/-- The peaks that are reported ascend from the one that the monitor holds. -/
theorem watch_ascends (m : Monitor) (calls : List Call) :
    (m.peakMiB :: (m.watch calls).1.flatten.map (·.peakMiB)).IsChain (· ≤ ·) := by
  -- the head of the chain is what a call hands on to the next one, also when it reports nothing
  induction calls generalizing m with
  | nil => exact List.isChain_singleton _
  | cons c calls ih =>
      rw [watch]
      rcases perform_cases m c with hsame | ⟨r, hraised⟩
      · rw [hsame]
        exact ih m
      · rw [hraised]
        exact List.isChain_cons_cons.mpr ⟨Nat.le_max_left _ _, ih (m.raised r)⟩

/-- All samples that some calls report, in order, and the monitor behind them. -/
def samples (m : Monitor) (calls : List Call) : List Stats × Monitor :=
  ((m.watch calls).1.flatten, (m.watch calls).2)

/-- A call without a reading could as well be left out. -/
theorem samples_filter (m : Monitor) (calls : List Call) :
    m.samples (calls.filter fun c => c.reading?.isSome) = m.samples calls := by
  induction calls generalizing m with
  | nil => rfl
  | cons c calls ih =>
      cases hc : c.reading? with
      | none =>
          rw [List.filter_cons_of_neg (by simp [hc]), ih m]
          simp only [samples, watch, perform_of_unavailable m hc, List.flatten_cons, List.nil_append]
      | some r =>
          rw [List.filter_cons_of_pos (by simp [hc])]
          obtain ⟨hreported, hbehind⟩ := Prod.mk.inj (ih (m.perform c).2)
          simp only [samples, watch, List.flatten_cons, hreported, hbehind]

theorem watch_of_disabled (h : m.enabled = false) (calls : List Call) :
    m.watch calls = (calls.map fun _ => [], m) := by
  induction calls with
  | nil => rfl
  | cons c calls ih => rw [watch, perform_of_disabled h c, ih, List.map_cons]

/-- **The peak is the largest reading so far.** Over any calls of a new monitor that is on, a call with a reading
reports one sample: the memory now, its share of the total without a division by zero, and as the peak the largest of
all readings up to this one in whole MiB. A call without a reading reports nothing and changes nothing, the peaks
never fall, and a monitor that is off reports nothing and stays as it is. -/
theorem watch_peak (calls : List Call) :
    (∀ i c, calls[i]? = some c → ∃ reported, ((new true).watch calls).1[i]? = some reported ∧
      Reports (readings (calls.take (i + 1))) c.reading? reported) ∧
    (((new true).watch calls).1.flatten.map (·.peakMiB)).Pairwise (· ≤ ·) ∧
    (new true).samples (calls.filter fun c => c.reading?.isSome) = (new true).samples calls ∧
    ∀ off : Monitor, off.enabled = false → off.watch calls = (calls.map fun _ => [], off) := by
  have hnew : Tracks [] (new true) := ⟨rfl, rfl⟩
  refine ⟨?_, ?_, samples_filter _ calls, fun off hoff => watch_of_disabled hoff calls⟩
  · intro i c hc
    exact hnew.watch hc
  · exact (List.isChain_iff_pairwise.mp (watch_ascends (new true) calls)).tail

/-- A large reading, none, and a smaller one without a total. -/
theorem watch_peak_mixed :
    let calls : List Call := [.stats (some ⟨3221225472, 8589934592, 15, .zero⟩), .logStats "idle" none,
      .logFinalStats (some ⟨1073741824, 0, 0, .zero⟩)]
    calls[2]? = some (.logFinalStats (some ⟨1073741824, 0, 0, .zero⟩)) ∧ (new false).enabled = false ∧
      (∃ s, ((new true).watch calls).1[2]? = some [s] ∧ s.memoryMiB = 1024 ∧ s.peakMiB = 3072) ∧
      (new false).watch calls = ([[], [], []], new false) := by
  intro calls
  obtain ⟨hreports, -, -, hoff⟩ := watch_peak calls
  obtain ⟨reported, hreported, hsample⟩ := hreports 2 _ rfl
  cases hsample with
  | sample hsampled =>
      have hpeak := Option.some.inj hsampled.peak
      exact ⟨rfl, rfl, ⟨_, hreported, hsampled.current, hpeak.symm⟩, hoff _ rfl⟩

end Monitor

end TemplateTiming
