import TemplateTiming.Duration
import TemplateTiming.Number.Binary32

/-! Watching the memory of the process between the phases of a run. Each sample reports the memory now and the
largest amount seen so far, in whole MiB. A sample that cannot be taken leaves that peak as it is. -/

namespace TemplateTiming

/-- What the system says about the process: memory and total memory in bytes, processor use in percent as a single
precision number, and the time since the monitor was made. -/
structure Reading where
  memory : UInt64
  total : UInt64
  cpu : Binary64
  elapsed : Duration
  deriving DecidableEq, Repr

structure Stats where
  cpu : Binary64
  memoryMiB : Nat
  memoryPercent : Binary64
  peakMiB : Nat
  elapsed : Duration
  deriving DecidableEq, Repr

structure Monitor where
  enabled : Bool
  peakMiB : Nat
  deriving DecidableEq, Repr

namespace Monitor

def new (enabled : Bool) : Monitor := ⟨enabled, 0⟩

def mib (octets : UInt64) : Nat := octets.toNat / 1024 / 1024

/-- The share of the total in percent, in single precision; 0 where the total is unknown. -/
def share (part total : Nat) : Binary64 :=
  if total = 0 then .finite 0
  else Binary32.mul (Binary32.div (Binary32.ofNat part) (Binary32.ofNat total)) (Binary32.ofNat 100)

/-- Takes a sample from a reading, if there is one and the monitor is on. -/
def sample (m : Monitor) (reading : Option Reading) : Option Stats × Monitor :=
  match m.enabled, reading with
  | true, some r =>
    let peak := max m.peakMiB (mib r.memory)
    (some ⟨r.cpu, mib r.memory, share (mib r.memory) (mib r.total), peak, r.elapsed⟩,
      { m with peakMiB := peak })
  | _, _ => (none, m)

end Monitor

end TemplateTiming
