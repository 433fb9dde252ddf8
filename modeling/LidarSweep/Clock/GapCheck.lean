import LidarSweep.Error
import LidarSweep.SyncMode

/-!
# Implausible frame times

Device times must advance, and by no more than a number of frame periods. A gap that is too long
costs one frame: the time after it becomes the new baseline. While the device waits for triggers
any gap is right.
-/

namespace LidarSweep

structure GapCheck where
  /-- Longest gap in frame periods, or zero for no limit -/
  maxPeriods : Nat
  periodUs : Nat
  lastUs : Option Nat
  deriving DecidableEq, Repr

namespace GapCheck

def new (maxPeriods : Nat) : GapCheck := ⟨maxPeriods, (default : ScanRate).periodUs, none⟩

def reset (c : GapCheck) (rate : ScanRate) : GapCheck :=
  { c with periodUs := rate.periodUs, lastUs := none }

def check (c : GapCheck) (time : Nat) (mode : SyncMode) : GapCheck × Except Error Unit :=
  match c.lastUs with
  | none => ({ c with lastUs := some time }, .ok ())
  | some last =>
    if time = last then (c, .error (.timestampAnomaly (.duplicate time)))
    else if time < last then (c, .error (.timestampAnomaly (.backwards last time)))
    else
      ({ c with lastUs := some time },
        if mode.isTriggered then .ok ()
        else if c.maxPeriods > 0 ∧ time - last > c.periodUs * c.maxPeriods then
          .error (.timestampAnomaly (.gap (time - last) c.maxPeriods))
        else .ok ())

end GapCheck

end LidarSweep
