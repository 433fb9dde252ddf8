/-!
# Stream configuration

Three sections, each with defaults: when a stalled stream is restarted, which frame times are
implausible, and how many frames may wait for the recorder.
-/

namespace LidarSweep

/-- Limits of stall recovery; a zero turns its check off. -/
structure RecoveryConfig where
  /-- Restarts before the stream is given up -/
  maxRestarts : UInt32 := 3
  /-- Longest wait for the first frame, in milliseconds -/
  noStreamMs : UInt64 := 5000
  /-- Longest wait for the next frame, in milliseconds -/
  interruptMs : UInt64 := 3000
  deriving DecidableEq, Repr, Inhabited

namespace RecoveryConfig

def disabled : RecoveryConfig := ⟨0, 0, 0⟩

/-- Whether any check can lead to a restart. -/
def isEnabled (c : RecoveryConfig) : Bool :=
  c.maxRestarts > 0 && (c.noStreamMs > 0 || c.interruptMs > 0)

/-- The wait for the first frame, if it is limited. -/
def noStream? (c : RecoveryConfig) : Option Nat :=
  if c.noStreamMs > 0 then some c.noStreamMs.toNat else none

/-- The wait for the next frame, if it is limited. -/
def interrupt? (c : RecoveryConfig) : Option Nat :=
  if c.interruptMs > 0 then some c.interruptMs.toNat else none

end RecoveryConfig

structure AnomalyConfig where
  enabled : Bool := true
  /-- Longest gap between frames in frame periods, or zero for no limit -/
  maxGapPeriods : UInt32 := 50
  deriving DecidableEq, Repr, Inhabited

structure RecorderConfig where
  /-- Frames that may wait before new ones are dropped -/
  queueDepth : UInt64 := 8
  deriving DecidableEq, Repr, Inhabited

structure Config where
  recovery : RecoveryConfig := {}
  anomaly : AnomalyConfig := {}
  recorder : RecorderConfig := {}
  deriving DecidableEq, Repr, Inhabited

end LidarSweep
