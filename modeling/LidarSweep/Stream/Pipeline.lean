import LidarSweep.Clock.GapCheck
import LidarSweep.Clock
import LidarSweep.Frame.RangeGate
import LidarSweep.Recording

/-!
# The way of a frame to its consumer

A frame gets its profile and metadata, then its two times, passes the check of its timing, is
recorded, and is processed. Each step may drop the frame. What the steps before have changed by
then stays changed.
-/

namespace LidarSweep

/-- How a stage supplied from outside fails. -/
inductive StageFault where
  | error (cause : Error)
  /-- It broke off -/
  | panic (reason : String)

def StageFault.reason : StageFault → String
  | error cause => cause.message
  | panic reason => s!"panicked: {reason}"

/-- A part supplied from outside: what it does at its `k`-th call, counted from 1, with a frame. -/
structure Stage (α : Type) where
  act : Nat → Frame → α
  calls : Nat := 0

namespace Stage

variable {α : Type}

def call (s : Stage α) (frame : Frame) : Stage α × α :=
  ({ s with calls := s.calls + 1 }, s.act (s.calls + 1) frame)

/-- A part that does the same at every call. -/
def constant (act : Frame → α) : Stage α := { act := fun _ => act }

end Stage

/-- Where device times come from. -/
inductive DeviceTiming where
  | receipt (clock : ReceiptClock)
  | supplied (stage : Stage (Except StageFault Nat))

/-- Where global times come from; a supplied stage sees the device time in the frame. -/
inductive GlobalTiming where
  | host (clock : HostClock)
  | supplied (stage : Stage (Except StageFault Nat))

structure Recorder where
  stage : Stage (Except StageFault Unit)
  /-- What was recorded, in order -/
  kept : List Record := []

/-- What a processor makes of a frame. -/
inductive Processed where
  | keep (frame : Frame)
  | swallow
  /-- Stop the stream, then go on with the frame -/
  | stopThen (frame : Frame)

structure Pipeline where
  keys : List MetadataKey := MetadataKey.all
  deviceTiming : DeviceTiming := .receipt {}
  globalTiming : GlobalTiming := .host {}
  gaps : Option GapCheck := none
  recorder : Option Recorder := none
  processor : Option (Stage (Except StageFault Processed)) := none

namespace Pipeline

def failAt {α : Type} (name : StageName) : Except StageFault α → Except Error α
  | .ok a => .ok a
  | .error fault => .error (.stage name fault.reason)

def failWith {α : Type} (name : StageName) : Except Error α → Except Error α
  | .ok a => .ok a
  | .error cause => .error (.stage name cause.message)

/-- Makes the built-in parts ready for an activation that begins at time `now`. Supplied parts go
on counting. -/
def reset (p : Pipeline) (now : Nat) (rate : ScanRate) : Pipeline :=
  { p with
    deviceTiming :=
      match p.deviceTiming with
      | .receipt clock => .receipt (clock.reset now)
      | .supplied stage => .supplied stage
    globalTiming :=
      match p.globalTiming with
      | .host clock => .host clock.reset
      | .supplied stage => .supplied stage
    gaps := p.gaps.map (·.reset rate) }

/-- Runs `next` on what a step let pass. -/
def andThen {α β : Type} (step : Pipeline × Except Error α)
    (next : Pipeline → α → Pipeline × Except Error β) : Pipeline × Except Error β :=
  match step with
  | (p, .ok a) => next p a
  | (p, .error e) => (p, .error e)

def annotate (profile : Profile) (p : Pipeline) (frame : Frame) :
    Pipeline × Except Error Frame :=
  (p, (failWith .metadata (MetadataKey.values p.keys frame.header)).map fun metadata =>
    { frame with profile := some profile, metadata })

def stampDevice (p : Pipeline) (frame : Frame) : Pipeline × Except Error Frame :=
  let (deviceTiming, time) : DeviceTiming × Except Error Nat :=
    match p.deviceTiming with
    | .receipt clock =>
      let (clock, time) := clock.stamp frame.receiptNs
      (.receipt clock, failWith .timestamp time)
    | .supplied stage =>
      let (stage, time) := stage.call frame
      (.supplied stage, failAt .timestamp time)
  ({ p with deviceTiming }, time.map fun deviceUs => { frame with deviceUs })

def stampGlobal (wallUs : Nat) (p : Pipeline) (frame : Frame) :
    Pipeline × Except Error Frame :=
  let (globalTiming, time) : GlobalTiming × Except Error Nat :=
    match p.globalTiming with
    | .host clock =>
      let (clock, time) := clock.stamp wallUs frame.deviceUs
      (.host clock, .ok time)
    | .supplied stage =>
      let (stage, time) := stage.call frame
      (.supplied stage, failAt .globalTimestamp time)
  ({ p with globalTiming }, time.map fun globalUs => { frame with globalUs })

def checkTiming (mode : SyncMode) (p : Pipeline) (frame : Frame) :
    Pipeline × Except Error Frame :=
  match p.gaps with
  | none => (p, .ok frame)
  | some gaps =>
    let (gaps, verdict) := gaps.check frame.deviceUs mode
    ({ p with gaps := some gaps }, (failWith .anomaly verdict).map fun _ => frame)

def record (p : Pipeline) (frame : Frame) : Pipeline × Except Error Frame :=
  match p.recorder with
  | none => (p, .ok frame)
  | some { stage, kept } =>
    let (stage, verdict) := stage.call frame
    match verdict with
    | .ok () =>
      ({ p with recorder := some { stage, kept := kept ++ [Record.ofFrame frame] } }, .ok frame)
    | .error fault =>
      ({ p with recorder := some { stage, kept } }, .error (.stage .record fault.reason))

def process (p : Pipeline) (frame : Frame) : Pipeline × Except Error Processed :=
  match p.processor with
  | none => (p, .ok (.keep frame))
  | some stage =>
    let (stage, verdict) := stage.call frame
    ({ p with processor := some stage }, failAt .process verdict)

/-- Takes a frame all the way; `wallUs` is the wall clock, `mode` the device's sync mode now. -/
def run (p : Pipeline) (wallUs : Nat) (mode : SyncMode) (profile : Profile) (frame : Frame) :
    Pipeline × Except Error Processed :=
  andThen (andThen (andThen (andThen (andThen (annotate profile p frame) stampDevice)
    (stampGlobal wallUs)) (checkTiming mode)) record) process

end Pipeline

/-- A processor that blanks points out of range. -/
def RangeGate.processor (gate : RangeGate) : Stage (Except StageFault Processed) :=
  .constant fun frame => .ok (.keep (gate.apply frame))

end LidarSweep
