import LidarSweep.CommandLine.Arguments
import LidarSweep.Stream
import LidarSweep.Text.Duration

/-!
# What a session tells its user

Lines of progress, each with a level; how many are shown is the user's choice.
-/

namespace LidarSweep

open CommandLine (LogLevel)

inductive Announcement where
  | synthetic (blocks : UInt16) (intervalNs : Nat)
  | listening (address : String)
  | replaying (packets : Nat) (path : String)
  | state (state : StreamState) (profile : Option Profile)
  | frame (frame : Frame)
  | streamFailed
  | streamSummary (stats : StreamStats)
  | assemblerSummary (stats : AssemblerStats)
  | recorded (frames : Nat)
  /-- Said by the stream -/
  | logged (line : LogLine)

/-- The counters in diagnostics. -/
def StreamStats.describe (s : StreamStats) : String :=
  s!"StreamStats \x7b frames_delivered: {s.delivered}, frames_dropped: {s.dropped}, "
    ++ s!"late_frames: {s.late}, recoveries: {s.recoveries}, "
    ++ s!"failed_recoveries: {s.failedRecoveries} \x7d"

/-- The counters in diagnostics. -/
def AssemblerStats.describe (s : AssemblerStats) : String :=
  s!"AssemblerStats \x7b packets: {s.packets}, frames: {s.frames}, "
    ++ s!"dropped_malformed: {s.malformed}, dropped_length: {s.length}, "
    ++ s!"dropped_magic: {s.magic}, dropped_format: {s.format}, "
    ++ s!"dropped_sequence: {s.sequence}, dropped_overflow: {s.overflow}, "
    ++ s!"discarded_partials: {s.discarded} \x7d"

namespace Announcement

def level : Announcement → LogLevel
  | streamFailed => .error
  | logged line =>
    match line.severity with
    | .warning => .warn
    | .error => .error
  | _ => .info

/-- A state, and the profile it is reached with. -/
def stateText (state : StreamState) (profile : Option Profile) : String :=
  match profile with
  | some p => s!"{state.label} ({p.describe})"
  | none => state.label

/-- A frame without its times. -/
def frameText (f : Frame) : String := s!"frame {f.sequence} points={f.pointCount}"

def text : Announcement → String
  | synthetic blocks intervalNs =>
    s!"synthetic source: {blocks.toNat} packets per sweep every {Duration.text intervalNs}"
  | listening address => s!"listening on {address}"
  | replaying packets path => s!"replaying {packets} packets from {path}"
  | state st profile => s!"stream {stateText st profile}"
  | frame f => s!"{frameText f} device_ts={f.deviceUs}us global_ts={f.globalUs}us"
  | streamFailed => "stream failed and could not be recovered"
  | streamSummary stats => s!"stream stats: {stats.describe}"
  | assemblerSummary stats => s!"assembler stats: {stats.describe}"
  | recorded frames => s!"recorded {frames} frames (0 dropped)"
  | logged line => line.text

/-- Whether it is shown at this level. -/
def isShown (a : Announcement) (level : LogLevel) : Bool := a.level.rank ≤ level.rank

end Announcement

end LidarSweep
