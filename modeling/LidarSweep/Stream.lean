import LidarSweep.Assembler
import LidarSweep.Device
import LidarSweep.Geometry.Table
import LidarSweep.Source.Manual
import LidarSweep.Source.Replay
import LidarSweep.Stream.Control
import LidarSweep.Stream.Lock
import LidarSweep.Stream.Pipeline

/-!
# Streams

A stream turns the packets of a source into frames for a consumer, for as long as it is started.
Here is what it consists of; `Stream.Action` says how threads work on it.
-/

namespace LidarSweep

/-- What a consumer does about the stream while a frame is handed to it. -/
inductive Errand where
  | stop
  /-- Starts; with the profile of the frame and for the same consumer, unless told otherwise -/
  | start (profile : Option Profile := none) (consumer : Option ConsumerId := none)
  /-- Waits until another thread has begun to stop the stream -/
  | awaitStopping
  deriving DecidableEq, Repr

/-- How a consumer takes a frame. -/
inductive Conduct where
  | errands (list : List Errand)
  | panic (reason : String)

/-- What consumers saw: frames, and how their errands ended. -/
inductive ConsumerEntry where
  | frame (consumer : ConsumerId) (frame : Frame)
  | stopped (result : Except Error Unit)
  | started (result : Except Error Unit)

/-- What listeners heard and did. -/
inductive ListenerEntry where
  | state (state : StreamState) (profile : Option Profile)
  | noted (state : StreamState)
  | stopped (result : Except Error Unit)

/-- All that can be seen of a stream from outside, in the order in which it happened. -/
structure Journal where
  consumed : List ConsumerEntry := []
  heard : List ListenerEntry := []
  log : List LogLine := []

namespace Journal

def addConsumed (j : Journal) (entry : ConsumerEntry) : Journal :=
  { j with consumed := j.consumed ++ [entry] }

def addHeard (j : Journal) (entry : ListenerEntry) : Journal :=
  { j with heard := j.heard ++ [entry] }

/-- What a journal has more than it had earlier. -/
def since (j earlier : Journal) : Journal where
  consumed := j.consumed.drop earlier.consumed.length
  heard := j.heard.drop earlier.heard.length
  log := j.log.drop earlier.log.length

def addLog (j : Journal) (lines : List LogLine) : Journal := { j with log := j.log ++ lines }

end Journal

structure Stream where
  streamType : StreamType
  device : Device
  table : GeometryTable
  /-- Its receiver is the activation that started it -/
  source : ManualSource Nat := {}
  /-- What a started source plays by itself -/
  feed : Option Replay := none
  control : Control := {}
  assembler : Option Assembler := none
  /-- Counters of the last assembler that was retired -/
  lastStats : AssemblerStats := {}
  pipeline : Pipeline := {}
  consumer : Stage Conduct := .constant fun _ => .errands []
  locks : Locks := {}
  /-- Whether a recovery watcher is at work -/
  isWatched : Bool := false
  /-- Its owner is about to be rid of it, and nobody else reaches it any more -/
  isAbandoned : Bool := false
  /-- Monotonic time in nanoseconds -/
  now : Nat := 0
  /-- The wall clock in microseconds, by monotonic time -/
  wall : Nat → Nat := fun ns => ns / 1000
  journal : Journal := {}

namespace Stream

/-- A stream as configured, before its first start. -/
def new (streamType : StreamType) (device : Device) (table : GeometryTable) (config : Config) :
    Stream where
  streamType
  device
  table
  control := { recovery := config.recovery }
  pipeline := {
    gaps :=
      if config.anomaly.enabled then some (.new config.anomaly.maxGapPeriods.toNat)
      else none }

/-- Counters of this activation's assembler, or of the last one. -/
def assemblerStats (s : Stream) : AssemblerStats :=
  match s.assembler with
  | some a => a.stats
  | none => s.lastStats

/-- What the recorder has kept, if there is one. -/
def recording? (s : Stream) : Option (List Record) := s.pipeline.recorder.map (·.kept)

def log (s : Stream) (lines : List LogLine) : Stream :=
  { s with journal := s.journal.addLog lines }

/-- Logs a warning about this stream. -/
def warn (s : Stream) (text : String) : Stream :=
  s.log [.warn s!"{s.streamType.label} {text}"]

/-- Logs an error of this stream. -/
def fail (s : Stream) (text : String) : Stream :=
  s.log [.fail s!"{s.streamType.label} {text}"]

def heard (s : Stream) (entry : ListenerEntry) : Stream :=
  { s with journal := s.journal.addHeard entry }

def consumed (s : Stream) (entry : ConsumerEntry) : Stream :=
  { s with journal := s.journal.addConsumed entry }

def addListener (s : Stream) (l : Listener) : Stream :=
  { s with control := { s.control with listeners := s.control.listeners ++ [l] } }

end Stream

end LidarSweep
