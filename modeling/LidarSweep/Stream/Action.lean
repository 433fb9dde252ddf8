import LidarSweep.Stream

/-!
# Actions of threads on a stream

A thread works through an agenda of actions. Each is one atomic step: one access to the control
block, or one to something else that threads share. What has to follow it is put in front of the
agenda, so an operation that calls user code is the list of what is left of it.
-/

namespace LidarSweep

/-- How a halt leaves the stream. -/
inductive Ending where
  | stopped
  /-- Given up by the watcher -/
  | failed
  deriving DecidableEq, Repr

def Ending.state : Ending → StreamState
  | stopped => .stopped
  | failed => .error

/-- What the watcher has spent. -/
structure Budget where
  /-- Restarts since the last frame -/
  retries : Nat := 0
  /-- Frames delivered up to the last restart -/
  mark : Nat := 0
  deriving DecidableEq, Repr, Inhabited

/-- What the watcher saw when it began to wait for a frame. -/
structure Vigil where
  state : StreamState
  activation : Nat
  wakes : Nat
  timeoutMs : Nat
  deadlineNs : Nat
  deriving DecidableEq, Repr

inductive Action where
  | acquire (lock : Lock)
  | release (lock : Lock)
  /-- Ends a start or a halt -/
  | finish (result : Except Error Unit)
  /-- Wait, for at most so long -/
  | await (ready : Stream → Bool) (deadlineNs : Option Nat)
  | sleep (ns : Nat)
  /-- Time goes by unnoticed -/
  | pass (ns : Nat)
  -- starting
  | checkStart (profile : Profile) (consumer : ConsumerId)
  | resetPipeline (rate : ScanRate)
  | install (geometry : Geometry) (format : Format)
  | activate (profile : Profile) (consumer : ConsumerId)
  | openSource (activation : Nat)
  | uninstall
  | revert (cause : Error)
  -- halting
  | halt (ending : Ending)
  | beginHalt (ending : Ending)
  | closeSource (ending : Ending)
  | retire
  | settle (ending : Ending) (result : Except Error Unit)
  | conclude (ending : Ending) (result : Except Error Unit)
  /-- Warns of a halt that failed -/
  | reportHalt
  | abandon
  | shutDown
  -- listeners
  | tell (listener : Nat) (state : StreamState) (profile : Option Profile)
  | hearStopped
  -- packets and frames
  | offer (packet : List UInt8)
  | play (activation index dueNs : Nat)
  | receive (activation : Nat) (packet : List UInt8)
  | ingest (activation : Nat) (packet : List UInt8)
  | deliver (activation : Nat) (frame : Frame)
  | process (activation : Nat) (profile : Profile) (consumer : ConsumerId) (frame : Frame)
  | confirm (activation : Nat) (profile : Profile) (consumer : ConsumerId) (frame : Frame)
  | dropFrame (cause : Error)
  | consume (profile : Profile) (consumer : ConsumerId) (frame : Frame)
  | seeStopped
  | seeStarted
  -- recovery
  | configure (recovery : RecoveryConfig)
  | employ
  | watch (budget : Budget)
  | awaitWake (budget : Budget) (wakes : Nat)
  | awaitFrame (budget : Budget) (vigil : Vigil)
  | stall (budget : Budget) (vigil : Vigil) (limit : Nat)
  | beginRestart (budget : Budget) (vigil : Vigil) (limit : Nat)
  | checkPending (budget : Budget) (vigil : Vigil) (limit : Nat) (profile : Profile)
    (consumer : ConsumerId)
  | endRestart (budget : Budget) (vigil : Vigil) (limit : Nat) (profile : Profile)
    (consumer : ConsumerId)
  | reckon (retries limit : Nat)

namespace Action

/-- What a caller does to start a stream. -/
def start (profile : Profile) (consumer : ConsumerId) : List Action :=
  [acquire .restart, checkStart profile consumer, release .restart]

/-- What a caller does to stop a stream. -/
def stop : List Action := [halt .stopped]

/-- What the owner of a stream does to be rid of it. -/
def discard : List Action :=
  [abandon, halt .stopped, reportHalt, shutDown, await (fun s => !s.isWatched) none]

/-- The time at which a waiting action can go on at the latest. -/
def dueNs? : Action → Option Nat
  | await _ deadline => deadline
  | play _ _ due => some due
  | awaitFrame _ vigil => some vigil.deadlineNs
  | _ => none

end Action

/-- Tells every listener that there was. -/
def Notice.tell (n : Notice) : List Action :=
  (List.range n.listeners).map fun i => .tell i n.state n.profile

/-- Tells listeners, if there is anything to tell. -/
def Notice.tellAll (n : Option Notice) : List Action :=
  match n with
  | some n => n.tell
  | none => []

theorem Notice.eq_tell_of_mem_tellAll {n : Option Notice} {x : Action}
    (h : x ∈ Notice.tellAll n) : ∃ i state profile, x = .tell i state profile := by
  cases n with
  | none => cases h
  | some n =>
    obtain ⟨i, _, rfl⟩ := List.mem_map.mp h
    exact ⟨i, _, _, rfl⟩

def Errand.actions (profile : Profile) (consumer : ConsumerId) : Errand → List Action
  | stop => Action.stop ++ [.seeStopped]
  | start profile? consumer? =>
    Action.start (profile?.getD profile) (consumer?.getD consumer) ++ [.seeStarted]
  | awaitStopping => [.await (fun s => s.control.state = .stopping) none]

/-- What an action does: the stream after it, and what its thread has to do next. -/
structure Effect where
  stream : Stream
  next : List Action := []
  /-- How a start or halt ended -/
  result : Option (Except Error Unit) := none
  /-- Packets that the source took -/
  taken : Nat := 0
  /-- Agendas of new threads -/
  spawned : List (List Action) := []

end LidarSweep
