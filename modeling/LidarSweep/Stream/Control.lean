import LidarSweep.Config
import LidarSweep.Error

/-!
# The control block of a stream

State, profile and consumer of a stream, and what the recovery watcher goes by. Every access to it
is one atomic step. Listeners are told of a change afterwards, by a notice that was made with it.
-/

namespace LidarSweep

/-- Names the consumer that frames are delivered to. -/
abbrev ConsumerId := Nat

/-- Counters over the whole life of a stream. -/
structure StreamStats where
  /-- Frames handed to the consumer -/
  delivered : Nat := 0
  /-- Frames that a stage failed on -/
  dropped : Nat := 0
  /-- Frames that were complete only after a stop was asked for -/
  late : Nat := 0
  /-- Restarts by the watcher that worked -/
  recoveries : Nat := 0
  failedRecoveries : Nat := 0
  deriving DecidableEq, Repr, Inhabited

/-- What a listener does when it is told of a state. -/
inductive Reaction where
  | note
  /-- Stops the stream -/
  | stop
  | panic (reason : String)

/-- Told of every change of state. -/
structure Listener where
  /-- Writes down all it is told -/
  keeps : Bool := false
  /-- Its reactions to coming states, each once and in this order -/
  plan : List (StreamState × Reaction) := []

namespace Listener

/-- What it does on being told of `state`, and what it still has before it. -/
def hear (l : Listener) (state : StreamState) : Listener × Option Reaction :=
  match l.plan with
  | (awaited, reaction) :: plan =>
    if awaited = state then ({ l with plan }, some reaction) else (l, none)
  | [] => (l, none)

end Listener

/-- What the listeners that there were at a change are to be told. -/
structure Notice where
  state : StreamState
  profile : Option Profile
  /-- How many listeners there were -/
  listeners : Nat

structure Control where
  state : StreamState := .stopped
  /-- Profile of this activation or the last one -/
  profile : Option Profile := none
  consumer : Option ConsumerId := none
  recovery : RecoveryConfig := {}
  /-- Counts what the watcher is woken by -/
  wakes : Nat := 0
  /-- Counts starts; what belongs to an earlier one no longer counts -/
  activation : Nat := 0
  /-- Listeners are told nothing while the watcher restarts the stream -/
  quiet : Bool := false
  /-- A consumer asked to stop while another stop or restart was under way -/
  stopPending : Bool := false
  /-- The stream is given up, and the watcher with it -/
  shutdown : Bool := false
  listeners : List Listener := []
  stats : StreamStats := {}

namespace Control

def wake (c : Control) : Control := { c with wakes := c.wakes + 1 }

/-- What listeners would be told now. -/
def notice (c : Control) : Option Notice :=
  if c.listeners.isEmpty then none
  else some { state := c.state, profile := c.profile, listeners := c.listeners.length }

/-- Goes to a state. Nothing happens where the stream is in it already. -/
def transition (c : Control) (target : StreamState) : Control × Option Notice :=
  if c.state = target then (c, none)
  else
    let c := { c with state := target }.wake
    (c, if c.quiet then none else c.notice)

/-- A transition sets the state, and counts a wake if that is a change. -/
theorem transition_fst (c : Control) (target : StreamState) :
    (c.transition target).1 =
      { c with state := target, wakes := (c.transition target).1.wakes } := by
  unfold transition
  split
  case isTrue h => rw [← h]
  case isFalse => rfl

/-- Whether a packet or a frame of this activation still counts. -/
def isCurrent (c : Control) (activation : Nat) : Bool :=
  c.activation = activation ∧ c.state.isActive

/-- Whether a stream in this state can be started. -/
def canStart (c : Control) : Bool := c.state = .stopped ∨ c.state = .error

def countLate (c : Control) : Control :=
  { c with stats := { c.stats with late := c.stats.late + 1 } }

def countDropped (c : Control) : Control :=
  { c with stats := { c.stats with dropped := c.stats.dropped + 1 } }

def countDelivered (c : Control) : Control :=
  { c with stats := { c.stats with delivered := c.stats.delivered + 1 } }

end Control

end LidarSweep
