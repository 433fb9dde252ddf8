import LidarSweep.Stream.Action
import LidarSweep.Text.Duration

/-!
# The recovery watcher

The watcher waits for the first frame of an activation, then for each next one. When none comes in
time, it stops and starts the stream again, with the profile and consumer it had, and listeners see
only how the state differs in the end. A restart that fails leaves the stream starting, so the next
wait tries again. After so many restarts without a frame the stream is given up. While the device
waits for triggers no frame is missed.
-/

namespace LidarSweep.Stream

def configure (s : Stream) (recovery : RecoveryConfig) : Effect :=
  { stream := { s with control := { s.control with recovery }.wake }
    next :=
      if recovery.isEnabled then [.employ] else [.await (fun s => !s.isWatched) none]
    result := some (.ok ()) }

/-- Sets a watcher to work unless there is one. -/
def employ (s : Stream) : Effect :=
  if s.isWatched then { stream := s }
  else { stream := { s with isWatched := true }, spawned := [[.watch {}]] }

/-- How long the watcher waits in this state, if there is a limit. -/
def patience? (c : Control) : Option Nat :=
  match c.state with
  | .starting => c.recovery.noStream?
  | .streaming => c.recovery.interrupt?
  | _ => none

/-- What the watcher has spent, seen at the head of its round. A frame since the last restart sets
it free again, and so does a stream that is not active. -/
def review (c : Control) (budget : Budget) : Budget :=
  match c.state with
  | .starting => budget
  | .streaming => if c.stats.delivered > budget.mark then { budget with retries := 0 } else budget
  | _ => { budget with retries := 0 }

/-- The head of the watcher's round. -/
def watch (s : Stream) (budget : Budget) : Effect :=
  let c := s.control
  if c.shutdown || !c.recovery.isEnabled then { stream := { s with isWatched := false } }
  else
    let budget := review c budget
    match patience? c with
    | none => { stream := s, next := [.awaitWake budget c.wakes] }
    | some timeoutMs =>
      let vigil := {
        state := c.state
        activation := c.activation
        wakes := c.wakes
        timeoutMs
        deadlineNs := s.now + timeoutMs * 1000000 }
      { stream := s, next := [.awaitFrame budget vigil] }

def awaitWake? (s : Stream) (budget : Budget) (wakes : Nat) : Option Effect :=
  if s.control.wakes = wakes then none else some { stream := s, next := [.watch budget] }

/-- A wake comes before a deadline. -/
def awaitFrame? (s : Stream) (budget : Budget) (vigil : Vigil) : Option Effect :=
  if s.control.wakes ≠ vigil.wakes then some { stream := s, next := [.watch budget] }
  else if s.now < vigil.deadlineNs then none
  else
    some {
      stream := s
      next := [.stall budget vigil s.control.recovery.maxRestarts.toNat] }

def stall (s : Stream) (budget : Budget) (vigil : Vigil) (limit : Nat) : Effect :=
  if s.device.syncMode.isTriggered then { stream := s, next := [.watch budget] }
  else
    let wait := Duration.text (vigil.timeoutMs * 1000000)
    { stream := s.warn <| s!"stream: no frames for {wait} while {vigil.state.label}, "
        ++ s!"restart {budget.retries + 1}/{limit}"
      next := [.acquire .restart, .beginRestart budget vigil limit] }

/-- A stream that has changed since is left alone. -/
def beginRestart (s : Stream) (budget : Budget) (vigil : Vigil) (limit : Nat) : Effect :=
  let c := s.control
  if c.shutdown || c.state ≠ vigil.state || c.activation ≠ vigil.activation then
    { stream := s, next := [.release .restart, .watch budget] }
  else
    match c.profile, c.consumer with
    | some profile, some consumer =>
      { stream := { s with control := { c with quiet := true } }
        next := Action.stop ++ [.checkPending budget vigil limit profile consumer] }
    | _, _ => { stream := s, next := [.release .restart, .watch budget] }

/-- A consumer that asked to stop meanwhile has its way. -/
def checkPending (s : Stream) (result : Except Error Unit) (budget : Budget) (vigil : Vigil)
    (limit : Nat) (profile : Profile) (consumer : ConsumerId) : Effect :=
  let s :=
    match result with
    | .ok () => s
    | .error e => s.warn s!"stream: restart stop failed: {e.message}"
  if s.control.stopPending then
    let control := { s.control with quiet := false }
    { stream := { s with control }
      next := Notice.tellAll control.notice ++ [.release .restart, .watch budget] }
  else
    { stream := s
      next := Action.start profile consumer ++
        [.endRestart budget vigil limit profile consumer] }

/-- The control block of a stream that could not be started again: it counts as starting. -/
def hold (c : Control) (profile : Profile) (consumer : ConsumerId) : Control :=
  let c := {
    c with
    profile := some profile
    consumer := some consumer
    activation := c.activation + 1 }
  let c := (c.transition .starting).1
  { c with stats := { c.stats with failedRecoveries := c.stats.failedRecoveries + 1 } }

theorem hold_eq (c : Control) (profile : Profile) (consumer : ConsumerId) :
    hold c profile consumer = {
      c with
      profile := some profile
      consumer := some consumer
      activation := c.activation + 1
      state := .starting
      wakes := (hold c profile consumer).wakes
      stats := { c.stats with failedRecoveries := c.stats.failedRecoveries + 1 } } := by
  dsimp only [hold]
  rw [Control.transition_fst]

def endRestart (s : Stream) (result : Except Error Unit) (budget : Budget) (vigil : Vigil)
    (limit : Nat) (profile : Profile) (consumer : ConsumerId) : Effect :=
  let s :=
    match result with
    | .ok () =>
      let stats := s.control.stats
      { s with control := {
          s.control with stats := { stats with recoveries := stats.recoveries + 1 } } }
    | .error e =>
      let s := s.warn s!"stream: restart failed: {e.message}"
      { s with control := hold s.control profile consumer }
  let control := { s.control with quiet := false }
  { stream := { s with control }
    next := (if control.state = vigil.state then [] else Notice.tellAll control.notice) ++
      [.release .restart, .reckon (budget.retries + 1) limit] }

/-- After a restart: gives the stream up if that was the last. -/
def reckon (s : Stream) (retries limit : Nat) : Effect :=
  let budget := { retries, mark := s.control.stats.delivered }
  if retries ≥ limit then
    { stream := s.fail <| s!"stream: "
        ++ (Error.stall s!"no frames after {retries} restarts, giving up").message
      next := [.halt .failed, .reportHalt, .watch budget] }
  else { stream := s, next := [.watch budget] }

end LidarSweep.Stream
