import LidarSweep.Stream.Delivery
import LidarSweep.Stream.Halt
import LidarSweep.Stream.Recovery
import LidarSweep.Stream.Start

/-!
# Threads at work on a stream

`Action.perform` says what one action does, or that it has to wait. A machine is a stream and the
threads on it; any thread whose next action need not wait may take the next step.
-/

namespace LidarSweep

/-- What an action of thread `me` does; nothing while it has to wait. `last` is how the thread's
latest start or halt ended. -/
def Action.perform (action : Action) (me : ThreadId) (last : Except Error Unit) (s : Stream) :
    Option Effect :=
  match action with
  | acquire lock =>
    (s.locks.acquire? lock me).map fun locks => { stream := { s with locks } }
  | release lock => some { stream := { s with locks := s.locks.release lock } }
  | finish result => some { stream := s, result := some result }
  | await ready deadline =>
    if ready s || deadline.any (· ≤ s.now) then some { stream := s } else none
  | sleep ns => some { stream := s, next := [.await (fun _ => false) (some (s.now + ns))] }
  | pass ns => some { stream := { s with now := s.now + ns } }
  | checkStart profile consumer => some (s.checkStart profile consumer)
  | resetPipeline rate => some (s.resetPipeline rate)
  | install geometry format => some (s.install geometry format)
  | activate profile consumer => some (s.activate profile consumer)
  | openSource activation => some (s.openSource activation)
  | uninstall => some s.uninstall
  | revert cause => some (s.revert cause)
  | halt ending => s.halt? me ending
  | beginHalt ending => some (s.beginHalt ending)
  | closeSource ending => some (s.closeSource ending)
  | retire => some s.retire
  | settle ending result => some (s.settle ending result)
  | conclude ending result => some (s.conclude ending result)
  | reportHalt => some (s.reportHalt last)
  | abandon => some { stream := { s with isAbandoned := true } }
  | shutDown => some s.shutDown
  | tell listener state profile => some (s.tell listener state profile)
  | hearStopped => some { stream := s.heard (.stopped last) }
  | offer packet => some (s.offer packet)
  | play activation index due => s.play? activation index due
  | receive activation packet => some (s.receive activation packet)
  | ingest activation packet => some (s.ingest activation packet)
  | deliver activation frame => some (s.deliver activation frame)
  | process activation profile consumer frame =>
    some (s.process activation profile consumer frame)
  | confirm activation profile consumer frame =>
    some (s.confirm activation profile consumer frame)
  | dropFrame cause => some (s.dropFrame cause)
  | consume profile consumer frame => some (s.consume profile consumer frame)
  | seeStopped => some { stream := s.consumed (.stopped last) }
  | seeStarted => some { stream := s.consumed (.started last) }
  | configure recovery => some (s.configure recovery)
  | employ => some s.employ
  | watch budget => some (s.watch budget)
  | awaitWake budget wakes => s.awaitWake? budget wakes
  | awaitFrame budget vigil => s.awaitFrame? budget vigil
  | stall budget vigil limit => some (s.stall budget vigil limit)
  | beginRestart budget vigil limit => some (s.beginRestart budget vigil limit)
  | checkPending budget vigil limit profile consumer =>
    some (s.checkPending last budget vigil limit profile consumer)
  | endRestart budget vigil limit profile consumer =>
    some (s.endRestart last budget vigil limit profile consumer)
  | reckon retries limit => some (s.reckon retries limit)

structure Thread where
  agenda : List Action
  /-- How its latest start or halt ended -/
  last : Except Error Unit := .ok ()
  /-- Packets of its that the source took -/
  taken : Nat := 0

namespace Thread

def isDone (t : Thread) : Bool := t.agenda.isEmpty

/-- The thread after the effect of its first action. -/
def advance (t : Thread) (e : Effect) : Thread where
  agenda := e.next ++ t.agenda.drop 1
  last := e.result.getD t.last
  taken := t.taken + e.taken

end Thread

structure Machine where
  stream : Stream
  threads : List Thread

namespace Machine

/-- One step of thread `i`, unless it is done or has to wait. -/
def step? (m : Machine) (i : ThreadId) : Option Machine :=
  match m.threads[i]? with
  | none => none
  | some t =>
    match t.agenda with
    | [] => none
    | action :: _ =>
      (action.perform i t.last m.stream).map fun e => {
        stream := e.stream
        threads := m.threads.set i (t.advance e) ++ e.spawned.map fun agenda => { agenda } }

/-- Time goes by while no thread moves. -/
def passTo (m : Machine) (now : Nat) : Machine :=
  { m with stream := { m.stream with now := max m.stream.now now } }

/-- Steps of the threads in any order, and time. -/
inductive Run : Machine → Machine → Prop where
  | refl (m : Machine) : Run m m
  | step {a b c : Machine} {i : ThreadId} : Run a b → b.step? i = some c → Run a c
  | pass {a b : Machine} (now : Nat) : Run a b → Run a (b.passTo now)

end Machine

end LidarSweep
