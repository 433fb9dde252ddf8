import LidarSweep.Stream.Machine

/-!
# Running a machine

One way to run the threads of a machine: the first that need not wait moves, and only when all wait
does time go on, to the next moment at which one of them stops waiting. The first thread is the
caller's. Whatever is scheduled here is a run of the machine.
-/

namespace LidarSweep

/-- Whether a listener will panic when it is told of `state`. -/
def Listener.panicsAt (l : Listener) (state : StreamState) : Bool :=
  match l.plan with
  | (awaited, .panic _) :: _ => awaited = state
  | _ => false

namespace Machine

/-- The next step, of the first thread that has one and is not held up. -/
def next? (m : Machine) (isHeld : ThreadId → Bool) : Option Machine :=
  ((List.range m.threads.length).filter (!isHeld ·)).findSome? m.step?

/-- Steps until all threads wait, are done or are held up. -/
def rest (isHeld : Machine → ThreadId → Bool) (fuel : Nat) (m : Machine) : Machine :=
  match fuel with
  | 0 => m
  | fuel + 1 =>
    match m.next? (isHeld m) with
    | some m => rest isHeld fuel m
    | none => m

/-- Steps until all threads wait or are done. -/
def settle (fuel : Nat) (m : Machine) : Machine := m.rest (fun _ _ => false) fuel

/-- Whether thread `i` is about to tell a listener that will panic. -/
def upsets (m : Machine) (i : ThreadId) : Bool :=
  match m.threads[i]?.bind (·.agenda.head?) with
  | some (.tell listener state _) => m.stream.control.listeners[listener]?.any (·.panicsAt state)
  | _ => false

/-- Steps until all threads wait, are done or are about to have a panic, which takes its time. -/
def quieten (fuel : Nat) (m : Machine) : Machine := m.rest upsets fuel

/-- The next moment at which a waiting thread can go on. -/
def nextDue? (m : Machine) : Option Nat :=
  (m.threads.filterMap fun t => t.agenda.head?.bind Action.dueNs?).min?

/-- Runs until `isDone` or until nothing can happen any more. -/
def runUntil (isDone : Machine → Bool) (fuel : Nat) (m : Machine) : Machine :=
  match fuel with
  | 0 => m
  | fuel + 1 =>
    if isDone m then m
    else
      match m.next? fun _ => false with
      | some m => runUntil isDone fuel m
      | none =>
        match m.nextDue? with
        | some due => runUntil isDone fuel (m.passTo due)
        | none => m

def isFinished (m : Machine) (i : ThreadId) : Bool := m.threads[i]?.all Thread.isDone

/-- A stream and a caller with nothing to do. -/
def ofStream (stream : Stream) : Machine := { stream, threads := [{ agenda := [] }] }

/-- The caller is given something to do. -/
def assign (m : Machine) (agenda : List Action) : Machine :=
  { m with threads := m.threads.set 0 { agenda } }

/-- The caller does what it is given, and then the others come to rest. -/
def call (fuel : Nat) (agenda : List Action) (m : Machine) : Machine :=
  settle fuel (runUntil (isFinished · 0) fuel (m.assign agenda))

/-- The caller does what it is given, at once: the others have come as far as they could without
time, and go on only where the caller has to wait. -/
def order (fuel : Nat) (agenda : List Action) (m : Machine) : Machine :=
  runUntil (isFinished · 0) fuel ((m.quieten fuel).assign agenda)

/-- The caller waits, and then looks around. -/
def pause (fuel : Nat) (agenda : List Action) (m : Machine) : Machine :=
  (m.order fuel agenda).quieten fuel

/-- A new thread is given something to do, and goes as far as it gets without time. -/
def spawn (fuel : Nat) (agenda : List Action) (m : Machine) : Machine :=
  settle fuel { m with threads := m.threads ++ [{ agenda }] }

/-- The caller waits for another thread. -/
def join (fuel : Nat) (i : ThreadId) (m : Machine) : Machine :=
  settle fuel (runUntil (isFinished · i) fuel m)

/-- The caller's state after what it was given. -/
def caller (m : Machine) : Thread := m.threads.headD { agenda := [] }

/-- Changes to the stream that need no thread. -/
def edit (change : Stream → Stream) (m : Machine) : Machine :=
  { m with stream := change m.stream }

/-! ### Schedules are runs -/

namespace Run

variable {a b c : Machine}

theorem next {isHeld : ThreadId → Bool} (h : Run a b) (hNext : b.next? isHeld = some c) :
    Run a c := by
  obtain ⟨i, -, hStep⟩ := List.exists_of_findSome?_eq_some hNext
  exact h.step hStep

theorem rest (h : Run a b) (isHeld : Machine → ThreadId → Bool) (fuel : Nat) :
    Run a (b.rest isHeld fuel) := by
  induction fuel generalizing b with
  | zero => exact h
  | succ fuel ih =>
    rw [Machine.rest]
    split
    next hNext => exact ih (h.next hNext)
    next => exact h

theorem runUntil (h : Run a b) (isDone : Machine → Bool) (fuel : Nat) :
    Run a (b.runUntil isDone fuel) := by
  induction fuel generalizing b with
  | zero => exact h
  | succ fuel ih =>
    rw [Machine.runUntil]
    split
    case isTrue => exact h
    case isFalse =>
      split
      next hNext => exact ih (h.next hNext)
      next =>
        split
        next due _ => exact ih (h.pass due)
        next => exact h

theorem call (m : Machine) (fuel : Nat) (agenda : List Action) :
    Run (m.assign agenda) (m.call fuel agenda) :=
  ((refl _).runUntil _ fuel).rest _ fuel

/-- What the caller does in between is a run, and so is what the others did before. -/
theorem order (m : Machine) (fuel : Nat) (agenda : List Action) :
    Run m (m.quieten fuel) ∧ Run ((m.quieten fuel).assign agenda) (m.order fuel agenda) :=
  ⟨(refl m).rest _ fuel, (refl _).runUntil _ fuel⟩

end Run

end Machine

end LidarSweep
