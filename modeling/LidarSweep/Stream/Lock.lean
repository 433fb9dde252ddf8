/-!
# Locks

A thread may take a lock that it holds already; the lock is free again after as many releases.
-/

namespace LidarSweep

/-- Numbers a thread. -/
abbrev ThreadId := Nat

inductive Lock where
  /-- Held by whoever starts, stops or restarts the stream -/
  | restart
  /-- Held while a frame is delivered -/
  | delivery
  /-- Held while a frame passes the stages -/
  | pipeline
  deriving DecidableEq, Repr

/-- Who holds a lock, and how many times. -/
structure Hold where
  owner : ThreadId
  depth : Nat
  deriving DecidableEq, Repr

/-- The locks of a stream and their holders. -/
structure Locks where
  holder : Lock → Option Hold := fun _ => none

namespace Locks

def set (ls : Locks) (lock : Lock) (hold : Option Hold) : Locks :=
  ⟨fun l => if l = lock then hold else ls.holder l⟩

def isHeldBy (ls : Locks) (lock : Lock) (me : ThreadId) : Bool :=
  match ls.holder lock with
  | some hold => hold.owner == me
  | none => false

/-- Nothing while another thread holds the lock. -/
def acquire? (ls : Locks) (lock : Lock) (me : ThreadId) : Option Locks :=
  match ls.holder lock with
  | none => some (ls.set lock (some ⟨me, 1⟩))
  | some hold =>
    if hold.owner = me then some (ls.set lock (some ⟨me, hold.depth + 1⟩)) else none

/-- Undoes one `acquire?`. -/
def release (ls : Locks) (lock : Lock) : Locks :=
  match ls.holder lock with
  | some ⟨owner, depth + 2⟩ => ls.set lock (some ⟨owner, depth + 1⟩)
  | _ => ls.set lock none

@[simp] theorem holder_set_self (ls : Locks) (lock : Lock) (hold : Option Hold) :
    (ls.set lock hold).holder lock = hold := if_pos rfl

theorem set_set (ls : Locks) (lock : Lock) (hold hold' : Option Hold) :
    (ls.set lock hold).set lock hold' = ls.set lock hold' := by
  unfold set
  congr 1
  funext l
  dsimp only
  split <;> rfl

theorem set_eq_self {ls : Locks} {lock : Lock} {hold : Option Hold} (h : ls.holder lock = hold) :
    ls.set lock hold = ls := by
  unfold set
  congr 1
  funext l
  split
  case isTrue hl => rw [hl, h]
  case isFalse => rfl

/-- No lock is in another thread's hands. -/
def FreeFor (ls : Locks) (me : ThreadId) : Prop :=
  ∀ lock hold, ls.holder lock = some hold → hold.owner = me ∧ 0 < hold.depth

theorem freeFor_none (me : ThreadId) : FreeFor {} me := by
  intro lock hold h
  cases h

theorem FreeFor.set {ls : Locks} {me : ThreadId} (h : ls.FreeFor me) (lock : Lock) (depth : Nat) :
    (ls.set lock (some ⟨me, depth + 1⟩)).FreeFor me := by
  intro l hold hHold
  simp only [Locks.set] at hHold
  split at hHold
  · cases hHold
    exact ⟨rfl, Nat.succ_pos depth⟩
  · exact h l hold hHold

/-- A thread that nobody is in the way of gets a lock, and its release undoes just that. -/
theorem FreeFor.acquire {ls : Locks} {me : ThreadId} (h : ls.FreeFor me) (lock : Lock) :
    ∃ locks, ls.acquire? lock me = some locks ∧ locks.FreeFor me ∧
      locks.isHeldBy lock me = true ∧ locks.release lock = ls := by
  unfold acquire?
  cases hHolder : ls.holder lock with
  | none =>
    refine ⟨_, rfl, h.set lock 0, by simp [isHeldBy], ?_⟩
    simp only [release, holder_set_self]
    rw [set_set, set_eq_self hHolder]
  | some hold =>
    obtain ⟨owner, depth⟩ := hold
    obtain ⟨rfl, hDepth⟩ := h lock _ hHolder
    cases depth with
    | zero => cases hDepth
    | succ n =>
      refine ⟨_, if_pos rfl, h.set lock (n + 1), by simp [isHeldBy], ?_⟩
      simp only [release, holder_set_self]
      rw [set_set, set_eq_self hHolder]

end Locks

end LidarSweep
