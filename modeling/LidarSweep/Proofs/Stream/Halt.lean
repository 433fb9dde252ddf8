import LidarSweep.Proofs.Stream.Core

/-!
# Halts, done

What a halt comes to when no other thread moves: the source is closed, the assembler retired and the
consumer forgotten, unless the stream was over already.
-/

namespace LidarSweep

namespace Stream

/-- Whether a halt with this ending has nothing to do. -/
def isOver (s : Stream) (ending : Ending) : Bool :=
  s.control.state = ending.state ∨ s.control.state = .stopped

def halted (s : Stream) (ending : Ending) : Stream :=
  if s.isOver ending then s
  else
    { s with
      source := s.source.stop.1
      assembler := none
      lastStats := s.assemblerStats
      control := { s.control with consumer := none, state := ending.state } }

def haltResult (s : Stream) (ending : Ending) : Except Error Unit :=
  if s.isOver ending then .ok () else s.source.stop.2

end Stream

namespace Moves

variable {me : ThreadId} {rest : List Action} {c : Stream} {locks : Locks}
  {last : Except Error Unit} {ending : Ending}

theorem beginHalt_of_isOver (hOver : c.isOver ending = true) :
    Moves me ⟨.beginHalt ending :: rest, c, locks, last⟩ ⟨rest, c, locks, .ok ()⟩ := by
  refine act rfl ?_
  rintro s rfl rfl hCalm
  have hBegin : s.beginHalt ending = { stream := s, result := some (.ok ()) } :=
    if_pos (of_decide_eq_true hOver)
  exact ⟨_, congrArg some hBegin, rfl, hCalm, refl _⟩

theorem beginHalt (hOver : c.isOver ending = false) :
    Moves me ⟨.beginHalt ending :: rest, c, locks, last⟩
      ⟨.closeSource ending :: rest, { c with control := { c.control with state := .stopping } },
        locks, last⟩ := by
  refine act rfl ?_
  rintro s rfl rfl hCalm
  have hBegin : s.beginHalt ending = {
      stream := { s with control := (s.control.transition .stopping).1 }
      next := (if ending = .stopped then
        Notice.tellAll (s.control.transition .stopping).2 else []) ++ [.closeSource ending] } :=
    if_neg (of_decide_eq_false hOver)
  refine ⟨_, congrArg some hBegin, rfl, Stream.isCalm_transition hCalm rfl _, ?_⟩
  rw [Stream.core_transition, List.append_assoc]
  split
  · exact tellAll _
  · exact refl _

theorem closeSource :
    Moves me ⟨.closeSource ending :: rest, c, locks, last⟩
      ⟨.acquire .delivery :: .release .delivery :: .retire :: .settle ending c.source.stop.2 ::
        rest, { c with source := c.source.stop.1 }, locks, last⟩ := by
  refine act rfl ?_
  rintro s rfl rfl hCalm
  rcases hStop : s.source.stop with ⟨source, result⟩
  rw [show s.core.source.stop = (source, result) from hStop]
  dsimp only [Action.perform, Stream.closeSource]
  rw [hStop]
  cases result with
  | ok => exact ⟨_, rfl, rfl, hCalm, refl _⟩
  | error e => exact ⟨_, rfl, rfl, hCalm, refl _⟩

theorem retire :
    Moves me ⟨.retire :: rest, c, locks, last⟩
      ⟨rest, { c with assembler := none, lastStats := c.assemblerStats }, locks, last⟩ := by
  refine act rfl ?_
  rintro s rfl rfl hCalm
  exact ⟨_, rfl, rfl, hCalm, refl _⟩

theorem conclude (result : Except Error Unit) :
    Moves me ⟨.conclude ending result :: rest, c, locks, last⟩ ⟨rest, c, locks, result⟩ := by
  refine act rfl ?_
  rintro s rfl rfl hCalm
  cases ending with
  | stopped => exact ⟨_, rfl, rfl, hCalm, refl _⟩
  | failed => exact ⟨_, rfl, rfl, hCalm, refl _⟩

theorem settle (result : Except Error Unit) :
    Moves me ⟨.settle ending result :: rest, c, locks, last⟩
      ⟨rest, { c with control := { c.control with consumer := none, state := ending.state } },
        locks, result⟩ :=
  (transition (fun d => { d with consumer := none }) ending.state [.conclude ending result] rfl
    (fun _ _ => rfl) (fun _ => rfl) fun _ => rfl).trans (conclude result)

theorem enterHalt (hFree : locks.FreeFor me) :
    Moves me ⟨.beginHalt ending :: rest, c, locks, last⟩
      ⟨rest, c.halted ending, locks, c.haltResult ending⟩ := by
  unfold Stream.halted Stream.haltResult
  cases hOver : c.isOver ending with
  | true => exact beginHalt_of_isOver hOver
  | false =>
    obtain ⟨locks', _, hRelease, hAcquire⟩ := acquire hFree .delivery
    refine (beginHalt hOver).trans (closeSource.trans ((hAcquire _ _ _).trans
      ((release _).trans ?_)))
    rw [hRelease]
    exact retire.trans (settle _)

/-- **What a halt comes to.**  A thread that no lock keeps out stops the stream, whatever it is in
the middle of. -/
theorem halt (hFree : locks.FreeFor me) (hState : c.control.state ≠ .stopping) :
    Moves me ⟨.halt ending :: rest, c, locks, last⟩
      ⟨rest, c.halted ending, locks, c.haltResult ending⟩ := by
  refine act rfl ?_
  rintro s rfl rfl hCalm
  by_cases hOwn : s.locks.isHeldBy .delivery me = true ∧ s.control.state = ending.state
  · have hOver : s.core.isOver ending = true := decide_eq_true (.inl hOwn.2)
    refine ⟨{ stream := s, result := some (.ok ()) }, ?_, rfl, hCalm, ?_⟩
    · rw [Action.perform, Stream.halt?, if_pos hOwn.1, if_pos hOwn.2]
    · rw [Stream.halted, Stream.haltResult, if_pos hOver, if_pos hOver]
      exact refl _
  · obtain ⟨locks, hAcquire, hFree', _, hRelease⟩ := hFree.acquire .restart
    have hEnter : s.halt? me ending = some {
        stream := { s with locks }, next := [.beginHalt ending, .release .restart] } := by
      rw [Stream.halt?, hAcquire]
      split
      case isTrue hHeld =>
        rw [if_neg fun hEnded => hOwn ⟨hHeld, hEnded⟩, if_neg (by exact hState)]
        rfl
      case isFalse => rfl
    refine ⟨_, hEnter, rfl, hCalm, (enterHalt (by exact hFree')).trans ((release _).trans ?_)⟩
    rw [show ({ s with locks } : Stream).locks = locks from rfl, hRelease]
    exact refl _

end Moves

end LidarSweep
