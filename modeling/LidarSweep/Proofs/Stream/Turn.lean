import LidarSweep.Stream.Machine

/-!
# Turns

In a turn one thread works on a stream and no other thread moves. It is over when the thread has
nothing left to do, or when it is the watcher and comes back to where its round begins. A turn is
written down as the list of its deeds.

A turn is a run of the machine, and a thread can end it in one way only.
-/

namespace LidarSweep

/-- An action of a thread, and the stream as it was before. -/
structure Deed where
  action : Action
  before : Stream

/-- Whether the watcher is between two tasks here. -/
def Action.isPause : Action → Bool
  | watch _ | reckon _ _ => true
  | _ => false

namespace Thread

def isResting (t : Thread) : Bool :=
  match t.agenda with
  | [] => true
  | [action] => action.isPause
  | _ => false

theorem not_isResting {t : Thread} {action : Action} {rest : List Action}
    (hAgenda : t.agenda = action :: rest) (hGoes : action.isPause = false) :
    ¬ t.isResting = true := by
  unfold isResting
  rw [hAgenda]
  cases rest with
  | nil => exact Bool.eq_false_iff.mp hGoes
  | cons => exact nofun

end Thread

/-- What thread `me` does in one go, and to which end. -/
inductive Turn (me : ThreadId) : Thread → Stream → List Deed → Thread → Stream → Prop where
  | stay (t : Thread) (s : Stream) : Turn me t s [] t s
  | step {t : Thread} {s : Stream} {action : Action} {rest : List Action} {e : Effect}
      {deeds : List Deed} {t' : Thread} {s' : Stream} (hAgenda : t.agenda = action :: rest)
      (hGoes : action.isPause = false) (hPerform : action.perform me t.last s = some e)
      (hAlone : e.spawned = []) (hTurn : Turn me (t.advance e) e.stream deeds t' s') :
      Turn me t s (⟨action, s⟩ :: deeds) t' s'

namespace Turn

variable {me : ThreadId} {t t' t'' : Thread} {s s' s'' : Stream} {deeds deeds' : List Deed}

theorem trans (h : Turn me t s deeds t' s') (h' : Turn me t' s' deeds' t'' s'') :
    Turn me t s (deeds ++ deeds') t'' s'' := by
  induction h with
  | stay => exact h'
  | step hAgenda hGoes hPerform hAlone _ ih => exact .step hAgenda hGoes hPerform hAlone (ih h')

/-- A thread at rest does nothing in its turn. -/
theorem eq_of_isResting (h : Turn me t s deeds t' s') (hRest : t.isResting = true) :
    deeds = [] ∧ t' = t ∧ s' = s := by
  cases h with
  | stay => exact ⟨rfl, rfl, rfl⟩
  | step hAgenda hGoes => exact absurd hRest (Thread.not_isResting hAgenda hGoes)

/-- A thread that comes to rest does so after the same deeds and in the same way, always. -/
theorem unique (h : Turn me t s deeds t' s') (hRest : t'.isResting = true)
    (h' : Turn me t s deeds' t'' s'') (hRest' : t''.isResting = true) :
    deeds' = deeds ∧ t'' = t' ∧ s'' = s' := by
  induction h generalizing deeds' with
  | stay => exact h'.eq_of_isResting hRest
  | step hAgenda hGoes hPerform _ _ ih =>
    cases h' with
    | stay => exact absurd hRest' (Thread.not_isResting hAgenda hGoes)
    | step hAgenda' _ hPerform' _ hTurn' =>
      obtain ⟨rfl, rfl⟩ := List.cons.inj (hAgenda.symm.trans hAgenda')
      cases hPerform.symm.trans hPerform'
      obtain ⟨rfl, rfl, rfl⟩ := ih hRest hTurn'
      exact ⟨rfl, rfl, rfl⟩

/-- A turn is a run of any machine that has this thread. -/
theorem run (h : Turn me t s deeds t' s') {m : Machine} {threads : List Thread}
    (hThread : threads[me]? = some t) (hRun : Machine.Run m ⟨s, threads⟩) :
    Machine.Run m ⟨s', threads.set me t'⟩ := by
  induction h generalizing threads with
  | stay t s =>
    obtain ⟨_, rfl⟩ := List.getElem?_eq_some_iff.mp hThread
    rwa [List.set_getElem_self]
  | @step t s action rest e deeds t' s' hAgenda _ hPerform hAlone _ ih =>
    obtain ⟨hLength, _⟩ := List.getElem?_eq_some_iff.mp hThread
    have hStep : Machine.step? ⟨s, threads⟩ me = some ⟨e.stream, threads.set me (t.advance e)⟩ := by
      simp [Machine.step?, hThread, hAgenda, hPerform, hAlone]
    have hRest := ih (List.getElem?_set_self hLength) (hRun.step hStep)
    rwa [List.set_set] at hRest

end Turn

end LidarSweep
