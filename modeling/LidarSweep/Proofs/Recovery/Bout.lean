import LidarSweep.Proofs.Recovery.Feed

/-!
# The watcher at work

The watcher goes from one point where it can be held up to the next: it looks at the stream and
waits, or it has waited, restarts the stream if no frame came in time, reckons what it has spent,
and comes back to look. Such a bout takes one course only; here is what each comes to when no other
thread moves meanwhile.

A stall is answered as a whole. Between the last attempt and the giving up the stream has no attempt
left and has not failed yet, so only when the watcher is back from its reckoning does the state say
whether all attempts are spent. What another thread can do between the two is seen at the single
actions (`Machine.attempts_outlive_stop`).
-/

namespace LidarSweep

/-- Whether the watcher waits: to be woken, or for a frame. -/
def Thread.awaits (t : Thread) : Bool :=
  match t.agenda with
  | [.awaitWake _ _] | [.awaitFrame _ _] => true
  | _ => false

/-- What the watcher `w` does in one go. -/
inductive Bout (w : ThreadId) : Thread → Stream → List Deed → Thread → Stream → Prop where
  /-- It looks at the stream -/
  | look {t : Thread} {s : Stream} {budget : Budget} {e : Effect}
      (hAgenda : t.agenda = [.watch budget])
      (hPerform : (Action.watch budget).perform w t.last s = some e) :
      Bout w t s [⟨.watch budget, s⟩] (t.advance e) e.stream
  /-- It has waited, and leaves the stream as it is or as it finds it in the restart -/
  | wake {t t' : Thread} {s s' : Stream} {deeds : List Deed} {budget : Budget}
      (hAwaits : t.awaits = true) (hTurn : Turn w t s deeds t' s')
      (hRest : t'.agenda = [.watch budget]) : Bout w t s deeds t' s'
  /-- It has waited and made an attempt, which it reckons with. If that was the last one allowed, it
  gives the stream up: it waits for nothing between the two, so this belongs to the same stall -/
  | attempt {t t' t'' : Thread} {s s' s'' : Stream} {deeds deeds' : List Deed} {e : Effect}
      {retries limit : Nat} {budget : Budget} (hAwaits : t.awaits = true)
      (hTurn : Turn w t s deeds t' s') (hRest : t'.agenda = [.reckon retries limit])
      (hPerform : (Action.reckon retries limit).perform w t'.last s' = some e)
      (hTurn' : Turn w (t'.advance e) e.stream deeds' t'' s'')
      (hRest' : t''.agenda = [.watch budget]) :
      Bout w t s (deeds ++ ⟨.reckon retries limit, s'⟩ :: deeds') t'' s''

theorem Stream.spawned_watch (s : Stream) (budget : Budget) : (s.watch budget).spawned = [] := by
  unfold watch
  dsimp only
  split
  · rfl
  · split <;> rfl

theorem Stream.spawned_reckon (s : Stream) (retries limit : Nat) :
    (s.reckon retries limit).spawned = [] := by
  unfold reckon
  dsimp only
  split <;> rfl

theorem Thread.isResting_of_agenda {t : Thread} {action : Action} (h : t.agenda = [action])
    (hPause : action.isPause = true) : t.isResting = true := by
  rw [isResting, h]
  exact hPause

theorem Thread.not_awaits {t : Thread} {budget : Budget} (h : t.agenda = [.watch budget]) :
    t.awaits = false := by rw [awaits, h]

namespace Bout

variable {w : ThreadId} {t t' t'' : Thread} {s s' s'' : Stream} {deeds deeds' : List Deed}

/-- A bout takes one course only. -/
theorem unique (h : Bout w t s deeds t' s') (h' : Bout w t s deeds' t'' s'') :
    deeds' = deeds ∧ t'' = t' ∧ s'' = s' := by
  cases h with
  | look hAgenda hPerform =>
    cases h' with
    | look hAgenda' hPerform' =>
      cases hAgenda.symm.trans hAgenda'
      cases hPerform.symm.trans hPerform'
      exact ⟨rfl, rfl, rfl⟩
    | wake hAwaits | attempt hAwaits => cases hAwaits.symm.trans (Thread.not_awaits hAgenda)
  | wake hAwaits hTurn hRest =>
    have hResting := Thread.isResting_of_agenda hRest rfl
    cases h' with
    | look hAgenda => cases hAwaits.symm.trans (Thread.not_awaits hAgenda)
    | wake _ hTurn' hRest' =>
      exact hTurn.unique hResting hTurn' (Thread.isResting_of_agenda hRest' rfl)
    | attempt _ hTurn' hRest' =>
      obtain ⟨_, rfl, _⟩ := hTurn.unique hResting hTurn' (Thread.isResting_of_agenda hRest' rfl)
      cases hRest.symm.trans hRest'
  | attempt hAwaits hTurn hReckon hPerform hLater hRest =>
    have hResting := Thread.isResting_of_agenda hReckon rfl
    cases h' with
    | look hAgenda => cases hAwaits.symm.trans (Thread.not_awaits hAgenda)
    | wake _ hTurn' hRest' =>
      obtain ⟨_, rfl, _⟩ := hTurn.unique hResting hTurn' (Thread.isResting_of_agenda hRest' rfl)
      cases hReckon.symm.trans hRest'
    | attempt _ hTurn' hReckon' hPerform' hLater' hRest' =>
      obtain ⟨rfl, rfl, rfl⟩ :=
        hTurn.unique hResting hTurn' (Thread.isResting_of_agenda hReckon' rfl)
      cases hReckon.symm.trans hReckon'
      cases hPerform.symm.trans hPerform'
      obtain ⟨rfl, rfl, rfl⟩ := hLater.unique (Thread.isResting_of_agenda hRest rfl) hLater'
        (Thread.isResting_of_agenda hRest' rfl)
      exact ⟨rfl, rfl, rfl⟩

/-- A watcher that waits does so no longer in its bout. -/
theorem exists_perform {action : Action} (h : Bout w t s deeds t' s')
    (hAgenda : t.agenda = [action])
    (hAwaits : t.awaits = true) : ∃ e, action.perform w t.last s = some e := by
  have hMoves {t' : Thread} {s' : Stream} {deeds : List Deed} {pause : Action}
      (hTurn : Turn w t s deeds t' s') (hRest : t'.agenda = [pause])
      (hPause : pause.isPause = true) : ∃ e, action.perform w t.last s = some e := by
    cases hTurn with
    | stay =>
      obtain rfl := List.singleton_inj.mp (hRest.symm.trans hAgenda)
      rw [Thread.awaits, hAgenda] at hAwaits
      cases pause
      case watch | reckon => cases hAwaits
      all_goals cases hPause
    | step hAgenda' _ hPerform =>
      obtain ⟨rfl, _⟩ := List.cons.inj (hAgenda'.symm.trans hAgenda)
      exact ⟨_, hPerform⟩
  cases h with
  | look hAgenda' => cases hAwaits.symm.trans (Thread.not_awaits hAgenda')
  | wake _ hTurn hRest => exact hMoves hTurn hRest rfl
  | attempt _ hTurn hRest => exact hMoves hTurn hRest rfl

/-- A bout's deeds, by the counters. -/
theorem tally (h : Bout w t s deeds t' s') :
    s'.control.stats.attempts = s.control.stats.attempts + deeds.countP Deed.isAttempt ∧
      s'.control.stats.delivered = s.control.stats.delivered + deeds.countP Deed.delivers ∧
      s'.journal.frames.length =
        s.journal.frames.length + deeds.countP (·.action.isHandover) := by
  cases h with
  | look _ hPerform =>
    obtain ⟨hAttempts, hDelivered, hHanded⟩ := Action.tallies_of_perform hPerform
    exact ⟨hAttempts, hDelivered, hHanded⟩
  | wake _ hTurn => exact hTurn.tally
  | attempt _ hTurn _ hPerform hTurn' _ =>
    obtain ⟨hAttempts, hDelivered, hHanded⟩ := hTurn.tally
    obtain ⟨hAttempts', hDelivered', hHanded'⟩ := Action.tallies_of_perform hPerform
    obtain ⟨hAttempts'', hDelivered'', hHanded''⟩ := hTurn'.tally
    simp only [List.countP_append, Balance.countP_cons_toNat]
    refine ⟨?_, ?_, ?_⟩ <;> omega

/-- A bout is a run of any machine that has this watcher. -/
theorem run (h : Bout w t s deeds t' s') {m : Machine} {threads : List Thread}
    (hThread : threads[w]? = some t) (hRun : Machine.Run m ⟨s, threads⟩) :
    Machine.Run m ⟨s', threads.set w t'⟩ := by
  have hStep {t : Thread} {s : Stream} {threads : List Thread} {action : Action} {e : Effect}
      (hThread : threads[w]? = some t) (hAgenda : t.agenda = [action])
      (hPerform : action.perform w t.last s = some e) (hAlone : e.spawned = [])
      (hRun : Machine.Run m ⟨s, threads⟩) :
      Machine.Run m ⟨e.stream, threads.set w (t.advance e)⟩ := by
    refine hRun.step (i := w) ?_
    simp [Machine.step?, hThread, hAgenda, hPerform, hAlone]
  cases h with
  | look hAgenda hPerform =>
    refine hStep hThread hAgenda hPerform ?_ hRun
    cases hPerform
    exact s.spawned_watch _
  | wake _ hTurn => exact hTurn.run hThread hRun
  | attempt _ hTurn hRest hPerform hTurn' _ =>
    obtain ⟨hLength, _⟩ := List.getElem?_eq_some_iff.mp hThread
    have hReckoned := hStep (List.getElem?_set_self hLength) hRest hPerform
      (by cases hPerform; exact Stream.spawned_reckon _ _ _) (hTurn.run hThread hRun)
    rw [List.set_set] at hReckoned
    have hEnd := hTurn'.run (List.getElem?_set_self hLength) hReckoned
    rwa [List.set_set] at hEnd

/-- The books on frames balance after a bout as they did before. -/
theorem balance {past : List Deed} (h : Bout w t s deeds t' s') (hOld : Balance past s []) :
    Balance (past ++ deeds) s' [] := by
  have hTurned {t t' : Thread} {s s' : Stream} {deeds : List Deed} {budget : Budget}
      {past : List Deed} (hTurn : Turn w t s deeds t' s') (hOld : Balance past s t.agenda)
      (hRest : t'.agenda = [.watch budget]) : Balance (past ++ deeds) s' [] :=
    (hOld.turn hTurn).of_bare (by rw [hRest]; rfl) rfl
  have hBare {t : Thread} (hAwaits : t.awaits = true) : t.agenda.any Action.bearsFrame = false := by
    unfold Thread.awaits at hAwaits
    split at hAwaits
    · next hAgenda => rw [hAgenda]; rfl
    · next hAgenda => rw [hAgenda]; rfl
    · cases hAwaits
  cases h with
  | look hAgenda hPerform =>
    have hNext := (Action.isUneventful_of_perform rfl hPerform).next
    exact ((hOld.of_bare rfl rfl : Balance past s [.watch _]).step hPerform).of_bare
      ((List.append_nil _).symm ▸ hNext) rfl
  | wake hAwaits hTurn hRest => exact hTurned hTurn (hOld.of_bare rfl (hBare hAwaits)) hRest
  | @attempt t₁ _ _ s₁ _ _ _ e _ _ _ hAwaits hTurn hReckon hPerform hTurn' hRest =>
    have hAttempt := (hOld.of_bare rfl (hBare hAwaits)).turn hTurn
    rw [hReckon] at hAttempt
    have hNext : (t₁.advance e).agenda = e.next ++ [] := by
      rw [Thread.advance, hReckon]
      rfl
    have hEnd := hTurned hTurn' (hNext ▸ hAttempt.step hPerform) hRest
    rwa [List.append_assoc, List.append_assoc] at hEnd

end Bout

end LidarSweep
