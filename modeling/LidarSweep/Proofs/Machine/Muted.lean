import LidarSweep.Proofs.Machine.Order
import LidarSweep.Proofs.Machine.Telling

/-!
# Quiet restarts

Listeners are told nothing only while a restart is under way (`Machine.Muted`).  So a thread that
may start the stream, and is in no restart itself, finds that they are told.
-/

namespace LidarSweep

namespace Machine

variable {m₀ m m' : Machine} {i k : ThreadId} {action x : Action} {rest : List Action} {e : Effect}
  {events : List Event}

/-- Where listeners are told nothing, a restart goes on. -/
def Muted (m : Machine) : Prop :=
  m.stream.control.quiet = true → ∃ k, ∃ x ∈ m.agenda k, x.isRenewal = true

theorem Muted.moved (h : m.Muted) (hMoved : m.Moved i action rest e m') : m'.Muted := by
  intro hQuiet
  obtain ⟨last, hPerform⟩ := hMoved.performs
  rw [hMoved.stream] at hQuiet
  -- A restart that goes on is not over by what another action does.
  have hStays (hBefore : m.stream.control.quiet = true) (hNot : action.isRenewal = false) :
      ∃ k, ∃ x ∈ m'.agenda k, x.isRenewal = true := by
    obtain ⟨k, x, hx, hRenewal⟩ := h hBefore
    rcases hMoved.mem_of_mem hx with ⟨_, rfl⟩ | hThere
    · cases hNot.symm.trans hRenewal
    · exact ⟨k, x, hThere, hRenewal⟩
  have hNew {x : Action} (hx : x ∈ e.next) (hRenewal : x.isRenewal = true) :
      ∃ k, ∃ x ∈ m'.agenda k, x.isRenewal = true :=
    ⟨i, x, hMoved.own ▸ List.mem_append_left _ hx, hRenewal⟩
  cases hMutes : action.mutes with
  | false =>
    rw [Action.quiet_of_perform hMutes hPerform] at hQuiet
    exact hStays hQuiet (by cases action <;> first | rfl | cases hMutes)
  | true =>
    cases action
    case beginRestart budget vigil limit =>
      cases hPerform
      rw [Stream.beginRestart_eq] at hQuiet hNew
      cases hRenewal : m.stream.renewal? vigil with
      | none =>
        rw [hRenewal] at hQuiet
        exact hStays hQuiet rfl
      | some renewal =>
        rw [hRenewal] at hNew
        exact hNew (List.mem_append_right _ List.mem_cons_self) rfl
    case checkPending budget vigil limit profile consumer =>
      cases hPerform
      rcases m.stream.checkPending_cases last budget vigil limit profile consumer with
        ⟨_, hControl, _⟩ | ⟨_, _, hNext⟩
      · rw [hControl] at hQuiet
        cases hQuiet
      · rw [hNext] at hNew
        exact hNew (List.mem_append_right _ List.mem_cons_self) rfl
    case endRestart =>
      cases hPerform
      rw [Stream.control_endRestart] at hQuiet
      cases last <;> cases hQuiet
    all_goals cases hMutes

theorem Muted.of_path (h : m₀.Muted) (hPath : Path m₀ events m) : m.Muted := by
  induction hPath using Path.induct with
  | here => exact h
  | change x _ ih => exact ih
  | step _ hMoved _ ih => exact ih.moved hMoved

/-- A thread that the restart lock is open to finds no restart under way but its own. -/
theorem Muted.quiet_of_isOpen (h : m.Muted) (hLocked : m.Locked)
    (hOpen : m.stream.locks.IsOpen .restart i)
    (hCaller : ∀ x ∈ m.agenda i, x.isRenewal = false) : m.stream.control.quiet = false := by
  cases hQuiet : m.stream.control.quiet with
  | false => rfl
  | true =>
    obtain ⟨k, x, hx, hRenewal⟩ := h hQuiet
    have hHolds := (hLocked.sound k).owed_pos hx (Action.isUnderway_of_isRenewal hRenewal)
    rw [← hLocked.owed] at hHolds
    obtain ⟨depth, hHolder, _⟩ := Locks.exists_of_depth hHolds
    obtain rfl : k = i := (hOpen _ hHolder).1
    cases (hCaller x hx).symm.trans hRenewal

end Machine

end LidarSweep
