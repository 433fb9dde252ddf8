import LidarSweep.Proofs.Machine.Woven

/-!
# What the delivery lock puts in order

However the steps of threads interleave, all agendas stay woven and nested, and the delivery lock is
in as many hands as they say (`Machine.Interwoven`).
-/

namespace LidarSweep

namespace Machine

variable {m₀ m m' : Machine} {i j k : ThreadId} {action : Action} {rest : List Action} {e : Effect}
  {events : List Event}

/-- Agendas are woven and nested, and the delivery lock is as they say. -/
structure Interwoven (m : Machine) : Prop where
  woven : ∀ k, Woven (m.agenda k)
  nested : ∀ k, Nested (m.agenda k)
  lent : ∀ k, m.stream.locks.depth .delivery k = lent (m.agenda k)
  firm : m.stream.locks.IsFirm .delivery

theorem Fresh.isLoose (h : m.Fresh) (k : ThreadId) :
    ∀ x ∈ m.agenda k, x.isBound = false ∧ x.isApart = true := by
  have hAll := h.forall_mem (p := fun x => !x.isBound && x.isApart) (by rintro (_ | _) <;> rfl) k
  simpa using hAll

theorem lent_of_isApart {agenda : List Action} (h : ∀ x ∈ agenda, x.isApart = true) :
    LidarSweep.lent agenda = 0 := by
  have hLent : LidarSweep.lent (agenda ++ []) = LidarSweep.lent [] :=
    lent_append_of_idle fun x hx => Action.lends_of_isApart (h x hx)
  rwa [List.append_nil] at hLent

theorem nested_of_isApart {agenda : List Action} (h : ∀ x ∈ agenda, x.isApart = true) :
    Nested agenda := by
  have hNil : Nested [] := trivial
  have hNested := hNil.append_apart rfl h
  rwa [List.append_nil] at hNested

theorem Fresh.interwoven (h : m.Fresh) : m.Interwoven where
  woven k := .of_loose fun x hx => (h.isLoose k x hx).1
  nested k := nested_of_isApart fun x hx => (h.isLoose k x hx).2
  lent k := by
    rw [lent_of_isApart fun x hx => (h.isLoose k x hx).2, h.free]
    rfl
  firm hold hHold := by
    rw [h.free] at hHold
    cases hHold

namespace Interwoven

/-- Who does not turn the delivery lock leaves it with its holder. -/
theorem holder_moved (hMoved : m.Moved i action rest e m') (hTurns : action.turns = false) :
    m'.stream.locks.holder .delivery = m.stream.locks.holder .delivery := by
  obtain ⟨last, hPerform⟩ := hMoved.performs
  rw [hMoved.stream]
  cases hLocks : action.locks with
  | false =>
    exact congrArg (Locks.holder · .delivery) (Action.locks_of_perform hLocks hPerform)
  | true =>
    cases action
    case acquire lock =>
      obtain ⟨locks, hAcquire, rfl⟩ := Option.map_eq_some_iff.mp hPerform
      obtain ⟨_, _, hSame, _⟩ := Locks.acquire?_depth hAcquire
      refine hSame .delivery ?_
      rintro rfl
      cases hTurns
    case release lock =>
      cases hPerform
      refine Locks.holder_release_of_ne _ ?_
      rintro rfl
      cases hTurns
    case halt ending =>
      rcases m.stream.halt_cases hPerform with ⟨locks, hAcquire, rfl⟩ | ⟨_, ⟨_, rfl⟩ | ⟨_, rfl⟩⟩
      · obtain ⟨_, _, hSame, _⟩ := Locks.acquire?_depth hAcquire
        exact hSame .delivery (by decide)
      · rfl
      · rfl
    all_goals cases hLocks

/-- A step moves the delivery lock as the agenda says. -/
theorem depth_moved (h : m.Interwoven) (hLocked : m.Locked) (hMoved : m.Moved i action rest e m') :
    m'.stream.locks.depth .delivery i = LidarSweep.lent (e.next ++ rest) ∧
      (∀ k, k ≠ i → m'.stream.locks.depth .delivery k = m.stream.locks.depth .delivery k) ∧
      m'.stream.locks.IsFirm .delivery := by
  obtain ⟨last, hPerform⟩ := hMoved.performs
  have hOwn := h.lent i
  rw [hMoved.agenda] at hOwn
  have hNests : action.Nests rest := (hMoved.agenda ▸ h.nested i : Nested (action :: rest)).1
  cases hTurns : action.turns with
  | false =>
    have hSame := holder_moved hMoved hTurns
    have hLent : LidarSweep.lent (e.next ++ rest) = LidarSweep.lent (action :: rest) :=
      Action.lent_of_perform hTurns hPerform (hLocked.advances hMoved).stems
    exact ⟨(Locks.depth_congr hSame _).trans (hOwn.trans hLent.symm),
      fun k _ => Locks.depth_congr hSame k, fun hold hHold => h.firm hold (hSame ▸ hHold)⟩
  | true =>
    rw [hMoved.stream]
    cases action
    case acquire lock =>
      obtain ⟨locks, hAcquire, rfl⟩ := Option.map_eq_some_iff.mp hPerform
      obtain rfl : lock = .delivery := by
        cases lock
        case delivery => rfl
        all_goals cases hTurns
      obtain ⟨hMore, hOthers, _, hFirm⟩ := Locks.acquire?_depth hAcquire
      refine ⟨?_, hOthers, hFirm⟩
      rw [hMore, hOwn]
      exact Nat.sub_add_cancel (lent_of_acquire hNests)
    case release lock =>
      cases hPerform
      obtain rfl : lock = .delivery := by
        cases lock
        case delivery => rfl
        all_goals cases hTurns
      have hMore : m.stream.locks.depth .delivery i = LidarSweep.lent rest + 1 := hOwn
      obtain ⟨hLess, hOthers, hFirm⟩ :=
        Locks.release_depth (hMore ▸ Nat.succ_pos _ : 0 < m.stream.locks.depth .delivery i)
      exact ⟨Nat.succ.inj (hLess.trans hMore), hOthers, hFirm⟩
    all_goals cases hTurns

/-- **Every step leaves the agendas woven and nested**, and the delivery lock as they say. -/
theorem moved (h : m.Interwoven) (hLocked : m.Locked) (hMoved : m.Moved i action rest e m') :
    m'.Interwoven := by
  obtain ⟨last, hPerform⟩ := hMoved.performs
  obtain ⟨hOwn, hOthers, hFirm⟩ := h.depth_moved hLocked hMoved
  have hStems := (hLocked.advances hMoved).stems
  have hAgenda (k : ThreadId) : Woven (m'.agenda k) ∧ Nested (m'.agenda k) ∧
      m'.stream.locks.depth .delivery k = LidarSweep.lent (m'.agenda k) := by
    by_cases hk : k = i
    · subst hk
      rw [hMoved.own]
      exact ⟨(hMoved.agenda ▸ h.woven k : Woven (action :: rest)).of_perform hPerform hStems,
        (hMoved.agenda ▸ h.nested k : Nested (action :: rest)).of_perform hPerform hStems, hOwn⟩
    · rw [hOthers k hk, h.lent k]
      rcases hMoved.others k hk with hSame | ⟨hNone, hSpawned⟩
      · rw [hSame]
        exact ⟨h.woven k, h.nested k, rfl⟩
      · -- A new thread begins with what stands for itself.
        have hNew : ∀ x ∈ m'.agenda k, x.isBound = false ∧ x.isApart = true := by
          intro x hx
          have hBegets := List.all_eq_true.mp
            ((hLocked.advances hMoved).spawned _ hSpawned).2.2 x hx
          rcases Action.eq_of_begets hBegets with ⟨_, _, _, rfl⟩ | ⟨_, _, rfl⟩
          · exact ⟨rfl, rfl⟩
          · exact ⟨rfl, rfl⟩
        rw [lent_of_isApart fun x hx => (hNew x hx).2, agenda_of_length_le hNone]
        exact ⟨.of_loose fun x hx => (hNew x hx).1, nested_of_isApart fun x hx => (hNew x hx).2,
          rfl⟩
  exact ⟨fun k => (hAgenda k).1, fun k => (hAgenda k).2.1, fun k => (hAgenda k).2.2, hFirm⟩

theorem amid (h : m.Interwoven) (x : Circumstances) : (m.amid x).Interwoven :=
  ⟨h.woven, h.nested, h.lent, h.firm⟩

/-- Only one thread holds the delivery lock. -/
theorem lent_eq_zero (h : m.Interwoven) (hHolds : 0 < LidarSweep.lent (m.agenda j)) (hk : k ≠ j) :
    LidarSweep.lent (m.agenda k) = 0 := by
  rw [← h.lent]
  exact Locks.depth_eq_zero (h.lent j ▸ hHolds) hk

end Interwoven

end Machine

end LidarSweep
