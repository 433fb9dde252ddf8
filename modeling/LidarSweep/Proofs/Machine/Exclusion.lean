import LidarSweep.Proofs.Machine.Interwoven

/-!
# When nobody serves a consumer

No packet or frame of an activation is on its way before the source has been started for it
(`Machine.Dated`).  A halt waits for the delivery lock before it is settled, and a stream that is
not active lets no frame in.  So nobody else serves a consumer while a halt is about to be settled,
nor in a restart between its halt and the start of its source (`Machine.Exclusive`).
-/

namespace LidarSweep

/-- The activation that the action brings packets or frames of. -/
def Action.serves? : Action → Option Nat
  | play activation _ _ | receive activation _ | ingest activation _ | deliver activation _
  | process activation _ _ _ | confirm activation _ _ _ => some activation
  | _ => none

/-- Whether the source is still to be started for an activation, or has just refused to. -/
def Action.opens : Action → Bool
  | openSource _ | revert _ => true
  | _ => false

namespace Action

variable {action x : Action}

theorem isBound_of_opens (h : x.opens = true) : x.isBound = true := by
  cases x <;> first | rfl | cases h

theorem isGuarded_of_opens (h : x.opens = true) : x.isGuarded = true := by
  cases x <;> first | rfl | cases h

/-- An activation begins with the start of the source, and where that fails it is taken back. -/
theorem opens_of_stemsFrom (h : action.stemsFrom x = true) (hOpens : x.opens = true) :
    (∃ profile consumer, action = .activate profile consumer) ∨
      ∃ activation cause, action = .openSource activation ∧ x = .revert cause := by
  cases x
  case openSource =>
    cases action
    case activate => exact .inl ⟨_, _, rfl⟩
    all_goals cases h
  case revert =>
    cases action
    case openSource => exact .inr ⟨_, _, rfl, rfl⟩
    all_goals cases h
  all_goals cases hOpens

theorem not_opens_of_begets (h : action.begets x = true) : x.opens = false := by
  rcases eq_of_begets h with ⟨_, _, _, rfl⟩ | ⟨_, _, rfl⟩
  · rfl
  · rfl

end Action

theorem Stream.serves_process {s : Stream} {activation n : Nat} {profile : Profile}
    {consumer : ConsumerId} {frame : Frame} {x : Action}
    (hx : x ∈ (s.process activation profile consumer frame).next) (hServes : x.serves? = some n) :
    activation = n := by
  unfold process at hx
  rcases s.pipeline.run (s.wall s.now) s.device.syncMode profile frame with ⟨pipeline, verdict⟩
  dsimp only at hx
  have hLast (frame : Frame) {l : List Action} (hl : ∀ y ∈ l, y.serves? = none)
      (hx : x ∈ l ++ [.confirm activation profile consumer frame]) : activation = n := by
    rcases List.mem_append.mp hx with hMem | hMem
    · cases (hl x hMem).symm.trans hServes
    · obtain rfl := List.mem_singleton.mp hMem
      exact Option.some.inj hServes
  split at hx
  · simp only [List.mem_cons, List.not_mem_nil, or_false] at hx
    rcases hx with rfl | rfl <;> cases hServes
  · obtain rfl := List.mem_singleton.mp hx
    cases hServes
  next frame _ =>
    refine hLast frame (l := [.release .pipeline]) (fun y hy => ?_) hx
    obtain rfl := List.mem_singleton.mp hy
    rfl
  next frame _ =>
    rw [← List.singleton_append, ← List.append_assoc] at hx
    refine hLast frame (fun y hy => ?_) hx
    rcases List.mem_append.mp hy with hStop | hRelease
    · unfold request at hStop
      split at hStop
      · cases hStop
      · obtain rfl := List.mem_singleton.mp hStop
        rfl
    · obtain rfl := List.mem_singleton.mp hRelease
      rfl

/-- Packets and frames are of an activation that this thread or the source had them of. -/
theorem Action.serves_of_perform {action x : Action} {me : ThreadId} {last : Except Error Unit}
    {s : Stream} {e : Effect} {n : Nat} (h : action.perform me last s = some e) (hx : x ∈ e.next)
    (hStem : action.stemsFrom x = true) (hServes : x.serves? = some n) :
    action.serves? = some n ∨ s.source.receiver = some n := by
  cases x
  case play | receive | ingest =>
    rcases carries_of_perform h hx hStem hServes with hCarries | hReceiver | ⟨hActivation, _⟩
    · cases action
      case openSource => cases hStem
      all_goals first | exact .inl hCarries | cases hCarries
    · exact .inr hReceiver
    · cases action
      case activate => cases hStem
      all_goals cases hActivation
  case deliver =>
    obtain rfl := Option.some.inj hServes
    cases action
    case ingest =>
      cases h
      rw [(s.of_mem_ingest hx).1]
      exact .inl rfl
    all_goals cases hStem
  case process =>
    obtain rfl := Option.some.inj hServes
    cases action
    case deliver =>
      cases h
      unfold Stream.deliver at hx
      split at hx
      · simp only [List.mem_cons, List.not_mem_nil, or_false, reduceCtorEq, false_or,
          process.injEq] at hx
        rw [hx.1]
        exact .inl rfl
      · cases hx
    all_goals cases hStem
  case confirm =>
    cases action
    case process =>
      cases h
      exact .inl (congrArg some (Stream.serves_process hx hServes))
    all_goals cases hStem
  all_goals cases hServes

theorem Action.receiver_of_not_opens {action : Action} {me : ThreadId} {last : Except Error Unit}
    {s : Stream} {e : Effect} {n : Nat} (hOpens : action.opens = false)
    (h : action.perform me last s = some e) (hReceiver : e.stream.source.receiver = some n) :
    s.source.receiver = some n := by
  rcases receiver_of_perform h hReceiver with hSame | rfl
  · exact hSame
  · cases hOpens

/-- A source that refuses to start stays as it was, and nobody sets to work. -/
theorem Stream.openSource_cases (s : Stream) (activation : Nat) :
    (s.openSource activation).next = [] ∨
      (s.openSource activation).stream.source = s.source ∧
        (s.openSource activation).spawned = [] := by
  cases hRefuses : s.source.refusesStart with
  | false =>
    rw [openSource, ManualSource.start, hRefuses]
    exact .inl rfl
  | true =>
    rw [openSource, ManualSource.start, hRefuses]
    exact .inr ⟨rfl, rfl⟩

/-- Whether the action is outside the restart lock, or stands in front of what stops may
interrupt. -/
def Action.isAside (action : Action) : Bool := action.isInFront || !action.isGuarded

theorem Action.renews_of_isAside {action : Action} (h : action.isAside = true) :
    action.renews = false := by
  cases action <;> first | rfl | cases h

theorem Action.opens_of_isAside {action : Action} (h : action.isAside = true) :
    action.opens = false := by
  cases action <;> first | rfl | cases h

/-- A halt and a start do not stand on one agenda. -/
theorem Woven.not_launches {agenda : List Action} {x y : Action} (hWoven : Woven agenda)
    (hTidy : Tidy agenda) (hx : x ∈ agenda) (hLaunches : x.launches = true) (hy : y ∈ agenda) :
    y.settles = false := by
  induction agenda with
  | nil => cases hx
  | cons action rest ih =>
    cases hSettles : y.settles with
    | false => rfl
    | true =>
      rcases List.mem_cons.mp hx with rfl | hx'
      · rcases List.mem_cons.mp hy with rfl | hy'
        · cases y <;> first | (cases hSettles; done) | cases hLaunches
        · have hFront := hWoven.1 ⟨y, hy', Action.isBound_of_settles hSettles⟩
          cases x <;> first | (cases hFront; done) | cases hLaunches
      · have hPrepares := hTidy.1 ⟨x, hx', hLaunches⟩
        rcases List.mem_cons.mp hy with rfl | hy'
        · cases y <;> first | (cases hSettles; done) | cases hPrepares
        · exact hSettles.symm.trans (ih hWoven.2 hTidy.2.2.2 hx' hy')

theorem Control.not_isActive_of_canStart {c : Control} (h : c.canStart = true) :
    c.state.isActive = false := by
  rw [canStart, decide_eq_true_eq] at h
  rcases h with hState | hState <;> rw [hState] <;> rfl

/-- So it is not starting either. -/
theorem Control.ne_starting_of_canStart {c : Control} (h : c.canStart = true) :
    c.state ≠ .starting := by
  intro hStarting
  have hActive := Control.not_isActive_of_canStart h
  rw [hStarting] at hActive
  cases hActive

theorem Action.canStart_of_perform {action : Action} {me : ThreadId} {last : Except Error Unit}
    {s : Stream} {e : Effect} (h : action.perform me last s = some e)
    (hStart : e.stream.control.canStart = true) :
    s.control.canStart = true ∨ action.opens = true ∨
      ∃ ending result, action = .settle ending result := by
  cases steering_of_perform h with
  | still hAlike _ =>
    left
    rwa [Control.canStart, hAlike.state] at hStart
  | deferred _ hControl | muted hControl | unmuted hControl | restarted hControl =>
    rw [hControl] at hStart
    exact .inl hStart
  | reverted => exact .inr (.inl rfl)
  | settled => exact .inr (.inr ⟨_, _, rfl⟩)
  | activated hControl | halting _ hControl _ | confirmed _ hControl | held hControl =>
    rw [hControl] at hStart
    cases hStart

namespace Machine

variable {m₀ m m' : Machine} {i j k : ThreadId} {action x : Action} {rest : List Action}
  {e : Effect} {events : List Event} {u : Supply}

/-- While something bound is to be done under the restart lock, only what is aside is done. -/
theorem Interwoven.isAside (h : m.Interwoven) (hLocked : m.Locked)
    (hAgenda : m.agenda i = action :: rest) (hx : x ∈ m.agenda k ∧ (k = i → x ∈ rest))
    (hBound : x.isBound = true) (hGuarded : x.isGuarded = true) : action.isAside = true := by
  rw [Action.isAside, Bool.or_eq_true]
  by_cases hk : k = i
  · exact .inl ((hAgenda ▸ h.woven i : Woven (action :: rest)).1 ⟨x, hx.2 hk, hBound⟩)
  · have hHolds := (h.woven k).owed_pos (hLocked.sound k) hx.1 hBound hGuarded
    exact .inr (by rw [hLocked.isGuarded_eq_false hHolds (Ne.symm hk) hAgenda]; rfl)

/-! ### The activations of frames -/

/-- Packets and frames are of activations that have begun; and where the source is still to be
started for an activation, there are none of it yet. -/
structure Dated (m : Machine) : Prop where
  le : ∀ k, ∀ x ∈ m.agenda k, ∀ n, x.serves? = some n → n ≤ m.stream.control.activation
  early : (∃ j, ∃ x ∈ m.agenda j, x.opens = true) →
    m.stream.source.receiver ≠ some m.stream.control.activation ∧
      ∀ k, ∀ x ∈ m.agenda k, x.serves? ≠ some m.stream.control.activation

namespace Dated

/-- Packets and frames come from a thread or the source that had such, or the source is started for
them. -/
theorem origin (hLocked : m.Locked) (hMoved : m.Moved i action rest e m') {n : Nat}
    (hx : x ∈ m'.agenda k) (hServes : x.serves? = some n) :
    (∃ k, ∃ y ∈ m.agenda k, y.serves? = some n) ∨ m.stream.source.receiver = some n ∨
      action = .openSource n ∧ e.spawned ≠ [] := by
  obtain ⟨last, hPerform⟩ := hMoved.performs
  rcases hLocked.mem_moved_behind hMoved hx with ⟨_, hNext⟩ | ⟨hBefore, _⟩ | ⟨hBegets, hSpawned⟩
  · rcases Action.serves_of_perform hPerform hNext ((hLocked.advances hMoved).stems x hNext)
      hServes with hOwn | hReceiver
    · exact .inl ⟨i, action, hMoved.agenda ▸ List.mem_cons_self, hOwn⟩
    · exact .inr (.inl hReceiver)
  · exact .inl ⟨k, x, hBefore, hServes⟩
  · cases x
    case play =>
      cases action
      case openSource =>
        obtain rfl := of_decide_eq_true hBegets
        exact .inr (.inr ⟨congrArg _ (Option.some.inj hServes), hSpawned⟩)
      all_goals cases hBegets
    case watch => cases hServes
    all_goals cases hBegets

theorem le_of_origin (h : m.Dated) (hSup : m.Supplied u) (hAgenda : m.agenda i = action :: rest)
    {n : Nat} (hOrigin : (∃ k, ∃ y ∈ m.agenda k, y.serves? = some n) ∨
      m.stream.source.receiver = some n ∨ action = .openSource n ∧ e.spawned ≠ []) :
    n ≤ m.stream.control.activation := by
  rcases hOrigin with ⟨k, y, hy, hServes⟩ | hReceiver | ⟨rfl, _⟩
  · exact h.le k y hy n hServes
  · exact hSup.begun n (hSup.received n hReceiver)
  · exact hSup.begun n (hSup.carried i _ (hAgenda ▸ List.mem_cons_self) n rfl)

/-- Where the activation and the source stay as they are, nothing of the activation comes up. -/
theorem early_still (h : m.Dated) (hLocked : m.Locked) (hMoved : m.Moved i action rest e m')
    (hEarly : ∃ j, ∃ x ∈ m.agenda j, x.opens = true)
    (hActivation : e.stream.control.activation = m.stream.control.activation)
    (hReceiver : ∀ n, e.stream.source.receiver = some n → m.stream.source.receiver = some n)
    (hNobody : ∀ n, action = .openSource n → e.spawned = []) :
    m'.stream.source.receiver ≠ some m'.stream.control.activation ∧
      ∀ k, ∀ x ∈ m'.agenda k, x.serves? ≠ some m'.stream.control.activation := by
  obtain ⟨hSource, hOthers⟩ := h.early hEarly
  rw [hMoved.stream, hActivation]
  refine ⟨fun hSome => hSource (hReceiver _ hSome), fun k x hx hServes => ?_⟩
  rcases origin hLocked hMoved hx hServes with ⟨k, y, hy, hOther⟩ | hSome | ⟨hOpen, hSpawned⟩
  · exact hOthers k y hy hOther
  · exact hSource hSome
  · exact hSpawned (hNobody _ hOpen)

theorem early_moved (h : m.Dated) (hInter : m.Interwoven) (hLocked : m.Locked)
    (hSup : m.Supplied u) (hMoved : m.Moved i action rest e m')
    (hEarly : ∃ j, ∃ x ∈ m'.agenda j, x.opens = true) :
    m'.stream.source.receiver ≠ some m'.stream.control.activation ∧
      ∀ k, ∀ x ∈ m'.agenda k, x.serves? ≠ some m'.stream.control.activation := by
  obtain ⟨last, hPerform⟩ := hMoved.performs
  obtain ⟨j, y, hy, hOpens⟩ := hEarly
  rcases hLocked.mem_moved_behind hMoved hy with ⟨_, hNext⟩ | hBehind | ⟨hBegets, _⟩
  · rcases Action.opens_of_stemsFrom ((hLocked.advances hMoved).stems y hNext) hOpens with
      ⟨profile, consumer, rfl⟩ | ⟨activation, cause, rfl, rfl⟩
    · -- A new activation has no packets or frames yet.
      have hSame := (Action.supplied_of_perform rfl hPerform).2
      have hNew : e.stream.control.activation = m.stream.control.activation + 1 := by
        cases hPerform
        rw [m.stream.control_activate]
      rw [hMoved.stream, hSame, hNew]
      refine ⟨fun hSome => ?_, fun k x hx hServes => ?_⟩
      · exact Nat.not_succ_le_self _ (hSup.begun _ (hSup.received _ hSome))
      · exact Nat.not_succ_le_self _
          (h.le_of_origin hSup hMoved.agenda (origin hLocked hMoved hx hServes))
    · have hControl := Action.control_of_perform rfl hPerform
      cases hPerform
      rcases m.stream.openSource_cases activation with hNone | ⟨hSource, hSpawned⟩
      · rw [hNone] at hNext
        cases hNext
      · refine h.early_still hLocked hMoved ⟨i, _, hMoved.agenda ▸ List.mem_cons_self, rfl⟩ ?_
          (fun n hSome => ?_) fun _ _ => hSpawned
        · rw [hControl]
        · rwa [hSource] at hSome
  · have hAside := hInter.isAside hLocked hMoved.agenda hBehind (Action.isBound_of_opens hOpens)
      (Action.isGuarded_of_opens hOpens)
    have hNot := Action.opens_of_isAside hAside
    refine h.early_still hLocked hMoved ⟨j, y, hBehind.1, hOpens⟩
      (Action.lapses_of_perform (Action.renews_of_isAside hAside) hPerform).1
      (fun n hSome => Action.receiver_of_not_opens hNot hPerform hSome) fun n hOpen => ?_
    rw [hOpen] at hNot
    cases hNot
  · cases (Action.not_opens_of_begets hBegets).symm.trans hOpens

theorem moved (h : m.Dated) (hInter : m.Interwoven) (hLocked : m.Locked) (hSup : m.Supplied u)
    (hMoved : m.Moved i action rest e m') : m'.Dated where
  le k x hx n hServes := by
    obtain ⟨last, hPerform⟩ := hMoved.performs
    rw [hMoved.stream]
    exact (h.le_of_origin hSup hMoved.agenda (origin hLocked hMoved hx hServes)).trans
      (Action.activation_le_of_perform hPerform)
  early := h.early_moved hInter hLocked hSup hMoved

end Dated

/-! ### While others are kept away -/

/-- Thread `j` is about to settle a halt; or it is in a restart, and the stream can be started or
its source is still to be. -/
def Bars (m : Machine) (j : ThreadId) : Prop :=
  isCleared (m.agenda j) = true ∨
    (∃ x ∈ m.agenda j, x.isRenewal = true) ∧
      (m.stream.control.canStart = true ∨ ∃ x ∈ m.agenda j, x.opens = true)

/-- A halt that has begun finds the stream not active, and whoever is barred serves no consumer. -/
structure Exclusive (m : Machine) : Prop where
  inactive : (∃ k, ∃ x ∈ m.agenda k, x.settles = true) → m.stream.control.state.isActive = false
  alone : ∀ j, m.Bars j → ∀ k, k ≠ j → ¬ Serving (m.agenda k)

/-- Nothing that is part of a restart or halt is the beginning of a new thread. -/
theorem not_bars_of_begets {agenda : List Action} (h : ∀ x ∈ agenda, action.begets x = true) :
    isCleared agenda = false ∧ (∀ x ∈ agenda, x.isRenewal = false) ∧ ¬ Serving agenda := by
  have hPlain : ∀ x ∈ agenda, x.isApart = true ∧ x.isRenewal = false := by
    intro x hx
    rcases Action.eq_of_begets (h x hx) with ⟨_, _, _, rfl⟩ | ⟨_, _, rfl⟩
    · exact ⟨rfl, rfl⟩
    · exact ⟨rfl, rfl⟩
  refine ⟨?_, fun x hx => (hPlain x hx).2, fun hServing => ?_⟩
  · cases agenda with
    | nil => rfl
    | cons x rest => exact Action.isCleared_of_isApart (hPlain x List.mem_cons_self).1
  · have hPos := hServing.lent_pos
    rw [lent_of_isApart fun x hx => (hPlain x hx).1] at hPos
    cases hPos

/-- Until the activation of a start begins, the stream can be started. -/
theorem Supplied.canStart (hSup : m.Supplied u) (h : m.Orderly) (hInter : m.Interwoven)
    (hLaunches : ∃ x ∈ m.agenda k, x.launches = true) : m.stream.control.canStart = true := by
  have hIdle := hSup.idle k hLaunches
  obtain ⟨x, hx, hLaunch⟩ := hLaunches
  cases hState : m.stream.control.state with
  | stopped | error => rw [Control.canStart, hState]; rfl
  | starting | streaming =>
    rw [hState] at hIdle
    cases hIdle
  | stopping =>
    obtain ⟨j, hWaning⟩ := h.waning hState
    obtain ⟨y, hy, hSettles⟩ := hWaning.settles hState
    have hHolds := (hSup.tidy k).owed_pos (h.sound k) hx hLaunch
    obtain rfl : k = j := by
      by_contra hk
      have hFree := h.toLocked.owed_eq_zero hWaning.holds hk
      omega
    cases hSettles.symm.trans ((hInter.woven k).not_launches (hSup.tidy k) hx hLaunch hy)

/-- Where the source is still to be started, it was before, or the stream could be started. -/
theorem Supplied.opens_moved (hSup : m.Supplied u) (h : m.Orderly) (hInter : m.Interwoven)
    (hMoved : m.Moved i action rest e m') (hx : x ∈ m'.agenda j) (hOpens : x.opens = true) :
    m.stream.control.canStart = true ∨ ∃ y ∈ m.agenda j, y.opens = true := by
  have hOwn : action ∈ m.agenda i := hMoved.agenda ▸ List.mem_cons_self
  rcases h.toLocked.mem_moved_behind hMoved hx with ⟨rfl, hNext⟩ | ⟨hBefore, _⟩ | ⟨hBegets, _⟩
  · rcases Action.opens_of_stemsFrom ((h.toLocked.advances hMoved).stems x hNext) hOpens with
      ⟨_, _, rfl⟩ | ⟨_, _, rfl, _⟩
    · exact .inl (hSup.canStart h hInter ⟨_, hOwn, rfl⟩)
    · exact .inr ⟨_, hOwn, rfl⟩
  · exact .inr ⟨x, hBefore, hOpens⟩
  · cases (Action.not_opens_of_begets hBegets).symm.trans hOpens

/-- A restart goes on; or its halt is asked for, and the stream is active as the watcher has seen
it. -/
theorem Orderly.renews_moved (h : m.Orderly) (hMoved : m.Moved i action rest e m')
    (hx : x ∈ m'.agenda i) (hRenewal : x.isRenewal = true) :
    (∃ y ∈ m.agenda i, y.isRenewal = true) ∨
      m.stream.control.state.isActive = true ∧ ∀ y ∈ m.agenda i, y.opens = false := by
  obtain ⟨last, hPerform⟩ := hMoved.performs
  have hFits := hMoved.fits h.toLocked
  rw [hMoved.own] at hx
  rw [hMoved.agenda]
  rcases List.mem_append.mp hx with hNext | hRest
  · have hStem := (h.toLocked.advances hMoved).stems x hNext
    cases x
    case checkPending =>
      cases action
      case beginRestart budget vigil limit =>
        obtain ⟨rfl, hActive⟩ := hFits
        cases hPerform
        rw [← Stream.state_of_beginRestart hNext] at hActive
        exact .inr ⟨hActive, List.forall_mem_singleton.mpr rfl⟩
      all_goals cases hStem
    case endRestart =>
      cases action
      case checkPending => exact .inl ⟨_, List.mem_cons_self, rfl⟩
      all_goals cases hStem
    all_goals cases hRenewal
  · exact .inl ⟨x, List.mem_cons_of_mem _ hRest, hRenewal⟩

namespace Exclusive

theorem inactive_moved (h : m.Exclusive) (hInter : m.Interwoven) (hLocked : m.Locked)
    (hMoved : m.Moved i action rest e m') (hSettles : ∃ k, ∃ x ∈ m'.agenda k, x.settles = true) :
    m'.stream.control.state.isActive = false := by
  obtain ⟨last, hPerform⟩ := hMoved.performs
  obtain ⟨k, x, hx, hSettles⟩ := hSettles
  rw [hMoved.stream]
  rcases hLocked.mem_moved_behind hMoved hx with ⟨_, hNext⟩ | hBehind | ⟨hBegets, _⟩
  · have hStem := (hLocked.advances hMoved).stems x hNext
    cases x
    case closeSource =>
      cases action
      case beginHalt ending' =>
        cases hPerform
        rcases m.stream.beginHalt_cases ending' with ⟨_, _, hNone⟩ | ⟨_, ⟨wakes, hControl⟩, _⟩
        · rw [hNone] at hNext
          cases hNext
        · rw [hControl]
          rfl
      all_goals cases hStem
    case settle =>
      cases action
      case closeSource ending' =>
        rw [Action.control_of_perform rfl hPerform]
        exact h.inactive ⟨i, _, hMoved.agenda ▸ List.mem_cons_self, rfl⟩
      all_goals cases hStem
    all_goals cases hSettles
  · have hAside := hInter.isAside hLocked hMoved.agenda hBehind
      (Action.isBound_of_settles hSettles) (Action.isGuarded_of_settles hSettles)
    refine Bool.eq_false_iff.mpr fun hActive => ?_
    have hBefore := (Action.lapses_of_perform (Action.renews_of_isAside hAside) hPerform).2 hActive
    cases (h.inactive ⟨k, x, hBehind.1, hSettles⟩).symm.trans hBefore
  · rcases Action.eq_of_begets hBegets with ⟨_, _, _, rfl⟩ | ⟨_, _, rfl⟩ <;> cases hSettles

/-- Another thread's move bars nobody. -/
theorem bars_other (hLocked : m.Locked) (hMoved : m.Moved i action rest e m') (hj : j ≠ i)
    (hBars : m'.Bars j) : m.Bars j := by
  obtain ⟨last, hPerform⟩ := hMoved.performs
  rcases Supplied.mem_others hLocked hMoved hj with hSame | hNew
  · rw [Bars, hSame, hMoved.stream] at hBars
    refine hBars.imp_right fun ⟨⟨x, hx, hRenewal⟩, hOver⟩ =>
      ⟨⟨x, hx, hRenewal⟩, hOver.imp_left fun hStart => ?_⟩
    have hHolds := (hLocked.sound j).owed_pos hx (Action.isUnderway_of_isRenewal hRenewal)
    have hGuarded := hLocked.isGuarded_eq_false hHolds (Ne.symm hj) hMoved.agenda
    rcases (Action.drift_of_perform hGuarded hPerform).1 with hState | ⟨_, hStreaming⟩
    · rwa [Control.canStart, hState] at hStart
    · rw [Control.canStart, hStreaming] at hStart
      cases hStart
  · obtain ⟨hCleared, hRenewal, _⟩ := not_bars_of_begets hNew
    rcases hBars with hTrue | ⟨⟨x, hx, hTrue⟩, _⟩
    · cases hCleared.symm.trans hTrue
    · cases (hRenewal x hx).symm.trans hTrue

/-- A thread that comes to bar others has just got the delivery lock. -/
theorem bars_own (h : m.Orderly) (hInter : m.Interwoven) (hSup : m.Supplied u)
    (hMoved : m.Moved i action rest e m') (hBars : m'.Bars i) :
    m.Bars i ∨ action = .acquire .delivery := by
  obtain ⟨last, hPerform⟩ := hMoved.performs
  rcases hBars with hCleared | ⟨⟨x, hx, hRenewal⟩, hOver⟩
  · have hNested : Nested (action :: rest) := hMoved.agenda ▸ hInter.nested i
    rw [hMoved.own] at hCleared
    refine (hNested.isCleared_of_perform hPerform (h.toLocked.advances hMoved).stems
      hCleared).imp_left fun hBefore => .inl ?_
    rwa [hMoved.agenda]
  left
  have hBefore : isCleared (m.agenda i) = true ∨
      (m.stream.control.canStart = true ∨ ∃ y ∈ m.agenda i, y.opens = true) := by
    rcases hOver with hStart | ⟨y, hy, hOpens⟩
    · rw [hMoved.stream] at hStart
      rw [hMoved.agenda]
      rcases Action.canStart_of_perform hPerform hStart with hWas | hOpens | ⟨_, _, rfl⟩
      · exact .inr (.inl hWas)
      · exact .inr (.inr ⟨action, List.mem_cons_self, hOpens⟩)
      · exact .inl rfl
    · exact .inr (hSup.opens_moved h hInter hMoved hy hOpens)
  refine hBefore.imp_right fun hWas => ⟨?_, hWas⟩
  rcases h.renews_moved hMoved hx hRenewal with hRenews | ⟨hActive, hNone⟩
  · exact hRenews
  · rcases hWas with hStart | ⟨y, hy, hOpens⟩
    · cases (Control.not_isActive_of_canStart hStart).symm.trans hActive
    · cases (hNone y hy).symm.trans hOpens

theorem moved (h : m.Exclusive) (hDated : m.Dated) (hOrderly : m.Orderly) (hInter : m.Interwoven)
    (hSup : m.Supplied u) (hMoved : m.Moved i action rest e m') : m'.Exclusive := by
  refine ⟨h.inactive_moved hInter hOrderly.toLocked hMoved, fun j hBars k hk hServing => ?_⟩
  obtain ⟨last, hPerform⟩ := hMoved.performs
  have hLocked := hOrderly.toLocked
  by_cases hj : j = i
  · subst hj
    rcases Supplied.mem_others hLocked hMoved hk with hSame | hNew
    · rw [hSame] at hServing
      rcases bars_own hOrderly hInter hSup hMoved hBars with hBefore | rfl
      · exact h.alone j hBefore k hk hServing
      · -- Who has just got the lock holds it alone.
        have hNests := (hMoved.agenda ▸ hInter.nested j : Nested (.acquire .delivery :: rest)).1
        have hNone : e.next = [] := Action.next_of_clears rfl hPerform
        have hHolds : 0 < lent (m'.agenda j) := by
          rw [hMoved.own, hNone]
          exact lent_of_acquire hNests
        have hFree := (hInter.moved hLocked hMoved).lent_eq_zero hHolds hk
        rw [hSame] at hFree
        have hPos := hServing.lent_pos
        omega
    · exact (not_bars_of_begets hNew).2.2 hServing
  · have hBefore := bars_other hLocked hMoved hj hBars
    by_cases hki : k = i
    · subst hki
      rw [hMoved.own] at hServing
      rcases Serving.of_perform (hMoved.agenda ▸ hInter.nested k : Nested (action :: rest)) hPerform
        (hLocked.advances hMoved).stems hServing with hServed | ⟨activation, frame, rfl, hCurrent⟩
      · exact h.alone j hBefore k hk (hMoved.agenda ▸ hServed)
      · -- A frame is let in only where the stream is active, and its source started.
        obtain ⟨hActivation, hActive⟩ := of_decide_eq_true hCurrent
        have hOwn : .deliver activation frame ∈ m.agenda k := hMoved.agenda ▸ List.mem_cons_self
        rcases hBefore with hCleared | ⟨_, hStart | hOpens⟩
        · obtain ⟨x, hx, hSettles⟩ := settles_of_isCleared hCleared
          cases (h.inactive ⟨j, x, hx, hSettles⟩).symm.trans hActive
        · cases (Control.not_isActive_of_canStart hStart).symm.trans hActive
        · exact (hDated.early ⟨j, hOpens⟩).2 k _ hOwn (congrArg some hActivation.symm)
    · rcases Supplied.mem_others hLocked hMoved hki with hSame | hNew
      · exact h.alone j hBefore k hk (hSame ▸ hServing)
      · exact (not_bars_of_begets hNew).2.2 hServing

end Exclusive

/-- All that holds on every path of a machine about locks, agendas and activations. -/
structure Regular (m : Machine) (u : Supply) : Prop extends m.Orderly where
  supplied : m.Supplied u
  interwoven : m.Interwoven
  dated : m.Dated
  exclusive : m.Exclusive

theorem Fresh.regular (h : m.Fresh) (hIdle : m.stream.source.receiver = none) :
    m.Regular {} := by
  have hAll (k : ThreadId) := h.forall_mem (p := fun x =>
    x.serves?.isNone && !x.opens && !x.settles && !x.isRenewal && x.isApart)
    (by rintro (_ | _) <;> rfl) k
  simp only [Bool.and_eq_true, Bool.not_eq_true', Option.isNone_iff_eq_none] at hAll
  refine ⟨h.orderly, h.supplied hIdle, h.interwoven, ⟨fun k x hx n hServes => ?_, ?_⟩, ⟨?_, ?_⟩⟩
  · cases (hAll k x hx).1.1.1.1.symm.trans hServes
  · rintro ⟨j, x, hx, hOpens⟩
    cases (hAll j x hx).1.1.1.2.symm.trans hOpens
  · rintro ⟨k, x, hx, hSettles⟩
    cases (hAll k x hx).1.1.2.symm.trans hSettles
  · intro j _ k _ hServing
    have hPos := hServing.lent_pos
    rw [lent_of_isApart fun x hx => (hAll k x hx).2] at hPos
    cases hPos

namespace Regular

theorem moved (h : m.Regular u) (hMoved : m.Moved i action rest e m') :
    m'.Regular (u.after { action, before := m.stream, thread := i, rest }) where
  toOrderly := h.toOrderly.moved hMoved
  supplied := h.supplied.moved h.toLocked hMoved
  interwoven := h.interwoven.moved h.toLocked hMoved
  dated := h.dated.moved h.interwoven h.toLocked h.supplied hMoved
  exclusive := h.exclusive.moved h.dated h.toOrderly h.interwoven h.supplied hMoved

theorem amid (h : m.Regular u) (x : Circumstances) : (m.amid x).Regular u where
  toOrderly := h.toOrderly.amid x
  supplied := h.supplied.amid x
  interwoven := h.interwoven.amid x
  dated := ⟨h.dated.le, h.dated.early⟩
  exclusive := ⟨h.exclusive.inactive, h.exclusive.alone⟩

theorem of_path (h : m₀.Regular {}) (hPath : Path m₀ events m) : m.Regular (supply events) := by
  induction hPath using Path.induct with
  | here => exact h
  | change x _ ih => exact ih.amid x
  | step _ hMoved _ ih =>
    rw [supply_concat]
    exact ih.moved hMoved

end Regular

end Machine

end LidarSweep
