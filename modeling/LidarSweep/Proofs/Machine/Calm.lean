import LidarSweep.Proofs.Machine.Supply

/-!
# Operations that listeners leave alone

Listeners that never stop the stream put nothing on the agenda of the thread that tells them.  So
between the steps in which a start or a halt changes the stream nothing but locks, stages and
listeners is attended to, and each of these steps finds the stream as the step before has left it:
a start finds it over, one that is refused by the source finds it active, and a halt that closes
the source finds it stopping.

`Timely` says so of an agenda, by its first action that is not inert.  No other thread can change
what it speaks of, because whoever has such an action before it holds the restart lock.
-/

namespace LidarSweep

namespace Action

/-- Whether the action tells a listener. -/
def tells : Action → Bool
  | tell _ _ _ => true
  | _ => false

/-- Whether the action does nothing but to take its turn with locks, stages or listeners. -/
def isInert : Action → Bool
  | acquire .delivery | acquire .pipeline | release _ | finish _ | resetPipeline _ | install _ _
  | uninstall | retire | conclude _ _ | tell _ _ _ => true
  | _ => false

/-- Whether a restart goes on here when it has stopped the stream. -/
def isResumption : Action → Bool
  | checkPending _ _ _ _ _ => true
  | _ => false

/-- Whether the action needs the stream in a certain state. -/
def isTimed : Action → Bool
  | activate _ _ | openSource _ | revert _ | closeSource _ | settle _ _ => true
  | _ => false

/-- The stream is in the state that the action needs. -/
def Meets (c : Control) : Action → Prop
  | activate _ _ => c.canStart = true
  | openSource _ | revert _ => c.state.isActive = true
  | closeSource _ | settle _ _ => c.state = .stopping
  | _ => True

theorem meets_of_not_isTimed {action : Action} (h : action.isTimed = false) (c : Control) :
    action.Meets c := by
  cases action <;> first | exact trivial | cases h

theorem settles_of_isResumption {action : Action} (h : action.isResumption = true) :
    action.settles = false := by
  cases action <;> first | rfl | cases h

theorem isTimed_of_settles {action : Action} (h : action.settles = true) :
    action.isTimed = true := by
  cases action <;> first | rfl | cases h

theorem isGuarded_of_isTimed {action : Action} (h : action.isTimed = true) :
    action.isGuarded = true := by
  cases action <;> first | rfl | cases h

theorem le_owes_of_isInert {action : Action} (h : action.isInert = true) (n : Nat) :
    n ≤ action.owes n :=
  le_owes (by rintro rfl; cases h) n

/-- What the action needs is not lost where the state stays, or an active stream begins to
stream. -/
theorem Meets.drift {action : Action} {c c' : Control} (h : action.Meets c)
    (hDrift : c'.state = c.state ∨ c.state.isActive = true ∧ c'.state = .streaming) :
    action.Meets c' := by
  cases action
  case activate =>
    have hOver : c.canStart = true := h
    rcases hDrift with hSame | ⟨hActive, _⟩
    · show c'.canStart = true
      rwa [Control.canStart, hSame]
    · simp only [Control.canStart, decide_eq_true_eq] at hOver
      rcases hOver with hState | hState <;> rw [hState] at hActive <;> cases hActive
  case openSource | revert =>
    rcases hDrift with hSame | ⟨_, hStreaming⟩
    · exact (congrArg StreamState.isActive hSame).trans h
    · exact congrArg StreamState.isActive hStreaming
  case closeSource | settle =>
    have hStopping : c.state = .stopping := h
    rcases hDrift with hSame | ⟨hActive, _⟩
    · exact hSame.trans hStopping
    · rw [hStopping] at hActive
      cases hActive
  all_goals exact trivial

end Action

theorem owed_pos_of_isResumption {action : Action} (h : action.isResumption = true) :
    0 < owed [action] := by
  cases action <;> first | exact Nat.one_pos | cases h

/-- The first action that is not inert finds the stream as it needs it, and nothing behind it needs
anything yet. -/
def Timely (c : Control) : List Action → Prop
  | [] => True
  | action :: rest =>
    if action.isInert then Timely c rest else action.Meets c ∧ ∀ x ∈ rest, x.isTimed = false

namespace Timely

variable {c c' : Control} {action : Action} {agenda rest : List Action}

theorem of_inert (h : Timely c (action :: rest)) (hInert : action.isInert = true) :
    Timely c rest := by
  rwa [Timely, if_pos hInert] at h

theorem cons_inert (h : Timely c rest) (hInert : action.isInert = true) :
    Timely c (action :: rest) := by
  rwa [Timely, if_pos hInert]

theorem of_active (h : Timely c (action :: rest)) (hInert : action.isInert = false) :
    action.Meets c ∧ ∀ x ∈ rest, x.isTimed = false := by
  rwa [Timely, if_neg (Bool.eq_false_iff.mp hInert)] at h

theorem append_inert {l : List Action} (h : Timely c rest) (hInert : ∀ x ∈ l, x.isInert = true) :
    Timely c (l ++ rest) := by
  induction l with
  | nil => exact h
  | cons x l ih =>
    have hRest := ih fun y hy => hInert y (List.mem_cons_of_mem _ hy)
    exact hRest.cons_inert (hInert x List.mem_cons_self)

/-- An action that finds what it needs, before others that need nothing. -/
theorem cons_of_meets (hMeets : action.Meets c) (hRest : ∀ x ∈ rest, x.isTimed = false) :
    Timely c (action :: rest) := by
  induction rest generalizing action with
  | nil =>
    by_cases hInert : action.isInert = true
    · rw [Timely, if_pos hInert]
      exact trivial
    · rw [Timely, if_neg hInert]
      exact ⟨hMeets, hRest⟩
  | cons x rest ih =>
    by_cases hInert : action.isInert = true
    · rw [Timely, if_pos hInert]
      exact ih (Action.meets_of_not_isTimed (hRest x List.mem_cons_self) c)
        fun y hy => hRest y (List.mem_cons_of_mem _ hy)
    · rw [Timely, if_neg hInert]
      exact ⟨hMeets, hRest⟩

/-- Actions that need nothing are timely at any time. -/
theorem of_bare (h : ∀ x ∈ agenda, x.isTimed = false) : Timely c agenda := by
  cases agenda with
  | nil => exact trivial
  | cons action rest =>
    exact cons_of_meets (Action.meets_of_not_isTimed (h action List.mem_cons_self) c)
      fun x hx => h x (List.mem_cons_of_mem _ hx)

theorem drift (h : Timely c agenda)
    (hDrift : c'.state = c.state ∨ c.state.isActive = true ∧ c'.state = .streaming) :
    Timely c' agenda := by
  induction agenda with
  | nil => exact trivial
  | cons action rest ih =>
    by_cases hInert : action.isInert = true
    · exact (ih (h.of_inert hInert)).cons_inert hInert
    · obtain ⟨hMeets, hRest⟩ := h.of_active (Bool.eq_false_iff.mpr hInert)
      exact cons_of_meets (hMeets.drift hDrift) hRest

/-- Without the restart lock nothing is needed of the stream. -/
theorem of_owed (h : Timely c agenda) (hSound : Sound agenda) (hOwed : owed agenda = 0) :
    Timely c' agenda := by
  induction agenda with
  | nil => exact trivial
  | cons action rest ih =>
    rw [owed_cons] at hOwed
    by_cases hInert : action.isInert = true
    · have hLess := Action.le_owes_of_isInert hInert (owed rest)
      exact (ih (h.of_inert hInert) hSound.2 (by omega)).cons_inert hInert
    · obtain ⟨_, hRest⟩ := h.of_active (Bool.eq_false_iff.mpr hInert)
      refine cons_of_meets ?_ hRest
      cases hTimed : action.isTimed with
      | false => exact Action.meets_of_not_isTimed hTimed c'
      | true =>
        have hHolds := Action.owed_of_isGuarded hSound.1 (Action.isGuarded_of_isTimed hTimed)
        rw [owed_cons] at hHolds
        omega

end Timely

theorem Notice.isInert_of_mem_tellAll {n : Option Notice} {x : Action}
    (h : x ∈ Notice.tellAll n) : x.isInert = true := by
  obtain ⟨_, _, _, rfl⟩ := Notice.eq_tell_of_mem_tellAll h
  rfl

/-! ### One step -/

namespace Stream

variable {s : Stream}

/-- Telling passive listeners is all there is to it. -/
theorem next_tell_of_isCalm (h : s.IsCalm) (listener : Nat) (state : StreamState)
    (profile : Option Profile) : (s.tell listener state profile).next = [] := by
  obtain ⟨s', hTell, _⟩ := tell_of_isCalm h listener state profile
  rw [hTell]

theorem canStart_of_next_checkStart {profile : Profile} {consumer : ConsumerId} {x : Action}
    (h : x ∈ (s.checkStart profile consumer).next) : s.control.canStart = true := by
  have hAdmission : (s.checkStart profile consumer).next ≠ [] := List.ne_nil_of_mem h
  rw [checkStart] at hAdmission
  rcases hVerdict : s.admission profile with ⟨verdict, table⟩
  rw [hVerdict] at hAdmission
  cases verdict with
  | error e => exact absurd rfl hAdmission
  | ok g => exact canStart_of_admission hVerdict

theorem next_closeSource (s : Stream) (ending : Ending) :
    ∃ result, (s.closeSource ending).next =
      [.acquire .delivery, .release .delivery, .retire, .settle ending result] :=
  ⟨s.source.stop.2, rfl⟩

theorem next_openSource (s : Stream) (activation : Nat) :
    (s.openSource activation).next = [] ∨
      ∃ cause, (s.openSource activation).next = [.uninstall, .revert cause] := by
  rw [openSource]
  rcases s.source.start activation with ⟨source, result⟩
  cases result with
  | ok => exact .inl rfl
  | error e => exact .inr ⟨e, rfl⟩

end Stream

namespace Action

variable {action x : Action} {me : ThreadId} {last : Except Error Unit} {s : Stream} {e : Effect}
  {rest : List Action}

theorem steers_of_isInert (h : action.isInert = true) : action.steers = false := by
  cases action <;> first | rfl | cases h

/-- An inert action leaves nothing to be done. -/
theorem next_of_isInert (hInert : action.isInert = true) (hCalm : s.IsCalm)
    (h : action.perform me last s = some e) : e.next = [] := by
  cases action
  case acquire lock =>
    obtain ⟨locks, _, rfl⟩ := Option.map_eq_some_iff.mp h
    rfl
  case release | finish | resetPipeline | install | uninstall | retire | conclude =>
    cases h
    rfl
  case tell listener state profile =>
    cases h
    exact Stream.next_tell_of_isCalm hCalm listener state profile
  all_goals cases hInert

/-- Whether the action is one that has others behind it which need the stream in a certain
state. -/
def sets : Action → Bool
  | checkStart _ _ | activate _ _ | openSource _ | beginHalt _ | closeSource _ => true
  | _ => false

theorem not_isTimed_of_stemsFrom (hSets : action.sets = false) (h : action.stemsFrom x = true) :
    x.isTimed = false := by
  cases x
  case activate | openSource | revert | closeSource | settle =>
    cases action <;> first | (cases h; done) | cases hSets
  all_goals rfl

theorem not_isTimed_of_begets (h : action.begets x = true) : x.isTimed = false := by
  rcases eq_of_begets h with ⟨_, _, _, rfl⟩ | ⟨_, _, rfl⟩
  · rfl
  · rfl

/-- **Every step of an operation prepares the next.**  What is put on an agenda by an action that
finds the stream as it needs it will find it so, too. -/
theorem timely_of_perform (hTimely : Timely s.control (action :: rest)) (hCalm : s.IsCalm)
    (hStems : ∀ x ∈ e.next, action.stemsFrom x = true)
    (h : action.perform me last s = some e) : Timely e.stream.control (e.next ++ rest) := by
  by_cases hInert : action.isInert = true
  · have hState := (alike_of_perform (steers_of_isInert hInert) h).state
    rw [next_of_isInert hInert hCalm h]
    exact (hTimely.of_inert hInert).drift (.inl hState)
  obtain ⟨hMeets, hRest⟩ := hTimely.of_active (Bool.eq_false_iff.mpr hInert)
  have hBehind (next : Action) (hNext : next.Meets e.stream.control) :
      Timely e.stream.control (next :: rest) := .cons_of_meets hNext hRest
  by_cases hSets : action.sets = true
  · cases action
    case checkStart profile consumer =>
      have hControl := control_of_perform rfl h
      cases h
      rcases s.next_checkStart profile consumer with hNone | ⟨_, g, hNext⟩
      · rw [hNone]
        exact .of_bare hRest
      · have hStart : s.control.canStart = true :=
          Stream.canStart_of_next_checkStart (hNext ▸ List.mem_cons_self)
        have hActivate := hBehind (.activate profile consumer)
          ((congrArg Control.canStart hControl).trans hStart)
        rw [hNext]
        refine hActivate.append_inert (l := [.acquire .pipeline, .resetPipeline profile.rate,
          .release .pipeline, .install g profile.format]) ?_
        simp [isInert]
    case activate profile consumer =>
      cases h
      have hStarting : (s.activate profile consumer).stream.control.state = .starting := by
        rw [s.control_activate]
      have hOpen := hBehind
        (.openSource (s.activate profile consumer).stream.control.activation)
        (congrArg StreamState.isActive hStarting)
      show Timely _ (Notice.tellAll _ ++ [.openSource _] ++ rest)
      rw [List.append_assoc]
      exact hOpen.append_inert fun x hx => Notice.isInert_of_mem_tellAll hx
    case openSource activation =>
      have hControl := control_of_perform rfl h
      cases h
      rcases s.next_openSource activation with hNone | ⟨cause, hNext⟩
      · rw [hNone]
        exact .of_bare hRest
      · have hRevert := hBehind (.revert cause)
          ((congrArg (fun c : Control => c.state.isActive) hControl).trans hMeets)
        rw [hNext]
        exact hRevert.cons_inert rfl
    case beginHalt ending =>
      cases h
      rcases s.beginHalt_cases ending with ⟨_, _, hNone⟩ | ⟨hGoing, ⟨wakes, hControl⟩, _⟩
      · rw [hNone]
        exact .of_bare hRest
      · have hClose := hBehind (.closeSource ending) (congrArg Control.state hControl)
        have hNext : (s.beginHalt ending).next = (if ending = .stopped then
            Notice.tellAll (s.control.transition .stopping).2 else []) ++
              [.closeSource ending] := by
          rw [Stream.beginHalt, if_neg hGoing]
        rw [hNext, List.append_assoc]
        refine hClose.append_inert fun x hx => ?_
        by_cases hEnding : ending = .stopped
        · rw [if_pos hEnding] at hx
          exact Notice.isInert_of_mem_tellAll hx
        · rw [if_neg hEnding] at hx
          cases hx
    case closeSource ending =>
      have hControl := control_of_perform rfl h
      cases h
      obtain ⟨result, hNext⟩ := s.next_closeSource ending
      have hSettle := hBehind (.settle ending result)
        ((congrArg Control.state hControl).trans hMeets)
      rw [hNext]
      exact hSettle.append_inert (l := [.acquire .delivery, .release .delivery, .retire])
        (by simp [isInert])
    all_goals cases hSets
  · refine .of_bare fun x hx => ?_
    rcases List.mem_append.mp hx with hNext | hLater
    · exact not_isTimed_of_stemsFrom (Bool.eq_false_iff.mpr hSets) (hStems x hNext)
    · exact hRest x hLater

end Action

/-- Listeners come from outside, and only hearing something changes them. -/
theorem Action.listeners_of_perform {action : Action} {me : ThreadId} {last : Except Error Unit}
    {s : Stream} {e : Effect} (hTell : action.tells = false)
    (h : action.perform me last s = some e) :
    e.stream.control.listeners = s.control.listeners := by
  by_cases hTouches : action.touches .control = true
  · cases action
    case tell => cases hTell
    case activate => cases h; rw [s.control_activate]
    case revert => cases h; rw [s.control_revert]
    case settle => cases h; rw [s.control_settle]
    case shutDown | configure =>
      cases h
      rfl
    case halt ending =>
      rcases s.halt_cases h with ⟨locks, _, rfl⟩ | ⟨_, ⟨_, rfl⟩ | ⟨_, rfl⟩⟩ <;> rfl
    case beginHalt ending =>
      cases h
      rcases s.beginHalt_cases ending with ⟨_, hStream, _⟩ | ⟨_, ⟨wakes, hControl⟩, _⟩
      · rw [hStream]
      · rw [hControl]
    case deliver activation frame =>
      cases h
      rw [Stream.deliver]
      split <;> rfl
    case confirm activation profile consumer frame =>
      cases h
      rcases s.confirm_cases activation profile consumer frame with
        ⟨_, wakes, hControl⟩ | ⟨_, hLate⟩
      · rw [hControl]
        rfl
      · rw [hLate]
        rfl
    case dropFrame cause =>
      cases h
      rw [s.control_dropFrame]
      rfl
    case beginRestart budget vigil limit =>
      cases h
      rw [Stream.beginRestart_eq]
      cases s.renewal? vigil <;> rfl
    case checkPending budget vigil limit profile consumer =>
      cases h
      rcases s.checkPending_cases last budget vigil limit profile consumer with
        ⟨_, hControl, _⟩ | ⟨_, hControl, _⟩
      · rw [hControl]
      · rw [hControl]
    case endRestart budget vigil limit profile consumer =>
      cases h
      rw [s.control_endRestart]
      cases last with
      | ok => rfl
      | error cause => rw [Stream.hold_eq]
    all_goals cases hTouches
  · rw [control_of_perform (Bool.eq_false_iff.mpr hTouches) h]

/-- Passive listeners stay passive. -/
theorem Action.isCalm_of_perform {action : Action} {me : ThreadId} {last : Except Error Unit}
    {s : Stream} {e : Effect} (hCalm : s.IsCalm) (h : action.perform me last s = some e) :
    e.stream.IsCalm := by
  by_cases hTell : action.tells = true
  · cases action
    case tell listener state profile =>
      cases h
      obtain ⟨s', hTell, _, _, hCalm'⟩ := Stream.tell_of_isCalm hCalm listener state profile
      rw [hTell]
      exact hCalm'
    all_goals cases hTell
  · have hSame := listeners_of_perform (Bool.eq_false_iff.mpr hTell) h
    intro l hl
    exact hCalm l (hSame ▸ hl)

/-! ### All threads -/

namespace Machine

variable {m m' : Machine} {i k : ThreadId} {action x : Action} {rest : List Action} {e : Effect}

/-- Thread `k` is to stop the stream on the way of a restart, or does so, or has done so. -/
def Renews (m : Machine) (k : ThreadId) (resumption : Action) : Prop :=
  m.agenda k = [.halt .stopped, resumption] ∨ m.InStop k [resumption] ∨
    m.agenda k = [resumption] ∧ m.stream.control.state = .stopped

/-- A machine whose listeners never stop the stream: every step of an operation finds the stream as
the step before has left it. -/
structure Composed (m : Machine) : Prop extends m.Orderly where
  calm : m.stream.IsCalm
  timely : ∀ k, Timely m.stream.control (m.agenda k)
  renews : ∀ k, ∀ x ∈ m.agenda k, x.isResumption = true → m.Renews k x

/-- What code from outside asks for needs nothing of the stream at first, and is no part of an
operation that is under way. -/
theorem Fresh.bare (h : m.Fresh) (k : ThreadId) : ∀ x ∈ m.agenda k,
    x.isTimed = false ∧ x.isResumption = false ∧ x.tells = false ∧ x.fails = false := by
  have hAll := h.forall_mem (p := fun x => !x.isTimed && !x.isResumption && !x.tells && !x.fails)
    (by rintro (_ | _) <;> rfl) k
  simpa [and_assoc] using hAll

theorem Fresh.composed (h : m.Fresh) (hCalm : m.stream.IsCalm) : m.Composed := by
  refine ⟨h.orderly, hCalm, fun k => .of_bare fun x hx => (h.bare k x hx).1, ?_⟩
  intro k x hx hResumption
  cases (h.bare k x hx).2.1.symm.trans hResumption

namespace Composed

theorem amid (h : m.Composed) (x : Circumstances) : (m.amid x).Composed where
  toOrderly := h.toOrderly.amid x
  calm := h.calm
  timely := h.timely
  renews := h.renews

/-- Another thread's step does not take away what a thread needs of the stream. -/
theorem timely_other (h : m.Composed) (hMoved : m.Moved i action rest e m') (hk : k ≠ i) :
    Timely m'.stream.control (m'.agenda k) := by
  obtain ⟨last, hPerform⟩ := hMoved.performs
  rw [hMoved.stream]
  rcases hMoved.others k hk with hSame | ⟨_, hSpawned⟩
  · rw [hSame]
    by_cases hGuarded : action.isGuarded = true
    · have hHolds := h.depth_pos hMoved.agenda hGuarded
      rw [h.owed] at hHolds
      exact (h.timely k).of_owed (h.sound k) (h.toLocked.owed_eq_zero hHolds hk)
    · exact (h.timely k).drift (Action.drift_of_perform (Bool.eq_false_iff.mpr hGuarded) hPerform).1
  · have hBegets := ((h.toLocked.advances hMoved).spawned _ hSpawned).2.2
    refine .of_bare fun x hx => Action.not_isTimed_of_begets (List.all_eq_true.mp hBegets x hx)

/-- An action that is not inert finds the stream as it needs it, and none that needs it stands
behind. -/
theorem meets (h : m.Composed) (hMoved : m.Moved i action rest e m')
    (hInert : action.isInert = false) :
    action.Meets m.stream.control ∧ ∀ x ∈ rest, x.isTimed = false :=
  (hMoved.agenda ▸ h.timely i : Timely m.stream.control (action :: rest)).of_active hInert

/-- No halt is under way where another begins. -/
theorem not_stopping (h : m.Composed) (hHolds : 0 < owed (m.agenda i))
    (hSettles : ∀ x ∈ m.agenda i, x.settles = false) :
    m.stream.control.state ≠ .stopping := by
  intro hStopping
  obtain ⟨j, hWaning⟩ := h.waning hStopping
  obtain ⟨x, hx, hTrue⟩ := hWaning.settles hStopping
  by_cases hj : j = i
  · subst hj
    cases (hSettles x hx).symm.trans hTrue
  · have hFree := h.toLocked.owed_eq_zero hHolds hj
    have hPos := hWaning.holds
    omega

theorem not_stopping_of_beginHalt {ending : Ending} (h : m.Composed)
    (hMoved : m.Moved i (.beginHalt ending) rest e m') : m.stream.control.state ≠ .stopping := by
  have hBare := (h.meets hMoved rfl).2
  refine h.not_stopping (i := i) ?_ fun x hx => ?_
  · rw [← h.owed]
    exact h.depth_pos hMoved.agenda rfl
  · rw [hMoved.agenda] at hx
    rcases List.mem_cons.mp hx with rfl | hRest
    · rfl
    · cases hSettles : x.settles with
      | false => rfl
      | true => cases (hBare x hRest).symm.trans (Action.isTimed_of_settles hSettles)

theorem renews_own (h : m.Composed) (hMoved : m.Moved i action rest e m')
    (hx : x ∈ m'.agenda i) (hResumption : x.isResumption = true) : m'.Renews i x := by
  obtain ⟨last, hPerform⟩ := hMoved.performs
  have hSound := hMoved.sound h.toLocked
  rw [hMoved.own] at hx
  rcases List.mem_append.mp hx with hNext | hRest
  · -- The restart has just begun.
    have hStems := (h.toLocked.advances hMoved).stems x hNext
    cases x
    case checkPending =>
      cases action
      case beginRestart budget vigil limit =>
        cases hPerform
        obtain ⟨rfl, _⟩ := hSound.1
        rw [Stream.beginRestart_eq] at hNext
        have hOwn := hMoved.own
        rw [Stream.beginRestart_eq] at hOwn
        rcases hRenewal : m.stream.renewal? vigil with _ | ⟨profile, consumer⟩
        · rw [hRenewal] at hNext
          simp at hNext
        · rw [hRenewal] at hNext hOwn
          simp only [Action.stop, List.cons_append, List.nil_append, List.mem_cons, reduceCtorEq,
            List.not_mem_nil, or_false, false_or] at hNext
          rw [hNext]
          exact .inl hOwn
      all_goals cases hStems
    all_goals cases hResumption
  · have hBefore := h.renews i x (hMoved.agenda ▸ List.mem_cons_of_mem _ hRest) hResumption
    rcases hBefore with hHalt | hIn | ⟨hAlone, _⟩
    · obtain ⟨rfl, rfl⟩ := List.cons.inj (hMoved.agenda.symm.trans hHalt)
      rcases m.stream.halt_cases hPerform with ⟨locks, _, rfl⟩ | ⟨_, ⟨hState, rfl⟩ | ⟨hState, rfl⟩⟩
      · refine .inr (.inl ⟨[.beginHalt .stopped], hMoved.own, ?_, .inr ?_⟩)
        · exact List.all_eq_true.mp rfl
        · exact ⟨_, List.mem_cons_self, rfl⟩
      · exact .inr (.inr ⟨hMoved.own, hMoved.stream ▸ hState⟩)
      · have hHolds : 0 < owed (m.agenda i) := by
          rw [hHalt]
          exact owed_pos_of_isResumption hResumption
        refine absurd hState (h.not_stopping hHolds fun y hy => ?_)
        rw [hHalt] at hy
        rcases List.mem_cons.mp hy with rfl | hy
        · rfl
        · rw [List.mem_singleton.mp hy]
          exact Action.settles_of_isResumption hResumption
    · rcases hIn.moved_own hMoved with hIn' | ⟨hBack, hState⟩
      · exact .inr (.inl hIn')
      · exact .inr (.inr ⟨hBack, hState⟩)
    · obtain ⟨_, rfl⟩ := List.cons.inj (hMoved.agenda.symm.trans hAlone)
      cases hRest

theorem renews_other (h : m.Composed) (hMoved : m.Moved i action rest e m') (hk : k ≠ i)
    (hx : x ∈ m'.agenda k) (hResumption : x.isResumption = true) : m'.Renews k x := by
  obtain ⟨last, hPerform⟩ := hMoved.performs
  rcases hMoved.others k hk with hSame | ⟨_, hSpawned⟩
  · have hBefore := h.renews k x (hSame ▸ hx) hResumption
    rcases hBefore with hHalt | hIn | ⟨hAlone, hState⟩
    · exact .inl (hSame.trans hHalt)
    · exact .inr (.inl (hIn.moved_other h.toLocked hMoved (Ne.symm hk)))
    · refine .inr (.inr ⟨hSame.trans hAlone, ?_⟩)
      have hHolds : 0 < owed (m.agenda k) := by
        rw [hAlone]
        exact owed_pos_of_isResumption hResumption
      have hGuarded := h.toLocked.isGuarded_eq_false hHolds (Ne.symm hk) hMoved.agenda
      rw [hMoved.stream]
      rcases (Action.drift_of_perform hGuarded hPerform).1 with hKept | ⟨hActive, _⟩
      · exact hKept.trans hState
      · rw [hState] at hActive
        cases hActive
  · have hBegets := ((h.toLocked.advances hMoved).spawned _ hSpawned).2.2
    have hBegotten := List.all_eq_true.mp hBegets x hx
    rcases Action.eq_of_begets hBegotten with ⟨_, _, _, rfl⟩ | ⟨_, _, rfl⟩ <;> cases hResumption

/-- **Every step leaves a composed machine composed.** -/
theorem moved (h : m.Composed) (hMoved : m.Moved i action rest e m') : m'.Composed := by
  obtain ⟨last, hPerform⟩ := hMoved.performs
  refine ⟨h.toOrderly.moved hMoved, ?_, fun k => ?_, fun k x hx hResumption => ?_⟩
  · rw [hMoved.stream]
    exact Action.isCalm_of_perform h.calm hPerform
  · by_cases hk : k = i
    · subst hk
      rw [hMoved.stream, hMoved.own]
      exact Action.timely_of_perform (hMoved.agenda ▸ h.timely k) h.calm
        (h.toLocked.advances hMoved).stems hPerform
    · exact h.timely_other hMoved hk
  · by_cases hk : k = i
    · subst hk
      exact h.renews_own hMoved hx hResumption
    · exact h.renews_other hMoved hk hx hResumption

end Composed

end Machine

end LidarSweep
