import LidarSweep.Proofs.Machine.Exclusion

/-!
# What a stop overtakes

A listener that stops the stream out of a notice does so before the thread that tells it goes on.
So a stop may overtake the start of a source, or a frame that is to be handed to the consumer
(`Machine.Overtaken`).  What it has not overtaken finds the stream as its own thread has left it:
active when the source is started, and active or stopping when a frame is handed over
(`Machine.Abiding`).
-/

namespace LidarSweep

namespace Action

/-- Whether the source is started here, or a frame handed to the consumer. -/
def reachesOut : Action → Bool
  | openSource _ | consume _ _ _ => true
  | _ => false

theorem isStop_of_reachesOut {action : Action} (h : action.reachesOut = true) :
    action.isStop = false := by
  cases action <;> first | rfl | cases h

/-- The steps of a stop come one from another, and the first from what asks for it. -/
theorem stops_of_stemsFrom {action x : Action} (hStops : x.stops = true)
    (h : action.stemsFrom x = true) : action = .halt .stopped ∨ action.stops = true := by
  cases x
  case beginHalt ending =>
    obtain rfl : ending = .stopped := of_decide_eq_true hStops
    cases action
    case halt ending' =>
      obtain rfl : Ending.stopped = ending' := of_decide_eq_true h
      exact .inl rfl
    all_goals cases h
  case closeSource ending =>
    obtain rfl : ending = .stopped := of_decide_eq_true hStops
    cases action
    case beginHalt ending' =>
      obtain rfl : Ending.stopped = ending' := of_decide_eq_true h
      exact .inr rfl
    all_goals cases h
  case settle ending result =>
    obtain rfl : ending = .stopped := of_decide_eq_true hStops
    cases action
    case closeSource ending' =>
      obtain rfl : Ending.stopped = ending' := of_decide_eq_true h
      exact .inr rfl
    all_goals cases h
  all_goals cases hStops

/-- What puts an action on the agenda by which the stream reaches out is no stop. -/
theorem isStop_of_stemsFrom {action x : Action} (hReaches : x.reachesOut = true)
    (h : action.stemsFrom x = true) : action.isStop = false := by
  cases x
  case openSource | consume => cases action <;> first | rfl | cases h
  all_goals cases hReaches

theorem isStop_of_stops {action : Action} (h : action = .halt .stopped ∨ action.stops = true) :
    action.isStop = true := by
  rcases h with rfl | hStops
  · rfl
  · cases action <;> first | exact hStops | cases hStops

variable {action : Action} {me : ThreadId} {last : Except Error Unit} {s : Stream} {e : Effect}

/-- What stands in front of what stops may interrupt leaves the state as it is, but for the steps of
a stop. -/
theorem state_of_isInFront (hFront : action.isInFront = true) (hStops : action.stops = false)
    (h : action.perform me last s = some e) : e.stream.control.state = s.control.state := by
  cases steering_of_perform h with
  | still hAlike _ => exact hAlike.state
  | deferred _ hControl => rw [hControl]
  | halting | settled => cases hFront.symm.trans hStops
  | activated | reverted | confirmed | muted | unmuted | restarted | held => cases hFront

/-- An active stream stays active or begins to stop, unless a halt is settled or the source has
refused to start. -/
theorem state_of_active (hActive : s.control.state.isActive = true) (hOpens : action.opens = false)
    (hSettles : action.settles = false) (h : action.perform me last s = some e) :
    e.stream.control.state = .stopping ∨ e.stream.control.state.isActive = true := by
  cases steering_of_perform h with
  | still hAlike _ => exact .inr (hAlike.state ▸ hActive)
  | deferred _ hControl | muted hControl | unmuted hControl | restarted hControl =>
    rw [hControl]
    exact .inr hActive
  | activated hControl | confirmed _ hControl | held hControl =>
    rw [hControl]
    exact .inr rfl
  | halting _ hControl _ =>
    rw [hControl]
    exact .inl rfl
  | reverted => cases hOpens
  | settled => cases hSettles

end Action

namespace Machine

variable {m₀ m m' : Machine} {i j k : ThreadId} {action x : Action} {rest : List Action}
  {e : Effect} {events : List Event} {u : Supply}

/-- A stop was asked for on this thread while it still had this before it. -/
def Overtaken (events : List Event) (k : ThreadId) (x : Action) : Prop :=
  ∃ event ∈ events, event.thread = k ∧ event.action = .halt .stopped ∧ x ∈ event.rest

theorem Overtaken.append (h : Overtaken events k x) (later : List Event) :
    Overtaken (events ++ later) k x := by
  obtain ⟨event, he, hStop⟩ := h
  exact ⟨event, List.mem_append_left _ he, hStop⟩

/-- Where a thread stops the stream and has this behind that, it was overtaken. -/
def Interrupted (events : List Event) (m : Machine) (x : Action) : Prop :=
  ∀ k, x ∈ m.agenda k → (∃ y ∈ m.agenda k, y.stops = true) → Overtaken events k x

theorem Interrupted.moved (h : Interrupted events m x) (hReg : m.Regular u)
    (hMoved : m.Moved i action rest e m') (hReaches : x.reachesOut = true) :
    Interrupted (events ++ [{ action, before := m.stream, thread := i, rest }]) m' x := by
  intro k hx hStops
  obtain ⟨last, hPerform⟩ := hMoved.performs
  obtain ⟨y, hy, hStops⟩ := hStops
  have hStems := (hReg.toLocked.advances hMoved).stems
  by_cases hk : k = i
  · subst hk
    have hWoven : Woven (action :: rest) := hMoved.agenda ▸ hReg.interwoven.woven k
    rw [hMoved.own] at hx hy
    rcases List.mem_append.mp hx with hNext | hRest
    · -- What is new here stands behind notices, and nothing is stopped yet.
      have hNot := Action.isStop_of_stemsFrom hReaches (hStems x hNext)
      rcases List.mem_append.mp hy with hAlso | hLater
      · have hStop := Action.isStop_of_stops (Action.stops_of_stemsFrom hStops (hStems y hAlso))
        cases hNot.symm.trans hStop
      · have hFront := hWoven.1 ⟨y, hLater, Action.isBound_of_stops hStops⟩
        have hStop := Action.isStop_of_isInFront hFront hPerform x hNext
        cases (Action.isStop_of_reachesOut hReaches).symm.trans hStop
    · have hOld (hStopping : ∃ y ∈ action :: rest, y.stops = true) :
          Overtaken (events ++ [{ action, before := m.stream, thread := k, rest }]) k x :=
        have hBefore : x ∈ m.agenda k := hMoved.agenda ▸ List.mem_cons_of_mem _ hRest
        (h k hBefore (hMoved.agenda ▸ hStopping)).append _
      rcases List.mem_append.mp hy with hNext | hLater
      · rcases Action.stops_of_stemsFrom hStops (hStems y hNext) with rfl | hOwn
        · exact ⟨_, List.mem_append_right _ List.mem_cons_self, rfl, rfl, hRest⟩
        · exact hOld ⟨action, List.mem_cons_self, hOwn⟩
      · exact hOld ⟨y, List.mem_cons_of_mem _ hLater, hStops⟩
  · rcases Supplied.mem_others hReg.toLocked hMoved hk with hSame | hNew
    · rw [hSame] at hx hy
      exact (h k hx ⟨y, hy, hStops⟩).append _
    · rcases Action.eq_of_begets (hNew x hx) with ⟨_, _, _, rfl⟩ | ⟨_, _, rfl⟩ <;> cases hReaches

/-- How the source, and who is to start it, abide by the stops that were asked for. -/
structure Heeding (events : List Event) (m : Machine) : Prop where
  interrupted : ∀ n, Interrupted events m (.openSource n)
  opening : ∀ k n, .openSource n ∈ m.agenda k →
    Overtaken events k (.openSource n) ∨ m.stream.control.state.isActive = true
  /-- A halt is settled when the source is closed. -/
  closed : (∃ k ending result, .settle ending result ∈ m.agenda k) →
    m.stream.source.receiver = none
  /-- Where the stream can be started, or is about to be, a source that is started all the same was
  started when a stop had overtaken that. -/
  started : (m.stream.control.canStart = true ∨ ∃ j, ∃ y ∈ m.agenda j, y.opens = true) →
    ∀ n, m.stream.source.receiver = some n → ∃ k, Overtaken events k (.openSource n)

/-- How all that threads have still to do abides by the stops that were asked for. -/
structure Abiding (events : List Event) (m : Machine) : Prop extends Heeding events m where
  delayed : ∀ profile consumer frame, Interrupted events m (.consume profile consumer frame)
  handing : ∀ k profile consumer frame, .consume profile consumer frame ∈ m.agenda k →
    Overtaken events k (.consume profile consumer frame) ∨
      m.stream.control.state = .stopping ∨
        m.stream.control.state.isActive = true ∧ ∀ j, ∀ y ∈ m.agenda j, y.opens = false

namespace Heeding

theorem opening_moved (h : Heeding events m) (hReg : m.Regular u)
    (hMoved : m.Moved i action rest e m') (k : ThreadId) (n : Nat)
    (hx : .openSource n ∈ m'.agenda k) :
    Overtaken (events ++ [{ action, before := m.stream, thread := i, rest }]) k (.openSource n) ∨
      m'.stream.control.state.isActive = true := by
  obtain ⟨last, hPerform⟩ := hMoved.performs
  rw [hMoved.stream]
  rcases hReg.toLocked.mem_moved_behind hMoved hx with ⟨_, hNext⟩ | ⟨hBefore, hOwn⟩ | ⟨hBegets, _⟩
  · have hStem := (hReg.toLocked.advances hMoved).stems _ hNext
    cases action
    case activate =>
      cases hPerform
      rw [m.stream.control_activate]
      exact .inr rfl
    all_goals cases hStem
  · rcases h.opening k n hBefore with hOver | hActive
    · exact .inl (hOver.append _)
    by_cases hk : k = i
    · subst hk
      have hRest := hOwn rfl
      have hWoven : Woven (action :: rest) := hMoved.agenda ▸ hReg.interwoven.woven k
      cases hStops : action.stops with
      | true =>
        have hStopping : ∃ y ∈ m.agenda k, y.stops = true :=
          ⟨action, hMoved.agenda ▸ List.mem_cons_self, hStops⟩
        exact .inl ((h.interrupted n k hBefore hStopping).append _)
      | false =>
        have hFront := hWoven.1 ⟨_, hRest, rfl⟩
        exact .inr (Action.state_of_isInFront hFront hStops hPerform ▸ hActive)
    · have hHolds := (hReg.interwoven.woven k).owed_pos (hReg.sound k) hBefore rfl rfl
      have hGuarded := hReg.toLocked.isGuarded_eq_false hHolds (Ne.symm hk) hMoved.agenda
      rcases (Action.drift_of_perform hGuarded hPerform).1 with hSame | ⟨_, hStreaming⟩
      · exact .inr (hSame ▸ hActive)
      · exact .inr (hStreaming ▸ rfl)
  · cases hBegets

theorem closed_moved (h : Heeding events m) (hReg : m.Regular u)
    (hMoved : m.Moved i action rest e m')
    (hSettle : ∃ k ending result, .settle ending result ∈ m'.agenda k) :
    m'.stream.source.receiver = none := by
  obtain ⟨last, hPerform⟩ := hMoved.performs
  obtain ⟨k, ending, result, hx⟩ := hSettle
  rw [hMoved.stream]
  rcases hReg.toLocked.mem_moved_behind hMoved hx with ⟨_, hNext⟩ | hBehind | ⟨hBegets, _⟩
  · have hStem := (hReg.toLocked.advances hMoved).stems _ hNext
    cases action
    case closeSource ending' =>
      cases hPerform
      exact m.stream.receiver_closeSource ending'
    all_goals cases hStem
  · have hAside := hReg.interwoven.isAside hReg.toLocked hMoved.agenda hBehind rfl rfl
    have hClosed := h.closed ⟨k, ending, result, hBehind.1⟩
    cases hReceiver : e.stream.source.receiver with
    | none => rfl
    | some n =>
      have hBefore :=
        Action.receiver_of_not_opens (Action.opens_of_isAside hAside) hPerform hReceiver
      cases hClosed.symm.trans hBefore
  · cases hBegets

/-- A source that is started although the stream can be started was to be so when a stop overtook
it. -/
theorem started_openSource (h : Heeding events m) (hReg : m.Regular u) {n n' : Nat}
    (hMoved : m.Moved i (.openSource n') rest e m')
    (hMay : m'.stream.control.canStart = true ∨ ∃ j, ∃ y ∈ m'.agenda j, y.opens = true)
    (hReceiver : m'.stream.source.receiver = some n) :
    ∃ k, Overtaken events k (.openSource n) := by
  obtain ⟨last, hPerform⟩ := hMoved.performs
  have hOwn : .openSource n' ∈ m.agenda i := hMoved.agenda ▸ List.mem_cons_self
  have hSoon : ∃ j, ∃ y ∈ m.agenda j, y.opens = true := ⟨i, _, hOwn, rfl⟩
  have hControl := Action.control_of_perform rfl hPerform
  rw [hMoved.stream] at hReceiver
  cases hPerform
  rcases m.stream.openSource_cases n' with hNone | ⟨hSource, _⟩
  · rcases m.stream.receiver_openSource hReceiver with hBefore | rfl
    · exact h.started (.inr hSoon) n hBefore
    rcases h.opening i n' hOwn with hOver | hActive
    · exact ⟨i, hOver⟩
    -- An active stream is not started, and its source was started just now.
    rcases hMay with hStart | ⟨j, y, hy, hTrue⟩
    · rw [hMoved.stream, hControl] at hStart
      cases (Control.not_isActive_of_canStart hStart).symm.trans hActive
    · rcases hReg.toLocked.mem_moved_behind hMoved hy with ⟨_, hNext⟩ | hBehind | ⟨hBegets, _⟩
      · rw [hNone] at hNext
        cases hNext
      · cases hReg.interwoven.isAside hReg.toLocked hMoved.agenda hBehind
          (Action.isBound_of_opens hTrue) (Action.isGuarded_of_opens hTrue)
      · cases (Action.not_opens_of_begets hBegets).symm.trans hTrue
  · rw [hSource] at hReceiver
    exact h.started (.inr hSoon) n hReceiver

theorem started_moved (h : Heeding events m) (hReg : m.Regular u)
    (hMoved : m.Moved i action rest e m')
    (hMay : m'.stream.control.canStart = true ∨ ∃ j, ∃ y ∈ m'.agenda j, y.opens = true) (n : Nat)
    (hReceiver : m'.stream.source.receiver = some n) :
    ∃ k, Overtaken (events ++ [{ action, before := m.stream, thread := i, rest }]) k
      (.openSource n) := by
  suffices hOld : ∃ k, Overtaken events k (.openSource n) from
    hOld.imp fun _ hOver => hOver.append _
  obtain ⟨last, hPerform⟩ := hMoved.performs
  have hOwn : action ∈ m.agenda i := hMoved.agenda ▸ List.mem_cons_self
  cases hOpens : action.opens with
  | true =>
    cases action
    case openSource => exact h.started_openSource hReg hMoved hMay hReceiver
    case revert =>
      rw [hMoved.stream, (Action.supplied_of_perform rfl hPerform).2] at hReceiver
      exact h.started (.inr ⟨i, _, hOwn, rfl⟩) n hReceiver
    all_goals cases hOpens
  | false =>
    rw [hMoved.stream] at hReceiver
    have hBefore := Action.receiver_of_not_opens hOpens hPerform hReceiver
    rcases hMay with hStart | ⟨j, y, hy, hTrue⟩
    · rw [hMoved.stream] at hStart
      rcases Action.canStart_of_perform hPerform hStart with hWas | hTrue | ⟨ending, result, rfl⟩
      · exact h.started (.inl hWas) n hBefore
      · cases hOpens.symm.trans hTrue
      · cases (h.closed ⟨i, ending, result, hOwn⟩).symm.trans hBefore
    · have hMay := hReg.supplied.opens_moved hReg.toOrderly hReg.interwoven hMoved hy hTrue
      exact h.started (hMay.imp_right fun hSoon => ⟨j, hSoon⟩) n hBefore

theorem moved (h : Heeding events m) (hReg : m.Regular u) (hMoved : m.Moved i action rest e m') :
    Heeding (events ++ [{ action, before := m.stream, thread := i, rest }]) m' where
  interrupted n := (h.interrupted n).moved hReg hMoved rfl
  opening := h.opening_moved hReg hMoved
  closed := h.closed_moved hReg hMoved
  started := h.started_moved hReg hMoved

theorem amid (h : Heeding events m) (x : Circumstances) : Heeding events (m.amid x) :=
  ⟨h.interrupted, h.opening, h.closed, h.started⟩

end Heeding

namespace Abiding

/-- While the stream is stopping, only the thread that stops it takes it on. -/
theorem isAside_of_stopping (hReg : m.Regular u) (hAgenda : m.agenda i = action :: rest)
    (hStopping : m.stream.control.state = .stopping) (hSettles : action.settles = false) :
    action.isAside = true := by
  obtain ⟨j, hWaning⟩ := hReg.waning hStopping
  obtain ⟨y, hy, hTrue⟩ := hWaning.settles hStopping
  refine hReg.interwoven.isAside hReg.toLocked hAgenda ⟨hy, ?_⟩ (Action.isBound_of_settles hTrue)
    (Action.isGuarded_of_settles hTrue)
  rintro rfl
  rw [hAgenda] at hy
  rcases List.mem_cons.mp hy with rfl | hRest
  · cases hSettles.symm.trans hTrue
  · exact hRest

theorem stopping_moved (hReg : m.Regular u) (hMoved : m.Moved i action rest e m')
    (hStopping : m.stream.control.state = .stopping)
    (hSettle : ∀ ending result, action ≠ .settle ending result) :
    m'.stream.control.state = .stopping := by
  obtain ⟨last, hPerform⟩ := hMoved.performs
  rw [hMoved.stream]
  have hAside := isAside_of_stopping hReg hMoved.agenda hStopping
  cases Action.steering_of_perform hPerform with
  | still hAlike _ => exact hAlike.state.trans hStopping
  | settled => exact absurd rfl (hSettle _ _)
  | halting _ hControl _ => rw [hControl]
  | deferred _ hControl | muted hControl | unmuted hControl | restarted hControl =>
    rw [hControl]
    exact hStopping
  | confirmed hActive _ =>
    rw [hStopping] at hActive
    cases hActive
  | activated | reverted | held => cases hAside rfl

/-- As long as the stream is active, it is not started once more. -/
theorem not_opens_moved (hReg : m.Regular u) (hMoved : m.Moved i action rest e m')
    (hActive : m.stream.control.state.isActive = true)
    (hNone : ∀ j, ∀ y ∈ m.agenda j, y.opens = false) (j : ThreadId) :
    ∀ y ∈ m'.agenda j, y.opens = false := by
  refine fun y hy => Bool.eq_false_iff.mpr fun hOpens => ?_
  rcases hReg.supplied.opens_moved hReg.toOrderly hReg.interwoven hMoved hy hOpens with
    hStart | ⟨y', hy', hTrue⟩
  · cases (Control.not_isActive_of_canStart hStart).symm.trans hActive
  · cases (hNone j y' hy').symm.trans hTrue

/-- A halt is settled when everybody's frames are with the consumer, but for those that the thread
itself has overtaken. -/
theorem overtaken_of_settle (h : Abiding events m) (hReg : m.Regular u) {ending : Ending}
    {result : Except Error Unit} (hAgenda : m.agenda i = .settle ending result :: rest)
    {profile : Profile} {consumer : ConsumerId} {frame : Frame}
    (hx : .consume profile consumer frame ∈ m.agenda k) :
    Overtaken events k (.consume profile consumer frame) := by
  by_cases hk : k = i
  · subst hk
    have hWoven : Woven (.settle ending result :: rest) := hAgenda ▸ hReg.interwoven.woven k
    have hRest : .consume profile consumer frame ∈ rest := by
      rw [hAgenda] at hx
      exact (List.mem_cons.mp hx).resolve_left nofun
    have hStops : (Action.settle ending result).stops = true := hWoven.1 ⟨_, hRest, rfl⟩
    exact h.delayed _ _ _ k hx ⟨_, hAgenda ▸ List.mem_cons_self, hStops⟩
  · have hBars : m.Bars i := .inl (hAgenda ▸ rfl)
    have hServing := Serving.of_consume (hReg.interwoven.nested k) (hReg.interwoven.woven k) hx
    exact absurd hServing (hReg.exclusive.alone i hBars k hk)

theorem handing_moved (h : Abiding events m) (hReg : m.Regular u)
    (hMoved : m.Moved i action rest e m') (k : ThreadId) (profile : Profile)
    (consumer : ConsumerId) (frame : Frame) (hx : .consume profile consumer frame ∈ m'.agenda k) :
    Overtaken (events ++ [{ action, before := m.stream, thread := i, rest }]) k
        (.consume profile consumer frame) ∨
      m'.stream.control.state = .stopping ∨
        m'.stream.control.state.isActive = true ∧
          ∀ j, ∀ y ∈ m'.agenda j, y.opens = false := by
  obtain ⟨last, hPerform⟩ := hMoved.performs
  have hOwn : action ∈ m.agenda i := hMoved.agenda ▸ List.mem_cons_self
  rcases hReg.toLocked.mem_moved_behind hMoved hx with ⟨_, hNext⟩ | ⟨hBefore, _⟩ | ⟨hBegets, _⟩
  · have hStem := (hReg.toLocked.advances hMoved).stems _ hNext
    cases action
    case confirm activation profile' consumer' frame' =>
      cases hPerform
      rcases m.stream.confirm_cases activation profile' consumer' frame' with
        ⟨hCurrent, wakes, hControl⟩ | ⟨_, hLate⟩
      · obtain ⟨hActivation, hActive⟩ := of_decide_eq_true hCurrent
        refine .inr (.inr ⟨?_, not_opens_moved hReg hMoved hActive fun j y hy => ?_⟩)
        · rw [hMoved.stream, hControl]
          rfl
        · refine Bool.eq_false_iff.mpr fun hOpens => ?_
          exact (hReg.dated.early ⟨j, y, hy, hOpens⟩).2 i _ hOwn (congrArg some hActivation.symm)
      · rw [hLate] at hNext
        cases hNext
    all_goals cases hStem
  · by_cases hSettle : ∃ ending result, action = .settle ending result
    · obtain ⟨ending, result, rfl⟩ := hSettle
      exact .inl ((h.overtaken_of_settle hReg hMoved.agenda hBefore).append _)
    rcases h.handing k profile consumer frame hBefore with hOver | hStopping | ⟨hActive, hNone⟩
    · exact .inl (hOver.append _)
    · refine .inr (.inl (stopping_moved hReg hMoved hStopping fun ending result hEq => ?_))
      exact hSettle ⟨ending, result, hEq⟩
    · have hOpens := hNone i action hOwn
      have hStays : m'.stream.control.state = .stopping ∨
          m'.stream.control.state.isActive = true := by
        rw [hMoved.stream]
        cases hSettles : action.settles with
        | false => exact Action.state_of_active hActive hOpens hSettles hPerform
        | true => cases (hReg.exclusive.inactive ⟨i, action, hOwn, hSettles⟩).symm.trans hActive
      exact .inr (hStays.imp_right fun hStill =>
        ⟨hStill, not_opens_moved hReg hMoved hActive hNone⟩)
  · cases hBegets

/-- **Every step abides by the stops that were asked for.** -/
theorem moved (h : Abiding events m) (hReg : m.Regular u) (hMoved : m.Moved i action rest e m') :
    Abiding (events ++ [{ action, before := m.stream, thread := i, rest }]) m' where
  toHeeding := h.toHeeding.moved hReg hMoved
  delayed _ _ _ := (h.delayed _ _ _).moved hReg hMoved rfl
  handing := h.handing_moved hReg hMoved

theorem amid (h : Abiding events m) (x : Circumstances) : Abiding events (m.amid x) :=
  ⟨h.toHeeding.amid x, h.delayed, h.handing⟩

end Abiding

/-- Where nobody is to start the source or to settle a halt, and the source is idle, there is
nothing that stops could have overtaken. -/
theorem heeding_of_idle (hIdle : m.stream.source.receiver = none)
    (hClear : ∀ k, ∀ x ∈ m.agenda k, x.opens = false ∧ x.settles = false) : Heeding [] m := by
  refine ⟨fun n k hx => ?_, fun k n hx => ?_, fun _ => hIdle, fun _ n hSome => ?_⟩
  · cases (hClear k _ hx).1
  · cases (hClear k _ hx).1
  · cases hIdle.symm.trans hSome

/-- What heeds stops goes on doing so. -/
theorem Heeding.of_path {past : List Event} (h : m₀.Regular {}) (hPast : Path m₀ past m)
    (hHeeding : Heeding [] m) (hPath : Path m events m') : Heeding events m' := by
  induction hPath using Path.induct with
  | here => exact hHeeding
  | change x _ ih => exact ih.amid x
  | step hBefore hMoved _ ih => exact ih.moved (h.of_path (hPast.trans hBefore)) hMoved

theorem Fresh.abiding (h : m.Fresh) (hIdle : m.stream.source.receiver = none) :
    Abiding [] m := by
  have hLoose (k : ThreadId) (x : Action) (hx : x ∈ m.agenda k) :
      x.opens = false ∧ x.settles = false := by
    have hBound := (h.isLoose k x hx).1
    refine ⟨Bool.eq_false_iff.mpr fun hOpens => ?_, Bool.eq_false_iff.mpr fun hSettles => ?_⟩
    · cases hBound.symm.trans (Action.isBound_of_opens hOpens)
    · cases hBound.symm.trans (Action.isBound_of_settles hSettles)
  refine ⟨heeding_of_idle hIdle hLoose, fun _ _ _ k hx => ?_, fun k _ _ _ hx => ?_⟩
  · cases (h.isLoose k _ hx).1
  · cases (h.isLoose k _ hx).1

theorem Fresh.abiding_of_path (h : m₀.Fresh) (hIdle : m₀.stream.source.receiver = none)
    (hPath : Path m₀ events m) : Abiding events m := by
  induction hPath using Path.induct with
  | here => exact h.abiding hIdle
  | change x _ ih => exact ih.amid x
  | step hBefore hMoved _ ih => exact ih.moved ((h.regular hIdle).of_path hBefore) hMoved

end Machine

end LidarSweep
