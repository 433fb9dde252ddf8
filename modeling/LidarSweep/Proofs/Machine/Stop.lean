import LidarSweep.Proofs.Machine.Order
import LidarSweep.Proofs.Stream.Standing

/-!
# A stop is final

A stop that a caller has got back from leaves the stream stopped, whatever the watcher was about to
do, until a caller starts it again. A consumer that asks for a stop out of a delivery, while a halt
or a restart is under way, gets its way too: what is under way does not end in an active stream.
-/

namespace LidarSweep

/-- Whether a new activation begins here. -/
def Action.isActivation : Action → Bool
  | activate _ _ => true
  | _ => false

/-- A caller's start begins an activation here. In a restart, the rest of it would be to come. -/
def Event.IsCallersStart (e : Event) : Prop :=
  e.action.isActivation = true ∧ ∀ x ∈ e.rest, x.isRenewal = false

namespace Action

/-- Whether the action is part of a stop: of its halt, or of what listeners are told and ask for
meanwhile. -/
def isStop : Action → Bool
  | halt ending | beginHalt ending | closeSource ending | settle ending _ | conclude ending _ =>
    ending = .stopped
  | acquire .delivery | release .delivery | release .restart | retire | tell _ _ _ | hearStopped =>
    true
  | _ => false

/-- Whether the action is on the way of a stop that has begun. -/
def stops : Action → Bool
  | beginHalt ending | closeSource ending | settle ending _ => ending = .stopped
  | _ => false

/-- Whether the watcher finds here that it is to restart the stream, or not. -/
def isRestart : Action → Bool
  | beginRestart _ _ _ => true
  | _ => false

theorem le_owes_of_isStop {action : Action} (h : action.isStop = true) (n : Nat) :
    n ≤ action.owes n :=
  le_owes (by rintro rfl; cases h) n

theorem harmless_of_not_isUnderway {action : Action} (h : action.isUnderway = false) :
    action.isRenewal = false ∧ action.fails = false := by
  cases action <;> first | exact ⟨rfl, rfl⟩ | cases h

theorem isStop_of_mem_tellAll {n : Option Notice} {x : Action} (h : x ∈ Notice.tellAll n) :
    x.isStop = true := by
  obtain ⟨_, _, _, rfl⟩ := Notice.eq_tell_of_mem_tellAll h
  rfl

end Action

namespace Stream

variable (s : Stream)

theorem isStop_beginHalt {x : Action} (h : x ∈ (s.beginHalt .stopped).next) : x.isStop = true := by
  unfold beginHalt at h
  split at h
  · cases h
  · rcases List.mem_append.mp h with hTell | hClose
    · exact Action.isStop_of_mem_tellAll hTell
    · rw [List.mem_singleton.mp hClose]
      rfl

theorem isStop_closeSource {x : Action} (h : x ∈ (s.closeSource .stopped).next) :
    x.isStop = true := by
  have hAll (result : Except Error Unit) :
      [.acquire .delivery, .release .delivery, .retire, .settle .stopped result].all
        Action.isStop = true := rfl
  unfold closeSource at h
  rcases s.source.stop with ⟨source, result⟩
  cases result
  all_goals exact List.all_eq_true.mp (hAll _) x h

theorem isStop_settle {result : Except Error Unit} {x : Action}
    (h : x ∈ (s.settle .stopped result).next) : x.isStop = true := by
  unfold settle at h
  rcases List.mem_append.mp h with hTell | hConclude
  · exact Action.isStop_of_mem_tellAll hTell
  · rw [List.mem_singleton.mp hConclude]
    rfl

theorem isStop_tell {listener : Nat} {state : StreamState} {profile : Option Profile} {x : Action}
    (h : x ∈ (s.tell listener state profile).next) : x.isStop = true := by
  obtain ⟨_, _, _, next, hTell, _, hNext⟩ := s.tell_eq listener state profile
  rw [hTell] at h
  rcases hNext with rfl | rfl
  · cases h
  · unfold request at h
    split at h
    · cases h
    · exact List.all_eq_true.mp rfl x h

end Stream

/-- In a stop, nothing but the stop goes on. -/
theorem Action.isStop_of_perform {action : Action} {me : ThreadId} {last : Except Error Unit}
    {s : Stream} {e : Effect} (hAction : action.isStop = true)
    (h : action.perform me last s = some e) : ∀ x ∈ e.next, x.isStop = true := by
  cases action
  case halt ending =>
    obtain rfl : ending = .stopped := of_decide_eq_true hAction
    rcases s.halt_cases h with ⟨locks, _, rfl⟩ | ⟨_, ⟨_, rfl⟩ | ⟨_, rfl⟩⟩
    · exact List.all_eq_true.mp rfl
    · exact List.forall_mem_nil _
    · exact List.forall_mem_nil _
  case beginHalt ending =>
    obtain rfl : ending = .stopped := of_decide_eq_true hAction
    cases h
    exact fun _ => s.isStop_beginHalt
  case closeSource ending =>
    obtain rfl : ending = .stopped := of_decide_eq_true hAction
    cases h
    exact fun _ => s.isStop_closeSource
  case settle ending result =>
    obtain rfl : ending = .stopped := of_decide_eq_true hAction
    cases h
    exact fun _ => s.isStop_settle
  case conclude | release | retire | hearStopped =>
    cases h
    exact List.forall_mem_nil _
  case acquire lock =>
    obtain ⟨locks, _, rfl⟩ := Option.map_eq_some_iff.mp h
    exact List.forall_mem_nil _
  case tell listener state profile =>
    cases h
    exact fun _ => s.isStop_tell
  all_goals cases hAction

/-- A stop ends where it is to end. -/
theorem Action.stops_of_perform {action : Action} {me : ThreadId} {last : Except Error Unit}
    {s : Stream} {e : Effect} (hAction : action.isStop = true)
    (hStops : action.stops = true ∨ s.control.state = .stopped)
    (h : action.perform me last s = some e) :
    e.stream.control.state = .stopped ∨ ∃ x ∈ e.next, x.stops = true := by
  cases action
  case beginHalt ending =>
    obtain rfl : ending = .stopped := of_decide_eq_true hAction
    cases h
    rcases s.beginHalt_cases .stopped with ⟨hOver, hStream, _⟩ | ⟨_, _, hClose⟩
    · rw [hStream]
      exact .inl (hOver.elim id id)
    · exact .inr ⟨_, hClose, rfl⟩
  case closeSource ending =>
    obtain rfl : ending = .stopped := of_decide_eq_true hAction
    cases h
    obtain ⟨result, hSettle⟩ := s.settle_mem_closeSource .stopped
    exact .inr ⟨_, hSettle, rfl⟩
  case settle ending result =>
    obtain rfl : ending = .stopped := of_decide_eq_true hAction
    cases h
    rw [s.control_settle]
    exact .inl rfl
  case halt ending =>
    have hState := hStops.resolve_left nofun
    rcases s.halt_cases h with ⟨locks, _, rfl⟩ | ⟨_, ⟨_, rfl⟩ | ⟨_, rfl⟩⟩
    all_goals exact .inl hState
  case acquire | release | conclude | retire | tell | hearStopped =>
    exact .inl ((alike_of_perform rfl h).state.trans (hStops.resolve_left nofun))
  all_goals cases hAction

/-- A stopped stream without a restart or a failure under way stays so unless it is started. -/
theorem Action.stopped_of_perform {action : Action} {me : ThreadId} {last : Except Error Unit}
    {s : Stream} {e : Effect} (hState : s.control.state = .stopped)
    (hOver : action.isRenewal = false ∧ action.fails = false)
    (hStart : ∀ profile consumer, action ≠ .activate profile consumer)
    (h : action.perform me last s = some e) : e.stream.control.state = .stopped := by
  cases steering_of_perform h with
  | still hAlike _ => exact hAlike.state.trans hState
  | activated => exact absurd rfl (hStart _ _)
  | reverted hControl => rw [hControl]
  | @settled ending _ _ hControl =>
    rw [hControl]
    cases ending with
    | stopped => rfl
    | failed => cases hOver.2
  | halting hGoing _ _ => exact absurd (.inr hState) hGoing
  | confirmed hActive _ =>
    rw [hState] at hActive
    cases hActive
  | deferred _ hControl | muted hControl =>
    rw [hControl]
    exact hState
  | unmuted | restarted | held => cases hOver.1

/-- Nor does it put a restart or a failure under way. -/
theorem Action.harmless_of_perform {action : Action} {me : ThreadId} {last : Except Error Unit}
    {s : Stream} {e : Effect} {rest : List Action} (hFits : action.Fits rest)
    (hState : s.control.state = .stopped) (hOver : action.isRenewal = false ∧ action.fails = false)
    (h : action.perform me last s = some e) (hStems : ∀ x ∈ e.next, action.stemsFrom x = true) :
    ∀ x ∈ e.next, x.isRenewal = false ∧ x.fails = false := by
  intro x hx
  have hStem := hStems x hx
  cases x
  case checkPending =>
    cases action
    case beginRestart budget vigil limit =>
      cases h
      -- The stream that the watcher has noted was active.
      have hActive := hFits.2
      rw [← Stream.state_of_beginRestart hx, hState] at hActive
      cases hActive
    all_goals cases hStem
  case endRestart =>
    cases action
    case checkPending => cases hOver.1
    all_goals cases hStem
  case closeSource ending =>
    cases action
    case beginHalt =>
      cases h
      rcases s.beginHalt_cases _ with ⟨_, _, hNil⟩ | ⟨hGoing, _⟩
      · rw [hNil] at hx
        cases hx
      · exact absurd (.inr hState) hGoing
    all_goals cases hStem
  case settle ending _ =>
    cases action
    case closeSource =>
      obtain rfl := of_decide_eq_true hStem
      exact ⟨rfl, hOver.2⟩
    all_goals cases hStem
  all_goals exact ⟨rfl, rfl⟩

namespace Machine

variable {m m' : Machine} {i k : ThreadId} {action : Action} {rest rest' : List Action} {e : Effect}

/-! ### After a stop -/

/-- The stream is stopped, and no restart or failure of it is under way. -/
structure Settled (m : Machine) : Prop where
  stopped : m.stream.control.state = .stopped
  harmless : ∀ k, ∀ x ∈ m.agenda k, x.isRenewal = false ∧ x.fails = false

theorem Settled.moved (hSettled : m.Settled) (h : m.Locked) (hMoved : m.Moved i action rest e m')
    (hStart : ∀ profile consumer, action ≠ .activate profile consumer) : m'.Settled := by
  obtain ⟨last, hPerform⟩ := hMoved.performs
  have hOver := hSettled.harmless i action (hMoved.agenda ▸ List.mem_cons_self)
  have hFits := hMoved.fits h
  refine ⟨?_, fun k x hx => ?_⟩
  · rw [hMoved.stream]
    exact Action.stopped_of_perform hSettled.stopped hOver hStart hPerform
  · rcases h.mem_moved hMoved hx with ⟨_, hNext⟩ | hBefore | hBegets
    · exact Action.harmless_of_perform hFits hSettled.stopped hOver hPerform
        (h.advances hMoved).stems x hNext
    · exact hSettled.harmless k x hBefore
    · rcases Action.eq_of_begets hBegets with ⟨_, _, _, rfl⟩ | ⟨_, _, rfl⟩
      · exact ⟨rfl, rfl⟩
      · exact ⟨rfl, rfl⟩

/-- A stopped stream with nothing under way stays stopped until a caller starts it. -/
theorem Settled.of_path {events : List Event} (hSettled : m.Settled) (h : m.Locked)
    (hPath : Path m events m') (hStart : ∀ e ∈ events, ¬ e.IsCallersStart) :
    m'.Settled ∧ m'.Locked := by
  induction hPath using Path.induct with
  | here => exact ⟨hSettled, h⟩
  | change x _ ih =>
    obtain ⟨hSettled', h'⟩ := ih hStart
    exact ⟨⟨hSettled'.stopped, hSettled'.harmless⟩, h'.amid x⟩
  | @step events b c i action rest e _ hMoved _ ih =>
    obtain ⟨hSettled', h'⟩ := ih fun e he => hStart e (List.mem_append_left _ he)
    refine ⟨hSettled'.moved h' hMoved ?_, h'.moved hMoved⟩
    rintro profile consumer rfl
    refine hStart _ (List.mem_append_right _ List.mem_cons_self) ⟨rfl, ?_⟩
    exact fun x hx => (hSettled'.harmless i x (hMoved.agenda ▸ List.mem_cons_of_mem _ hx)).1

/-! ### In a stop -/

/-- Thread `i` is in the middle of a stop, with `rest` before it when it is back. -/
def InStop (m : Machine) (i : ThreadId) (rest : List Action) : Prop :=
  ∃ pre, m.agenda i = pre ++ .release .restart :: rest ∧ (∀ x ∈ pre, x.isStop = true) ∧
    (m.stream.control.state = .stopped ∨ ∃ x ∈ pre, x.stops = true)

theorem owed_of_isStop {pre : List Action} (h : ∀ x ∈ pre, x.isStop = true) (rest : List Action) :
    0 < LidarSweep.owed (pre ++ .release .restart :: rest) :=
  owed_of_ne_acquire (fun x hx => by rintro rfl; cases h _ hx) rest

theorem InStop.holds (h : m.InStop i rest) : 0 < LidarSweep.owed (m.agenda i) := by
  obtain ⟨pre, hAgenda, hStop, _⟩ := h
  rw [hAgenda]
  exact owed_of_isStop hStop rest

/-- Others cannot help the stop, nor hinder it. -/
theorem InStop.moved_other (hIn : m.InStop i rest) (h : m.Locked)
    (hMoved : m.Moved k action rest' e m') (hk : k ≠ i) : m'.InStop i rest := by
  obtain ⟨last, hPerform⟩ := hMoved.performs
  have hGuarded := h.isGuarded_eq_false hIn.holds hk hMoved.agenda
  have hHolds := hIn.holds
  obtain ⟨pre, hAgenda, hStop, hEnds⟩ := hIn
  have hSame : m'.agenda i = m.agenda i := by
    refine hMoved.agenda_of_ne (Ne.symm hk) (lt_length_of_agenda fun hNone => ?_)
    rw [hNone] at hHolds
    cases hHolds
  refine ⟨pre, hSame.trans hAgenda, hStop, hEnds.imp_left fun hState => ?_⟩
  rw [hMoved.stream]
  rcases (Action.drift_of_perform hGuarded hPerform).1 with hKept | ⟨hActive, _⟩
  · exact hKept.trans hState
  · rw [hState] at hActive
    cases hActive

/-- The thread goes on with its stop, or is back and the stream is stopped. -/
theorem InStop.moved_own (hIn : m.InStop i rest)
    (hMoved : m.Moved i action rest' e m') :
    m'.InStop i rest ∨ m'.agenda i = rest ∧ m'.stream.control.state = .stopped := by
  obtain ⟨last, hPerform⟩ := hMoved.performs
  obtain ⟨pre, hAgenda, hStop, hEnds⟩ := hIn
  cases pre with
  | nil =>
    obtain ⟨rfl, rfl⟩ := List.cons.inj (hMoved.agenda.symm.trans hAgenda)
    have hState := hEnds.resolve_right fun ⟨_, hx, _⟩ => by cases hx
    cases hPerform
    exact .inr ⟨hMoved.own, hMoved.stream ▸ hState⟩
  | cons a pre =>
    obtain ⟨rfl, rfl⟩ := List.cons.inj (hMoved.agenda.symm.trans hAgenda)
    have hOwn := hStop action List.mem_cons_self
    refine .inl ⟨e.next ++ pre, ?_, fun x hx => ?_, ?_⟩
    · rw [hMoved.own, List.append_assoc]
      rfl
    · rcases List.mem_append.mp hx with hNext | hPre
      · exact Action.isStop_of_perform hOwn hPerform x hNext
      · exact hStop x (List.mem_cons_of_mem _ hPre)
    · rw [hMoved.stream]
      have hStops (hNow : action.stops = true ∨ m.stream.control.state = .stopped) :
          e.stream.control.state = .stopped ∨ ∃ x ∈ e.next ++ pre, x.stops = true :=
        (Action.stops_of_perform hOwn hNow hPerform).imp_right fun ⟨x, hx, hTrue⟩ =>
          ⟨x, List.mem_append_left _ hx, hTrue⟩
      rcases hEnds with hState | ⟨x, hx, hTrue⟩
      · exact hStops (.inr hState)
      · rcases List.mem_cons.mp hx with rfl | hPre
        · exact hStops (.inl hTrue)
        · exact .inr ⟨x, List.mem_append_right _ hPre, hTrue⟩

/-- The thread is back from its stop, and nobody else had a start, a halt or a restart in hand. -/
theorem InStop.settled (hIn : m.InStop i rest) (h : m.Locked)
    (hMoved : m.Moved i action rest' e m') (hBack : m'.agenda i = rest)
    (hState : m'.stream.control.state = .stopped)
    (hOver : ∀ x ∈ rest, x.isRenewal = false ∧ x.fails = false) : m'.Settled := by
  refine ⟨hState, fun k x hx => ?_⟩
  by_cases hk : k = i
  · subst hk
    exact hOver x (hBack ▸ hx)
  · rcases h.others hMoved hk with hSame | ⟨_, hSound, hOwed⟩
    · have hFree := h.owed_eq_zero hIn.holds hk
      exact Action.harmless_of_not_isUnderway ((h.sound k).not_isUnderway hFree (hSame ▸ hx))
    · exact Action.harmless_of_not_isUnderway (hSound.not_isUnderway hOwed hx)

/-- In these events, and with the last of them, thread `i` gets back to what it has before it as
`rest`. -/
structure Returns (i : ThreadId) (rest : List Action) (events : List Event) (m : Machine) :
    Prop where
  busy : ∀ event ∈ events, event.thread = i → rest.length ≤ event.rest.length
  last : ∃ event, events.getLast? = some event ∧ event.thread = i
  back : m.agenda i = rest

/-- In these events thread `i` gets as far as its stop, and is done with it at once. -/
def DoneAtOnce (a : Machine) (i : ThreadId) (rest : List Action) (events : List Event)
    (m : Machine) : Prop :=
  ∃ earlier m₁ e m₂, events = earlier ++ [{
      action := .halt .stopped, before := m₁.stream, thread := i, rest }] ∧
    Path a earlier m₁ ∧ (∀ event ∈ earlier, event.thread ≠ i) ∧
    m₁.Moved i (.halt .stopped) rest e m₂ ∧ e.next = [] ∧ Path a events m₂ ∧ Path m₂ [] m

/-- What holds at a point of a stop: it has not begun, it is going on, or it is over. -/
def AtStop (a : Machine) (i : ThreadId) (rest : List Action) (events : List Event)
    (m : Machine) : Prop :=
  m.agenda i = .halt .stopped :: rest ∧ (∀ event ∈ events, event.thread ≠ i) ∨
    m.InStop i rest ∨
    m.agenda i = rest ∧
      ((∃ event, events.getLast? = some event ∧ event.thread = i) →
        m.Settled ∨ DoneAtOnce a i rest events m)

/-- One step of whichever thread takes a stop on. -/
theorem AtStop.moved {events : List Event} {a : Machine} (hAt : AtStop a i rest events m)
    (h : m.Locked) (hThere : i < m.threads.length)
    (hOver : ∀ x ∈ rest, x.isRenewal = false ∧ x.fails = false) (hPath : Path a events m)
    (hMoved : m.Moved k action rest' e m')
    (hNext : Path a (events ++ [{ action, before := m.stream, thread := k, rest := rest' }]) m')
    (hBusy : k = i → rest.length ≤ rest'.length) :
    AtStop a i rest
      (events ++ [{ action, before := m.stream, thread := k, rest := rest' }]) m' := by
  obtain ⟨last, hPerform⟩ := hMoved.performs
  by_cases hk : k = i
  · subst hk
    rcases hAt with ⟨hAgenda, hOthers⟩ | hIn | ⟨hAgenda, _⟩
    · obtain ⟨rfl, rfl⟩ := List.cons.inj (hMoved.agenda.symm.trans hAgenda)
      have hLeft (hNone : e.next = []) : m'.agenda k = rest' ∧
          DoneAtOnce a k rest' (events ++ [{
            action := .halt .stopped, before := m.stream, thread := k, rest := rest' }]) m' := by
        refine ⟨by rw [hMoved.own, hNone]; rfl, ?_⟩
        exact ⟨events, m, e, m', rfl, hPath, hOthers, hMoved, hNone, hNext, .here⟩
      rcases m.stream.halt_cases hPerform with ⟨locks, _, rfl⟩ | ⟨_, ⟨_, rfl⟩ | ⟨_, rfl⟩⟩
      · refine .inr (.inl ⟨[.beginHalt .stopped], hMoved.own, ?_, .inr ?_⟩)
        · exact List.all_eq_true.mp rfl
        · exact ⟨_, List.mem_cons_self, rfl⟩
      · exact .inr (.inr ((hLeft rfl).imp_right fun hDone _ => .inr hDone))
      · exact .inr (.inr ((hLeft rfl).imp_right fun hDone _ => .inr hDone))
    · rcases hIn.moved_own hMoved with hIn' | ⟨hBack, hState⟩
      · exact .inr (.inl hIn')
      · exact .inr (.inr ⟨hBack, fun _ => .inl (hIn.settled h hMoved hBack hState hOver)⟩)
    · -- A thread that is back would go on with what comes after the stop.
      have hLength := hBusy rfl
      rw [← hAgenda, hMoved.agenda, List.length_cons] at hLength
      omega
  · have hSame := hMoved.agenda_of_ne (Ne.symm hk) hThere
    rcases hAt with ⟨hAgenda, hOthers⟩ | hIn | ⟨hAgenda, _⟩
    · refine .inl ⟨hSame.trans hAgenda, fun event he => ?_⟩
      rcases List.mem_append.mp he with hEarlier | hLast
      · exact hOthers event hEarlier
      · obtain rfl := List.mem_singleton.mp hLast
        exact hk
    · exact .inr (.inl (hIn.moved_other h hMoved hk))
    · refine .inr (.inr ⟨hSame.trans hAgenda, fun ⟨event, hLast, hThread⟩ => ?_⟩)
      rw [List.getLast?_concat] at hLast
      cases hLast
      exact absurd hThread hk

/-- Nothing that a caller has still to do when it is back fails the stream. -/
theorem Locked.harmless_of_halt (h : m.Locked) (hCall : m.agenda i = .halt .stopped :: rest)
    (hCaller : ∀ x ∈ rest, x.isRenewal = false) :
    ∀ x ∈ rest, x.isRenewal = false ∧ x.fails = false := by
  intro x hx
  obtain ⟨hTame, hRest⟩ := (hCall ▸ h.sound i : Sound (.halt .stopped :: rest))
  refine ⟨hCaller x hx, ?_⟩
  cases hFails : x.fails with
  | false => rfl
  | true =>
    have hHeld := hRest.mem_held hx
      (Action.isUnderway_of_settles (Action.settles_of_fails hFails))
    cases hFails.symm.trans (hTame x hHeld).2

/-- A caller that gets back from a stop leaves a stopped stream with nothing under way, or was done
at once. -/
theorem Returns.settled_or {events : List Event} {a b : Machine}
    (hReturns : Returns i rest events b) (h : a.Locked)
    (hCall : a.agenda i = .halt .stopped :: rest) (hCaller : ∀ x ∈ rest, x.isRenewal = false)
    (hPath : Path a events b) :
    (b.Settled ∨ DoneAtOnce a i rest events b) ∧ b.Locked := by
  have hOver := h.harmless_of_halt hCall hCaller
  have hThere : i < a.threads.length := lt_length_of_agenda (hCall ▸ List.cons_ne_nil _ _)
  suffices hAt : AtStop a i rest events b ∧ b.Locked ∧ i < b.threads.length from by
    refine ⟨?_, hAt.2.1⟩
    rcases hAt.1 with ⟨hAgenda, _⟩ | ⟨pre, hAgenda, _⟩ | ⟨_, hEnd⟩
    · have hLength := congrArg List.length (hAgenda.symm.trans hReturns.back)
      rw [List.length_cons] at hLength
      omega
    · have hLength := congrArg List.length (hAgenda.symm.trans hReturns.back)
      rw [List.length_append, List.length_cons] at hLength
      omega
    · exact hEnd hReturns.last
  have hBusy := hReturns.busy
  clear hReturns
  induction hPath using Path.induct with
  | here => exact ⟨.inl ⟨hCall, List.forall_mem_nil _⟩, h, hThere⟩
  | change x _ ih =>
    obtain ⟨hAt, h', hThere'⟩ := ih hBusy
    refine ⟨hAt.imp_right (Or.imp_right fun hBack => ⟨hBack.1, fun hLast => ?_⟩), h'.amid x,
      hThere'⟩
    rcases hBack.2 hLast with hSettled | ⟨earlier, m₁, e, m₂, hEvents, hBefore, hOthers, hMoved,
      hNone, hAfter, hSince⟩
    · exact .inl ⟨hSettled.stopped, hSettled.harmless⟩
    · exact .inr ⟨earlier, m₁, e, m₂, hEvents, hBefore, hOthers, hMoved, hNone, hAfter,
        hSince.change x⟩
  | step hBefore hMoved hNext ih =>
    obtain ⟨hAt, h', hThere'⟩ := ih fun event he => hBusy event (List.mem_append_left _ he)
    exact ⟨hAt.moved h' hThere' hOver hBefore hMoved hNext
      (hBusy _ (List.mem_append_right _ List.mem_cons_self)), h'.moved hMoved,
      Nat.lt_of_lt_of_le hThere' hMoved.grows⟩

/-- Nobody gets a lock by what others do. -/
theorem Locked.isHeldBy_of_path {events : List Event} {lock : Lock} (h : m.Locked)
    (hNot : m.stream.locks.isHeldBy lock i = false) (hPath : Path m events m')
    (hOthers : ∀ event ∈ events, event.thread ≠ i) :
    m'.stream.locks.isHeldBy lock i = false := by
  suffices hAll : m'.Locked ∧ m'.stream.locks.isHeldBy lock i = false from hAll.2
  induction hPath using Path.induct with
  | here => exact ⟨h, hNot⟩
  | change x _ ih =>
    obtain ⟨h', hNot'⟩ := ih hOthers
    exact ⟨h'.amid x, hNot'⟩
  | step _ hMoved _ ih =>
    obtain ⟨h', hNot'⟩ := ih fun event he => hOthers event (List.mem_append_left _ he)
    have hOther := hOthers _ (List.mem_append_right _ List.mem_cons_self)
    exact ⟨h'.moved hMoved, hMoved.isHeldBy_of_ne (Ne.symm hOther) hNot'⟩

/-- A caller that gets back from a stop outside a delivery leaves a stopped stream with nothing
under way. -/
theorem Returns.settled {events : List Event} {a b : Machine} (hReturns : Returns i rest events b)
    (h : a.Locked) (hCall : a.agenda i = .halt .stopped :: rest)
    (hCaller : ∀ x ∈ rest, x.isRenewal = false)
    (hOutside : a.stream.locks.isHeldBy .delivery i = false) (hPath : Path a events b) :
    b.Settled ∧ b.Locked := by
  obtain ⟨hEnd, hLocked⟩ := hReturns.settled_or h hCall hCaller hPath
  refine ⟨hEnd.resolve_right ?_, hLocked⟩
  rintro ⟨earlier, m₁, e, m₂, _, hBefore, hOthers, hMoved, hNone, _⟩
  obtain ⟨last, hPerform⟩ := hMoved.performs
  rcases m₁.stream.halt_cases hPerform with ⟨locks, _, rfl⟩ | ⟨hDelivery, _⟩
  · cases hNone
  · cases (h.isHeldBy_of_path hOutside hBefore hOthers).symm.trans hDelivery

end Machine

/-! ### A stop that is left to another -/

/-- Only a start takes back that a stop was asked for. -/
theorem Action.stopPending_of_perform {action : Action} {me : ThreadId} {last : Except Error Unit}
    {s : Stream} {e : Effect} (hStart : ∀ profile consumer, action ≠ .activate profile consumer)
    (hPending : s.control.stopPending = true) (h : action.perform me last s = some e) :
    e.stream.control.stopPending = true := by
  cases steering_of_perform h with
  | still hAlike _ => exact hAlike.stopPending.trans hPending
  | activated => exact absurd rfl (hStart _ _)
  | deferred _ hControl => rw [hControl]
  | reverted hControl | settled hControl | halting _ hControl _ | confirmed _ hControl
  | muted hControl | unmuted hControl | restarted hControl | held hControl =>
    rw [hControl]
    exact hPending

theorem Stream.halt?_of_stopping {s : Stream} {me : ThreadId} {ending : Ending}
    (hDelivery : s.locks.isHeldBy .delivery me = true) (hStopping : s.control.state = .stopping) :
    s.halt? me ending = some {
      stream := { s with control := { s.control with stopPending := true } }
      result := some (.ok ()) } := by
  have hNot : s.control.state ≠ ending.state := by
    rw [hStopping]
    cases ending <;> exact nofun
  rw [halt?, if_pos hDelivery, if_neg hNot, if_pos hStopping]

namespace Machine

variable {m m' : Machine} {i j : ThreadId} {action : Action} {rest : List Action} {e : Effect}

/-- The stream is in the hands of thread `j`, which will not revive it, and a stop is asked for; or
that thread has let go of it, and it is over. -/
def Doomed (m : Machine) (j : ThreadId) : Prop :=
  m.Waning j ∧ m.stream.control.stopPending = true ∨
    owed (m.agenda j) = 0 ∧ m.stream.control.state.isActive = false ∧
      m.stream.control.state ≠ .stopping

theorem Doomed.moved (hDoomed : m.Doomed j) (h : m.Locked) (hMoved : m.Moved i action rest e m')
    (hHeld : m.stream.locks.isHeldBy .restart j = true) : m'.Doomed j := by
  have hHolds : 0 < owed (m.agenda j) := by
    rw [← h.owed]
    exact (Locks.isHeldBy_iff h.firm).mp hHeld
  obtain ⟨last, hPerform⟩ := hMoved.performs
  rcases hDoomed with ⟨hWaning, hPending⟩ | ⟨hFree, _⟩
  · refine (hWaning.moved h hMoved fun _ _ => hPending).imp_left fun hWaning' => ⟨hWaning', ?_⟩
    rw [hMoved.stream]
    refine Action.stopPending_of_perform ?_ hPending hPerform
    -- Another thread cannot start the stream, and this one will not.
    rintro profile consumer rfl
    by_cases hij : i = j
    · subst hij
      have hTame := hWaning.tame
      rw [hMoved.agenda] at hTame hHolds
      cases hTame _ (mem_held_of_owed hHolds)
    · cases h.isGuarded_eq_false hHolds hij hMoved.agenda
  · omega

theorem Doomed.of_path {events : List Event} (hDoomed : m.Doomed j) (h : m.Locked)
    (hPath : Path m events m')
    (hHeld : ∀ event ∈ events, event.before.locks.isHeldBy .restart j = true) :
    m'.Doomed j ∧ m'.Locked := by
  induction hPath using Path.induct with
  | here => exact ⟨hDoomed, h⟩
  | change x _ ih =>
    obtain ⟨hDoomed', hLocked⟩ := ih hHeld
    refine ⟨hDoomed'.imp_left fun hKept => ⟨?_, hKept.2⟩, hLocked.amid x⟩
    exact ⟨hKept.1.holds, hKept.1.inactive, hKept.1.settles, hKept.1.tame⟩
  | step _ hMoved _ ih =>
    obtain ⟨hDoomed', hLocked⟩ := ih fun event he => hHeld event (List.mem_append_left _ he)
    exact ⟨hDoomed'.moved hLocked hMoved (hHeld _ (List.mem_append_right _ List.mem_cons_self)),
      hLocked.moved hMoved⟩

theorem Doomed.ends (hDoomed : m.Doomed j) (h : m.Locked) :
    m.stream.control.state.isActive = false ∧
      (m.stream.locks.isHeldBy .restart j = false →
        m.stream.control.state = .stopped ∨ m.stream.control.state = .error) := by
  rcases hDoomed with ⟨hWaning, _⟩ | ⟨_, hInactive, hOver⟩
  · refine ⟨hWaning.inactive, fun hNot => ?_⟩
    have hHolds : m.stream.locks.isHeldBy .restart j = true := by
      rw [Locks.isHeldBy_iff h.firm, h.owed]
      exact hWaning.holds
    cases hNot.symm.trans hHolds
  · refine ⟨hInactive, fun _ => ?_⟩
    cases hState : m.stream.control.state with
    | stopped => exact .inl rfl
    | error => exact .inr rfl
    | stopping => exact absurd hState hOver
    | starting | streaming =>
      rw [hState] at hInactive
      cases hInactive

/-- **A stop wins.**  In every interleaving: once a caller's stop from outside a delivery is back,
the stream is stopped until a caller starts it, whatever the watcher had noticed, asked for or
decided before.  And a stop out of a delivery that finds the stream stopping is left to the thread
that has the restart lock: the stream is never active again as long as that thread holds the lock,
and when it lets go of it the stream is stopped or failed. -/
theorem stop_wins {m₀ a : Machine} {past : List Event} (hFresh : m₀.Fresh) (hPast : Path m₀ past a)
    (hCall : a.agenda i = .halt .stopped :: rest) (hCaller : ∀ x ∈ rest, x.isRenewal = false) :
    (a.stream.locks.isHeldBy .delivery i = false →
      ∀ events b, Path a events b → Returns i rest events b →
        ∀ later c, Path b later c → (∀ event ∈ later, ¬ event.IsCallersStart) →
          c.stream.control.state = .stopped) ∧
    (a.stream.locks.isHeldBy .delivery i = true → a.stream.control.state = .stopping →
      ∀ a', a.step? i = some a' →
        ∃ j, a'.stream.locks.isHeldBy .restart j = true ∧
          ∀ events b, Path a' events b →
            (∀ event ∈ events, event.before.locks.isHeldBy .restart j = true) →
            b.stream.control.state.isActive = false ∧
              (b.stream.locks.isHeldBy .restart j = false →
                b.stream.control.state = .stopped ∨ b.stream.control.state = .error)) := by
  have hOrderly := hFresh.orderly.of_path hPast
  constructor
  · intro hOutside events b hPath hReturns later c hLater hNoStart
    obtain ⟨hSettled, hLocked⟩ := hReturns.settled hOrderly.toLocked hCall hCaller hOutside hPath
    exact (hSettled.of_path hLocked hLater hNoStart).1.stopped
  · intro hDelivery hStopping a' hStep
    obtain ⟨action, rest', e, hMoved⟩ := moved_of_step hStep
    obtain ⟨rfl, rfl⟩ := List.cons.inj (hMoved.agenda.symm.trans hCall)
    obtain ⟨last, hPerform⟩ := hMoved.performs
    cases (Stream.halt?_of_stopping hDelivery hStopping).symm.trans hPerform
    have hOrderly' := hOrderly.moved hMoved
    obtain ⟨j, hWaning⟩ := hOrderly'.waning (by rw [hMoved.stream]; exact hStopping)
    have hPending : a'.stream.control.stopPending = true := by rw [hMoved.stream]
    refine ⟨j, ?_, fun events b hPath hHeld => ?_⟩
    · rw [Locks.isHeldBy_iff hOrderly'.firm, hOrderly'.owed]
      exact hWaning.holds
    obtain ⟨hDoomed, hLocked⟩ :=
      Doomed.of_path (.inl ⟨hWaning, hPending⟩) hOrderly'.toLocked hPath hHeld
    exact hDoomed.ends hLocked

open Assembler (pairBytes)

/-- A caller starts a stream without packets and stops it, and a watcher is set to work. -/
def starved : Machine := begin pairSetup.stream [[.start pairProfile 7, .stop], [.employ]]

/-- A consumer stops the stream at its first frame. -/
def stopperSetup : Setup := { pairSetup with
  consumer := .constant fun _ => .errands [.stop]
  polite := by
    intro call frame list h
    cases h
    decide }

def stopper : Machine :=
  begin stopperSetup.stream
    [[.start pairProfile 7], [.inject (pairBytes 0 1), .inject (pairBytes 0 2)], [.employ]]

/-- The thread is about to stop the stream for a caller. -/
def isStopping (m : Machine) (i : ThreadId) : Bool :=
  match m.agenda i with
  | .halt .stopped :: rest => rest.all fun x => !x.isRenewal
  | _ => false

theorem agenda_of_isStopping {m : Machine} {i : ThreadId} (h : m.isStopping i = true) :
    ∃ rest, m.agenda i = .halt .stopped :: rest ∧ ∀ x ∈ rest, x.isRenewal = false := by
  unfold isStopping at h
  split at h
  next rest hAgenda => exact ⟨rest, hAgenda, by simpa using h⟩
  · cases h

/-- The watcher has missed a frame, but a caller stops the stream before it is restarted; and a
consumer asks for a stop while the watcher restarts the stream. -/
theorem stop_wins_pair :
    (∃ past a events b later c, Path starved past a ∧ Path a events b ∧ Path b later c ∧
      (∃ event ∈ later, event.action.isRestart = true) ∧ c.stream.control.state = .stopped) ∧
    ∃ past a a' events b, Path stopper past a ∧ a.stream.control.state = .stopping ∧
      a.step? 1 = some a' ∧ a'.stream.locks.isHeldBy .restart 3 = true ∧ Path a' events b ∧
      b.stream.locks.isHeldBy .restart 3 = false ∧
      (b.stream.control.state = .stopped ∨ b.stream.control.state = .error) := by
  constructor
  · have hLeads : starved.leads [.go 1 1, .go 0 9, .go 2 1, .pass 5000000000, .go 2 2] (fun _ a =>
        a.isStopping 0 && (a.agenda 0).length == 1 && !a.stream.locks.isHeldBy .delivery 0 &&
          a.leads [.go 0 9] fun events b =>
            (b.agenda 0).isEmpty && events.getLast?.any (·.thread == 0) &&
              b.leads [.go 2 4] fun later _ =>
                later.any (·.action.isRestart) && later.all (!·.action.isActivation)) = true := by
      decide +kernel
    obtain ⟨past, a, hPast, hCheck⟩ := exists_of_leads hLeads
    simp only [Bool.and_eq_true, beq_iff_eq, Bool.not_eq_true'] at hCheck
    obtain ⟨⟨⟨hStop, hLength⟩, hOutside⟩, hLeads⟩ := hCheck
    obtain ⟨rest, hCall, hCaller⟩ := agenda_of_isStopping hStop
    obtain rfl : rest = [] := by simpa [hCall] using hLength
    obtain ⟨events, b, hPath, hCheck⟩ := exists_of_leads hLeads
    simp only [Bool.and_eq_true, List.isEmpty_iff, Option.any_eq_true, beq_iff_eq] at hCheck
    obtain ⟨⟨hBack, hLast⟩, hLeads⟩ := hCheck
    obtain ⟨later, c, hLater, hCheck⟩ := exists_of_leads hLeads
    simp only [Bool.and_eq_true, List.any_eq_true, List.all_eq_true, Bool.not_eq_true'] at hCheck
    obtain ⟨hRestart, hNone⟩ := hCheck
    have hReturns : Returns 0 [] events b := ⟨fun _ _ _ => Nat.zero_le _, hLast, hBack⟩
    refine ⟨past, a, events, b, later, c, hPast, hPath, hLater, hRestart, ?_⟩
    refine (stop_wins (fresh_begin rfl rfl _) hPast hCall hCaller).1 hOutside events b hPath
      hReturns later c hLater ?_
    rintro event he ⟨hStart, _⟩
    cases (hNone event he).symm.trans hStart
  · have hLeads : stopper.leads [.go 2 1, .go 0 9, .go 3 1, .go 1 13, .go 3 2, .pass 3000000000,
        .go 3 7] (fun _ a =>
          a.isStopping 1 && a.stream.locks.isHeldBy .delivery 1 &&
            a.stream.control.state == .stopping && (a.step? 1).any fun a' =>
              a'.stream.locks.isHeldBy .restart 3 && a'.leads [.go 1 2, .go 3 8] fun events b =>
                events.all (·.before.locks.isHeldBy .restart 3) &&
                  !b.stream.locks.isHeldBy .restart 3) = true := by
      decide +kernel
    obtain ⟨past, a, hPast, hCheck⟩ := exists_of_leads hLeads
    simp only [Bool.and_eq_true, beq_iff_eq, Option.any_eq_true] at hCheck
    obtain ⟨⟨⟨hStop, hDelivery⟩, hStopping⟩, a', hStep, hHolder, hLeads⟩ := hCheck
    obtain ⟨rest, hCall, hCaller⟩ := agenda_of_isStopping hStop
    obtain ⟨events, b, hPath, hCheck⟩ := exists_of_leads hLeads
    simp only [Bool.and_eq_true, List.all_eq_true, Bool.not_eq_true'] at hCheck
    obtain ⟨hHeld, hFree⟩ := hCheck
    obtain ⟨j, hHolder', hEnds⟩ := (stop_wins (fresh_begin rfl rfl _) hPast hCall hCaller).2
      hDelivery hStopping a' hStep
    obtain rfl := Locks.eq_of_isHeldBy hHolder hHolder'
    exact ⟨past, a, a', events, b, hPast, hStopping, hStep, hHolder, hPath, hFree,
      (hEnds events b hPath hHeld).2 hFree⟩

end Machine

end LidarSweep
