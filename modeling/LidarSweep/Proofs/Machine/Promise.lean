import LidarSweep.Proofs.Machine.Overtaken

/-!
# What a stop promises

Once a stop is back, the stream is not active until a caller starts it, and nothing new comes of it:
neither a start of the source nor a frame for the consumer is put on an agenda
(`Machine.Hushed`).  All that can still happen is what the stop, or one before it, has overtaken
(`Machine.overtaken_of_returns`): where a listener stops the stream out of a notice, its thread goes
on to start the source, or to hand the frame to the consumer (`Machine.stop_overtakes_start`).
-/

namespace LidarSweep

namespace Machine

variable {m₀ a b c m m' : Machine} {i j k : ThreadId} {action x : Action}
  {rest rest' : List Action} {e : Effect} {past events later : List Event} {u : Supply}

/-- The stream is not active, no restart will make it so, and by all that threads have still to do
for the source or the consumer they were overtaken by a stop. -/
structure Hushed (events : List Event) (m : Machine) : Prop where
  inactive : m.stream.control.state.isActive = false
  renewals : ∀ k, ∀ x ∈ m.agenda k, x.isRenewal = true →
    x.isResumption = true ∧ m.stream.control.stopPending = true
  overtaken : ∀ k, ∀ x ∈ m.agenda k, x.reachesOut = true → Overtaken events k x

namespace Hushed

theorem amid (h : Hushed events m) (x : Circumstances) : Hushed events (m.amid x) :=
  ⟨h.inactive, h.renewals, h.overtaken⟩

/-- Only a caller's start begins an activation. -/
theorem renews (h : Hushed events m) (hReg : m.Regular u) (hAgenda : m.agenda i = action :: rest)
    (hStart : ¬ Event.IsCallersStart { action, before := m.stream, thread := i, rest }) :
    action.renews = false := by
  cases action
  case activate profile consumer =>
    refine absurd ⟨rfl, fun x hx => Bool.eq_false_iff.mpr fun hRenewal => ?_⟩ hStart
    have hResumption := (h.renewals i x (hAgenda ▸ List.mem_cons_of_mem _ hx) hRenewal).1
    have hWoven : Woven (.activate profile consumer :: rest) := hAgenda ▸ hReg.interwoven.woven i
    have hLoose := hWoven.not_isBound rfl hx
    cases x <;> first | (cases hResumption; done) | cases hLoose
  case endRestart => cases (h.renewals i _ (hAgenda ▸ List.mem_cons_self) rfl).1
  all_goals rfl

/-- A restart that was stopped does not go on, and no other begins. -/
theorem renewals_moved (h : Hushed events m) (hReg : m.Regular u)
    (hMoved : m.Moved i action rest e m') (hRenews : action.renews = false) (k : ThreadId)
    (x : Action) (hx : x ∈ m'.agenda k) (hRenewal : x.isRenewal = true) :
    x.isResumption = true ∧ m'.stream.control.stopPending = true := by
  obtain ⟨last, hPerform⟩ := hMoved.performs
  rcases hReg.toLocked.mem_moved_behind hMoved hx with ⟨_, hNext⟩ | ⟨hBefore, _⟩ | ⟨hBegets, _⟩
  · have hStem := (hReg.toLocked.advances hMoved).stems x hNext
    cases x
    case checkPending =>
      cases action
      case beginRestart budget vigil limit =>
        have hActive := (hMoved.fits hReg.toLocked).2
        cases hPerform
        rw [← Stream.state_of_beginRestart hNext] at hActive
        cases h.inactive.symm.trans hActive
      all_goals cases hStem
    case endRestart =>
      cases action
      case checkPending budget vigil limit profile consumer =>
        have hPending := (h.renewals i _ (hMoved.agenda ▸ List.mem_cons_self) rfl).2
        cases hPerform
        rcases m.stream.checkPending_cases last budget vigil limit profile consumer with
          ⟨_, _, n, hBack⟩ | ⟨hNone, _⟩
        · rw [hBack] at hNext
          simp only [List.mem_append, List.mem_cons, reduceCtorEq, List.not_mem_nil, or_false]
            at hNext
          cases (Notice.isRenewal_of_mem_tellAll hNext).1
        · cases hNone.symm.trans hPending
      all_goals cases hStem
    all_goals cases hRenewal
  · obtain ⟨hResumption, hPending⟩ := h.renewals k x hBefore hRenewal
    refine ⟨hResumption, ?_⟩
    rw [hMoved.stream]
    refine Action.stopPending_of_perform ?_ hPending hPerform
    rintro profile consumer rfl
    cases hRenews
  · rcases Action.eq_of_begets hBegets with ⟨_, _, _, rfl⟩ | ⟨_, _, rfl⟩ <;> cases hRenewal

/-- Only a start or a frame that is let in has the stream reach out once more. -/
theorem overtaken_moved (h : Hushed events m) (hReg : m.Regular u)
    (hMoved : m.Moved i action rest e m') (hRenews : action.renews = false) (k : ThreadId)
    (x : Action) (hx : x ∈ m'.agenda k) (hReaches : x.reachesOut = true) :
    Overtaken (events ++ [{ action, before := m.stream, thread := i, rest }]) k x := by
  obtain ⟨last, hPerform⟩ := hMoved.performs
  rcases hReg.toLocked.mem_moved_behind hMoved hx with ⟨_, hNext⟩ | ⟨hBefore, _⟩ | ⟨hBegets, _⟩
  · have hStem := (hReg.toLocked.advances hMoved).stems x hNext
    cases x
    case openSource =>
      cases action
      case activate => cases hRenews
      all_goals cases hStem
    case consume =>
      cases action
      case confirm activation profile consumer frame =>
        cases hPerform
        rcases m.stream.confirm_cases activation profile consumer frame with
          ⟨hCurrent, _⟩ | ⟨_, hLate⟩
        · cases h.inactive.symm.trans (of_decide_eq_true hCurrent).2
        · rw [hLate] at hNext
          cases hNext
      all_goals cases hStem
    all_goals cases hReaches
  · exact (h.overtaken k x hBefore hReaches).append _
  · rcases Action.eq_of_begets hBegets with ⟨_, _, _, rfl⟩ | ⟨_, _, rfl⟩ <;> cases hReaches

theorem moved (h : Hushed events m) (hReg : m.Regular u) (hMoved : m.Moved i action rest e m')
    (hStart : ¬ Event.IsCallersStart { action, before := m.stream, thread := i, rest }) :
    Hushed (events ++ [{ action, before := m.stream, thread := i, rest }]) m' := by
  obtain ⟨last, hPerform⟩ := hMoved.performs
  have hRenews := h.renews hReg hMoved.agenda hStart
  refine ⟨?_, h.renewals_moved hReg hMoved hRenews, h.overtaken_moved hReg hMoved hRenews⟩
  rw [hMoved.stream]
  refine Bool.eq_false_iff.mpr fun hActive => ?_
  cases h.inactive.symm.trans ((Action.lapses_of_perform hRenews hPerform).2 hActive)

/-- **A hushed stream stays hushed** until a caller starts it. -/
theorem of_path (h : Hushed events m) (hRegular : m₀.Regular {}) (hPast : Path m₀ events m)
    (hPath : Path m later m') (hStart : ∀ event ∈ later, ¬ event.IsCallersStart) :
    Hushed (events ++ later) m' := by
  induction hPath using Path.induct with
  | here => rwa [List.append_nil]
  | change x _ ih => exact (ih hStart).amid x
  | step hBefore hMoved _ ih =>
    have hHushed := ih fun event he => hStart event (List.mem_append_left _ he)
    rw [← List.append_assoc]
    exact hHushed.moved (hRegular.of_path (hPast.trans hBefore)) hMoved
      (hStart _ (List.mem_append_right _ List.mem_cons_self))

end Hushed

/-! ### The end of a stop -/

/-- Where the stream is stopped and no restart goes on, all that is still to be done was
overtaken. -/
theorem Abiding.hushed (h : Abiding events m) (hState : m.stream.control.state = .stopped)
    (hOver : ∀ k, ∀ x ∈ m.agenda k, x.isRenewal = false) : Hushed events m := by
  refine ⟨by rw [hState]; rfl, fun k x hx hRenewal => ?_, fun k x hx hReaches => ?_⟩
  · cases (hOver k x hx).symm.trans hRenewal
  · cases x
    case openSource n =>
      rcases h.opening k n hx with hOvertaken | hActive
      · exact hOvertaken
      · rw [hState] at hActive
        cases hActive
    case consume profile consumer frame =>
      rcases h.handing k profile consumer frame hx with hOvertaken | hStopping | ⟨hActive, _⟩
      · exact hOvertaken
      · cases hState.symm.trans hStopping
      · rw [hState] at hActive
        cases hActive
    all_goals cases hReaches

/-- A stop out of a delivery that finds the stream stopped finds no restart under way: the restart
would have waited for the delivery. -/
theorem Regular.not_renewal_of_stopped (h : m.Regular u)
    (hAgenda : m.agenda i = .halt .stopped :: rest)
    (hDelivery : m.stream.locks.isHeldBy .delivery i = true)
    (hState : m.stream.control.state = .stopped) (hk : k ≠ i) (hx : x ∈ m.agenda k) :
    x.isRenewal = false := by
  refine Bool.eq_false_iff.mpr fun hRenewal => ?_
  have hBars : m.Bars k := .inr ⟨⟨x, hx, hRenewal⟩, .inl (by rw [Control.canStart, hState]; rfl)⟩
  refine h.exclusive.alone k hBars i (Ne.symm hk) ?_
  rw [hAgenda]
  refine Serving.of_lent rfl ?_
  rw [← hAgenda, ← h.interwoven.lent]
  exact (Locks.isHeldBy_iff h.interwoven.firm).mp hDelivery

/-- A stop that is left to another halt leaves the stream hushed, too. -/
theorem hushed_of_stopping (hReg : m.Regular u) (hAb : Abiding events m) (hMe : m.agenda i = rest)
    (hDelivery : 0 < lent rest) (hOwn : ∀ x ∈ rest, x.reachesOut = true → Overtaken events i x)
    (hState : m.stream.control.state = .stopping)
    (hPending : m.stream.control.stopPending = true) : Hushed events m := by
  refine ⟨by rw [hState]; rfl, fun k x hx hRenewal => ⟨?_, hPending⟩, fun k x hx hReaches => ?_⟩
  · obtain ⟨j, hWaning⟩ := hReg.waning hState
    have hUnderway := Action.isUnderway_of_isRenewal hRenewal
    obtain rfl : k = j := by
      by_contra hk
      have hFree := hReg.toLocked.owed_eq_zero hWaning.holds hk
      have hHolds := (hReg.sound k).owed_pos hx hUnderway
      omega
    have hRevives := hWaning.tame x ((hReg.sound k).mem_held hx hUnderway)
    cases x <;> first | rfl | (cases hRevives; done) | cases hRenewal
  · cases x
    case openSource n =>
      rcases hAb.opening k n hx with hOvertaken | hActive
      · exact hOvertaken
      · rw [hState] at hActive
        cases hActive
    case consume profile consumer frame =>
      by_cases hk : k = i
      · subst hk
        exact hOwn _ (hMe ▸ hx) rfl
      · have hFree := hReg.interwoven.lent_eq_zero (hMe ▸ hDelivery) hk
        have hPos := ((hReg.interwoven.nested k).lent_pos (hReg.interwoven.woven k) hx).1
        omega
    all_goals cases hReaches

/-- A stop that is done at once leaves the stream hushed: it is out of a delivery, and finds the
stream stopped or another halt under way. -/
theorem DoneAtOnce.hushed (h : DoneAtOnce a i rest events b) (hFresh : m₀.Fresh)
    (hIdle : m₀.stream.source.receiver = none) (hPast : Path m₀ past a)
    (hOver : ∀ x ∈ rest, x.isRenewal = false) : Hushed (past ++ events) b := by
  obtain ⟨earlier, m₁, e, m₂, rfl, hBefore, _, hMoved, hNone, hAfter, hSince⟩ := h
  have hRegular := hFresh.regular hIdle
  have hReg := hRegular.of_path (hPast.trans hBefore)
  have hReached := hPast.trans hAfter
  have hAb := hFresh.abiding_of_path hIdle hReached
  have hBack : m₂.agenda i = rest := by rw [hMoved.own, hNone]; rfl
  suffices hHushed : Hushed _ m₂ by
    have hEnd := hHushed.of_path hRegular hReached hSince (List.forall_mem_nil _)
    rwa [List.append_nil] at hEnd
  obtain ⟨last, hPerform⟩ := hMoved.performs
  rcases m₁.stream.halt_cases hPerform with ⟨locks, _, rfl⟩ |
    ⟨hDelivery, ⟨hState, rfl⟩ | ⟨hStopping, rfl⟩⟩
  · cases hNone
  · refine hAb.hushed ?_ fun k x hx => ?_
    · rw [hMoved.stream]
      exact hState
    · by_cases hk : k = i
      · subst hk
        exact hOver x (hBack ▸ hx)
      · rcases hMoved.others k hk with hSame | ⟨_, hNew⟩
        · exact hReg.not_renewal_of_stopped hMoved.agenda hDelivery hState hk (hSame ▸ hx)
        · cases hNew
  · have hHolds := (Locks.isHeldBy_iff hReg.interwoven.firm).mp hDelivery
    rw [hReg.interwoven.lent, hMoved.agenda] at hHolds
    refine hushed_of_stopping (hRegular.of_path hReached) hAb hBack hHolds (fun x hx _ => ?_) ?_ ?_
    · exact ⟨_, List.mem_append_right _ (List.mem_append_right _ List.mem_cons_self), rfl, rfl, hx⟩
    · rw [hMoved.stream]
      exact hStopping
    · rw [hMoved.stream]

/-- A caller that gets back from a stop leaves the stream hushed. -/
theorem Returns.hushed (hReturns : Returns i rest events b) (hFresh : m₀.Fresh)
    (hIdle : m₀.stream.source.receiver = none) (hPast : Path m₀ past a)
    (hCall : a.agenda i = .halt .stopped :: rest) (hCaller : ∀ x ∈ rest, x.isRenewal = false)
    (hPath : Path a events b) : Hushed (past ++ events) b := by
  have hLocked := ((hFresh.regular hIdle).of_path hPast).toLocked
  rcases (hReturns.settled_or hLocked hCall hCaller hPath).1 with hSettled | hDone
  · exact (hFresh.abiding_of_path hIdle (hPast.trans hPath)).hushed hSettled.stopped
      fun k x hx => (hSettled.harmless k x hx).1
  · exact hDone.hushed hFresh hIdle hPast hCaller

/-- **What a stop promises.**  Once a caller's stop is back, from whatever place it was asked for,
the stream is not active until a caller's start begins another activation.  Until then the source is
started, or a frame handed to the consumer, only by a thread that a stop had overtaken before it got
there; and where no halt is under way, the source is started only if it was started so. -/
theorem overtaken_of_returns (hFresh : m₀.Fresh) (hIdle : m₀.stream.source.receiver = none)
    (hPast : Path m₀ past a) (hCall : a.agenda i = .halt .stopped :: rest)
    (hCaller : ∀ x ∈ rest, x.isRenewal = false) (hPath : Path a events b)
    (hReturns : Returns i rest events b) (hLater : Path b later c)
    (hStart : ∀ event ∈ later, ¬ event.IsCallersStart) :
    c.stream.control.state.isActive = false ∧
      (∀ before event after, later = before ++ event :: after → event.action.reachesOut = true →
        Overtaken (past ++ events ++ before) event.thread event.action) ∧
      (c.stream.control.state ≠ .stopping → ∀ n, c.stream.source.receiver = some n →
        ∃ k, Overtaken (past ++ events ++ later) k (.openSource n)) := by
  have hRegular := hFresh.regular hIdle
  have hReached := hPast.trans hPath
  have hBack := hReturns.hushed hFresh hIdle hPast hCall hCaller hPath
  have hEnd := hBack.of_path hRegular hReached hLater hStart
  refine ⟨hEnd.inactive, ?_, fun hState n hReceiver => ?_⟩
  · rintro before event after rfl hReaches
    obtain ⟨m, hBefore, hAfter⟩ := hLater.of_append
    have hHushed := hBack.of_path hRegular hReached hBefore fun other hOther =>
      hStart other (List.mem_append_left _ hOther)
    exact hHushed.overtaken _ _ (hAfter.agenda_of_cons ▸ List.mem_cons_self) hReaches
  · have hOver : c.stream.control.canStart = true := by
      have hInactive := hEnd.inactive
      cases hNow : c.stream.control.state with
      | stopped | error => rw [Control.canStart, hNow]; rfl
      | stopping => exact absurd hNow hState
      | starting | streaming =>
        rw [hNow] at hInactive
        cases hInactive
    exact (hFresh.abiding_of_path hIdle (hReached.trans hLater)).started (.inl hOver) n hReceiver

/-! ### What a stop does not promise -/

/-- While a thread is busy with what it has in front of the rest of its agenda, it keeps that
rest. -/
theorem suffix_of_busy (hPath : Path a events b) (hCall : a.agenda i = action :: rest)
    (hBusy : ∀ event ∈ events, event.thread = i → rest.length ≤ event.rest.length) :
    ∃ pre, b.agenda i = pre ++ rest := by
  have hThere : i < a.threads.length := lt_length_of_agenda (hCall ▸ List.cons_ne_nil _ _)
  suffices hAll : (∃ pre, b.agenda i = pre ++ rest) ∧ i < b.threads.length from hAll.1
  induction hPath using Path.induct with
  | here => exact ⟨⟨[action], hCall⟩, hThere⟩
  | change x _ ih => exact ih hBusy
  | @step events m m' k action' rest' e _ hMoved _ ih =>
    obtain ⟨⟨pre, hAgenda⟩, hThere'⟩ := ih fun event he => hBusy event (List.mem_append_left _ he)
    refine ⟨?_, hThere'.trans_le hMoved.grows⟩
    by_cases hk : k = i
    · subst hk
      have hEnough : rest.length ≤ rest'.length :=
        hBusy _ (List.mem_append_right _ List.mem_cons_self) rfl
      have hSplit := hMoved.agenda.symm.trans hAgenda
      cases pre with
      | nil =>
        have hLength := congrArg List.length hSplit
        rw [List.length_cons, List.nil_append] at hLength
        omega
      | cons _ pre =>
        rw [List.cons_append] at hSplit
        obtain ⟨rfl, rfl⟩ := List.cons.inj hSplit
        exact ⟨e.next ++ pre, by rw [hMoved.own, List.append_assoc]⟩
    · exact ⟨pre, (hMoved.agenda_of_ne (Ne.symm hk) hThere').trans hAgenda⟩

/-- Thread `i` is back from a stop, and before a caller starts the stream again, this happens on
it. -/
def GoesOn (m₀ : Machine) (i : ThreadId) (what : Event → Bool) : Prop :=
  ∃ past a rest events b later c, Path m₀ past a ∧ a.agenda i = .halt .stopped :: rest ∧
    (∀ x ∈ rest, x.isRenewal = false) ∧ Path a events b ∧ Returns i rest events b ∧
    Path b later c ∧ (∀ event ∈ later, ¬ event.IsCallersStart) ∧
    ∃ event ∈ later, event.thread = i ∧ what event = true

/-- The check that cues lead to a stop, through it, and on. -/
theorem goesOn_of_leads {what : Event → Bool} (toStop toReturn toEnd : List Cue)
    (h : m₀.leads toStop (fun _ a => a.isStopping i && a.leads toReturn fun events b =>
      (b.agenda i).length + 1 == (a.agenda i).length && events.getLast?.any (·.thread == i) &&
        events.all (fun event => event.thread != i ||
          decide ((a.agenda i).length ≤ event.rest.length + 1)) &&
        b.leads toEnd fun later _ => later.all (!·.action.isActivation) &&
          later.any fun event => event.thread == i && what event) = true) :
    GoesOn m₀ i what := by
  obtain ⟨past, a, hPast, hCheck⟩ := exists_of_leads h
  simp only [Bool.and_eq_true] at hCheck
  obtain ⟨hStopping, hLeads⟩ := hCheck
  obtain ⟨rest, hCall, hCaller⟩ := agenda_of_isStopping hStopping
  obtain ⟨events, b, hPath, hCheck⟩ := exists_of_leads hLeads
  simp only [Bool.and_eq_true, beq_iff_eq, hCall, List.length_cons, Nat.add_right_cancel_iff,
    Option.any_eq_true, List.all_eq_true, Bool.or_eq_true, bne_iff_ne, decide_eq_true_eq,
    Nat.add_le_add_iff_right] at hCheck
  obtain ⟨⟨⟨hLength, hLast⟩, hBusy⟩, hLeads⟩ := hCheck
  obtain ⟨later, c, hLater, hCheck⟩ := exists_of_leads hLeads
  simp only [Bool.and_eq_true, List.all_eq_true, List.any_eq_true, Bool.not_eq_true',
    beq_iff_eq] at hCheck
  obtain ⟨hNone, event, he, hThread, hWhat⟩ := hCheck
  have hEnough : ∀ event ∈ events, event.thread = i → rest.length ≤ event.rest.length :=
    fun event he hThread => (hBusy event he).resolve_left (not_not_intro hThread)
  have hBack : b.agenda i = rest := by
    obtain ⟨pre, hAgenda⟩ := suffix_of_busy hPath hCall hEnough
    rw [hAgenda, List.length_append] at hLength
    obtain rfl := List.eq_nil_of_length_eq_zero (by omega : pre.length = 0)
    exact hAgenda
  refine ⟨past, a, rest, events, b, later, c, hPast, hCall, hCaller, hPath,
    ⟨hEnough, hLast, hBack⟩, hLater, fun event he hStart => ?_, event, he, hThread, hWhat⟩
  cases (hNone event he).symm.trans hStart.1

end Machine

/-- The source is started here. -/
def Event.startsSource (event : Event) : Bool :=
  match event.action with
  | .openSource _ => !event.before.source.refusesStart
  | _ => false

/-- A frame is handed to the consumer here. -/
def Event.callsConsumer (event : Event) : Bool := event.action.isHandover

theorem Event.reachesOut_of_startsSource {event : Event} (h : event.startsSource = true) :
    event.action.reachesOut = true := by
  unfold startsSource at h
  split at h
  next hAction => rw [hAction]; rfl
  · cases h

namespace Machine

open Assembler (pairBytes)

/-- A caller starts a stream and another thread hands in a sweep; a listener stops the stream when
it hears of this state. -/
def curtailed (state : StreamState) : Machine :=
  begin (pairSetup.stream.addListener { plan := [(state, .stop)] })
    [[.start pairProfile 7], [.inject (pairBytes 0 1), .inject (pairBytes 0 2)]]

theorem goesOn_starting : GoesOn (curtailed .starting) 0 Event.startsSource :=
  goesOn_of_leads [.go 0 8] [.go 0 11] [.go 0 2] (by decide +kernel)

/-- The promise holds of a stop that a listener asks for when it hears that the stream is starting,
and the start goes on all the same. -/
theorem overtaken_of_returns_curtailed :
    ∃ past events before event after c,
      Path (curtailed .starting) (past ++ events ++ (before ++ event :: after)) c ∧
        event.startsSource = true ∧ c.stream.control.state.isActive = false ∧
          Overtaken (past ++ events ++ before) event.thread event.action := by
  obtain ⟨past, a, rest, events, b, later, c, hPast, hCall, hCaller, hPath, hReturns, hLater,
    hStart, event, he, _, hStarts⟩ := goesOn_starting
  obtain ⟨before, after, rfl⟩ := List.append_of_mem he
  obtain ⟨hInactive, hOvertaken, _⟩ := overtaken_of_returns (fresh_begin rfl rfl _) rfl hPast hCall
    hCaller hPath hReturns hLater hStart
  exact ⟨past, events, before, event, after, c, (hPast.trans hPath).trans hLater, hStarts,
    hInactive, hOvertaken before event after rfl (event.reachesOut_of_startsSource hStarts)⟩

/-- **What a stop does not promise.**  A listener that stops the stream when it hears that it is
starting gets back before the source is started, and one that stops it when it hears that it is
streaming gets back before the frame is handed to the consumer. -/
theorem goesOn_after_stop :
    GoesOn (curtailed .starting) 0 Event.startsSource ∧
      GoesOn (curtailed .streaming) 1 Event.callsConsumer :=
  ⟨goesOn_starting, goesOn_of_leads [.go 0 10, .go 1 13] [.go 1 11] [.go 1 2] (by decide +kernel)⟩

end Machine

end LidarSweep
