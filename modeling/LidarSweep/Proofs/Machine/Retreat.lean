import LidarSweep.Proofs.Machine.Overtaken
import LidarSweep.Proofs.Machine.Telling

/-!
# Starts whose source refuses

A start that was admitted makes stages and assembler ready, begins its activation and tells
listeners before it starts the source.  If the source refuses, all of that is taken back.  The
thread has the restart lock in hand meanwhile, so whatever others do, and whatever the listeners ask
for that it tells, the stream ends stopped, without a consumer and without an assembler
(`Machine.Returns.retreated`).  How far the thread has got is told by what it has before it
(`Retreat`).
-/

namespace LidarSweep

/-- The stream is stopped, and has neither a consumer nor an assembler. -/
structure Stream.IsDown (s : Stream) : Prop where
  stopped : s.control.state = .stopped
  consumer : s.control.consumer = none
  assembler : s.assembler = none

namespace Action

/-- Whether the action tells a listener, or is part of a stop that finds the stream stopped. -/
def isVain : Action → Bool
  | halt ending | beginHalt ending => ending = .stopped
  | tell _ _ _ | release .restart | hearStopped => true
  | _ => false

/-- Whether the action may come in a start that was admitted, until that lets go of its lock. -/
def isOfStart : Action → Bool
  | activate _ _ | openSource _ | uninstall | revert _ | finish _ => true
  | action => action.prepares || action.isStop

theorem isOfStart_of_prepares {action : Action} (h : action.prepares = true) :
    action.isOfStart = true := by
  unfold isOfStart
  split <;> simp [h]

theorem isOfStart_of_isStop {action : Action} (h : action.isStop = true) :
    action.isOfStart = true := by
  unfold isOfStart
  split <;> simp [h]

theorem isStop_of_isVain {action : Action} (h : action.isVain = true) : action.isStop = true := by
  cases action
  case release lock =>
    cases lock
    case restart => rfl
    all_goals cases h
  all_goals first | exact h | cases h

theorem mutes_of_isOfStart {action : Action} (h : action.isOfStart = true) :
    action.mutes = false := by
  cases action <;> first | rfl | cases h

variable {action : Action} {me : ThreadId} {last : Except Error Unit} {s : Stream} {e : Effect}

theorem isVain_of_mem_tellAll {n : Option Notice} {x : Action} (h : x ∈ Notice.tellAll n) :
    x.isVain = true := by
  obtain ⟨_, _, _, rfl⟩ := Notice.eq_tell_of_mem_tellAll h
  rfl

/-- A stream that is down stays so, and nobody is told of anything more. -/
theorem vain_of_perform (hVain : action.isVain = true) (hDown : s.IsDown)
    (h : action.perform me last s = some e) :
    e.stream.IsDown ∧ (∀ x ∈ e.next, x.isVain = true) ∧ ∀ l, news l e.next = [] := by
  have hAlike (hSteers : action.steers = false) (hTouches : action.touches .assembler = false) :
      e.stream.IsDown := by
    have hControl := alike_of_perform hSteers h
    have hAssembler : e.stream.assembler = s.assembler := same_of_perform .assembler hTouches h
    exact ⟨hControl.state.trans hDown.stopped, hControl.consumer.trans hDown.consumer,
      hAssembler.trans hDown.assembler⟩
  cases action
  case tell listener state profile =>
    refine ⟨hAlike rfl rfl, ?_⟩
    cases h
    obtain ⟨s', _, hTell | ⟨_, hTell⟩⟩ := s.tell_cases listener state profile
    · rw [hTell]
      exact ⟨List.forall_mem_nil _, fun _ => rfl⟩
    · rw [hTell]
      simp [stop, isVain, news, news?]
  case halt ending =>
    obtain rfl : ending = .stopped := of_decide_eq_true hVain
    rcases s.halt_cases h with ⟨locks, _, rfl⟩ | ⟨_, ⟨_, rfl⟩ | ⟨hStopping, _⟩⟩
    · refine ⟨⟨hDown.stopped, hDown.consumer, hDown.assembler⟩, ?_⟩
      simp [isVain, news, news?]
    · exact ⟨hDown, List.forall_mem_nil _, fun _ => rfl⟩
    · cases hDown.stopped.symm.trans hStopping
  case beginHalt ending =>
    cases h
    rcases s.beginHalt_cases ending with ⟨_, hStream, hNone⟩ | ⟨hGoing, _⟩
    · rw [hStream, hNone]
      exact ⟨hDown, List.forall_mem_nil _, fun _ => rfl⟩
    · exact absurd (.inr hDown.stopped) hGoing
  case release | hearStopped =>
    refine ⟨hAlike rfl rfl, ?_⟩
    cases h
    exact ⟨List.forall_mem_nil _, fun _ => rfl⟩
  all_goals cases hVain

end Action

/-- A source that refuses is left as it was. -/
theorem Stream.source_of_refused {s : Stream} (hRefuses : s.source.refusesStart = true)
    (activation : Nat) : (s.openSource activation).stream.source = s.source := by
  rw [openSource, ManualSource.start, if_pos hRefuses]
  rfl

/-- A start has its thread tell of it, and then start the source. -/
theorem Stream.next_activate (s : Stream) (profile : Profile) (consumer : ConsumerId) :
    ∃ told n, (s.activate profile consumer).next = told ++ [.openSource n] ∧
      (∀ x ∈ told, ∃ listener profile, x = .tell listener .starting profile) ∧
      (s.control.canStart = true → s.control.quiet = false →
        ∀ l < s.control.listeners.length, news l told = [.starting]) := by
  let c : Control := { s.control with
    activation := s.control.activation + 1
    stopPending := false
    profile := some profile
    consumer := some consumer }
  refine ⟨Notice.tellAll (c.transition .starting).2, _, rfl, fun x hx => ?_,
    fun hStart hLoud l hl => ?_⟩
  · cases hNotice : (c.transition .starting).2 with
    | none =>
      rw [hNotice] at hx
      cases hx
    | some n =>
      rw [hNotice] at hx
      obtain ⟨l, _, rfl⟩ := List.mem_map.mp hx
      exact ⟨l, n.profile, by rw [Control.state_of_transition hNotice]⟩
  · have hChange : c.state ≠ .starting := Control.ne_starting_of_canStart hStart
    rw [Control.news_transition hChange]
    exact if_pos ⟨hLoud, hl⟩

/-- How far a thread has got with a start whose source refuses.  It has this in front of the release
of its lock, and by then each listener will have heard this from it, if no listener stops the stream
when it is told of the start (`spared`). -/
inductive Retreat (spared : Prop) (s : Stream) (last : Except Error Unit) :
    List StreamState → List Action → Prop where
  | ready {pre : List Action} {profile : Profile} {consumer : ConsumerId}
      (hStart : s.control.canStart = true) (hPre : ∀ x ∈ pre, x.prepares = true) :
      Retreat spared s last [] (pre ++ [.activate profile consumer])
  | opening {pre : List Action} {n : Nat} (hPre : ∀ x ∈ pre, x.isStop = true)
      (hSpared : spared → s.control.state.isActive = true ∧
        ∀ x ∈ pre, ∃ listener profile, x = .tell listener .starting profile) :
      Retreat spared s last [.starting] (pre ++ [.openSource n])
  | refused {cause : Error} (hCause : cause = .source .refusedToStart)
      (hSpared : spared → s.control.state.isActive = true) :
      Retreat spared s last [.starting] [.uninstall, .revert cause]
  | stripped {cause : Error} (hCause : cause = .source .refusedToStart)
      (hSpared : spared → s.control.state.isActive = true) (hAssembler : s.assembler = none) :
      Retreat spared s last [.starting] [.revert cause]
  | down {pre : List Action} {cause : Error} (hCause : cause = .source .refusedToStart)
      (hDown : s.IsDown) (hPre : ∀ x ∈ pre, x.isVain = true) :
      Retreat spared s last [.starting, .stopped] (pre ++ [.finish (.error cause)])
  | done (hLast : last = .error (.source .refusedToStart)) (hDown : s.IsDown) :
      Retreat spared s last [.starting, .stopped] []

namespace Retreat

variable {spared : Prop} {s s' : Stream} {last : Except Error Unit} {heard : List StreamState}
  {front : List Action} {action : Action} {me : ThreadId} {e : Effect}

/-- A thread is as far as before where the stream has kept what counts. -/
theorem mono (h : Retreat spared s last heard front)
    (hStart : s.control.canStart = true → s'.control.canStart = true)
    (hActive : s.control.state.isActive = true → s'.control.state.isActive = true)
    (hAssembler : s.assembler = none → s'.assembler = none) (hDown : s.IsDown → s'.IsDown) :
    Retreat spared s' last heard front := by
  cases h with
  | ready hBefore hPre => exact .ready (hStart hBefore) hPre
  | opening hPre hSpared => exact .opening hPre fun h => (hSpared h).imp_left hActive
  | refused hCause hSpared => exact .refused hCause fun h => hActive (hSpared h)
  | stripped hCause hSpared hNone =>
    exact .stripped hCause (fun h => hActive (hSpared h)) (hAssembler hNone)
  | down hCause hBefore hPre => exact .down hCause (hDown hBefore) hPre
  | done hLast hBefore => exact .done hLast (hDown hBefore)

/-- What others can do while the thread has the restart lock in hand does not matter to it. -/
theorem perform_other (h : Retreat spared s last heard front)
    (hGuarded : action.isGuarded = false) {last' : Except Error Unit}
    (hPerform : action.perform me last' s = some e) : Retreat spared e.stream last heard front := by
  have hDrift := (Action.drift_of_perform hGuarded hPerform).1
  have hAssembler (hNone : s.assembler = none) : e.stream.assembler = none := by
    have hInstall : action.isInstall = false := by
      cases action <;> first | rfl | cases hGuarded
    cases hSome : e.stream.assembler with
    | none => rfl
    | some a =>
      have hBefore := Action.assembler_of_perform hInstall hPerform (by rw [hSome]; rfl)
      rw [hNone] at hBefore
      cases hBefore
  have hState (hInactive : s.control.state.isActive = false) :
      e.stream.control.state = s.control.state :=
    hDrift.resolve_right fun hStreaming => by cases hInactive.symm.trans hStreaming.1
  refine h.mono (fun hStart => ?_) (fun hActive => ?_) hAssembler fun hDown => ?_
  · rw [Control.canStart, hState (Control.not_isActive_of_canStart hStart)]
    exact hStart
  · rcases hDrift with hSame | ⟨_, hStreaming⟩
    · rwa [hSame]
    · rw [hStreaming]
      rfl
  · have hSame := hState (by rw [hDown.stopped]; rfl)
    refine ⟨hSame.trans hDown.stopped, ?_, hAssembler hDown.assembler⟩
    cases Action.steering_of_perform hPerform with
    | still hAlike _ => exact hAlike.consumer.trans hDown.consumer
    | deferred _ hControl =>
      rw [hControl]
      exact hDown.consumer
    | confirmed hActive _ =>
      rw [hDown.stopped] at hActive
      cases hActive
    | activated | reverted | settled | halting | muted | unmuted | restarted | held =>
      cases hGuarded

/-- What `front` has still to tell comes to what is to be heard once `action` is done. -/
def Tells (spared : Prop) (s : Stream) (heard heard' : List StreamState)
    (front front' : List Action) (action : Action) : Prop :=
  spared → ∀ l < s.control.listeners.length, ∀ told : List StreamState,
    told ++ news l front = heard → told ++ (action.news? l).toList ++ news l front' = heard'

/-- The thread is at some stage of its retreat again when it has done `action`. -/
def Continues (spared : Prop) (s : Stream) (last : Except Error Unit) (heard : List StreamState)
    (action : Action) (front : List Action) (e : Effect) : Prop :=
  ∃ heard', Retreat spared e.stream (e.result.getD last) heard' (e.next ++ front) ∧
    Tells spared s heard heard' (action :: front) (e.next ++ front) action

/-- A step that tells nobody, and leaves nothing more to be told. -/
theorem continues_of_next (h : Retreat spared e.stream (e.result.getD last) heard (e.next ++ front))
    (hNews : spared → ∀ l, news l e.next = []) :
    Continues spared s last heard action front e := by
  refine ⟨heard, h, fun hSpared l _ told hTold => ?_⟩
  rw [news_append, hNews hSpared l, List.nil_append, List.append_assoc, ← news_cons]
  exact hTold

theorem continues_activate (hStart : s.control.canStart = true) (hLoud : s.control.quiet = false)
    (profile : Profile) (consumer : ConsumerId) :
    Continues spared s last [] (.activate profile consumer) [] (s.activate profile consumer) := by
  obtain ⟨told, n, hNext, hTold, hNews⟩ := s.next_activate profile consumer
  refine ⟨[.starting], ?_, fun _ l hl heard hHeard => ?_⟩
  · rw [hNext, List.append_nil]
    refine .opening (fun x hx => ?_) fun _ => ⟨?_, hTold⟩
    · obtain ⟨_, _, rfl⟩ := hTold x hx
      rfl
    · rw [s.control_activate]
      rfl
  · obtain rfl : heard = [] := (List.append_eq_nil_iff.mp hHeard).1
    rw [hNext, List.append_nil, news_append, hNews hStart hLoud l hl]
    rfl

theorem continues_openSource (hRefuses : s.source.refusesStart = true)
    (hActive : spared → s.control.state.isActive = true) {n : Nat}
    (hPerform : (Action.openSource n).perform me last s = some e) :
    Continues spared s last [.starting] (.openSource n) [] e := by
  let cause : Error := .source .refusedToStart
  have hRefused : (Action.openSource n).perform me last s = some {
      stream := s.warn s!"stream source failed to start: {cause.message}"
      next := [.uninstall, .revert cause] } := by
    rw [Action.perform, Stream.openSource, ManualSource.start, if_pos hRefuses]
  cases hRefused.symm.trans hPerform
  exact continues_of_next (.refused rfl hActive) fun _ _ => rfl

/-- A listener that spares the stream has nothing done when it is told. -/
theorem next_of_spared {listener : Nat} {state : StreamState} {profile : Option Profile}
    (hSpared : s.Spared state)
    (hPerform : (Action.tell listener state profile).perform me last s = some e) :
    e.next = [] := by
  cases hPerform
  obtain ⟨s', _, hTell | ⟨hStops, _⟩⟩ := s.tell_cases listener state profile
  · rw [hTell]
  · exact absurd hSpared hStops

theorem continues_told {pre : List Action} {n : Nat} (hPre : ∀ x ∈ action :: pre, x.isStop = true)
    (hSpared : spared → s.Spared .starting)
    (hTold : spared → s.control.state.isActive = true ∧
      ∀ x ∈ action :: pre, ∃ listener profile, x = .tell listener .starting profile)
    (hPerform : action.perform me last s = some e) :
    Continues spared s last [.starting] action (pre ++ [.openSource n]) e := by
  have hQuick (h : spared) : e.next = [] ∧ e.stream.control.state = s.control.state := by
    obtain ⟨listener, profile, rfl⟩ := (hTold h).2 action List.mem_cons_self
    exact ⟨next_of_spared (hSpared h) hPerform, (Action.alike_of_perform rfl hPerform).state⟩
  obtain ⟨hStop, hLater⟩ := List.forall_mem_cons.mp hPre
  refine continues_of_next ?_ fun h l => by rw [(hQuick h).1]; rfl
  rw [← List.append_assoc]
  refine .opening (fun x hx => ?_) fun h => ?_
  · rcases List.mem_append.mp hx with hNext | hOld
    · exact Action.isStop_of_perform hStop hPerform x hNext
    · exact hLater x hOld
  · obtain ⟨hNone, hSame⟩ := hQuick h
    rw [hNone, hSame]
    exact ⟨(hTold h).1, fun x hx => (hTold h).2 x (List.mem_cons_of_mem _ hx)⟩

theorem continues_revert {cause : Error} (hCause : cause = .source .refusedToStart)
    (hActive : spared → s.control.state.isActive = true) (hNone : s.assembler = none)
    (hLoud : s.control.quiet = false) :
    Continues spared s last [.starting] (.revert cause) [] (s.revert cause) := by
  let c : Control := { s.control with consumer := none }
  have hNext : (s.revert cause).next =
      Notice.tellAll (c.transition .stopped).2 ++ [.finish (.error cause)] := rfl
  refine ⟨[.starting, .stopped], ?_, fun h l hl told hTold => ?_⟩
  · rw [hNext, List.append_nil]
    refine .down hCause ⟨?_, ?_, hNone⟩ fun x => Action.isVain_of_mem_tellAll
    all_goals rw [s.control_revert]
  · obtain rfl : told = [.starting] := (List.append_nil _).symm.trans hTold
    have hChange : c.state ≠ .stopped := by
      intro hStopped
      have hState := hActive h
      rw [show s.control.state = .stopped from hStopped] at hState
      cases hState
    rw [hNext, List.append_nil, news_append, Control.news_transition hChange, if_pos ⟨hLoud, hl⟩]
    rfl

theorem continues_vain {pre : List Action} {cause : Error}
    (hCause : cause = .source .refusedToStart) (hDown : s.IsDown)
    (hPre : ∀ x ∈ action :: pre, x.isVain = true)
    (hPerform : action.perform me last s = some e) :
    Continues spared s last [.starting, .stopped] action (pre ++ [.finish (.error cause)]) e := by
  obtain ⟨hVain, hLater⟩ := List.forall_mem_cons.mp hPre
  obtain ⟨hDown', hNext, hNews⟩ := Action.vain_of_perform hVain hDown hPerform
  refine continues_of_next ?_ fun _ => hNews
  rw [← List.append_assoc]
  exact .down hCause hDown' (List.forall_mem_append.mpr ⟨hNext, hLater⟩)

/-- **The thread goes on with its retreat**, stage by stage. -/
theorem perform (h : Retreat spared s last heard (action :: front))
    (hSpared : spared → s.Spared .starting) (hLoud : s.control.quiet = false)
    (hRefuses : ∀ n, action = .openSource n → s.source.refusesStart = true)
    (hPerform : action.perform me last s = some e) :
    Continues spared s last heard action front e := by
  generalize hFront : action :: front = agenda at h
  cases h with
  | @ready pre profile consumer hStart hPre =>
    cases pre with
    | nil =>
      obtain ⟨rfl, rfl⟩ := List.cons.inj hFront
      cases hPerform
      exact continues_activate hStart hLoud profile consumer
    | cons _ pre =>
      obtain ⟨rfl, rfl⟩ := List.cons.inj hFront
      obtain ⟨hPrepares, hLater⟩ := List.forall_mem_cons.mp hPre
      obtain ⟨hNone, hSame⟩ := Action.next_of_prepares hPrepares hPerform
      refine continues_of_next ?_ fun _ _ => by rw [hNone]; rfl
      rw [hNone]
      exact .ready (hSame ▸ hStart) hLater
  | @opening pre n hPre hTold =>
    cases pre with
    | nil =>
      obtain ⟨rfl, rfl⟩ := List.cons.inj hFront
      exact continues_openSource (hRefuses n rfl) (fun h => (hTold h).1) hPerform
    | cons _ pre =>
      obtain ⟨rfl, rfl⟩ := List.cons.inj hFront
      exact continues_told hPre hSpared hTold hPerform
  | refused hCause hActive =>
    obtain ⟨rfl, rfl⟩ := List.cons.inj hFront
    cases hPerform
    exact continues_of_next (.stripped hCause hActive rfl) fun _ _ => rfl
  | stripped hCause hActive hNone =>
    obtain ⟨rfl, rfl⟩ := List.cons.inj hFront
    cases hPerform
    exact continues_revert hCause hActive hNone hLoud
  | @down pre cause hCause hDown hPre =>
    cases pre with
    | nil =>
      obtain ⟨rfl, rfl⟩ := List.cons.inj hFront
      cases hPerform
      exact continues_of_next (.done (congrArg Except.error hCause) hDown) fun _ _ => rfl
    | cons _ pre =>
      obtain ⟨rfl, rfl⟩ := List.cons.inj hFront
      exact continues_vain hCause hDown hPre hPerform
  | done => cases hFront

/-- What the thread has in front of the release of its lock is of its start. -/
theorem isOfStart (h : Retreat spared s last heard front) : ∀ x ∈ front, x.isOfStart = true := by
  intro x hx
  cases h with
  | ready _ hPre =>
    rcases List.mem_append.mp hx with hIn | hLast
    · exact Action.isOfStart_of_prepares (hPre x hIn)
    · rw [List.mem_singleton.mp hLast]
      rfl
  | opening hPre _ =>
    rcases List.mem_append.mp hx with hIn | hLast
    · exact Action.isOfStart_of_isStop (hPre x hIn)
    · rw [List.mem_singleton.mp hLast]
      rfl
  | refused | stripped =>
    simp only [List.mem_cons, List.not_mem_nil, or_false] at hx
    rcases hx with rfl | rfl <;> rfl
  | down _ _ hPre =>
    rcases List.mem_append.mp hx with hIn | hLast
    · exact Action.isOfStart_of_isStop (Action.isStop_of_isVain (hPre x hIn))
    · rw [List.mem_singleton.mp hLast]
      rfl
  | done => cases hx

/-- Until it lets go of it, the thread has the restart lock in hand. -/
theorem owed_pos (h : Retreat spared s last heard front) (rest : List Action) :
    0 < owed (front ++ .release .restart :: rest) :=
  owed_of_ne_acquire (fun x hx => by rintro rfl; cases h.isOfStart _ hx) rest

end Retreat

namespace Machine

variable {m₀ a b m m' : Machine} {i k : ThreadId} {action : Action} {rest rest' : List Action}
  {e : Effect} {past events : List Event} {u : Supply}

/-- In these events from `a` on, thread `i` has come this far with a start whose source refuses. -/
structure Retreating (a : Machine) (i : ThreadId) (rest : List Action) (events : List Event)
    (m : Machine) : Prop where
  stage : ∃ front heard, m.agenda i = front ++ .release .restart :: rest ∧
    Retreat (a.stream.Spared .starting) m.stream (m.last i) heard front ∧
    (a.stream.Spared .starting → ∀ l < a.stream.control.listeners.length,
      toldBy i l events ++ news l front = heard)
  spared : a.stream.Spared .starting → m.stream.Spared .starting
  audience : m.stream.control.listeners.length = a.stream.control.listeners.length
  loud : m.stream.control.quiet = false
  idle : a.stream.source.receiver = none → m.stream.source.receiver = none

/-- In these events from `a` on, thread `i` was at a start whose source refused, and is back. -/
structure Retreated (a : Machine) (i : ThreadId) (events : List Event) (m : Machine) : Prop where
  last : m.last i = .error (.source .refusedToStart)
  down : m.stream.IsDown
  told : a.stream.Spared .starting → ∀ l < a.stream.control.listeners.length,
    toldBy i l events = [.starting, .stopped]
  idle : a.stream.source.receiver = none → m.stream.source.receiver = none
  /-- Nobody is in the middle of a start or halt. -/
  clear : ∀ k, ∀ x ∈ m.agenda k, x.opens = false ∧ x.settles = false

namespace Retreating

theorem holds (h : Retreating a i rest events m) : 0 < owed (m.agenda i) := by
  obtain ⟨front, heard, hAgenda, hRetreat, _⟩ := h.stage
  rw [hAgenda]
  exact hRetreat.owed_pos rest

/-- What does not depend on whose step it is. -/
theorem kept (h : Retreating a i rest events m) {last : Except Error Unit}
    (hPerform : action.perform k last m.stream = some e) (hMutes : action.mutes = false)
    (hOpens : ∀ n, action = .openSource n → m.stream.source.refusesStart = true) :
    (a.stream.Spared .starting → e.stream.Spared .starting) ∧
      e.stream.control.listeners.length = a.stream.control.listeners.length ∧
      e.stream.control.quiet = false ∧
      (a.stream.source.receiver = none → e.stream.source.receiver = none) := by
  refine ⟨fun hSpared => Action.spared_of_perform (h.spared hSpared) hPerform,
    (Action.length_listeners_of_perform hPerform).trans h.audience,
    (Action.quiet_of_perform hMutes hPerform).trans h.loud, fun hNone => ?_⟩
  have hBefore := h.idle hNone
  cases hReceiver : e.stream.source.receiver with
  | none => rfl
  | some n =>
    rcases Action.receiver_of_perform hPerform hReceiver with hSome | rfl
    · cases hBefore.symm.trans hSome
    · cases hPerform
      rw [Stream.source_of_refused (hOpens n rfl), hBefore] at hReceiver
      cases hReceiver

theorem moved_other (h : Retreating a i rest events m) (hLocked : m.Locked)
    (hMoved : m.Moved k action rest' e m') (hk : k ≠ i) (hLast : m'.last i = m.last i) :
    Retreating a i rest
      (events ++ [{ action, before := m.stream, thread := k, rest := rest' }]) m' := by
  obtain ⟨last, hPerform⟩ := hMoved.performs
  have hGuarded := hLocked.isGuarded_eq_false h.holds hk hMoved.agenda
  obtain ⟨hSpared, hLength, hLoud, hIdle⟩ := h.kept hPerform
    (Action.mutes_of_isGuarded hGuarded) (by rintro n rfl; cases hGuarded)
  have hSame := hMoved.agenda_of_owed hk h.holds
  obtain ⟨front, heard, hAgenda, hRetreat, hTold⟩ := h.stage
  rw [← hMoved.stream] at hSpared hLength hLoud hIdle
  refine ⟨⟨front, heard, hSame.trans hAgenda, ?_, fun hCalm l hl => ?_⟩, hSpared, hLength, hLoud,
    hIdle⟩
  · rw [hMoved.stream, hLast]
    exact hRetreat.perform_other hGuarded hPerform
  · rw [toldBy_of_ne hk]
    exact hTold hCalm l hl

/-- The thread goes on, or lets go of its lock. -/
theorem moved_own (h : Retreating a i rest events m) (hMoved : m.Moved i action rest' e m')
    (hPerform : action.perform i (m.last i) m.stream = some e)
    (hLast : m'.last i = e.result.getD (m.last i))
    (hRefuses : ∀ n, action = .openSource n → m.stream.source.refusesStart = true) :
    Retreating a i rest
        (events ++ [{ action, before := m.stream, thread := i, rest := rest' }]) m' ∨
      action = .release .restart ∧ rest' = rest ∧ m.stream.IsDown ∧
        m.last i = .error (.source .refusedToStart) ∧
        (a.stream.Spared .starting → ∀ l < a.stream.control.listeners.length,
          toldBy i l events = [.starting, .stopped]) := by
  obtain ⟨front, heard, hAgenda, hRetreat, hTold⟩ := h.stage
  cases front with
  | nil =>
    obtain ⟨rfl, rfl⟩ := List.cons.inj (hMoved.agenda.symm.trans hAgenda)
    generalize hFront : ([] : List Action) = front at hRetreat
    cases hRetreat with
    | done hEnd hDown =>
      refine .inr ⟨rfl, rfl, hDown, hEnd, fun hCalm l hl => ?_⟩
      exact (List.append_nil _).symm.trans (hTold hCalm l hl)
    | ready | opening | down =>
      cases List.append_ne_nil_of_right_ne_nil _ (List.cons_ne_nil _ _) hFront.symm
    | refused | stripped => cases hFront
  | cons _ front =>
    obtain ⟨rfl, rfl⟩ := List.cons.inj (hMoved.agenda.symm.trans hAgenda)
    have hMutes := Action.mutes_of_isOfStart (hRetreat.isOfStart action List.mem_cons_self)
    obtain ⟨hSpared, hLength, hLoud, hIdle⟩ := h.kept hPerform hMutes hRefuses
    rw [← hMoved.stream] at hSpared hLength hLoud hIdle
    obtain ⟨heard', hNext, hTells⟩ := hRetreat.perform h.spared h.loud hRefuses hPerform
    refine .inl ⟨⟨e.next ++ front, heard', ?_, ?_, fun hCalm l hl => ?_⟩, hSpared, hLength, hLoud,
      hIdle⟩
    · rw [hMoved.own, List.append_assoc]
      rfl
    · rw [hMoved.stream, hLast]
      exact hNext
    · rw [toldBy_of_own]
      exact hTells hCalm l (h.audience ▸ hl) _ (hTold hCalm l hl)

theorem lt_length (h : Retreating a i rest events m) : i < m.threads.length := by
  refine lt_length_of_agenda fun hNone => ?_
  have hHolds := h.holds
  rw [hNone] at hHolds
  cases hHolds

theorem amid (h : Retreating a i rest events m) (x : Circumstances) :
    Retreating a i rest events (m.amid x) := by
  obtain ⟨front, heard, hAgenda, hRetreat, hTold⟩ := h.stage
  refine ⟨⟨front, heard, hAgenda, ?_, hTold⟩, h.spared, h.audience, h.loud, h.idle⟩
  exact hRetreat.mono id id id fun hDown => ⟨hDown.stopped, hDown.consumer, hDown.assembler⟩

/-- While the thread retreats, no other is in the middle of a start or halt. -/
theorem clear (h : Retreating a i rest events m) (hReg : m.Regular u) (hk : k ≠ i) {x : Action}
    (hx : x ∈ m.agenda k) : x.opens = false ∧ x.settles = false := by
  have hFree := hReg.toLocked.owed_eq_zero h.holds hk
  have hHolds := (hReg.interwoven.woven k).owed_pos (hReg.sound k) hx
  refine ⟨Bool.eq_false_iff.mpr fun hOpens => ?_, Bool.eq_false_iff.mpr fun hSettles => ?_⟩
  · have hPos := hHolds (Action.isBound_of_opens hOpens) (Action.isGuarded_of_opens hOpens)
    omega
  · have hPos := hHolds (Action.isBound_of_settles hSettles) (Action.isGuarded_of_settles hSettles)
    omega

end Retreating

/-- One step of whichever thread takes the retreat on, or brings it to its end. -/
theorem Retreating.step (h : Retreating a i rest events m) (hReg : m.Regular u)
    (hRest : ∀ x ∈ rest, x.opens = false ∧ x.settles = false)
    (hAgenda : m.agenda k = action :: rest') (hStep : m.step? k = some m')
    (hRefuses : k = i → ∀ n, action = .openSource n → m.stream.source.refusesStart = true) :
    Retreating a i rest
        (events ++ [{ action, before := m.stream, thread := k, rest := rest' }]) m' ∨
      m'.agenda i = rest ∧
        Retreated a i (events ++ [{ action, before := m.stream, thread := k, rest := rest' }])
          m' := by
  obtain ⟨_, _, e, hMoved, hPerform, hLast, hLasts⟩ := moved_and_last_of_step hStep
  obtain ⟨rfl, rfl⟩ := List.cons.inj (hAgenda.symm.trans hMoved.agenda)
  by_cases hk : k = i
  · subst hk
    refine (h.moved_own hMoved hPerform hLast (hRefuses rfl)).imp_right ?_
    rintro ⟨rfl, rfl, hDown, hEnd, hTold⟩
    cases hPerform
    refine ⟨hMoved.own, hLast.trans hEnd, ?_, fun hCalm l hl => ?_, fun hIdle => ?_,
      fun j x hx => ?_⟩
    · rw [hMoved.stream]
      exact ⟨hDown.stopped, hDown.consumer, hDown.assembler⟩
    · rw [toldBy_of_own]
      exact (List.append_nil _).trans (hTold hCalm l hl)
    · rw [hMoved.stream]
      exact h.idle hIdle
    · by_cases hj : j = k
      · subst hj
        rw [hMoved.own] at hx
        exact hRest x hx
      · rcases hMoved.others j hj with hSame | ⟨_, hNew⟩
        · exact h.clear hReg hj (hSame ▸ hx)
        · cases hNew
  · exact .inl (h.moved_other hReg.toLocked hMoved hk (hLasts i (Ne.symm hk) h.lt_length))

/-- While others move, the thread stays as far as it is. -/
theorem Retreating.of_others (h : Retreating a i rest [] m) (hReg : m₀.Regular {})
    (hPast : Path m₀ past m) (hPath : Path m events m')
    (hOthers : ∀ event ∈ events, event.thread ≠ i) : Retreating a i rest events m' := by
  induction hPath with
  | here => exact h
  | change x _ ih => exact (ih hOthers).amid x
  | @step events m₁ m₂ k action rest' hBefore hAgenda hStep ih =>
    have hOn := ih fun event he => hOthers event (List.mem_append_left _ he)
    have hk : k ≠ i := hOthers _ (List.mem_append_right _ List.mem_cons_self)
    obtain ⟨_, _, e, hMoved, _, _, hLasts⟩ := moved_and_last_of_step hStep
    obtain ⟨rfl, rfl⟩ := List.cons.inj (hAgenda.symm.trans hMoved.agenda)
    exact hOn.moved_other (hReg.of_path (hPast.trans hBefore)).toLocked hMoved hk
      (hLasts i (Ne.symm hk) hOn.lt_length)

/-- **A thread that is back from a start whose source refused** has the error of the source, and has
left the stream stopped, without a consumer and without an assembler. -/
theorem Returns.retreated (hReturns : Returns i rest events b) (hReg : m₀.Regular {})
    (hPast : Path m₀ past m) (hBegun : Retreating a i rest [] m)
    (hRest : ∀ x ∈ rest, x.opens = false ∧ x.settles = false) (hPath : Path m events b)
    (hRefuses : ∀ event ∈ events, event.thread = i → ∀ n, event.action = .openSource n →
      event.before.source.refusesStart = true) :
    Retreated a i events b := by
  suffices hAt : (Retreating a i rest events b ∨ b.agenda i = rest ∧
      ((∃ event, events.getLast? = some event ∧ event.thread = i) → Retreated a i events b)) ∧
      i < b.threads.length by
    rcases hAt.1 with hOn | ⟨_, hEnd⟩
    · obtain ⟨front, _, hAgenda, _⟩ := hOn.stage
      have hLength := congrArg List.length (hAgenda.symm.trans hReturns.back)
      rw [List.length_append, List.length_cons] at hLength
      omega
    · exact hEnd hReturns.last
  have hBusy := hReturns.busy
  clear hReturns
  induction hPath with
  | here => exact ⟨.inl hBegun, hBegun.lt_length⟩
  | change x _ ih =>
    refine (ih hRefuses hBusy).imp_left (Or.imp (·.amid x) (And.imp_right fun hEnd hLast => ?_))
    obtain ⟨hError, hDown, hTold, hIdle, hClear⟩ := hEnd hLast
    exact ⟨hError, ⟨hDown.stopped, hDown.consumer, hDown.assembler⟩, hTold, hIdle, hClear⟩
  | @step events m m' k action rest' hBefore hAgenda hStep ih =>
    obtain ⟨hAt, hThere⟩ := ih (fun event he => hRefuses event (List.mem_append_left _ he))
      fun event he => hBusy event (List.mem_append_left _ he)
    have hNew := List.mem_append_right events (List.mem_singleton_self
      ({ action, before := m.stream, thread := k, rest := rest' } : Event))
    obtain ⟨_, _, e, hMoved⟩ := moved_of_step hStep
    refine ⟨?_, hThere.trans_le hMoved.grows⟩
    rcases hAt with hOn | ⟨hBack, _⟩
    · exact (hOn.step (hReg.of_path (hPast.trans hBefore)) hRest hAgenda hStep
        (hRefuses _ hNew)).imp_right (And.imp_right fun hEnd _ => hEnd)
    · by_cases hk : k = i
      · -- A thread that is back would go on with what comes after the start.
        subst hk
        have hLength := hBusy _ hNew rfl
        rw [← hBack, hAgenda, List.length_cons] at hLength
        exact absurd hLength (Nat.not_succ_le_self _)
      · refine .inr ⟨(hMoved.agenda_of_ne (Ne.symm hk) hThere).trans hBack,
          fun ⟨event, hLast, hThread⟩ => ?_⟩
        rw [List.getLast?_concat] at hLast
        cases hLast
        exact absurd hThread hk

end Machine

end LidarSweep
