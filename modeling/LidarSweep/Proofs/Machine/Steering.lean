import LidarSweep.Proofs.Machine.Course
import LidarSweep.Proofs.Stream.Balance

/-!
# Who steers a stream

Nine kinds of action steer: they change the state of a stream, its activation, or what restarts and
deferred stops leave behind in the control block. All others leave these as they are
(`Action.alike_of_perform`). Of the steering ones, all but a confirmed frame and a deferred stop
stand under the restart lock.
-/

namespace LidarSweep

/-- Restarts, whether they worked or not. -/
def StreamStats.attempts (st : StreamStats) : Nat := st.recoveries + st.failedRecoveries

/-- The control block is the same but for what listeners, watcher and counters note in it. -/
structure Control.Alike (c c' : Control) : Prop where
  state : c'.state = c.state
  activation : c'.activation = c.activation
  profile : c'.profile = c.profile
  consumer : c'.consumer = c.consumer
  quiet : c'.quiet = c.quiet
  stopPending : c'.stopPending = c.stopPending
  delivered : c'.stats.delivered = c.stats.delivered
  attempts : c'.stats.attempts = c.stats.attempts

theorem Control.Alike.refl (c : Control) : c.Alike c := ⟨rfl, rfl, rfl, rfl, rfl, rfl, rfl, rfl⟩

theorem Control.Alike.of_eq {c c' : Control} (h : c' = c) : c.Alike c' := h ▸ .refl c

namespace Action

/-- Whether the action may steer the stream. -/
def steers : Action → Bool
  | activate _ _ | revert _ | halt _ | beginHalt _ | settle _ _ | confirm _ _ _ _
  | beginRestart _ _ _ | checkPending _ _ _ _ _ | endRestart _ _ _ _ _ => true
  | _ => false

/-- Whether the action steers the stream in any case. -/
def mustSteer : Action → Bool
  | activate _ _ | revert _ | settle _ _ | endRestart _ _ _ _ _ => true
  | _ => false

/-- Whether the action stands under the restart lock. -/
def isGuarded : Action → Bool
  | checkStart _ _ | resetPipeline _ | install _ _ | activate _ _ | openSource _ | uninstall
  | revert _ | beginHalt _ | closeSource _ | retire | settle _ _ | beginRestart _ _ _
  | checkPending _ _ _ _ _ | endRestart _ _ _ _ _ => true
  | _ => false

theorem owed_of_isGuarded {action : Action} {rest : List Action} (hFits : action.Fits rest)
    (hGuarded : action.isGuarded = true) : 0 < owed (action :: rest) := by
  cases action
  case checkStart | activate | openSource | revert | beginHalt | closeSource | settle =>
    exact hFits.1
  case resetPipeline | install | uninstall | retire => exact hFits
  case beginRestart | checkPending | endRestart => exact Nat.succ_pos _
  all_goals cases hGuarded

end Action

namespace Stream

variable (s : Stream)

theorem alike_deliver (activation : Nat) (frame : Frame) :
    s.control.Alike (s.deliver activation frame).stream.control := by
  unfold deliver
  split
  · exact .refl _
  · exact ⟨rfl, rfl, rfl, rfl, rfl, rfl, rfl, rfl⟩

end Stream

/-- **An action that does not steer** leaves state, activation, profile and consumer, and what
restarts and deferred stops leave behind, as they are. -/
theorem Action.alike_of_perform {action : Action} {me : ThreadId} {last : Except Error Unit}
    {s : Stream} {e : Effect} (hAction : action.steers = false)
    (h : action.perform me last s = some e) : s.control.Alike e.stream.control := by
  by_cases hTouches : action.touches .control = true
  · cases action
    case activate | revert | halt | beginHalt | settle | confirm | beginRestart | checkPending |
        endRestart => cases hAction
    case shutDown | configure =>
      cases h
      exact ⟨rfl, rfl, rfl, rfl, rfl, rfl, rfl, rfl⟩
    case tell listener state profile =>
      cases h
      obtain ⟨_, _, _, _, hTell, _, _⟩ := s.tell_eq listener state profile
      rw [hTell]
      exact ⟨rfl, rfl, rfl, rfl, rfl, rfl, rfl, rfl⟩
    case deliver activation frame =>
      cases h
      exact s.alike_deliver activation frame
    case dropFrame cause =>
      cases h
      rw [s.control_dropFrame]
      exact ⟨rfl, rfl, rfl, rfl, rfl, rfl, rfl, rfl⟩
    all_goals cases hTouches
  · exact .of_eq (control_of_perform (Bool.eq_false_iff.mpr hTouches) h)

/-! ### What the steering ones do -/

namespace Stream

variable (s : Stream)

theorem control_activate (profile : Profile) (consumer : ConsumerId) :
    (s.activate profile consumer).stream.control = {
      s.control with
      activation := s.control.activation + 1
      stopPending := false
      profile := some profile
      consumer := some consumer
      state := .starting
      wakes := (s.activate profile consumer).stream.control.wakes } := by
  unfold activate
  exact Control.transition_fst _ _

theorem control_revert (cause : Error) :
    (s.revert cause).stream.control = {
      s.control with
      consumer := none
      state := .stopped
      wakes := (s.revert cause).stream.control.wakes } := by
  unfold revert
  exact Control.transition_fst _ _

theorem control_settle (ending : Ending) (result : Except Error Unit) :
    (s.settle ending result).stream.control = {
      s.control with
      consumer := none
      state := ending.state
      wakes := (s.settle ending result).stream.control.wakes } := by
  unfold settle
  exact Control.transition_fst _ _

/-- A halt begins by stopping the stream, unless it is over. -/
theorem beginHalt_cases (ending : Ending) :
    (s.control.state = ending.state ∨ s.control.state = .stopped) ∧
        (s.beginHalt ending).stream = s ∧ (s.beginHalt ending).next = [] ∨
      ¬ (s.control.state = ending.state ∨ s.control.state = .stopped) ∧
        (∃ wakes, (s.beginHalt ending).stream.control =
          { s.control with state := .stopping, wakes }) ∧
        .closeSource ending ∈ (s.beginHalt ending).next := by
  unfold beginHalt
  split
  case isTrue hOver => exact .inl ⟨hOver, rfl, rfl⟩
  case isFalse hOver =>
    refine .inr ⟨hOver, ⟨_, Control.transition_fst _ _⟩, ?_⟩
    exact List.mem_append_right _ List.mem_cons_self

/-- A frame is counted, and one that is confirmed makes the stream streaming. -/
theorem confirm_cases (activation : Nat) (profile : Profile) (consumer : ConsumerId)
    (frame : Frame) :
    s.control.isCurrent activation = true ∧
        (∃ wakes, (s.confirm activation profile consumer frame).stream.control =
          { s.control.countDelivered with state := .streaming, wakes }) ∨
      s.control.isCurrent activation = false ∧
        s.confirm activation profile consumer frame =
          { stream := { s with control := s.control.countLate } } := by
  unfold confirm
  split
  case isTrue hCurrent =>
    refine .inl ⟨hCurrent, ?_⟩
    dsimp only [Control.wake]
    rw [Control.transition_fst]
    exact ⟨_, rfl⟩
  case isFalse hCurrent => exact .inr ⟨Bool.eq_false_iff.mpr hCurrent, rfl⟩

/-- A restart ends where a stop was asked for meanwhile; else it goes on to start the stream. -/
theorem checkPending_cases (result : Except Error Unit) (budget : Budget) (vigil : Vigil)
    (limit : Nat) (profile : Profile) (consumer : ConsumerId) :
    s.control.stopPending = true ∧
        (s.checkPending result budget vigil limit profile consumer).stream.control =
          { s.control with quiet := false } ∧
        (∃ n, (s.checkPending result budget vigil limit profile consumer).next =
          Notice.tellAll n ++ [.release .restart, .watch budget]) ∨
      s.control.stopPending = false ∧
        (s.checkPending result budget vigil limit profile consumer).stream.control = s.control ∧
        (s.checkPending result budget vigil limit profile consumer).next =
          Action.start profile consumer ++
            [.endRestart budget vigil limit profile consumer] := by
  cases result
  all_goals
    dsimp only [checkPending]
    split
    case isTrue hPending => exact .inl ⟨hPending, rfl, _, rfl⟩
    case isFalse hPending => exact .inr ⟨Bool.eq_false_iff.mpr hPending, rfl, rfl⟩

theorem control_endRestart (result : Except Error Unit) (budget : Budget) (vigil : Vigil)
    (limit : Nat) (profile : Profile) (consumer : ConsumerId) :
    (s.endRestart result budget vigil limit profile consumer).stream.control =
      match result with
      | .ok () => {
          s.control with
          quiet := false
          stats := { s.control.stats with recoveries := s.control.stats.recoveries + 1 } }
      | .error _ => { hold s.control profile consumer with quiet := false } := by
  cases result <;> rfl

end Stream

/-- The ways in which an action with this effect steers a stream that had the control block `c`. -/
inductive Steering (c : Control) (e : Effect) : Action → Prop where
  /-- What must not steer may leave all as it is. -/
  | still {action : Action} (hAlike : c.Alike e.stream.control)
      (hMay : action.mustSteer = false) : Steering c e action
  | activated {profile : Profile} {consumer : ConsumerId} {wakes : Nat}
      (hControl : e.stream.control = {
        c with
        activation := c.activation + 1
        stopPending := false
        profile := some profile
        consumer := some consumer
        state := .starting
        wakes }) : Steering c e (.activate profile consumer)
  | reverted {cause : Error} {wakes : Nat}
      (hControl : e.stream.control = { c with consumer := none, state := .stopped, wakes }) :
      Steering c e (.revert cause)
  | settled {ending : Ending} {result : Except Error Unit} {wakes : Nat}
      (hControl : e.stream.control = { c with consumer := none, state := ending.state, wakes }) :
      Steering c e (.settle ending result)
  | halting {ending : Ending} {wakes : Nat}
      (hGoing : ¬ (c.state = ending.state ∨ c.state = .stopped))
      (hControl : e.stream.control = { c with state := .stopping, wakes })
      (hClose : .closeSource ending ∈ e.next) : Steering c e (.beginHalt ending)
  | deferred {ending : Ending} (hStopping : c.state = .stopping)
      (hControl : e.stream.control = { c with stopPending := true }) : Steering c e (.halt ending)
  | confirmed {activation : Nat} {profile : Profile} {consumer : ConsumerId} {frame : Frame}
      {wakes : Nat} (hActive : c.state.isActive = true)
      (hControl : e.stream.control = { c.countDelivered with state := .streaming, wakes }) :
      Steering c e (.confirm activation profile consumer frame)
  | muted {budget : Budget} {vigil : Vigil} {limit : Nat}
      (hControl : e.stream.control = { c with quiet := true }) :
      Steering c e (.beginRestart budget vigil limit)
  | unmuted {budget : Budget} {vigil : Vigil} {limit : Nat} {profile : Profile}
      {consumer : ConsumerId} (hControl : e.stream.control = { c with quiet := false }) :
      Steering c e (.checkPending budget vigil limit profile consumer)
  | restarted {budget : Budget} {vigil : Vigil} {limit : Nat} {profile : Profile}
      {consumer : ConsumerId}
      (hControl : e.stream.control = {
        c with
        quiet := false
        stats := { c.stats with recoveries := c.stats.recoveries + 1 } }) :
      Steering c e (.endRestart budget vigil limit profile consumer)
  | held {budget : Budget} {vigil : Vigil} {limit : Nat} {profile : Profile}
      {consumer : ConsumerId} {wakes : Nat}
      (hControl : e.stream.control = {
        c with
        profile := some profile
        consumer := some consumer
        activation := c.activation + 1
        state := .starting
        wakes
        stats := { c.stats with failedRecoveries := c.stats.failedRecoveries + 1 }
        quiet := false }) :
      Steering c e (.endRestart budget vigil limit profile consumer)

/-- **Everything that an action can do to the control block.** -/
theorem Action.steering_of_perform {action : Action} {me : ThreadId} {last : Except Error Unit}
    {s : Stream} {e : Effect} (h : action.perform me last s = some e) :
    Steering s.control e action := by
  by_cases hSteers : action.steers = true
  · cases action
    case activate => cases h; exact .activated (s.control_activate _ _)
    case revert => cases h; exact .reverted (s.control_revert _)
    case settle => cases h; exact .settled (s.control_settle _ _)
    case halt ending =>
      rcases s.halt_cases h with ⟨locks, _, rfl⟩ | ⟨_, ⟨_, rfl⟩ | ⟨hStopping, rfl⟩⟩
      · exact .still (.refl _) rfl
      · exact .still (.refl _) rfl
      · exact .deferred hStopping rfl
    case beginHalt ending =>
      cases h
      rcases s.beginHalt_cases ending with
        ⟨_, hStream, _⟩ | ⟨hGoing, ⟨wakes, hControl⟩, hClose⟩
      · exact .still (.of_eq (congrArg _ hStream)) rfl
      · exact .halting hGoing hControl hClose
    case confirm activation profile consumer frame =>
      cases h
      rcases s.confirm_cases activation profile consumer frame with
        ⟨hCurrent, wakes, hControl⟩ | ⟨_, hLate⟩
      · exact .confirmed (of_decide_eq_true hCurrent).2 hControl
      · refine .still ?_ rfl
        rw [hLate]
        exact ⟨rfl, rfl, rfl, rfl, rfl, rfl, rfl, rfl⟩
    case beginRestart budget vigil limit =>
      cases h
      rw [Stream.beginRestart_eq]
      cases s.renewal? vigil with
      | none => exact .still (.refl _) rfl
      | some renewal => exact .muted rfl
    case checkPending budget vigil limit profile consumer =>
      cases h
      rcases s.checkPending_cases last budget vigil limit profile consumer with
        ⟨_, hControl, _⟩ | ⟨_, hControl, _⟩
      · exact .unmuted hControl
      · exact .still (.of_eq hControl) rfl
    case endRestart budget vigil limit profile consumer =>
      cases h
      have hControl := s.control_endRestart last budget vigil limit profile consumer
      cases last with
      | ok => exact .restarted hControl
      | error cause =>
        rw [Stream.hold_eq] at hControl
        exact .held hControl
    all_goals cases hSteers
  · rw [Bool.not_eq_true] at hSteers
    refine .still (alike_of_perform hSteers h) ?_
    cases action <;> first | rfl | cases hSteers

/-- An action that stands outside the restart lock changes the state only by a first frame, and
takes back nothing that was asked for. -/
theorem Action.drift_of_perform {action : Action} {me : ThreadId} {last : Except Error Unit}
    {s : Stream} {e : Effect} (hAction : action.isGuarded = false)
    (h : action.perform me last s = some e) :
    (e.stream.control.state = s.control.state ∨
        s.control.state.isActive = true ∧ e.stream.control.state = .streaming) ∧
      (s.control.stopPending = true → e.stream.control.stopPending = true) := by
  cases steering_of_perform h with
  | still hAlike _ => exact ⟨.inl hAlike.state, fun hPending => hAlike.stopPending.trans hPending⟩
  | deferred _ hControl =>
    rw [hControl]
    exact ⟨.inl rfl, fun _ => rfl⟩
  | confirmed hActive hControl =>
    rw [hControl]
    exact ⟨.inr ⟨hActive, rfl⟩, id⟩
  | activated | reverted | settled | halting | muted | unmuted | restarted | held => cases hAction

theorem Notice.isRenewal_of_mem_tellAll {n : Option Notice} {x : Action}
    (h : x ∈ Notice.tellAll n) : x.isRenewal = false ∧ x.revives = false := by
  obtain ⟨_, _, _, rfl⟩ := Notice.eq_tell_of_mem_tellAll h
  exact ⟨rfl, rfl⟩

/-- Whether the action is one by which a restart hides or shows the stream to listeners. -/
def Action.mutes : Action → Bool
  | beginRestart _ _ _ | checkPending _ _ _ _ _ | endRestart _ _ _ _ _ => true
  | _ => false

theorem Action.quiet_of_perform {action : Action} {me : ThreadId} {last : Except Error Unit}
    {s : Stream} {e : Effect} (hAction : action.mutes = false)
    (h : action.perform me last s = some e) : e.stream.control.quiet = s.control.quiet := by
  cases steering_of_perform h with
  | still hAlike _ => exact hAlike.quiet
  | activated hControl | reverted hControl | settled hControl | halting _ hControl _
  | deferred _ hControl => rw [hControl]
  | confirmed _ hControl =>
    rw [hControl]
    rfl
  | muted | unmuted | restarted | held => cases hAction

theorem Action.mutes_of_isGuarded {action : Action} (h : action.isGuarded = false) :
    action.mutes = false := by
  cases action <;> first | rfl | cases h

theorem Action.mutes_of_fits {action : Action} {rest : List Action} (hFits : action.Fits rest)
    (hRest : rest ≠ []) : action.mutes = false := by
  cases action
  case beginRestart => exact absurd hFits.1 hRest
  case checkPending | endRestart => exact absurd hFits hRest
  all_goals rfl

/-- An action by which a restart goes on is done, or was done before, where listeners are told
nothing. -/
theorem Action.quiet_of_isRenewal {action x : Action} {me : ThreadId} {last : Except Error Unit}
    {s : Stream} {e : Effect} (h : action.perform me last s = some e) (hx : x ∈ e.next)
    (hRenewal : x.isRenewal = true) (hStems : action.stemsFrom x = true)
    (hBefore : action.isRenewal = true → s.control.quiet = true) :
    e.stream.control.quiet = true := by
  cases x
  case checkPending =>
    cases action
    case beginRestart budget vigil limit =>
      cases h
      rw [Stream.beginRestart_eq] at hx ⊢
      cases hSome : s.renewal? vigil with
      | none =>
        rw [hSome] at hx
        rcases List.mem_cons.mp hx with hRelease | hWatch
        · cases hRelease
        · cases List.mem_singleton.mp hWatch
      | some renewal => rfl
    all_goals cases hStems
  case endRestart =>
    cases action
    case checkPending budget vigil limit profile consumer =>
      cases h
      rcases s.checkPending_cases last budget vigil limit profile consumer with
        ⟨_, _, n, hNext⟩ | ⟨_, hControl, _⟩
      · rw [hNext] at hx
        rcases List.mem_append.mp hx with hTell | hBack
        · cases (Notice.isRenewal_of_mem_tellAll hTell).1
        · rcases List.mem_cons.mp hBack with hRelease | hWatch
          · cases hRelease
          · cases List.mem_singleton.mp hWatch
      · rw [hControl]
        exact hBefore rfl
    all_goals cases hStems
  all_goals cases hRenewal

theorem Stream.settle_mem_closeSource (s : Stream) (ending : Ending) :
    ∃ result, .settle ending result ∈ (s.closeSource ending).next := by
  refine ⟨s.source.stop.2, ?_⟩
  unfold closeSource
  exact List.mem_append_right [Action.acquire .delivery, .release .delivery, .retire]
    List.mem_cons_self

/-- Only a halt makes a stream stopping. -/
theorem Action.stopping_of_perform {action : Action} {me : ThreadId} {last : Except Error Unit}
    {s : Stream} {e : Effect} (h : action.perform me last s = some e)
    (hStopping : e.stream.control.state = .stopping) :
    s.control.state = .stopping ∨
      ∃ ending, action = .beginHalt ending ∧ .closeSource ending ∈ e.next := by
  cases steering_of_perform h with
  | still hAlike _ => exact .inl (hAlike.state ▸ hStopping)
  | halting _ _ hClose => exact .inr ⟨_, rfl, hClose⟩
  | deferred hBefore _ => exact .inl hBefore
  | muted hControl | unmuted hControl | restarted hControl =>
    rw [hControl] at hStopping
    exact .inl hStopping
  | activated hControl | reverted hControl | confirmed _ hControl | held hControl =>
    rw [hControl] at hStopping
    cases hStopping
  | @settled ending _ _ hControl =>
    rw [hControl] at hStopping
    cases ending <;> cases hStopping

/-- What does not revive a stream leaves one that is not active so; and where it leaves it stopping,
there is still somebody to settle it. -/
theorem Action.wanes_of_perform {action : Action} {me : ThreadId} {last : Except Error Unit}
    {s : Stream} {e : Effect} (hRevives : action.revives = false)
    (hInactive : s.control.state.isActive = false) (h : action.perform me last s = some e) :
    e.stream.control.state.isActive = false ∧
      (e.stream.control.state = .stopping →
        (∃ x ∈ e.next, x.settles = true) ∨
          s.control.state = .stopping ∧ action.settles = false) := by
  have hSame (hState : e.stream.control.state = s.control.state)
      (hSettles : action.settles = false) :
      e.stream.control.state.isActive = false ∧
        (e.stream.control.state = .stopping →
          (∃ x ∈ e.next, x.settles = true) ∨
            s.control.state = .stopping ∧ action.settles = false) :=
    ⟨hState ▸ hInactive, fun hStopping => .inr ⟨hState ▸ hStopping, hSettles⟩⟩
  cases steering_of_perform h with
  | still hAlike hMay =>
    by_cases hSettles : action.settles = true
    · cases action
      case closeSource ending =>
        cases h
        obtain ⟨result, hSettle⟩ := s.settle_mem_closeSource ending
        exact ⟨hAlike.state ▸ hInactive, fun _ => .inl ⟨_, hSettle, rfl⟩⟩
      case settle => cases hMay
      all_goals cases hSettles
    · exact hSame hAlike.state (Bool.not_eq_true _ ▸ hSettles)
  | halting _ hControl hClose =>
    rw [hControl]
    exact ⟨rfl, fun _ => .inl ⟨_, hClose, rfl⟩⟩
  | deferred _ hControl | unmuted hControl => exact hSame (by rw [hControl]) rfl
  | confirmed hActive _ => cases hInactive.symm.trans hActive
  | reverted hControl =>
    rw [hControl]
    exact ⟨rfl, nofun⟩
  | @settled ending _ _ hControl =>
    rw [hControl]
    cases ending
    all_goals exact ⟨rfl, nofun⟩
  | activated | muted | restarted | held => cases hRevives

/-- An action that is done under the restart lock puts nothing on the agenda that revives the
stream, unless it does so itself, or it is in the middle of a restart that nobody asked to stop. -/
theorem Action.revives_of_stems {action x : Action} {me : ThreadId} {last : Except Error Unit}
    {s : Stream} {e : Effect} {rest : List Action} (hFits : action.Fits rest)
    (hOwed : 0 < owed (action :: rest)) (hRevives : action.revives = false)
    (hPending : action.isRenewal = true → s.control.stopPending = true)
    (h : action.perform me last s = some e) (hx : x ∈ e.next)
    (hStems : action.stemsFrom x = true) : x.revives = false := by
  cases hReviving : x.revives with
  | false => rfl
  | true =>
    cases x
    case checkStart | endRestart =>
      cases action
      case consume => exact absurd hOwed (Nat.not_lt.mpr (Nat.le_of_eq hFits))
      case checkPending budget vigil limit profile consumer =>
        cases h
        rcases s.checkPending_cases last budget vigil limit profile consumer with
          ⟨_, _, n, hNext⟩ | ⟨hNone, _⟩
        · rw [hNext] at hx
          rcases List.mem_append.mp hx with hTell | hBack
          · cases hReviving.symm.trans (Notice.isRenewal_of_mem_tellAll hTell).2
          · rcases List.mem_cons.mp hBack with hRelease | hWatch
            · cases hRelease
            · cases List.mem_singleton.mp hWatch
        · cases hNone.symm.trans (hPending rfl)
      all_goals cases hStems
    case activate =>
      cases action
      case checkStart => cases hRevives
      all_goals cases hStems
    case beginRestart =>
      cases action
      case stall =>
        obtain ⟨rfl, _⟩ := hFits
        cases hOwed
      all_goals cases hStems
    all_goals cases hReviving

end LidarSweep
