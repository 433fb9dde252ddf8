import LidarSweep.Proofs.Machine.Calm
import Mathlib.Data.List.Chain

/-!
# What listeners believe

Listeners know of a stream what they were told last (`Shown`).  That is its state, except while
the stream is being restarted, or made to fail, behind their backs; then it is an active state that
the stream was in before, and from there every other state may follow.

Every step either leaves what they believe as it is and tells nobody, or tells all that there are
of the state that it makes (`Shown.moved`).
-/

namespace LidarSweep

/-- Whether listeners may be told of these two states one after the other. -/
def StreamState.mayBecome : StreamState → StreamState → Bool
  | .stopped, .starting | .error, .starting | .error, .stopping | .starting, .streaming
  | .starting, .stopping | .starting, .stopped | .starting, .error | .streaming, .starting
  | .streaming, .stopping | .streaming, .stopped | .streaming, .error | .stopping, .stopped => true
  | _, _ => false

theorem StreamState.ne_of_mayBecome {a b : StreamState} (h : a.mayBecome b = true) : a ≠ b := by
  rintro rfl
  cases a <;> cases h

/-- What is told of an active stream is always news. -/
theorem StreamState.mayBecome_of_isActive {a b : StreamState} (hActive : a.isActive = true)
    (h : b ≠ a) : a.mayBecome b = true := by
  cases a <;> cases b <;> first | exact absurd rfl h | rfl | cases hActive

/-! ### What is told -/

/-- Whether all listeners are told of an action that makes one control block of another. -/
def Action.IsLoud (c c' : Control) : Action → Prop
  | activate _ _ | revert _ | settle _ _ | confirm _ _ _ _ => c.quiet = false ∧ c'.state ≠ c.state
  | beginHalt ending => ending = .stopped ∧ c.quiet = false ∧ c'.state ≠ c.state
  | checkPending _ _ _ _ _ => c.stopPending = true
  | endRestart _ vigil _ _ _ => c'.state ≠ vigil.state
  | _ => False

/-- Listeners are told of the state that the stream is in now, and nothing else. -/
def Effect.Announces (e : Effect) : Prop :=
  ∃ l, e.next = Notice.tellAll e.stream.control.notice ++ l ∧ ∀ x ∈ l, x.tells = false

/-- Listeners are told nothing. -/
def Effect.IsSilent (e : Effect) : Prop := ∀ x ∈ e.next, x.tells = false

theorem Control.transition_snd (c : Control) (target : StreamState) :
    (c.transition target).2 =
      if c.quiet = false ∧ c.state ≠ target then (c.transition target).1.notice else none := by
  by_cases hSame : c.state = target
  · simp [transition, hSame]
  · cases hQuiet : c.quiet <;> simp [transition, hSame, hQuiet, wake]

theorem Action.not_tells_of_stemsFrom {action x : Action} (hPublic : action.isPublic = false)
    (h : action.stemsFrom x = true) : x.tells = false := by
  cases x
  case tell => cases hPublic.symm.trans h
  all_goals rfl

/-- Listeners are told of the state that the stream is in now if that is news, and else nothing. -/
def Effect.Tells (e : Effect) (isNews : Prop) : Prop :=
  (isNews → e.Announces) ∧ (¬ isNews → e.IsSilent)

namespace Effect

variable {e : Effect} {c : Control} {target : StreamState} {x : Action} {l : List Action}

theorem isSilent_of_next (hNext : e.next = l) (hl : l.all (fun x => !x.tells) = true) :
    e.IsSilent := by
  intro x hx
  rw [hNext] at hx
  simpa using List.all_eq_true.mp hl x hx

/-- A transition is told of if it is one, unless the watcher is restarting the stream. -/
theorem tells_of_transition (hx : x.tells = false)
    (hNext : e.next = Notice.tellAll (c.transition target).2 ++ [x])
    (hNotice : (c.transition target).1.notice = e.stream.control.notice) :
    e.Tells (c.quiet = false ∧ c.state ≠ target) := by
  have hBehind : ∀ y ∈ [x], y.tells = false := List.forall_mem_singleton.mpr hx
  rw [Control.transition_snd] at hNext
  refine ⟨fun hLoud => ⟨[x], ?_, hBehind⟩, fun hSilent => ?_⟩
  · rw [hNext, if_pos hLoud, hNotice]
  · rw [if_neg hSilent] at hNext
    rw [IsSilent, hNext]
    exact hBehind

/-- Going from one state to another, in whichever order one reads it. -/
theorem Tells.turned {before : Control} (target : StreamState)
    (h : e.Tells (c.quiet = false ∧ c.state ≠ target)) (hState : e.stream.control.state = target)
    (hQuiet : c.quiet = before.quiet) (hBefore : c.state = before.state) :
    e.Tells (before.quiet = false ∧ e.stream.control.state ≠ before.state) := by
  rw [hQuiet, hBefore] at h
  rw [hState]
  exact ⟨fun hLoud => h.1 ⟨hLoud.1, Ne.symm hLoud.2⟩,
    fun hSilent => h.2 fun hLoud => hSilent ⟨hLoud.1, Ne.symm hLoud.2⟩⟩

end Effect

namespace Stream

variable (s : Stream)

/-- Of a failing stream listeners are told only when it has failed. -/
theorem tells_beginHalt (ending : Ending) : (s.beginHalt ending).Tells (ending = .stopped ∧
    s.control.quiet = false ∧ (s.beginHalt ending).stream.control.state ≠ s.control.state) := by
  rcases s.beginHalt_cases ending with ⟨_, hStream, hNil⟩ | ⟨hGoing, ⟨wakes, hControl⟩, _⟩
  · refine ⟨fun hLoud => absurd ?_ hLoud.2.2, fun _ => Effect.isSilent_of_next hNil rfl⟩
    rw [hStream]
  cases ending with
  | stopped =>
    have hTells : (s.beginHalt .stopped).Tells (s.control.quiet = false ∧ s.control.state ≠
        .stopping) := by
      refine Effect.tells_of_transition (x := .closeSource .stopped) rfl ?_ ?_
      · rw [beginHalt, if_neg hGoing]
        rfl
      · rw [beginHalt, if_neg hGoing]
    have hTurned := hTells.turned .stopping (congrArg Control.state hControl) rfl rfl
    exact ⟨fun hLoud => hTurned.1 hLoud.2, fun hSilent => hTurned.2 fun hLoud =>
      hSilent ⟨rfl, hLoud⟩⟩
  | failed =>
    refine ⟨fun hLoud => (by cases hLoud.1), fun _ =>
      Effect.isSilent_of_next (l := [.closeSource .failed]) ?_ rfl⟩
    rw [beginHalt, if_neg hGoing]
    rfl

theorem tells_confirm (activation : Nat) (profile : Profile) (consumer : ConsumerId)
    (frame : Frame) : (s.confirm activation profile consumer frame).Tells
      (s.control.quiet = false ∧
        (s.confirm activation profile consumer frame).stream.control.state ≠ s.control.state) := by
  by_cases hCurrent : s.control.isCurrent activation = true
  · have hConfirm : s.confirm activation profile consumer frame = {
        stream := { s with
          control := (s.control.countDelivered.transition .streaming).1.wake }
        next := Notice.tellAll (s.control.countDelivered.transition .streaming).2 ++
          [.consume profile consumer frame] } := if_pos hCurrent
    rw [hConfirm]
    refine Effect.Tells.turned (c := s.control.countDelivered) .streaming
      (Effect.tells_of_transition (x := .consume profile consumer frame) rfl rfl rfl) ?_ rfl rfl
    exact congrArg Control.state (Control.transition_fst s.control.countDelivered .streaming)
  · have hLate : s.confirm activation profile consumer frame = {
        stream := { s with control := s.control.countLate } } := if_neg hCurrent
    rw [hLate]
    exact ⟨fun hLoud => absurd rfl hLoud.2, fun _ => List.forall_mem_nil _⟩

theorem tells_checkPending (last : Except Error Unit) (budget : Budget) (vigil : Vigil)
    (limit : Nat) (profile : Profile) (consumer : ConsumerId) :
    (s.checkPending last budget vigil limit profile consumer).Tells
      (s.control.stopPending = true) := by
  cases hPending : s.control.stopPending with
  | false =>
    refine ⟨fun hLoud => (by cases hLoud), fun _ => ?_⟩
    rcases s.checkPending_cases last budget vigil limit profile consumer with
      ⟨hTrue, _⟩ | ⟨_, _, hNext⟩
    · cases hPending.symm.trans hTrue
    · exact Effect.isSilent_of_next hNext rfl
  | true =>
    refine ⟨fun _ => ⟨[.release .restart, .watch budget], ?_, ?_⟩,
      fun hSilent => absurd rfl hSilent⟩
    · cases last <;> simp [checkPending, warn, log, hPending]
    · simp [Action.tells]

theorem tells_endRestart (last : Except Error Unit) (budget : Budget) (vigil : Vigil)
    (limit : Nat) (profile : Profile) (consumer : ConsumerId) :
    (s.endRestart last budget vigil limit profile consumer).Tells
      ((s.endRestart last budget vigil limit profile consumer).stream.control.state ≠
        vigil.state) := by
  have hNext : (s.endRestart last budget vigil limit profile consumer).next =
      (if (s.endRestart last budget vigil limit profile consumer).stream.control.state =
          vigil.state then [] else Notice.tellAll
        (s.endRestart last budget vigil limit profile consumer).stream.control.notice) ++
        [.release .restart, .reckon (budget.retries + 1) limit] := by
    cases last <;> rfl
  refine ⟨fun hLoud => ⟨[.release .restart, .reckon (budget.retries + 1) limit], ?_, ?_⟩,
    fun hSilent => Effect.isSilent_of_next
      (l := [.release .restart, .reckon (budget.retries + 1) limit]) ?_ rfl⟩
  · rw [hNext, if_neg hLoud]
  · simp [Action.tells]
  · rw [hNext, if_pos (not_not.mp hSilent)]
    rfl

end Stream

/-- **Who is told what of an action**: all listeners of the state that it makes, or nobody
anything. -/
theorem Action.announces_of_perform {action : Action} {me : ThreadId} {last : Except Error Unit}
    {s : Stream} {e : Effect} (hStems : ∀ x ∈ e.next, action.stemsFrom x = true)
    (h : action.perform me last s = some e) :
    (action.IsLoud s.control e.stream.control → e.Announces) ∧
      (¬ action.IsLoud s.control e.stream.control → e.IsSilent) := by
  by_cases hPublic : action.isPublic = true
  · cases action
    case activate profile consumer =>
      cases h
      exact Effect.Tells.turned .starting (Effect.tells_of_transition (c := { s.control with
        activation := s.control.activation + 1
        stopPending := false
        profile := some profile
        consumer := some consumer }) (x := .openSource _) rfl rfl rfl)
        (by rw [s.control_activate]) rfl rfl
    case revert cause =>
      cases h
      exact Effect.Tells.turned .stopped
        (Effect.tells_of_transition (c := { s.control with consumer := none }) (x := .finish _)
          rfl rfl rfl) (by rw [s.control_revert]) rfl rfl
    case settle ending result =>
      cases h
      exact Effect.Tells.turned ending.state
        (Effect.tells_of_transition (c := { s.control with consumer := none })
          (x := .conclude ending result) rfl rfl rfl) (by rw [s.control_settle]) rfl rfl
    case beginHalt ending =>
      cases h
      exact s.tells_beginHalt ending
    case confirm activation profile consumer frame =>
      cases h
      exact s.tells_confirm activation profile consumer frame
    case checkPending budget vigil limit profile consumer =>
      cases h
      exact s.tells_checkPending last budget vigil limit profile consumer
    case endRestart budget vigil limit profile consumer =>
      cases h
      exact s.tells_endRestart last budget vigil limit profile consumer
    all_goals cases hPublic
  · have hSilent : e.IsSilent := fun x hx =>
      not_tells_of_stemsFrom (Bool.eq_false_iff.mpr hPublic) (hStems x hx)
    refine ⟨fun hLoud => ?_, fun _ => hSilent⟩
    cases action <;> first | (cases hLoud; done) | exact absurd rfl hPublic

/-! ### What is believed -/

/-- What the watcher had seen of the stream that it restarts. -/
def Action.vigil? : Action → Option Vigil
  | checkPending _ vigil _ _ _ | endRestart _ vigil _ _ _ => some vigil
  | _ => none

theorem Action.isRenewal_of_vigil {action : Action} {vigil : Vigil}
    (h : action.vigil? = some vigil) : action.isRenewal = true := by
  cases action <;> first | rfl | cases h

theorem Action.mutes_of_isRenewal {action : Action} (h : action.isRenewal = true) :
    action.mutes = true := by
  cases action <;> first | rfl | cases h

theorem Action.harmless_of_begets {action x : Action} (h : action.begets x = true) :
    x.isRenewal = false ∧ x.fails = false := by
  rcases eq_of_begets h with ⟨_, _, _, rfl⟩ | ⟨_, _, rfl⟩
  · exact ⟨rfl, rfl⟩
  · exact ⟨rfl, rfl⟩

theorem Action.not_isLoud_of_quiet {action : Action} {c c' : Control} (hQuiet : c.quiet = true)
    (hMutes : action.mutes = false) : ¬ action.IsLoud c c' := by
  intro hLoud
  cases action
  case activate | revert | settle | confirm => cases hQuiet.symm.trans hLoud.1
  case beginHalt => cases hQuiet.symm.trans hLoud.2.1
  case checkPending | endRestart => cases hMutes
  all_goals exact hLoud

/-- Whether the action is on the way to a failure and goes on to the next step of it. -/
def Action.dooms : Action → Bool
  | beginHalt ending | closeSource ending => ending = .failed
  | _ => false

theorem Action.dooms_of_stemsFrom {action x : Action} (hStems : action.stemsFrom x = true)
    (hFails : x.fails = true) : action.dooms = true := by
  cases x
  case closeSource ending =>
    cases action
    case beginHalt ending' =>
      obtain rfl : ending = ending' := of_decide_eq_true hStems
      exact hFails
    all_goals cases hStems
  case settle ending _ =>
    cases action
    case closeSource ending' =>
      obtain rfl : ending = ending' := of_decide_eq_true hStems
      exact hFails
    all_goals cases hStems
  all_goals cases hFails

namespace Machine

variable {m m' : Machine} {i k : ThreadId} {action x : Action} {rest : List Action} {e : Effect}
  {p : StreamState}

/-- Listeners that were told anything believe the stream to be in state `p`. -/
structure Shown (m : Machine) (p : StreamState) : Prop where
  plain : m.stream.control.quiet = false → m.stream.control.state ≠ .stopping →
    p = m.stream.control.state
  stopping : m.stream.control.quiet = false → m.stream.control.state = .stopping →
    (∀ k, ∀ x ∈ m.agenda k, x.fails = false) → p = .stopping
  failing : ∀ k, ∀ x ∈ m.agenda k, x.fails = true → p.isActive = true
  muted : m.stream.control.quiet = true →
    p.isActive = true ∧ ∃ k, ∃ x ∈ m.agenda k, x.isRenewal = true
  vigil : ∀ k, ∀ x ∈ m.agenda k, ∀ vigil, x.vigil? = some vigil → vigil.state = p

/-- What stands on an agenda is done in the move, or stays there. -/
theorem Moved.mem_of_mem (hMoved : m.Moved i action rest e m') (hx : x ∈ m.agenda k) :
    k = i ∧ x = action ∨ x ∈ m'.agenda k := by
  by_cases hk : k = i
  · subst hk
    rw [hMoved.agenda] at hx
    rcases List.mem_cons.mp hx with rfl | hRest
    · exact .inl ⟨rfl, rfl⟩
    · refine .inr ?_
      rw [hMoved.own]
      exact List.mem_append_right _ hRest
  · have hThere : k < m.threads.length := lt_length_of_agenda (List.ne_nil_of_mem hx)
    refine .inr ?_
    rwa [hMoved.agenda_of_ne hk hThere]

/-- While a thread does something under the restart lock, no other is in the middle of a halt or
a restart. -/
theorem Locked.others_idle (h : m.Locked) (hMoved : m.Moved i action rest e m')
    (hGuarded : action.isGuarded = true) (hk : k ≠ i) (hx : x ∈ m'.agenda k) :
    x.isUnderway = false := by
  have hHolds := h.depth_pos hMoved.agenda hGuarded
  rw [h.owed] at hHolds
  rcases h.others hMoved hk with hSame | ⟨_, hSound, hOwed⟩
  · rw [hSame] at hx
    exact (h.sound k).not_isUnderway (h.owed_eq_zero hHolds hk) hx
  · exact hSound.not_isUnderway hOwed hx

theorem Locked.not_fails_next (h : m.Locked) (hMoved : m.Moved i action rest e m')
    (hDooms : action.dooms = false) : ∀ x ∈ e.next, x.fails = false := by
  intro x hx
  cases hFails : x.fails with
  | false => rfl
  | true =>
    cases hDooms.symm.trans (Action.dooms_of_stemsFrom ((h.advances hMoved).stems x hx) hFails)

namespace Shown

/-- Behind the back of listeners nothing changes for them. -/
theorem hidden (hShown : m.Shown p) (h : m.Locked) (hMoved : m.Moved i action rest e m')
    (hQuiet : m.stream.control.quiet = true) (hMutes : action.mutes = false) : m'.Shown p := by
  obtain ⟨hActive, k, x, hx, hRenewal⟩ := hShown.muted hQuiet
  have hQuiet' : m'.stream.control.quiet = true := (hMoved.quiet_eq hMutes).trans hQuiet
  have hLoud {P : Prop} (hNot : m'.stream.control.quiet = false) : P := by
    cases hQuiet'.symm.trans hNot
  refine ⟨fun hNot => hLoud hNot, fun hNot => hLoud hNot, fun _ _ _ _ => hActive,
    fun _ => ⟨hActive, k, x, ?_, hRenewal⟩, fun j y hy vigil hVigil => ?_⟩
  · rcases hMoved.mem_of_mem hx with ⟨_, rfl⟩ | hStays
    · cases hMutes.symm.trans (Action.mutes_of_isRenewal hRenewal)
    · exact hStays
  · rcases h.mem_moved hMoved hy with ⟨_, hNext⟩ | hBefore | hBegets
    · have hStems := (h.advances hMoved).stems y hNext
      cases y
      case checkPending | endRestart =>
        cases action <;> first | (cases hStems; done) | cases hMutes
      all_goals cases hVigil
    · exact hShown.vigil j y hBefore vigil hVigil
    · cases (Action.isRenewal_of_vigil hVigil).symm.trans
        (Action.harmless_of_begets hBegets).1

/-- Where the watcher does not restart the stream, listeners believe what is true. -/
theorem «open» (h : m.Locked) (hQuiet : m.stream.control.quiet = false)
    (hPlain : m.stream.control.state ≠ .stopping → p = m.stream.control.state)
    (hStopping : m.stream.control.state = .stopping →
      (∀ k, ∀ x ∈ m.agenda k, x.fails = false) → p = .stopping)
    (hFailing : ∀ k, ∀ x ∈ m.agenda k, x.fails = true → p.isActive = true) : m.Shown p where
  plain _ := hPlain
  stopping _ := hStopping
  failing := hFailing
  muted hTrue := by cases hQuiet.symm.trans hTrue
  vigil k x hx vigil hVigil := by
    have hTrue := h.quiet k x hx (Action.isRenewal_of_vigil hVigil)
    cases hQuiet.symm.trans hTrue

variable {last : Except Error Unit}

/-- What leaves the state as it is, and no halt without a failure to come, leaves listeners with
what they believe. -/
theorem still (hShown : m.Shown p) (h : m.Locked) (hMoved : m.Moved i action rest e m')
    (hQuiet : m.stream.control.quiet = false) (hQuiet' : m'.stream.control.quiet = false)
    (hState : m'.stream.control.state = m.stream.control.state)
    (hOld : action.fails = true → ∃ x ∈ e.next, x.fails = true)
    (hNew : ∀ x ∈ e.next, x.fails = true → action.fails = true) : m'.Shown p := by
  refine .open (h.moved hMoved) hQuiet' ?_ ?_ ?_
  · intro hNot
    rw [hState] at hNot ⊢
    exact hShown.plain hQuiet hNot
  · intro hStopping hNone
    rw [hState] at hStopping
    refine hShown.stopping hQuiet hStopping fun k x hx => ?_
    cases hFails : x.fails with
    | false => rfl
    | true =>
      rcases hMoved.mem_of_mem hx with ⟨_, rfl⟩ | hStays
      · obtain ⟨y, hy, hTrue⟩ := hOld hFails
        have hThere : y ∈ m'.agenda i := hMoved.own ▸ List.mem_append_left _ hy
        cases (hNone i y hThere).symm.trans hTrue
      · cases (hNone k x hStays).symm.trans hFails
  · intro k x hx hFails
    rcases h.mem_moved hMoved hx with ⟨_, hNext⟩ | hBefore | hBegets
    · exact hShown.failing i action (hMoved.agenda ▸ List.mem_cons_self) (hNew x hNext hFails)
    · exact hShown.failing k x hBefore hFails
    · cases (Action.harmless_of_begets hBegets).2.symm.trans hFails

theorem still_of_not_dooms (hShown : m.Shown p) (h : m.Locked)
    (hMoved : m.Moved i action rest e m') (hQuiet : m.stream.control.quiet = false)
    (hQuiet' : m'.stream.control.quiet = false)
    (hState : m'.stream.control.state = m.stream.control.state) (hFails : action.fails = false)
    (hDooms : action.dooms = false) : m'.Shown p := by
  refine hShown.still h hMoved hQuiet hQuiet' hState (fun hTrue => ?_) fun x hx hTrue => ?_
  · cases hFails.symm.trans hTrue
  · cases (h.not_fails_next hMoved hDooms x hx).symm.trans hTrue

/-- After an action under the restart lock that is not inert and not on the way to a failure, none
is to come. -/
theorem not_fails (h : m.Composed) (hMoved : m.Moved i action rest e m')
    (hGuarded : action.isGuarded = true) (hInert : action.isInert = false)
    (hDooms : action.dooms = false) : ∀ k, ∀ x ∈ m'.agenda k, x.fails = false := by
  intro k x hx
  by_cases hk : k = i
  · subst hk
    rw [hMoved.own] at hx
    rcases List.mem_append.mp hx with hNew | hRest
    · exact h.toLocked.not_fails_next hMoved hDooms x hNew
    · have hBare := (h.meets hMoved hInert).2 x hRest
      cases hFails : x.fails with
      | false => rfl
      | true =>
        have hTimed := Action.isTimed_of_settles (Action.settles_of_fails hFails)
        cases hBare.symm.trans hTimed
  · exact (Action.harmless_of_not_isUnderway (h.toLocked.others_idle hMoved hGuarded hk hx)).2

/-- What listeners are told of, or would be, is true. -/
theorem turned (h : m.Locked) (hMoved : m.Moved i action rest e m')
    (hQuiet : m.stream.control.quiet = false) (hMutes : action.mutes = false)
    (hFailing : ∀ k, ∀ x ∈ m'.agenda k, x.fails = true →
      m'.stream.control.state.isActive = true) : m'.Shown m'.stream.control.state :=
  .open (h.moved hMoved) ((hMoved.quiet_eq hMutes).trans hQuiet) (fun _ => rfl)
    (fun hStopping _ => hStopping) hFailing

/-- So it is after a step of a start or halt that does not lead to a failure. -/
theorem turned_of_isGuarded (h : m.Composed) (hMoved : m.Moved i action rest e m')
    (hQuiet : m.stream.control.quiet = false) (hMutes : action.mutes = false)
    (hGuarded : action.isGuarded = true) (hInert : action.isInert = false)
    (hDooms : action.dooms = false) : m'.Shown m'.stream.control.state := by
  refine turned h.toLocked hMoved hQuiet hMutes fun k x hx hFails => ?_
  cases (not_fails h hMoved hGuarded hInert hDooms k x hx).symm.trans hFails

/-- A step either leaves what listeners believe as it is and is not told of, or they are told of
the state that it makes, which may come next. -/
def Passes (m : Machine) (p : StreamState) (action : Action) (m' : Machine) : Prop :=
  ∃ p', m'.Shown p' ∧
    (action.IsLoud m.stream.control m'.stream.control →
      p' = m'.stream.control.state ∧ p.mayBecome p' = true) ∧
    (¬ action.IsLoud m.stream.control m'.stream.control → p' = p)

/-- The step is told of. -/
theorem passes_of_loud {state : StreamState} (hState : m'.stream.control.state = state)
    (hShown' : m'.Shown m'.stream.control.state)
    (hLoud : action.IsLoud m.stream.control m'.stream.control)
    (hEdge : p.mayBecome state = true) : Passes m p action m' := by
  refine ⟨_, hShown', fun _ => ⟨rfl, ?_⟩, fun hNot => absurd hLoud hNot⟩
  rwa [hState]

/-- The step is not told of. -/
theorem passes_of_silent (hShown' : m'.Shown p)
    (hLoud : ¬ action.IsLoud m.stream.control m'.stream.control) : Passes m p action m' :=
  ⟨p, hShown', fun hTrue => absurd hTrue hLoud, fun _ => rfl⟩

theorem passes_activate {profile : Profile} {consumer : ConsumerId} (hShown : m.Shown p)
    (h : m.Composed) (hMoved : m.Moved i (.activate profile consumer) rest e m')
    (hQuiet : m.stream.control.quiet = false) : Passes m p (.activate profile consumer) m' := by
  obtain ⟨_, hPerform⟩ := hMoved.performs
  have hStart : m.stream.control.canStart = true := (h.meets hMoved rfl).1
  have hState : m'.stream.control.state = .starting := by
    rw [hMoved.stream]
    cases hPerform
    rw [m.stream.control_activate]
  simp only [Control.canStart, decide_eq_true_eq] at hStart
  have hBelieved : p = m.stream.control.state := by
    refine hShown.plain hQuiet fun hStopping => ?_
    rw [hStopping] at hStart
    simp at hStart
  refine passes_of_loud hState (turned_of_isGuarded h hMoved hQuiet rfl rfl rfl rfl)
    ⟨hQuiet, ?_⟩ ?_
  · rw [hState]
    rcases hStart with hOver | hOver <;> rw [hOver] <;> decide
  · rw [hBelieved]
    rcases hStart with hOver | hOver <;> rw [hOver] <;> rfl

theorem passes_revert {cause : Error} (hShown : m.Shown p) (h : m.Composed)
    (hMoved : m.Moved i (.revert cause) rest e m') (hQuiet : m.stream.control.quiet = false) :
    Passes m p (.revert cause) m' := by
  obtain ⟨_, hPerform⟩ := hMoved.performs
  have hActive : m.stream.control.state.isActive = true := (h.meets hMoved rfl).1
  have hState : m'.stream.control.state = .stopped := by
    rw [hMoved.stream]
    cases hPerform
    rw [m.stream.control_revert]
  have hNot {state : StreamState} (hOver : state.isActive = false) :
      state ≠ m.stream.control.state := by
    rintro rfl
    cases hOver.symm.trans hActive
  have hBelieved : p = m.stream.control.state := hShown.plain hQuiet (Ne.symm (hNot rfl))
  refine passes_of_loud hState (turned_of_isGuarded h hMoved hQuiet rfl rfl rfl rfl)
    ⟨hQuiet, ?_⟩ ?_
  · rw [hState]
    exact hNot rfl
  · rw [hBelieved]
    exact StreamState.mayBecome_of_isActive hActive (hNot rfl)

theorem passes_settle {ending : Ending} {result : Except Error Unit} (hShown : m.Shown p)
    (h : m.Composed) (hMoved : m.Moved i (.settle ending result) rest e m')
    (hQuiet : m.stream.control.quiet = false) : Passes m p (.settle ending result) m' := by
  obtain ⟨_, hPerform⟩ := hMoved.performs
  have hStopping : m.stream.control.state = .stopping := (h.meets hMoved rfl).1
  have hState : m'.stream.control.state = ending.state := by
    rw [hMoved.stream]
    cases hPerform
    rw [m.stream.control_settle]
  refine passes_of_loud hState (turned_of_isGuarded h hMoved hQuiet rfl rfl rfl rfl)
    ⟨hQuiet, ?_⟩ ?_
  · rw [hState, hStopping]
    cases ending <;> decide
  · -- Listeners are told of an error only where they believe the stream to be active.
    by_cases hActive : p.isActive = true
    · refine StreamState.mayBecome_of_isActive hActive ?_
      rintro rfl
      cases ending <;> cases hActive
    · have hNever : ∀ k, ∀ x ∈ m.agenda k, x.fails = false := by
        intro k x hx
        cases hTrue : x.fails with
        | false => rfl
        | true => exact absurd (hShown.failing k x hx hTrue) hActive
      have hHere := hNever i (.settle ending result) (hMoved.agenda ▸ List.mem_cons_self)
      cases ending with
      | stopped =>
        rw [hShown.stopping hQuiet hStopping hNever]
        rfl
      | failed => cases hHere

theorem passes_beginHalt {ending : Ending} (hShown : m.Shown p) (h : m.Composed)
    (hMoved : m.Moved i (.beginHalt ending) rest e m')
    (hQuiet : m.stream.control.quiet = false) : Passes m p (.beginHalt ending) m' := by
  obtain ⟨_, hPerform⟩ := hMoved.performs
  have hQuiet' : m'.stream.control.quiet = false := (hMoved.quiet_eq rfl).trans hQuiet
  have hSteady := h.not_stopping_of_beginHalt hMoved
  have hBelieved := hShown.plain hQuiet hSteady
  cases hPerform
  rcases m.stream.beginHalt_cases ending with
    ⟨_, hStream, hNil⟩ | ⟨hGoing, ⟨wakes, hControl⟩, hClose⟩
  · have hState : m'.stream.control.state = m.stream.control.state := by
      rw [hMoved.stream]
      exact congrArg (fun s : Stream => s.control.state) hStream
    refine passes_of_silent (hShown.still h.toLocked hMoved hQuiet hQuiet' hState nofun
      fun x hx _ => ?_) fun hLoud => hLoud.2.2 hState
    rw [hNil] at hx
    cases hx
  · have hState : m'.stream.control.state = .stopping := by
      rw [hMoved.stream]
      exact congrArg Control.state hControl
    rw [not_or] at hGoing
    cases ending with
    | stopped =>
      refine passes_of_loud hState (turned_of_isGuarded h hMoved hQuiet rfl rfl rfl rfl)
        ⟨rfl, hQuiet, ?_⟩ ?_
      · rw [hState]
        exact Ne.symm hSteady
      · rw [hBelieved]
        generalize m.stream.control.state = state at hSteady hGoing
        cases state <;> first | rfl | exact absurd rfl hGoing.1 | exact absurd rfl hSteady
    | failed =>
      have hActive : p.isActive = true := by
        rw [hBelieved]
        generalize m.stream.control.state = state at hSteady hGoing
        cases state <;> first
          | rfl | exact absurd rfl hGoing.1 | exact absurd rfl hGoing.2 | exact absurd rfl hSteady
      refine passes_of_silent (.open (h.toLocked.moved hMoved) hQuiet' ?_ ?_ ?_) nofun
      · intro hNot
        exact absurd hState hNot
      · intro _ hNever
        have hThere : .closeSource .failed ∈ m'.agenda i := by
          rw [hMoved.own]
          exact List.mem_append_left _ hClose
        cases hNever i _ hThere
      · intro _ _ _ _
        exact hActive

theorem passes_confirm {activation : Nat} {profile : Profile} {consumer : ConsumerId}
    {frame : Frame} (hShown : m.Shown p) (h : m.Composed)
    (hMoved : m.Moved i (.confirm activation profile consumer frame) rest e m')
    (hQuiet : m.stream.control.quiet = false) :
    Passes m p (.confirm activation profile consumer frame) m' := by
  obtain ⟨_, hPerform⟩ := hMoved.performs
  have hStill (hState : m'.stream.control.state = m.stream.control.state) :
      Passes m p (.confirm activation profile consumer frame) m' :=
    passes_of_silent (hShown.still_of_not_dooms h.toLocked hMoved hQuiet
      ((hMoved.quiet_eq rfl).trans hQuiet) hState rfl rfl) fun hLoud => hLoud.2 hState
  cases hPerform
  rcases m.stream.confirm_cases activation profile consumer frame with
    ⟨hCurrent, wakes, hControl⟩ | ⟨_, hLate⟩
  · have hActive : m.stream.control.state.isActive = true := (of_decide_eq_true hCurrent).2
    have hState : m'.stream.control.state = .streaming := by
      rw [hMoved.stream]
      exact congrArg Control.state hControl
    by_cases hSame : m.stream.control.state = .streaming
    · exact hStill (hState.trans hSame.symm)
    · have hBelieved : p = m.stream.control.state := by
        refine hShown.plain hQuiet fun hStopping => ?_
        rw [hStopping] at hActive
        cases hActive
      refine passes_of_loud hState (turned h.toLocked hMoved hQuiet rfl fun _ _ _ _ => ?_)
        ⟨hQuiet, ?_⟩ ?_
      · rw [hState]
        rfl
      · rw [hState]
        exact Ne.symm hSame
      · rw [hBelieved]
        exact StreamState.mayBecome_of_isActive hActive (Ne.symm hSame)
  · refine hStill ?_
    rw [hMoved.stream, hLate]
    rfl

theorem passes_halt {ending : Ending} (hShown : m.Shown p) (h : m.Composed)
    (hMoved : m.Moved i (.halt ending) rest e m') (hQuiet : m.stream.control.quiet = false) :
    Passes m p (.halt ending) m' := by
  obtain ⟨_, hPerform⟩ := hMoved.performs
  have hState : m'.stream.control.state = m.stream.control.state := by
    rw [hMoved.stream]
    rcases m.stream.halt_cases hPerform with ⟨locks, _, rfl⟩ | ⟨_, ⟨_, rfl⟩ | ⟨_, rfl⟩⟩ <;> rfl
  exact passes_of_silent (hShown.still_of_not_dooms h.toLocked hMoved hQuiet
    ((hMoved.quiet_eq rfl).trans hQuiet) hState rfl rfl) nofun

/-- What does not steer the stream is not told of. -/
theorem passes_of_not_steers (hShown : m.Shown p) (h : m.Composed)
    (hMoved : m.Moved i action rest e m') (hQuiet : m.stream.control.quiet = false)
    (hSteers : action.steers = false) : Passes m p action m' := by
  obtain ⟨last, hPerform⟩ := hMoved.performs
  have hAlike := Action.alike_of_perform hSteers hPerform
  rw [← hMoved.stream] at hAlike
  refine passes_of_silent (hShown.still h.toLocked hMoved hQuiet (hAlike.quiet.trans hQuiet)
    hAlike.state (fun hFails => ?_) fun x hx hTrue => ?_) fun hLoud => ?_
  · cases action
    case closeSource ending =>
      cases hPerform
      obtain ⟨result, hSettle⟩ := m.stream.settle_mem_closeSource ending
      exact ⟨_, hSettle, hFails⟩
    case settle => cases hSteers
    all_goals cases hFails
  · have hDooms := Action.dooms_of_stemsFrom ((h.toLocked.advances hMoved).stems x hx) hTrue
    cases action
    case beginHalt => cases hSteers
    case closeSource => exact hDooms
    all_goals cases hDooms
  · cases action <;> first | exact hLoud | cases hSteers

/-! ### Behind the back of listeners -/

/-- A restart hides the stream from listeners that believe what is true. -/
theorem passes_beginRestart {budget : Budget} {vigil : Vigil} {limit : Nat} (hShown : m.Shown p)
    (h : m.Composed) (hMoved : m.Moved i (.beginRestart budget vigil limit) rest e m') :
    Passes m p (.beginRestart budget vigil limit) m' := by
  obtain ⟨_, hPerform⟩ := hMoved.performs
  obtain ⟨rfl, hActive⟩ := hMoved.fits h.toLocked
  -- No other restart is under way.
  have hIdle {k : ThreadId} (hk : k ≠ i) {x : Action} (hx : x ∈ m.agenda k) :
      x.isRenewal = false := by
    have hHolds := h.depth_pos hMoved.agenda rfl
    rw [h.owed] at hHolds
    have hFree := h.toLocked.owed_eq_zero hHolds hk
    exact (Action.harmless_of_not_isUnderway ((h.sound k).not_isUnderway hFree hx)).1
  have hQuiet : m.stream.control.quiet = false := by
    cases hTrue : m.stream.control.quiet with
    | false => rfl
    | true =>
      obtain ⟨_, k, x, hx, hRenewal⟩ := hShown.muted hTrue
      by_cases hk : k = i
      · rw [hk, hMoved.agenda, List.mem_singleton] at hx
        rw [hx] at hRenewal
        cases hRenewal
      · cases (hIdle hk hx).symm.trans hRenewal
  cases hPerform
  have hStream := hMoved.stream
  have hOwn := hMoved.own
  rw [Stream.beginRestart_eq] at hStream hOwn
  cases hRenewal : m.stream.renewal? vigil with
  | none =>
    rw [hRenewal] at hStream
    exact passes_of_silent (hShown.still_of_not_dooms h.toLocked hMoved hQuiet
      (hStream ▸ hQuiet) (hStream ▸ rfl) rfl rfl) nofun
  | some renewal =>
    obtain ⟨profile, consumer⟩ := renewal
    rw [hRenewal] at hStream hOwn
    have hSame : m.stream.control.state = vigil.state := by
      by_contra hChanged
      rw [Stream.renewal?, if_pos (by simp [hChanged])] at hRenewal
      cases hRenewal
    have hBelieved : p = vigil.state := by
      rw [← hSame]
      refine hShown.plain hQuiet fun hStopping => ?_
      rw [← hSame, hStopping] at hActive
      cases hActive
    rw [← hBelieved] at hActive
    have hQuiet' : m'.stream.control.quiet = true := by rw [hStream]
    have hNot {P : Prop} (hFalse : m'.stream.control.quiet = false) : P := by
      cases hQuiet'.symm.trans hFalse
    refine passes_of_silent ⟨hNot, hNot, fun _ _ _ _ => hActive, fun _ => ⟨hActive, i,
      .checkPending budget vigil limit profile consumer, ?_, rfl⟩, fun k x hx vigil' hVigil => ?_⟩
      nofun
    · rw [hOwn]
      exact List.mem_cons_of_mem _ List.mem_cons_self
    · by_cases hk : k = i
      · rw [hk, hOwn] at hx
        simp only [Action.stop, List.cons_append, List.nil_append, List.append_nil, List.mem_cons,
          List.not_mem_nil, or_false] at hx
        rcases hx with rfl | rfl
        · cases hVigil
        · cases hVigil
          exact hBelieved.symm
      · have hRenews := Action.isRenewal_of_vigil hVigil
        have hFree := h.toLocked.others_idle hMoved rfl hk hx
        cases (Action.harmless_of_not_isUnderway hFree).1.symm.trans hRenews

/-- A restart that a stop was asked for meanwhile shows the stream as it is. -/
theorem passes_checkPending {budget : Budget} {vigil : Vigil} {limit : Nat} {profile : Profile}
    {consumer : ConsumerId} (hShown : m.Shown p) (h : m.Composed)
    (hMoved : m.Moved i (.checkPending budget vigil limit profile consumer) rest e m') :
    Passes m p (.checkPending budget vigil limit profile consumer) m' := by
  obtain ⟨last, hPerform⟩ := hMoved.performs
  obtain rfl : rest = [] := hMoved.fits h.toLocked
  have hHere : .checkPending budget vigil limit profile consumer ∈ m.agenda i := by
    rw [hMoved.agenda]
    exact List.mem_cons_self
  have hQuiet := h.quiet i _ hHere rfl
  have hActive := (hShown.muted hQuiet).1
  have hVigil := hShown.vigil i _ hHere vigil rfl
  -- The halt of the restart is over.
  have hStopped : m.stream.control.state = .stopped := by
    rcases h.renews i _ hHere rfl with hHalt | ⟨pre, hAgenda, _⟩ | ⟨_, hStopped⟩
    · cases hMoved.agenda.symm.trans hHalt
    · have hLength := congrArg List.length (hMoved.agenda.symm.trans hAgenda)
      simp at hLength
    · exact hStopped
  cases hPerform
  rcases m.stream.checkPending_cases last budget vigil limit profile consumer with
    ⟨hPending, hControl, _⟩ | ⟨hPending, hControl, hNext⟩
  · rw [← hMoved.stream] at hControl
    have hState : m'.stream.control.state = .stopped := by rw [hControl, hStopped]
    refine passes_of_loud hState (.open (h.toLocked.moved hMoved) (by rw [hControl])
      (fun _ => rfl) (fun hStopping _ => hStopping) fun k x hx hTrue => ?_) hPending
      (StreamState.mayBecome_of_isActive hActive ?_)
    · cases (not_fails h hMoved rfl rfl rfl k x hx).symm.trans hTrue
    · rintro rfl
      cases hActive
  · rw [← hMoved.stream] at hControl
    have hQuiet' : m'.stream.control.quiet = true := by rw [hControl, hQuiet]
    have hNot {P : Prop} (hFalse : m'.stream.control.quiet = false) : P := by
      cases hQuiet'.symm.trans hFalse
    have hOwn := hMoved.own
    rw [hNext] at hOwn
    refine passes_of_silent ⟨hNot, hNot, fun _ _ _ _ => hActive, fun _ => ⟨hActive, i,
      .endRestart budget vigil limit profile consumer, ?_, rfl⟩, fun k x hx vigil' hNew => ?_⟩
      fun hLoud => ?_
    · rw [hOwn]
      simp
    · by_cases hk : k = i
      · rw [hk, hOwn] at hx
        simp only [Action.start, List.cons_append, List.nil_append, List.append_nil, List.mem_cons,
          List.not_mem_nil, or_false] at hx
        rcases hx with rfl | rfl | rfl | rfl
        · cases hNew
        · cases hNew
        · cases hNew
        · cases hNew
          exact hVigil
      · have hFree := h.toLocked.others_idle hMoved rfl hk hx
        cases (Action.harmless_of_not_isUnderway hFree).1.symm.trans
          (Action.isRenewal_of_vigil hNew)
    · cases hPending.symm.trans hLoud

/-- A restart that comes to its end shows the stream, if it is not as listeners believe. -/
theorem passes_endRestart {budget : Budget} {vigil : Vigil} {limit : Nat} {profile : Profile}
    {consumer : ConsumerId} (hShown : m.Shown p) (h : m.Composed)
    (hMoved : m.Moved i (.endRestart budget vigil limit profile consumer) rest e m') :
    Passes m p (.endRestart budget vigil limit profile consumer) m' := by
  obtain ⟨last, hPerform⟩ := hMoved.performs
  obtain rfl : rest = [] := hMoved.fits h.toLocked
  have hHere : .endRestart budget vigil limit profile consumer ∈ m.agenda i := by
    rw [hMoved.agenda]
    exact List.mem_cons_self
  have hActive := (hShown.muted (h.quiet i _ hHere rfl)).1
  have hVigil := hShown.vigil i _ hHere vigil rfl
  cases hPerform
  have hControl := m.stream.control_endRestart last budget vigil limit profile consumer
  have hQuiet' : m'.stream.control.quiet = false := by
    rw [hMoved.stream]
    refine (congrArg Control.quiet hControl).trans ?_
    cases last <;> rfl
  have hShown' : m'.Shown m'.stream.control.state :=
    .open (h.toLocked.moved hMoved) hQuiet' (fun _ => rfl) (fun hStopping _ => hStopping)
      fun k x hx hTrue => by cases (not_fails h hMoved rfl rfl rfl k x hx).symm.trans hTrue
  by_cases hSame : m'.stream.control.state = vigil.state
  · refine passes_of_silent ?_ (absurd hSame)
    rwa [hSame, hVigil] at hShown'
  · refine passes_of_loud rfl hShown' hSame (StreamState.mayBecome_of_isActive hActive ?_)
    rwa [← hVigil]

/-- **Every step leaves listeners with what they believe, or tells them better.** -/
theorem moved (hShown : m.Shown p) (h : m.Composed) (hMoved : m.Moved i action rest e m') :
    Passes m p action m' := by
  by_cases hMutes : action.mutes = true
  · cases action
    case beginRestart => exact hShown.passes_beginRestart h hMoved
    case checkPending => exact hShown.passes_checkPending h hMoved
    case endRestart => exact hShown.passes_endRestart h hMoved
    all_goals cases hMutes
  · rw [Bool.not_eq_true] at hMutes
    cases hQuiet : m.stream.control.quiet with
    | true =>
      exact passes_of_silent (hShown.hidden h.toLocked hMoved hQuiet hMutes)
        (Action.not_isLoud_of_quiet hQuiet hMutes)
    | false =>
      by_cases hSteers : action.steers = true
      · cases action
        case activate => exact hShown.passes_activate h hMoved hQuiet
        case revert => exact hShown.passes_revert h hMoved hQuiet
        case halt => exact hShown.passes_halt h hMoved hQuiet
        case beginHalt => exact hShown.passes_beginHalt h hMoved hQuiet
        case settle => exact hShown.passes_settle h hMoved hQuiet
        case confirm => exact hShown.passes_confirm h hMoved hQuiet
        case beginRestart | checkPending | endRestart => cases hMutes
        all_goals cases hSteers
      · exact hShown.passes_of_not_steers h hMoved hQuiet (Bool.not_eq_true _ ▸ hSteers)

end Shown

end Machine

end LidarSweep
