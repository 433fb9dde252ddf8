import LidarSweep.Proofs.Machine.Retreat

/-!
# What a start has still to do

A listener has its reactions once each, so it stops the stream only so often; and whatever else an
action of a start puts on the agenda is less than it was itself (`Action.effort_of_perform`).  So a
thread that finds the locks open gets through a start whose source refuses in one go
(`Machine.Retreating.exists_oneGo`).
-/

namespace LidarSweep

/-- As many actions as this one can come to, with so many listeners to be told of each state. -/
def Action.effort (listeners : Nat) : Action → Nat
  | activate _ _ => 2 * listeners + 6
  | openSource _ => listeners + 5
  | revert _ | settle _ _ => listeners + 2
  | halt _ => 2 * listeners + 10
  | beginHalt _ => 2 * listeners + 8
  | closeSource _ => listeners + 7
  | _ => 1

def efforts (listeners : Nat) : List Action → Nat
  | [] => 0
  | action :: rest => action.effort listeners + efforts listeners rest

@[simp] theorem efforts_nil (n : Nat) : efforts n [] = 0 := rfl

@[simp] theorem efforts_cons (n : Nat) (action : Action) (rest : List Action) :
    efforts n (action :: rest) = action.effort n + efforts n rest := rfl

@[simp] theorem efforts_append (n : Nat) (l rest : List Action) :
    efforts n (l ++ rest) = efforts n l + efforts n rest := by
  induction l with
  | nil => simp
  | cons action l ih =>
    simp only [List.cons_append, efforts_cons, ih]
    omega

theorem efforts_of_forall {n : Nat} {l : List Action} (h : ∀ x ∈ l, x.effort n = 1) :
    efforts n l = l.length := by
  induction l with
  | nil => rfl
  | cons action l ih =>
    obtain ⟨hFirst, hLater⟩ := List.forall_mem_cons.mp h
    rw [efforts_cons, hFirst, ih hLater, List.length_cons, Nat.add_comm]

/-- As many reactions as the listeners have still before them. -/
def reactions : List Listener → Nat
  | [] => 0
  | l :: listeners => l.plan.length + reactions listeners

/-- As many actions as the reactions of listeners can come to: each may stop the stream. -/
def Stream.slack (s : Stream) : Nat :=
  reactions s.control.listeners * (2 * s.control.listeners.length + 11)

/-- Telling of a change takes one action for each listener at most. -/
theorem efforts_tellAll (c : Control) (target : StreamState) (n : Nat) :
    efforts n (Notice.tellAll (c.transition target).2) ≤ c.listeners.length := by
  have hTell (notice : Notice) : efforts n notice.tell = notice.listeners := by
    have hEach : ∀ x ∈ notice.tell, x.effort n = 1 := by
      intro x hx
      obtain ⟨_, _, rfl⟩ := List.mem_map.mp hx
      rfl
    rw [efforts_of_forall hEach, Notice.tell, List.length_map, List.length_range]
  unfold Control.transition
  split
  · exact Nat.zero_le _
  · dsimp only [Control.wake]
    split
    · exact Nat.zero_le _
    · unfold Control.notice
      split
      · exact Nat.zero_le _
      · exact Nat.le_of_eq (hTell _)

/-- A reaction is had once. -/
theorem Listener.length_hear (l : Listener) (state : StreamState) :
    (l.hear state).1.plan.length + (if (l.hear state).2.isSome then 1 else 0) = l.plan.length := by
  obtain ⟨keeps, plan⟩ := l
  cases plan with
  | nil => rfl
  | cons r plan =>
    simp only [hear]
    split <;> simp

theorem reactions_set {listeners : List Listener} {i : Nat} {l : Listener}
    (h : listeners[i]? = some l) (l' : Listener) :
    reactions (listeners.set i l') + l.plan.length = reactions listeners + l'.plan.length := by
  induction listeners generalizing i with
  | nil => cases h
  | cons l₁ listeners ih =>
    cases i with
    | zero =>
      cases h
      simp only [reactions, List.set_cons_zero]
      omega
    | succ i =>
      have hLater := ih h
      simp only [reactions, List.set_cons_succ]
      omega

namespace Stream

variable (s : Stream)

/-- A listener that stops the stream has one reaction less before it. -/
theorem reactions_tell (listener : Nat) (state : StreamState) (profile : Option Profile) :
    reactions (s.tell listener state profile).stream.control.listeners ≤
        reactions s.control.listeners ∧
      ((s.tell listener state profile).next = [] ∨
        (s.tell listener state profile).next = Action.stop ++ [.hearStopped] ∧
        reactions (s.tell listener state profile).stream.control.listeners <
          reactions s.control.listeners) := by
  unfold tell
  cases hListener : s.control.listeners[listener]? with
  | none => exact ⟨Nat.le_refl _, .inl rfl⟩
  | some l =>
    have hLess := l.length_hear state
    have hSet := reactions_set hListener (l.hear state).1
    dsimp only
    generalize hHeard : (if l.keeps then s.heard (.state state profile) else s) = heard
    have hSame : heard.control = s.control := by
      subst hHeard
      split <;> rfl
    generalize l.hear state = after at hLess hSet
    obtain ⟨l', reaction⟩ := after
    dsimp only at hLess hSet
    rw [hSame]
    rcases reaction with _ | _ | _ | reason
    case none | some.note | some.panic =>
      refine ⟨?_, .inl rfl⟩
      show reactions (s.control.listeners.set listener l') ≤ _
      omega
    case some.stop =>
      have hFewer : reactions (s.control.listeners.set listener l') <
          reactions s.control.listeners := by
        simp only [Option.isSome_some, if_true] at hLess
        omega
      refine ⟨Nat.le_of_lt hFewer, ?_⟩
      dsimp only [request]
      split
      · exact .inl rfl
      · exact .inr ⟨rfl, hFewer⟩

end Stream

namespace Action

variable {action : Action} {me : ThreadId} {last : Except Error Unit} {s : Stream} {e : Effect}

/-- What tells nobody itself puts less on the agenda than it was itself. -/
theorem efforts_of_perform (hOfStart : action.isOfStart = true) (hTells : action.tells = false)
    (h : action.perform me last s = some e) :
    efforts s.control.listeners.length e.next < action.effort s.control.listeners.length := by
  have hTold (c : Control) (hListeners : c.listeners = s.control.listeners)
      (target : StreamState) (l : List Action) :
      efforts s.control.listeners.length (Notice.tellAll (c.transition target).2 ++ l) ≤
        s.control.listeners.length + efforts s.control.listeners.length l := by
    rw [efforts_append]
    exact Nat.add_le_add_right (hListeners ▸ efforts_tellAll c target _) _
  cases action
  case activate profile consumer =>
    cases h
    let c : Control := { s.control with
      activation := s.control.activation + 1
      stopPending := false
      profile := some profile
      consumer := some consumer }
    refine Nat.lt_of_le_of_lt (hTold c rfl .starting [.openSource _]) ?_
    simp only [efforts_cons, efforts_nil, effort]
    omega
  case openSource activation =>
    cases h
    rcases s.next_openSource activation with hNone | ⟨cause, hNext⟩
    · rw [hNone]
      exact Nat.succ_pos _
    · rw [hNext]
      simp only [efforts_cons, efforts_nil, effort]
      omega
  case revert cause =>
    cases h
    refine Nat.lt_of_le_of_lt (hTold { s.control with consumer := none } rfl .stopped
      [.finish (.error cause)]) ?_
    simp only [efforts_cons, efforts_nil, effort]
    omega
  case settle ending result =>
    cases h
    refine Nat.lt_of_le_of_lt (hTold { s.control with consumer := none } rfl ending.state
      [.conclude ending result]) ?_
    simp only [efforts_cons, efforts_nil, effort]
    omega
  case halt ending =>
    rcases s.halt_cases h with ⟨locks, _, rfl⟩ | ⟨_, ⟨_, rfl⟩ | ⟨_, rfl⟩⟩
    all_goals
      simp only [efforts_cons, efforts_nil, effort]
      omega
  case beginHalt ending =>
    cases h
    unfold Stream.beginHalt
    split
    · exact Nat.succ_pos _
    · dsimp only
      split
      · refine Nat.lt_of_le_of_lt (hTold s.control rfl .stopping [.closeSource ending]) ?_
        simp only [efforts_cons, efforts_nil, effort]
        omega
      · simp only [List.nil_append, efforts_cons, efforts_nil, effort]
        omega
  case closeSource ending =>
    cases h
    obtain ⟨result, hNext⟩ := s.next_closeSource ending
    rw [hNext]
    simp only [efforts_cons, efforts_nil, effort]
    omega
  case acquire lock =>
    obtain ⟨locks, _, rfl⟩ := Option.map_eq_some_iff.mp h
    exact Nat.one_pos
  case release | resetPipeline | install | uninstall | finish | retire | conclude | hearStopped =>
    cases h
    exact Nat.one_pos
  case tell => cases hTells
  all_goals cases hOfStart

/-- **An action of a start** puts less on the agenda than it was itself, or takes it from what
listeners have before them. -/
theorem effort_of_perform (hOfStart : action.isOfStart = true)
    (h : action.perform me last s = some e) :
    efforts s.control.listeners.length e.next + e.stream.slack <
      action.effort s.control.listeners.length + s.slack := by
  cases hTells : action.tells with
  | false =>
    have hSlack : e.stream.slack = s.slack := by
      rw [Stream.slack, Stream.slack, listeners_of_perform hTells h]
    rw [hSlack]
    exact Nat.add_lt_add_right (efforts_of_perform hOfStart hTells h) _
  | true =>
    have hLength := length_listeners_of_perform h
    cases action
    case tell listener state profile =>
      cases h
      obtain ⟨hLess, hNext⟩ := s.reactions_tell listener state profile
      simp only [Stream.slack, hLength]
      rcases hNext with hNone | ⟨hStop, hFewer⟩
      · rw [hNone]
        exact Nat.add_lt_add_of_lt_of_le Nat.one_pos (Nat.mul_le_mul_right _ hLess)
      · rw [hStop]
        have hMore := Nat.mul_le_mul_right (2 * s.control.listeners.length + 11) hFewer
        simp only [stop, List.cons_append, List.nil_append, efforts_cons, efforts_nil, effort]
        rw [Nat.succ_mul] at hMore
        omega
    all_goals cases hTells

/-! ### Locks that are open -/

/-- No thread closes a lock to itself. -/
theorem isOpen_of_perform {lock : Lock} (hOpen : s.locks.IsOpen lock me)
    (h : action.perform me last s = some e) : e.stream.locks.IsOpen lock me := by
  cases hLocks : action.locks with
  | false =>
    rw [locks_of_perform hLocks h]
    exact hOpen
  | true =>
    cases action
    case acquire lock' =>
      obtain ⟨locks, hAcquire, rfl⟩ := Option.map_eq_some_iff.mp h
      exact hOpen.of_acquire hAcquire
    case release lock' =>
      cases h
      exact hOpen.of_release lock'
    case halt ending =>
      rcases s.halt_cases h with ⟨locks, hAcquire, rfl⟩ | ⟨_, ⟨_, rfl⟩ | ⟨_, rfl⟩⟩
      · exact hOpen.of_acquire hAcquire
      · exact hOpen
      · exact hOpen
    all_goals cases hLocks

/-- An action of a start waits for nothing but locks. -/
theorem exists_perform (hOfStart : action.isOfStart = true) (hRestart : s.locks.IsOpen .restart me)
    (hOpen : ∀ lock, action = .acquire lock → s.locks.IsOpen lock me) (last : Except Error Unit) :
    ∃ e, action.perform me last s = some e := by
  cases action
  case acquire lock =>
    obtain ⟨locks, hAcquire, _⟩ := (hOpen lock rfl).acquire
    exact ⟨_, by rw [perform, hAcquire]; rfl⟩
  case halt ending =>
    obtain ⟨locks, hAcquire, _⟩ := hRestart.acquire
    rw [perform, Stream.halt?, hAcquire]
    split
    · split
      · exact ⟨_, rfl⟩
      · split
        · exact ⟨_, rfl⟩
        · exact ⟨_, rfl⟩
    · exact ⟨_, rfl⟩
  case release | resetPipeline | install | activate | openSource | uninstall | revert | finish
      | beginHalt | closeSource | retire | settle | conclude | tell | hearStopped =>
    exact ⟨_, rfl⟩
  all_goals cases hOfStart

/-- Whether the source refuses is none of the threads' doing. -/
theorem refusesStart_of_perform (h : action.perform me last s = some e) :
    e.stream.source.refusesStart = s.source.refusesStart := by
  cases hTouches : action.touches .source with
  | false =>
    have hSame : e.stream.source = s.source := same_of_perform .source hTouches h
    rw [hSame]
  | true =>
    cases action
    case openSource activation =>
      cases h
      by_cases hRefuses : s.source.refusesStart = true
      · rw [Stream.source_of_refused hRefuses]
      · rw [Stream.openSource, ManualSource.start, if_neg hRefuses]
    case closeSource ending =>
      cases h
      unfold Stream.closeSource ManualSource.stop
      cases s.source.stopFailure <;> rfl
    all_goals cases hTouches

end Action

namespace Retreat

variable {spared : Prop} {s : Stream} {last : Except Error Unit} {heard : List StreamState}
  {front : List Action} {action : Action} {me : ThreadId}

/-- The thread waits for nobody but who runs the stages, or delivers a frame when it is to stop the
stream. -/
theorem exists_perform (h : Retreat spared s last heard (action :: front))
    (hRestart : s.locks.IsOpen .restart me) (hPipeline : s.locks.IsOpen .pipeline me)
    (hDelivery : spared ∨ s.locks.IsOpen .delivery me) :
    ∃ e, action.perform me last s = some e := by
  refine Action.exists_perform (h.isOfStart action List.mem_cons_self) hRestart ?_ last
  rintro lock rfl
  generalize hFront : Action.acquire lock :: front = agenda at h
  cases h with
  | @ready pre profile consumer _ hPre =>
    cases pre with
    | nil => cases hFront
    | cons _ pre =>
      obtain ⟨rfl, _⟩ := List.cons.inj hFront
      obtain rfl : lock = .pipeline := of_decide_eq_true (hPre _ List.mem_cons_self)
      exact hPipeline
  | @opening pre n hPre hTold =>
    cases pre with
    | nil => cases hFront
    | cons _ pre =>
      obtain ⟨rfl, _⟩ := List.cons.inj hFront
      rcases hDelivery with hSpared | hDelivery
      · obtain ⟨_, _, hTell⟩ := (hTold hSpared).2 _ List.mem_cons_self
        cases hTell
      · cases lock with
        | delivery => exact hDelivery
        | restart | pipeline => cases hPre _ List.mem_cons_self
  | refused | stripped | done => cases hFront
  | @down pre cause _ _ hPre =>
    cases pre with
    | nil => cases hFront
    | cons _ pre =>
      obtain ⟨rfl, _⟩ := List.cons.inj hFront
      cases hPre _ List.mem_cons_self

end Retreat

namespace Machine

variable {m₀ a m m' : Machine} {i : ThreadId} {action : Action} {rest : List Action}
  {past events : List Event}

/-- A thread that holds the restart lock finds it open. -/
theorem Locked.isOpen_of_owed (h : m.Locked) (hHolds : 0 < LidarSweep.owed (m.agenda i)) :
    m.stream.locks.IsOpen .restart i := by
  rw [← h.owed] at hHolds
  obtain ⟨depth, hHolder, _⟩ := Locks.exists_of_depth hHolds
  intro hold hHold
  cases hHolder.symm.trans hHold
  exact ⟨rfl, Nat.succ_pos depth⟩

theorem exists_step {e : Effect} (hAgenda : m.agenda i = action :: rest)
    (hPerform : action.perform i (m.last i) m.stream = some e) : ∃ m', m.step? i = some m' := by
  obtain ⟨t, hThread, hFirst⟩ := exists_thread hAgenda
  rw [Machine.last, hThread] at hPerform
  unfold step?
  rw [hThread]
  dsimp only
  rw [hFirst]
  dsimp only
  rw [hPerform]
  exact ⟨_, rfl⟩

/-- What a thread has before it and what listeners may still bring about. -/
def burden (m : Machine) (i : ThreadId) : Nat :=
  efforts m.stream.control.listeners.length (m.agenda i) + m.stream.slack

theorem burden_moved {e : Effect} (hMoved : m.Moved i action rest e m')
    (hOfStart : action.isOfStart = true) : m'.burden i < m.burden i := by
  obtain ⟨last, hPerform⟩ := hMoved.performs
  have hLess := Action.effort_of_perform hOfStart hPerform
  rw [burden, burden, hMoved.own, hMoved.agenda, hMoved.stream,
    Action.length_listeners_of_perform hPerform, efforts_append, efforts_cons]
  omega

/-- **A thread gets through a start whose source refuses** in one go where the stages are at rest,
and nobody delivers a frame or no listener stops the stream when it is told of the start. -/
theorem Retreating.exists_oneGo (h : Retreating a i rest events m) (hReg : m₀.Regular {})
    (hPast : Path m₀ past m) (hRest : ∀ x ∈ rest, x.opens = false ∧ x.settles = false)
    (hRefuses : m.stream.source.refusesStart = true)
    (hPipeline : m.stream.locks.IsOpen .pipeline i)
    (hDelivery : a.stream.Spared .starting ∨ m.stream.locks.IsOpen .delivery i) :
    ∃ later b, OneGo i rest m later b ∧
      ∀ event ∈ later, event.before.source.refusesStart = true := by
  generalize hBurden : m.burden i = n
  induction n using Nat.strong_induction_on generalizing m past events with
  | _ n ih =>
    subst hBurden
    have hRegular := hReg.of_path hPast
    have hRestart := hRegular.toLocked.isOpen_of_owed h.holds
    obtain ⟨front, heard, hAgenda, hRetreat, _⟩ := h.stage
    obtain ⟨action, pre, hFirst, hOfStart, e, hPerform⟩ : ∃ action pre,
        m.agenda i = action :: (pre ++ rest) ∧ action.isOfStart = true ∧
          ∃ e, action.perform i (m.last i) m.stream = some e := by
      cases front with
      | nil => exact ⟨_, [], hAgenda, rfl, _, rfl⟩
      | cons action front =>
        refine ⟨action, front ++ [.release .restart], ?_,
          hRetreat.isOfStart action List.mem_cons_self, ?_⟩
        · rw [hAgenda, List.append_assoc]
          rfl
        · exact hRetreat.exists_perform hRestart hPipeline hDelivery
    obtain ⟨m', hStep⟩ := exists_step hFirst hPerform
    obtain ⟨_, _, e', hMoved, hPerform', _⟩ := moved_and_last_of_step hStep
    obtain ⟨rfl, rfl⟩ := List.cons.inj (hFirst.symm.trans hMoved.agenda)
    cases hPerform.symm.trans hPerform'
    rcases h.step hRegular hRest hFirst hStep fun _ _ _ => hRefuses with hOn | ⟨hBack, _⟩
    · obtain ⟨later, b, hLater, hAll⟩ := ih _ (burden_moved hMoved hOfStart) hOn
        (hPast.step hFirst hStep)
        (hMoved.stream ▸ (Action.refusesStart_of_perform hPerform).trans hRefuses)
        (hMoved.stream ▸ Action.isOpen_of_perform hPipeline hPerform)
        (hDelivery.imp_right fun hOpen => hMoved.stream ▸ Action.isOpen_of_perform hOpen hPerform)
        rfl
      exact ⟨_, b, .step hFirst hStep hLater, List.forall_mem_cons.mpr ⟨hRefuses, hAll⟩⟩
    · exact ⟨_, m', .step hFirst hStep (.back hBack), List.forall_mem_singleton.mpr hRefuses⟩

/-- Who gets back in one go, after others have moved, is back. -/
theorem OneGo.returns {meanwhile : List Event} (h : OneGo i rest m events m')
    (hBusy : m.agenda i ≠ rest) (hOthers : ∀ event ∈ meanwhile, event.thread ≠ i) :
    Returns i rest (meanwhile ++ events) m' where
  busy event he hThread := by
    rcases List.mem_append.mp he with hOther | hOwn
    · exact absurd hThread (hOthers event hOther)
    · exact h.length_le event hOwn
  last := by
    have hSome : events ≠ [] := by
      rintro rfl
      cases h with
      | back hBack => exact hBusy hBack
    refine ⟨events.getLast hSome, ?_, h.thread_eq _ (List.getLast_mem hSome)⟩
    rw [List.getLast?_append_of_ne_nil _ hSome, List.getLast?_eq_some_getLast hSome]
  back := h.agenda_back

end Machine

end LidarSweep
