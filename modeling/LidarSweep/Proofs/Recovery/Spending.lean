import LidarSweep.Proofs.Recovery.Attempt
import Mathlib.Logic.Relation

/-!
# What the watcher spends

A new stream is started once; then packets come in, or the watcher stands at its post, or time
passes and the circumstances change, and nothing else. Between any two of these the watcher's books
are in order: what it has noted, and what it saw when it last looked, tell how many attempts there
were since the last frame. So it gives the stream up just when they are spent.
-/

namespace LidarSweep

/-- Attempts to restart since the last frame, or since the beginning. -/
def spent (deeds : List Deed) : Nat :=
  deeds.foldl (fun n d => if d.delivers then 0 else if d.isAttempt then n + 1 else n) 0

/-- Deeds without a frame add their attempts. -/
theorem spent_append {past deeds : List Deed} (h : deeds.any Deed.delivers = false) :
    spent (past ++ deeds) = spent past + deeds.countP Deed.isAttempt := by
  unfold spent
  rw [List.foldl_append]
  generalize past.foldl _ 0 = n
  induction deeds generalizing n with
  | nil => rfl
  | cons d deeds ih =>
    obtain ⟨hOwn, hRest⟩ := Bool.or_eq_false_iff.mp (List.any_cons ▸ h)
    rw [List.foldl_cons, ih hRest, hOwn, Balance.countP_cons_toNat]
    cases d.isAttempt with
    | true => exact Nat.add_right_comm n 1 _
    | false => rfl

/-- A frame makes up for all attempts before it. -/
theorem spent_of_delivers (past : List Deed) {deeds : List Deed}
    (h : deeds.any Deed.delivers = true) (hNone : deeds.countP Deed.isAttempt = 0) :
    spent (past ++ deeds) = 0 := by
  unfold spent
  rw [List.foldl_append]
  generalize past.foldl _ 0 = n
  rw [List.countP_eq_zero] at hNone
  suffices hFold : deeds.foldl
      (fun n d => if d.delivers then 0 else if d.isAttempt then n + 1 else n) n =
        if deeds.any Deed.delivers then 0 else n by
    rw [hFold, if_pos h]
  clear h
  induction deeds generalizing n with
  | nil => rfl
  | cons d deeds ih =>
    rw [List.foldl_cons, ih (fun x hx => hNone x (List.mem_cons_of_mem _ hx)), List.any_cons,
      if_neg (hNone d List.mem_cons_self)]
    cases d.delivers with
    | true => simp
    | false => simp

/-- A bout that leaves the stream as it is costs nothing. -/
theorem Bout.idle {w : ThreadId} {t t' : Thread} {s : Stream} {deeds : List Deed}
    (h : Bout w t s deeds t' s) (past : List Deed) :
    deeds.countP Deed.isAttempt = 0 ∧ deeds.countP Deed.delivers = 0 ∧
      deeds.countP (·.action.isHandover) = 0 ∧ spent (past ++ deeds) = spent past := by
  obtain ⟨hAttempts, hDelivered, hHanded⟩ := h.tally
  have hNone : deeds.countP Deed.isAttempt = 0 ∧ deeds.countP Deed.delivers = 0 ∧
      deeds.countP (·.action.isHandover) = 0 := by omega
  refine ⟨hNone.1, hNone.2.1, hNone.2.2, ?_⟩
  rw [spent_append (by simpa using hNone.2.1), hNone.1, Nat.add_zero]

/-- One that answers a stall costs an attempt. -/
theorem Bout.costs {w : ThreadId} {t t' : Thread} {s s' : Stream} {deeds : List Deed}
    {recovery : RecoveryConfig} {profile : Profile} {consumer : ConsumerId} {budget : Budget}
    (h : Bout w t s deeds t' s') (hAnswered : Answered s recovery profile consumer budget t' s')
    (past : List Deed) :
    deeds.countP Deed.isAttempt = 1 ∧ deeds.countP Deed.delivers = 0 ∧
      deeds.countP (·.action.isHandover) = 0 ∧ spent (past ++ deeds) = spent past + 1 := by
  obtain ⟨hAttempts, hDelivered, hHanded⟩ := h.tally
  rw [hAnswered.attempts] at hAttempts
  rw [hAnswered.delivered] at hDelivered
  rw [hAnswered.frames] at hHanded
  have hOne : deeds.countP Deed.isAttempt = 1 ∧ deeds.countP Deed.delivers = 0 ∧
      deeds.countP (·.action.isHandover) = 0 := by omega
  refine ⟨hOne.1, hOne.2.1, hOne.2.2, ?_⟩
  rw [spent_append (by simpa using hOne.2.1), hOne.1]

/-- A stream and its watcher, with what was done since the stream was started. -/
structure Tended where
  past : List Deed := []
  /-- Stalls of a device that did not wait for triggers -/
  stalls : Nat := 0
  stream : Stream
  watcher : Thread

namespace Tended

/-- The watcher is about to find that no frame has come in time. -/
def isStalled (a : Tended) : Bool :=
  match a.watcher.agenda with
  | [.awaitFrame _ vigil] =>
    a.stream.control.wakes = vigil.wakes ∧ vigil.deadlineNs ≤ a.stream.now ∧
      a.stream.device.syncMode.isTriggered = false
  | _ => false

/-- After a bout of the watcher. -/
def after (a : Tended) (deeds : List Deed) (t : Thread) (s : Stream) : Tended where
  past := a.past ++ deeds
  stalls := a.stalls + a.isStalled.toNat
  stream := s
  watcher := t

/-- What happens to a stream that was started and is left to its watcher `w`. -/
inductive Step (w : ThreadId) (a : Tended) : Tended → Prop where
  | change (x : Circumstances) : Step w a { a with stream := a.stream.amid x }
  | packet {me : ThreadId} {packet : List UInt8} {deeds : List Deed} {t : Thread} {s : Stream}
      (hTurn : Turn me { agenda := [.offer packet] } a.stream deeds t s)
      (hRest : t.isResting = true) :
      Step w a { a with past := a.past ++ deeds, stream := s }
  | bout {deeds : List Deed} {t : Thread} {s : Stream}
      (hBout : Bout w a.watcher a.stream deeds t s) : Step w a (a.after deeds t s)

/-- A caller has just started a new stream. Its watcher is about to look at it, or waits to be
woken. -/
structure Begins (u : Setup) (profile : Profile) (consumer : ConsumerId) (a : Tended) : Prop where
  past : a.past = []
  stalls : a.stalls = 0
  started : ∃ me deeds t,
    Turn me { agenda := Action.start profile consumer } u.stream deeds t a.stream ∧
      t.agenda = [] ∧ t.last = .ok ()
  watcher : a.watcher.agenda = [.watch {}] ∨ ∃ wakes, a.watcher.agenda = [.awaitWake {} wakes]

/-- What the watcher has noted tells what was spent: all since its last attempt, or nothing, if a
frame has come since. -/
def Noted (a : Tended) (budget : Budget) : Prop :=
  a.stream.control.stats.delivered = budget.mark ∧ budget.retries = spent a.past ∨
    budget.mark < a.stream.control.stats.delivered ∧ spent a.past = 0 ∧
      a.stream.control.state = .streaming

/-- Where the watcher is. -/
inductive Posted (a : Tended) : Prop where
  | resting (budget : Budget) (hAgenda : a.watcher.agenda = [.watch budget])
      (hNoted : a.stream.control.state.isActive = true → a.Noted budget)
  | asleep (budget : Budget) (wakes : Nat) (hAgenda : a.watcher.agenda = [.awaitWake budget wakes])
      (hNoted : a.stream.control.state.isActive = true → a.Noted budget)
  /-- If nothing has woken it, the stream is as it was when the watcher looked. -/
  | waiting (budget : Budget) (vigil : Vigil)
      (hAgenda : a.watcher.agenda = [.awaitFrame budget vigil])
      (hActive : a.stream.control.state.isActive = true) (hNoted : a.Noted budget)
      (hWakes : vigil.wakes ≤ a.stream.control.wakes)
      (hSame : a.stream.control.wakes = vigil.wakes →
        a.stream.control.state = vigil.state ∧ a.stream.control.activation = vigil.activation ∧
          budget.retries = spent a.past)

/-- All that holds of a stream that is left to its watcher, between any two things that happen. -/
structure Kept (recovery : RecoveryConfig) (profile : Profile) (consumer : ConsumerId)
    (a : Tended) : Prop where
  standing : a.stream.Standing
  devoted : a.stream.Devoted recovery profile consumer
  stalls : a.stalls = a.past.countP Deed.isAttempt
  attempts : a.stream.control.stats.attempts = a.past.countP Deed.isAttempt
  delivered : a.stream.control.stats.delivered = a.past.countP Deed.delivers
  handed : a.stream.journal.frames.length = a.past.countP (·.action.isHandover)
  balance : Balance a.past a.stream []
  own : ∀ d ∈ a.past, ∀ p c frame, d.action = .consume p c frame → p = profile ∧ c = consumer
  state : a.stream.control.state.isActive = true ∧ spent a.past < recovery.maxRestarts.toNat ∨
    a.stream.control.state = .error ∧ spent a.past = recovery.maxRestarts.toNat
  posted : a.Posted

variable {recovery : RecoveryConfig} {profile : Profile} {consumer : ConsumerId} {w : ThreadId}
  {a : Tended} {deeds : List Deed} {t : Thread} {s : Stream}

theorem Posted.of_same {a' : Tended} (h : a.Posted)
    (hControl : a'.stream.control = a.stream.control)
    (hSpent : spent a'.past = spent a.past) (hWatcher : a'.watcher = a.watcher) : a'.Posted := by
  have hNoted {budget : Budget} (hOld : a.Noted budget) : a'.Noted budget := by
    unfold Noted at hOld ⊢
    rwa [hControl, hSpent]
  cases h with
  | resting budget hAgenda hOld =>
    exact .resting budget (hWatcher ▸ hAgenda) fun hActive => hNoted (hOld (hControl ▸ hActive))
  | asleep budget wakes hAgenda hOld =>
    exact .asleep budget wakes (hWatcher ▸ hAgenda) fun hActive =>
      hNoted (hOld (hControl ▸ hActive))
  | waiting budget vigil hAgenda hActive hOld hWakes hSame =>
    refine .waiting budget vigil (hWatcher ▸ hAgenda) (hControl ▸ hActive) (hNoted hOld)
      (hControl ▸ hWakes) ?_
    rw [hControl, hSpent]
    exact hSame

theorem Kept.change (h : a.Kept recovery profile consumer) (x : Circumstances) :
    Kept recovery profile consumer { a with stream := a.stream.amid x } where
  standing := ⟨h.standing.toPoised.amid x, h.standing.free, h.standing.calm⟩
  devoted := h.devoted.of_same rfl rfl rfl
  stalls := h.stalls
  attempts := h.attempts
  delivered := h.delivered
  handed := h.handed
  balance := ⟨h.balance.emitted, h.balance.handed⟩
  own := h.own
  state := h.state
  posted := h.posted.of_same rfl rfl rfl

/-- The watcher's post when somebody else has dealt with a packet. -/
theorem Posted.feed (h : a.Posted) (hFeed : Feed deeds a.stream s)
    (hDelivered : s.control.stats.delivered =
      a.stream.control.stats.delivered + deeds.countP Deed.delivers)
    (hNone : deeds.countP Deed.isAttempt = 0) :
    Posted { a with past := a.past ++ deeds, stream := s } := by
  rcases hFeed.course with ⟨hBare, hState, hWakes⟩ | ⟨hSome, hActive, hState, hWakes⟩
  · have hSame : s.control.stats.delivered = a.stream.control.stats.delivered := by
      rw [hDelivered, List.countP_eq_zero.mpr (by simpa using hBare), Nat.add_zero]
    have hSpent : spent (a.past ++ deeds) = spent a.past := by
      rw [spent_append hBare, hNone, Nat.add_zero]
    have hNoted {budget : Budget} (hOld : a.Noted budget) :
        Noted { a with past := a.past ++ deeds, stream := s } budget := by
      unfold Noted at hOld ⊢
      dsimp only
      rwa [hSame, hSpent, hState]
    cases h with
    | resting budget hAgenda hOld =>
      exact .resting budget hAgenda fun hActive => hNoted (hOld (hState ▸ hActive))
    | asleep budget wakes hAgenda hOld =>
      exact .asleep budget wakes hAgenda fun hActive => hNoted (hOld (hState ▸ hActive))
    | waiting budget vigil hAgenda hActive hOld hLe hFresh =>
      refine .waiting budget vigil hAgenda (hState ▸ hActive) (hNoted hOld) (hWakes ▸ hLe) ?_
      dsimp only
      rw [hState, hWakes, hSpent, hFeed.activation]
      exact hFresh
  · have hMore : a.stream.control.stats.delivered < s.control.stats.delivered := by
      have hPos : 0 < deeds.countP Deed.delivers :=
        List.countP_pos_iff.mpr (List.any_eq_true.mp hSome)
      omega
    have hSpent := spent_of_delivers a.past hSome hNone
    have hNoted {budget : Budget} (hOld : a.Noted budget) :
        Noted { a with past := a.past ++ deeds, stream := s } budget := by
      refine .inr ⟨?_, hSpent, hState⟩
      rcases hOld with ⟨hMark, _⟩ | ⟨hMark, _⟩
      · exact hMark ▸ hMore
      · exact Nat.lt_trans hMark hMore
    cases h with
    | resting budget hAgenda hOld => exact .resting budget hAgenda fun _ => hNoted (hOld hActive)
    | asleep budget wakes hAgenda hOld =>
      exact .asleep budget wakes hAgenda fun _ => hNoted (hOld hActive)
    | waiting budget vigil hAgenda _ hOld hLe _ =>
      refine .waiting budget vigil hAgenda ?_ (hNoted hOld)
        (Nat.le_of_lt (Nat.lt_of_le_of_lt hLe hWakes)) ?_
      · show s.control.state.isActive = true
        rw [hState]
        rfl
      · intro hSame
        exact absurd hSame (Nat.ne_of_gt (Nat.lt_of_le_of_lt hLe hWakes))

theorem Kept.packet (h : a.Kept recovery profile consumer) {me : ThreadId} {packet : List UInt8}
    (hTurn : Turn me { agenda := [.offer packet] } a.stream deeds t s)
    (hRest : t.isResting = true) :
    Kept recovery profile consumer { a with past := a.past ++ deeds, stream := s } := by
  have hInject : Turn me { agenda := (Operation.inject packet).agenda } a.stream deeds t s := hTurn
  obtain ⟨_, hStanding⟩ := Sequential.done_of_turn h.standing hInject hRest
  obtain ⟨hFeeds, hDevoted, hFeed⟩ := hTurn.feed profile consumer
    (List.all_eq_true.mp rfl) h.devoted h.standing.calm
  obtain ⟨hAttempts, hDelivered, hHanded⟩ := hTurn.tally
  have hNone : deeds.countP Deed.isAttempt = 0 := by
    refine List.countP_eq_zero.mpr fun d hd hAttempt => ?_
    have hOwn := hFeeds d hd
    unfold Deed.isAttempt at hAttempt
    split at hAttempt
    · next hAction =>
      rw [hAction] at hOwn
      cases hOwn
    · cases hAttempt
  have hBalance : Balance (a.past ++ deeds) s t.agenda :=
    (h.balance.of_bare rfl rfl : Balance a.past a.stream [.offer packet]).turn hTurn
  refine ⟨hStanding, hDevoted, ?_, ?_, ?_, ?_,
    hBalance.of_bare (t.bearsFrame_of_isResting hRest) rfl, fun d hd p c frame hConsume => ?_, ?_,
    h.posted.feed hFeed hDelivered hNone⟩
  · rw [List.countP_append, hNone]
    exact h.stalls
  · rw [List.countP_append, hAttempts, h.attempts]
  · rw [List.countP_append, hDelivered, h.delivered]
  · rw [List.countP_append, hHanded, h.handed]
  · rcases List.mem_append.mp hd with hOld | hNew
    · exact h.own d hOld p c frame hConsume
    · have hOwn := hFeeds d hNew
      rw [hConsume] at hOwn
      exact of_decide_eq_true hOwn
  · rcases hFeed.course with ⟨hBare, hState, _⟩ | ⟨hSome, hActive, hState, _⟩
    · dsimp only
      rw [hState, spent_append hBare, hNone]
      exact h.state
    · refine .inl ⟨?_, ?_⟩
      · dsimp only
        rw [hState]
        rfl
      · rw [spent_of_delivers a.past hSome hNone]
        rcases h.state with ⟨_, hLess⟩ | ⟨hError, _⟩
        · exact Nat.lt_of_le_of_lt (Nat.zero_le _) hLess
        · rw [hError] at hActive
          cases hActive

/-- A look leaves the watcher with notes that say what was spent. -/
theorem Noted.review {budget : Budget} (h : a.Noted budget)
    (hActive : a.stream.control.state.isActive = true) :
    a.Noted (Stream.review a.stream.control budget) ∧
      (Stream.review a.stream.control budget).retries = spent a.past := by
  rcases h with ⟨hMark, hRetries⟩ | ⟨hMark, hSpent, hState⟩
  · rw [Stream.review_of_mark hActive (Nat.le_of_eq hMark)]
    exact ⟨.inl ⟨hMark, hRetries⟩, hRetries⟩
  · unfold Stream.review
    rw [hState]
    dsimp only
    rw [if_pos hMark]
    exact ⟨.inr ⟨hMark, hSpent, hState⟩, hSpent.symm⟩

/-- A bout that leaves the stream as it is. -/
theorem Kept.idle (h : a.Kept recovery profile consumer)
    (hBout : Bout w a.watcher a.stream deeds t a.stream) (hStalled : a.isStalled = false)
    (hPosted : spent (a.past ++ deeds) = spent a.past → (a.after deeds t a.stream).Posted) :
    (a.after deeds t a.stream).Kept recovery profile consumer := by
  obtain ⟨hAttempts, hDelivers, hHanded, hSpent⟩ := hBout.idle a.past
  refine ⟨h.standing, h.devoted, ?_, ?_, ?_, ?_, hBout.balance h.balance, ?_, ?_, hPosted hSpent⟩
  · dsimp only [after]
    rw [List.countP_append, hAttempts, hStalled]
    exact h.stalls
  · dsimp only [after]
    rw [List.countP_append, hAttempts]
    exact h.attempts
  · dsimp only [after]
    rw [List.countP_append, hDelivers]
    exact h.delivered
  · dsimp only [after]
    rw [List.countP_append, hHanded]
    exact h.handed
  · intro d hd p c frame hConsume
    rcases List.mem_append.mp hd with hOld | hNew
    · exact h.own d hOld p c frame hConsume
    · exact absurd (by rw [hConsume]; rfl) (List.countP_eq_zero.mp hHanded d hNew)
  · dsimp only [after]
    rw [hSpent]
    exact h.state

/-- The bout that answers a stall. -/
theorem Kept.answer {budget : Budget} (h : a.Kept recovery profile consumer)
    (hBout : Bout w a.watcher a.stream deeds t s)
    (hActive : a.stream.control.state.isActive = true) (hRetries : budget.retries = spent a.past)
    (hStalled : a.isStalled = true)
    (hAnswered : Answered a.stream recovery profile consumer budget t s) :
    (a.after deeds t s).Kept recovery profile consumer := by
  obtain ⟨hAttempts, hDelivers, hHanded, hSpent⟩ := hBout.costs hAnswered a.past
  have hLess : spent a.past < recovery.maxRestarts.toNat := by
    rcases h.state with ⟨_, hLess⟩ | ⟨hError, _⟩
    · exact hLess
    · rw [hError] at hActive
      cases hActive
  refine ⟨hAnswered.standing, hAnswered.devoted, ?_, ?_, ?_, ?_, hBout.balance h.balance, ?_, ?_,
    .resting _ hAnswered.agenda fun _ => .inl ⟨hAnswered.delivered, ?_⟩⟩
  · dsimp only [after]
    rw [List.countP_append, hAttempts, hStalled, h.stalls]
    rfl
  · dsimp only [after]
    rw [List.countP_append, hAttempts, hAnswered.attempts, h.attempts]
  · dsimp only [after]
    rw [List.countP_append, hDelivers, hAnswered.delivered, h.delivered]
    rfl
  · dsimp only [after]
    rw [List.countP_append, hHanded, hAnswered.frames, h.handed]
    rfl
  · intro d hd p c frame hConsume
    rcases List.mem_append.mp hd with hOld | hNew
    · exact h.own d hOld p c frame hConsume
    · exact absurd (by rw [hConsume]; rfl) (List.countP_eq_zero.mp hHanded d hNew)
  · dsimp only [after]
    rw [hSpent, hAnswered.state, hRetries]
    split
    · exact .inr ⟨rfl, by omega⟩
    · exact .inl ⟨rfl, by omega⟩
  · dsimp only [after]
    rw [hSpent, hRetries]

/-- What one bout of the watcher preserves. -/
theorem Kept.bout (h : a.Kept recovery profile consumer) (hFull : recovery.IsFull)
    (hBout : Bout w a.watcher a.stream deeds t s) :
    (a.after deeds t s).Kept recovery profile consumer := by
  cases h.posted with
  | resting budget hAgenda hNoted =>
    have hStalled : a.isStalled = false := by rw [isStalled, hAgenda]
    by_cases hActive : a.stream.control.state.isActive = true
    · obtain ⟨_, _, vigil, hLook, hAgenda', hState, hActivation, hWakes⟩ :=
        Bout.of_look (w := w) h.devoted hFull hActive hAgenda
      obtain ⟨rfl, rfl, rfl⟩ := hLook.unique hBout
      obtain ⟨hNoted', hRetries⟩ := (hNoted hActive).review hActive
      refine h.idle hBout hStalled fun hSpent => .waiting _ vigil hAgenda' hActive ?_
        (Nat.le_of_eq hWakes) fun _ => ⟨hState.symm, hActivation.symm, hRetries.trans hSpent.symm⟩
      unfold Noted at hNoted' ⊢
      dsimp only [after]
      rwa [hSpent]
    · obtain ⟨_, _, wakes, hLook, hAgenda'⟩ :=
        Bout.of_look_over (w := w) h.devoted hFull (Bool.eq_false_iff.mpr hActive) hAgenda
      obtain ⟨rfl, rfl, rfl⟩ := hLook.unique hBout
      exact h.idle hBout hStalled fun _ =>
        .asleep _ wakes hAgenda' fun hOver => absurd hOver hActive
  | asleep budget wakes hAgenda hNoted =>
    obtain ⟨e, hPerform⟩ := hBout.exists_perform hAgenda (by rw [Thread.awaits, hAgenda])
    have hWoken : a.stream.control.wakes ≠ wakes := fun hSame => by
      rw [Action.perform, Stream.awaitWake?, if_pos hSame] at hPerform
      cases hPerform
    obtain ⟨_, _, hWake, hAgenda'⟩ := Bout.of_asleep (w := w) hAgenda hWoken
    obtain ⟨rfl, rfl, rfl⟩ := hWake.unique hBout
    refine h.idle hBout (by rw [isStalled, hAgenda]) fun hSpent =>
      .resting _ hAgenda' fun hActive => ?_
    have hOld := hNoted hActive
    unfold Noted at hOld ⊢
    dsimp only [after]
    rwa [hSpent]
  | waiting budget vigil hAgenda hActive hNoted hWakes hSame =>
    obtain ⟨e, hPerform⟩ := hBout.exists_perform hAgenda (by rw [Thread.awaits, hAgenda])
    have hResting {t : Thread} (hAgenda' : t.agenda = [.watch budget])
        (hSpent : spent (a.past ++ deeds) = spent a.past) : (a.after deeds t a.stream).Posted := by
      refine .resting _ hAgenda' fun _ => ?_
      unfold Noted at hNoted ⊢
      dsimp only [after]
      rwa [hSpent]
    by_cases hWoken : a.stream.control.wakes = vigil.wakes
    · obtain ⟨hState, hActivation, hRetries⟩ := hSame hWoken
      have hDue : vigil.deadlineNs ≤ a.stream.now := by
        refine Nat.le_of_not_lt fun hEarly => ?_
        rw [Action.perform, Stream.awaitFrame?, if_neg (not_not_intro hWoken), if_pos hEarly]
          at hPerform
        cases hPerform
      have hStall : a.stream.Stalled vigil := ⟨hState, hActivation, hWoken, hDue⟩
      cases hTriggered : a.stream.device.syncMode.isTriggered with
      | true =>
        obtain ⟨_, _, hWake, hAgenda'⟩ := Bout.of_triggered (w := w) hAgenda hStall hTriggered
        obtain ⟨rfl, rfl, rfl⟩ := hWake.unique hBout
        exact h.idle hBout (by simp [isStalled, hAgenda, hTriggered]) (hResting hAgenda')
      | false =>
        obtain ⟨_, _, _, hAnswer, hAnswered⟩ :=
          Bout.of_stall (w := w) h.standing h.devoted hActive hAgenda hStall hTriggered
        obtain ⟨rfl, rfl, rfl⟩ := hAnswer.unique hBout
        exact h.answer hBout hActive hRetries
          (by simp [isStalled, hAgenda, hWoken, hDue, hTriggered]) hAnswered
    · obtain ⟨_, _, hWake, hAgenda'⟩ := Bout.of_woken (w := w) hAgenda hWoken
      obtain ⟨rfl, rfl, rfl⟩ := hWake.unique hBout
      exact h.idle hBout (by simp [isStalled, hAgenda, hWoken]) (hResting hAgenda')

/-- Whatever happens, the books stay in order. -/
theorem Kept.step {b : Tended} (h : a.Kept recovery profile consumer) (hFull : recovery.IsFull)
    (hStep : Step w a b) : b.Kept recovery profile consumer := by
  cases hStep with
  | change x => exact h.change x
  | packet hTurn hRest => exact h.packet hTurn hRest
  | bout hBout => exact h.bout hFull hBout

theorem Kept.isStalled_of_error (h : a.Kept recovery profile consumer)
    (hError : a.stream.control.state = .error) : a.isStalled = false := by
  cases h.posted with
  | resting budget hAgenda => rw [isStalled, hAgenda]
  | asleep budget wakes hAgenda => rw [isStalled, hAgenda]
  | waiting budget vigil hAgenda hActive =>
    rw [hError] at hActive
    cases hActive

/-- A stream that was given up stays so, and nothing more is tried. -/
theorem Kept.step_of_error {b : Tended} (h : a.Kept recovery profile consumer)
    (hFull : recovery.IsFull) (hError : a.stream.control.state = .error) (hStep : Step w a b) :
    b.stream.control.state = .error ∧ b.stalls = a.stalls := by
  cases hStep with
  | change x => exact ⟨hError, rfl⟩
  | packet hTurn hRest =>
    obtain ⟨_, _, hFeed⟩ := hTurn.feed profile consumer
      (List.all_eq_true.mp rfl) h.devoted h.standing.calm
    rcases hFeed.course with ⟨_, hState, _⟩ | ⟨_, hActive, _⟩
    · exact ⟨hState.trans hError, rfl⟩
    · rw [hError] at hActive
      cases hActive
  | bout hBout =>
    have hStalls := congrArg (a.stalls + ·.toNat) (h.isStalled_of_error hError)
    have hOver : a.stream.control.state.isActive = false := by
      rw [hError]
      rfl
    cases h.posted with
    | resting budget hAgenda =>
      obtain ⟨_, _, _, hLook, _⟩ := Bout.of_look_over (w := w) h.devoted hFull hOver hAgenda
      obtain ⟨_, _, rfl⟩ := hLook.unique hBout
      exact ⟨hError, hStalls⟩
    | asleep budget wakes hAgenda =>
      obtain ⟨e, hPerform⟩ := hBout.exists_perform hAgenda (by rw [Thread.awaits, hAgenda])
      have hWoken : a.stream.control.wakes ≠ wakes := fun hSame => by
        rw [Action.perform, Stream.awaitWake?, if_pos hSame] at hPerform
        cases hPerform
      obtain ⟨_, _, hWake, _⟩ := Bout.of_asleep (w := w) hAgenda hWoken
      obtain ⟨_, _, rfl⟩ := hWake.unique hBout
      exact ⟨hError, hStalls⟩
    | waiting budget vigil hAgenda hActive =>
      rw [hError] at hActive
      cases hActive

/-! ### From the start -/

/-- What a caller's start makes of a new stream, if it is not refused. -/
structure New (u : Setup) (profile : Profile) (consumer : ConsumerId) (s : Stream) : Prop where
  devoted : s.Devoted u.config.recovery profile consumer
  starting : s.control.state = .starting
  stats : s.control.stats = {}
  frames : s.journal.frames = []

theorem new_of_started {u : Setup} (hConsumer : u.consumer.Undemanding)
    (hProcessor : u.pipeline.NeverStops)
    (hOk : (u.stream.core.started profile consumer).2 = .ok ()) :
    New u profile consumer (u.stream.core.started profile consumer).1 := by
  unfold Stream.started at hOk ⊢
  split at hOk
  · cases hOk
  next g table hAdmission =>
    dsimp only at hOk ⊢
    split at hOk
    next source hStart =>
      refine ⟨⟨rfl, rfl, rfl, rfl, ?_, hConsumer, hProcessor.of_processor rfl⟩, rfl, rfl, rfl⟩
      rintro c hc
      exact (Option.some.inj hc).symm
    · cases hOk

/-- A start of a new stream runs to its end. -/
theorem exists_start (u : Setup) (me : ThreadId) (profile : Profile) (consumer : ConsumerId) :
    ∃ deeds t s, Turn me { agenda := Action.start profile consumer } u.stream deeds t s ∧
      t.agenda = [] ∧ t.last = (u.stream.core.started profile consumer).2 ∧
      s.core = (u.stream.core.started profile consumer).1 := by
  have hPoised := Stream.Poised.core_iff.mpr u.standing.toPoised
  have hMoves : Moves me ⟨Action.start profile consumer ++ [], u.stream.core, {}, .ok ()⟩
      ⟨[], (u.stream.core.started profile consumer).1, {},
        (u.stream.core.started profile consumer).2⟩ :=
    .start (Locks.freeFor_none me) hPoised.feed
  obtain ⟨_, s, _, hStart, hCore, _⟩ := hMoves u.stream 0 rfl rfl u.standing.calm
  exact ⟨_, _, s, hStart, rfl, rfl, hCore⟩

theorem Begins.kept {u : Setup} (h : a.Begins u profile consumer)
    (hFull : u.config.recovery.IsFull) (hConsumer : u.consumer.Undemanding)
    (hProcessor : u.pipeline.NeverStops) : a.Kept u.config.recovery profile consumer := by
  obtain ⟨me, deeds, t, hTurn, hRest, hOk⟩ := h.started
  have hResting : t.isResting = true := by rw [Thread.isResting, hRest]
  obtain ⟨_, _, _, hStart, hRest', hLast, hCore⟩ := exists_start u me profile consumer
  obtain ⟨_, hThread, hStream⟩ := hTurn.unique hResting hStart (by rw [Thread.isResting, hRest'])
  have hStarts : Turn me { agenda := (Operation.start profile consumer).agenda } u.stream deeds t
      a.stream := hTurn
  obtain ⟨_, hStanding⟩ := Sequential.done_of_turn u.standing hStarts hResting
  have hNew := hCore ▸ new_of_started hConsumer hProcessor
    ((hThread ▸ hLast).symm.trans hOk)
  rw [hStream] at hNew
  have hStats : a.stream.control.stats = {} := hNew.stats
  have hFrames : a.stream.journal.frames = [] := hNew.frames
  have hNoted : a.Noted {} := .inl ⟨congrArg StreamStats.delivered hStats, by rw [h.past]; rfl⟩
  refine ⟨hStanding, Stream.Devoted.core_iff.mp hNew.devoted, ?_, ?_, ?_, ?_, ⟨?_, ?_⟩, ?_,
    .inl ⟨?_, ?_⟩, ?_⟩
  · rw [h.stalls, h.past]
    rfl
  · rw [hStats, h.past]
    rfl
  · rw [hStats, h.past]
    rfl
  · rw [hFrames, h.past]
    rfl
  · rw [Stream.counted, hStats, h.past]
    rfl
  · rw [hFrames, hStats]
    rfl
  · rw [h.past]
    exact List.forall_mem_nil _
  · rw [show a.stream.control.state = .starting from hNew.starting]
    rfl
  · rw [h.past]
    exact hFull.restarts
  · rcases h.watcher with hAgenda | ⟨wakes, hAgenda⟩
    · exact .resting {} hAgenda fun _ => hNoted
    · exact .asleep {} wakes hAgenda fun _ => hNoted

/-- What happens to a stream that is left to its watcher, any number of things. -/
abbrev Reaches (w : ThreadId) : Tended → Tended → Prop := Relation.ReflTransGen (Step w)

theorem Kept.of_reaches {b : Tended} (h : a.Kept recovery profile consumer)
    (hFull : recovery.IsFull) (hRun : Reaches w a b) : b.Kept recovery profile consumer := by
  induction hRun with
  | refl => exact h
  | tail _ hStep ih => exact ih.step hFull hStep

theorem Kept.ended {b : Tended} (h : a.Kept recovery profile consumer) (hFull : recovery.IsFull)
    (hError : a.stream.control.state = .error) (hRun : Reaches w a b) :
    b.stream.control.state = .error ∧ b.stalls = a.stalls := by
  induction hRun with
  | refl => exact ⟨hError, rfl⟩
  | tail hBefore hStep ih =>
    obtain ⟨hError', hStalls⟩ := (h.of_reaches hFull hBefore).step_of_error hFull ih.1 hStep
    exact ⟨hError', hStalls.trans ih.2⟩

/-- A stream that is never let run stalls, and that costs an attempt. -/
theorem Kept.exists_stall {budget : Budget} (h : a.Kept recovery profile consumer)
    (hFull : recovery.IsFull) (hActive : a.stream.control.state.isActive = true)
    (hAgenda : a.watcher.agenda = [.watch budget]) :
    ∃ b, Reaches w a b ∧ spent b.past = spent a.past + 1 ∧
      ∃ budget', b.watcher.agenda = [.watch budget'] := by
  obtain ⟨_, _, vigil, hLook, hAgenda', hState, hActivation, hWakes⟩ :=
    Bout.of_look (w := w) h.devoted hFull hActive hAgenda
  let x : Circumstances := {
    device := { a.stream.device with syncMode := .freeRun }
    refusesStart := false
    stopFailure := none
    elapsed := vigil.deadlineNs
    wall := a.stream.wall }
  have hLate := (h.bout hFull hLook).change x
  have hStall : (a.stream.amid x).Stalled vigil :=
    ⟨hState.symm, hActivation.symm, hWakes.symm, Nat.le_add_left _ _⟩
  obtain ⟨_, _, _, hBout, hAnswered⟩ :=
    Bout.of_stall (w := w) hLate.standing hLate.devoted hActive hAgenda' hStall rfl
  refine ⟨_, .tail (.tail (.single (.bout hLook)) (.change x)) (.bout hBout), ?_, _,
    hAnswered.agenda⟩
  exact (hBout.costs hAnswered _).2.2.2.trans (congrArg (· + 1) (hLook.idle a.past).2.2.2)

/-- So, in the end, it is given up. -/
theorem Kept.exists_error {budget : Budget} (h : a.Kept recovery profile consumer)
    (hFull : recovery.IsFull) (hAgenda : a.watcher.agenda = [.watch budget]) :
    ∃ b, Reaches w a b ∧ b.stream.control.state = .error := by
  induction hLeft : recovery.maxRestarts.toNat - spent a.past generalizing a budget with
  | zero =>
    rcases h.state with ⟨_, hLess⟩ | ⟨hError, _⟩
    · omega
    · exact ⟨a, .refl, hError⟩
  | succ n ih =>
    rcases h.state with ⟨hActive, _⟩ | ⟨hError, _⟩
    · obtain ⟨b, hStall, hSpent, budget', hAgenda'⟩ :=
        h.exists_stall (w := w) hFull hActive hAgenda
      obtain ⟨c, hRun, hError⟩ := ih (h.of_reaches hFull hStall) hAgenda' (by omega)
      exact ⟨c, hStall.trans hRun, hError⟩
    · exact ⟨a, .refl, hError⟩

/-- The watcher's bout at a stall: with one attempt, or with none while the device waits for
triggers. -/
theorem Kept.answered {budget : Budget} {vigil : Vigil} (h : a.Kept recovery profile consumer)
    (hAgenda : a.watcher.agenda = [.awaitFrame budget vigil])
    (hWakes : a.stream.control.wakes = vigil.wakes) (hDue : vigil.deadlineNs ≤ a.stream.now) :
    (∃ deeds t s, Bout w a.watcher a.stream deeds t s) ∧
      ∀ deeds t s, Bout w a.watcher a.stream deeds t s →
        deeds.countP Deed.isAttempt = (!a.stream.device.syncMode.isTriggered).toNat ∧
          (a.stream.device.syncMode.isTriggered = true →
            s.control.stats = a.stream.control.stats ∧ spent (a.past ++ deeds) = spent a.past ∧
              t.agenda = [.watch budget]) := by
  cases h.posted with
  | resting _ hAgenda' | asleep _ _ hAgenda' => cases hAgenda.symm.trans hAgenda'
  | waiting budget' vigil' hAgenda' hActive hNoted hLe hSame =>
    cases hAgenda.symm.trans hAgenda'
    obtain ⟨hState, hActivation, _⟩ := hSame hWakes
    have hStall : a.stream.Stalled vigil := ⟨hState, hActivation, hWakes, hDue⟩
    cases hTriggered : a.stream.device.syncMode.isTriggered with
    | true =>
      obtain ⟨deeds, t, hBout, hRest⟩ := Bout.of_triggered (w := w) hAgenda hStall hTriggered
      refine ⟨⟨_, _, _, hBout⟩, fun deeds' t' s' hBout' => ?_⟩
      obtain ⟨rfl, rfl, rfl⟩ := hBout.unique hBout'
      obtain ⟨hAttempts, _, _, hSpent⟩ := hBout.idle a.past
      exact ⟨hAttempts, fun _ => ⟨rfl, hSpent, hRest⟩⟩
    | false =>
      obtain ⟨deeds, t, s, hBout, hAnswered⟩ :=
        Bout.of_stall (w := w) h.standing h.devoted hActive hAgenda hStall hTriggered
      refine ⟨⟨_, _, _, hBout⟩, fun deeds' t' s' hBout' => ⟨?_, nofun⟩⟩
      obtain ⟨rfl, rfl, rfl⟩ := hBout.unique hBout'
      exact (hBout.costs hAnswered a.past).1

/-- How a stream stands that was started once, with this profile and this consumer, and left to its
watcher. -/
structure Accounted (w : ThreadId) (recovery : RecoveryConfig) (profile : Profile)
    (consumer : ConsumerId) (b : Tended) : Prop where
  /-- Each stall was answered with one attempt, -/
  attempts : b.past.countP Deed.isAttempt = b.stalls
  /-- and each attempt counts as a recovery or as a failed one. -/
  counted : b.stream.control.stats.recoveries + b.stream.control.stats.failedRecoveries =
    b.past.countP Deed.isAttempt
  within : spent b.past ≤ recovery.maxRestarts.toNat
  /-- The stream is given up just when all attempts are spent, -/
  failed : b.stream.control.state = .error ↔ spent b.past = recovery.maxRestarts.toNat
  /-- and then its source is idle and nothing more is tried. -/
  ended : b.stream.control.state = .error → ∀ c, Reaches w b c →
    c.stream.control.state = .error ∧ c.stream.source.receiver = none ∧
      c.past.countP Deed.isAttempt = b.past.countP Deed.isAttempt
  /-- Every frame delivered goes to the consumer of the start, under its profile. -/
  handed : b.past.countP (·.action.isHandover) = b.stream.control.stats.delivered
  own : ∀ d ∈ b.past, ∀ p c frame, d.action = .consume p c frame → p = profile ∧ c = consumer
  /-- A stall is always dealt with. While the device waits for triggers, that changes no counter and
  nothing that the watcher has noted. -/
  answered : ∀ budget vigil, b.watcher.agenda = [.awaitFrame budget vigil] →
    b.stream.control.wakes = vigil.wakes → vigil.deadlineNs ≤ b.stream.now →
      (∃ deeds t s, Bout w b.watcher b.stream deeds t s) ∧
        ∀ deeds t s, Bout w b.watcher b.stream deeds t s →
          deeds.countP Deed.isAttempt = (!b.stream.device.syncMode.isTriggered).toNat ∧
            (b.stream.device.syncMode.isTriggered = true →
              s.control.stats = b.stream.control.stats ∧ spent (b.past ++ deeds) = spent b.past ∧
                t.agenda = [.watch budget])

/-- **Every stall costs one attempt, and the last one ends it.**  A caller starts a new stream and
leaves it to its watcher: packets come in, time passes, the device and the source change as they
like, and restarts work or fail. Neither consumer nor processor ask for anything. -/
theorem accounted {u : Setup} {b : Tended} (hFull : u.config.recovery.IsFull)
    (hConsumer : u.consumer.Undemanding) (hProcessor : u.pipeline.NeverStops)
    (hBegins : a.Begins u profile consumer) (hRun : Reaches w a b) :
    b.Accounted w u.config.recovery profile consumer := by
  have hKept := (hBegins.kept hFull hConsumer hProcessor).of_reaches hFull hRun
  refine ⟨hKept.stalls.symm, hKept.attempts, ?_, ?_, fun hError c hLater => ?_, ?_, hKept.own,
    fun _ _ => hKept.answered⟩
  · rcases hKept.state with ⟨_, hLess⟩ | ⟨_, hAll⟩
    · exact Nat.le_of_lt hLess
    · exact Nat.le_of_eq hAll
  · rcases hKept.state with ⟨hActive, hLess⟩ | ⟨hError, hAll⟩
    · refine ⟨fun hError => ?_, fun hAll => absurd hAll (Nat.ne_of_lt hLess)⟩
      rw [hError] at hActive
      cases hActive
    · exact ⟨fun _ => hAll, fun _ => hError⟩
  · have hLaterKept := hKept.of_reaches hFull hLater
    obtain ⟨hError', hStalls⟩ := hKept.ended hFull hError hLater
    refine ⟨hError', (hLaterKept.standing.idle ?_).2.2, ?_⟩
    · rw [Control.canStart, hError']
      rfl
    · rw [← hLaterKept.stalls, ← hKept.stalls, hStalls]
  · rw [← hKept.handed]
    exact hKept.balance.handed

/-- Three attempts, and the stream is given up. -/
theorem accounted_pair :
    ∃ a b : Tended, a.Begins pairSetup pairProfile 7 ∧ Reaches 1 a b ∧
      b.stream.control.state = .error ∧ spent b.past = 3 ∧
      b.Accounted 1 pairSetup.config.recovery pairProfile 7 := by
  have hFull : pairSetup.config.recovery.IsFull := ⟨by decide, by decide, by decide⟩
  have hConsumer : pairSetup.consumer.Undemanding := fun call frame list h => by
    cases h
    rfl
  have hProcessor : pairSetup.pipeline.NeverStops := fun stage h => by cases h
  obtain ⟨deeds, t, s, hStart, hRest, hLast, _⟩ := exists_start pairSetup 0 pairProfile 7
  have hOk : (pairSetup.stream.core.started pairProfile 7).2 = .ok () := rfl
  let a : Tended := { stream := s, watcher := { agenda := [.watch {}] } }
  have hBegins : a.Begins pairSetup pairProfile 7 :=
    ⟨rfl, rfl, ⟨0, deeds, t, hStart, hRest, hLast.trans hOk⟩, .inl rfl⟩
  obtain ⟨b, hRun, hError⟩ :=
    (hBegins.kept hFull hConsumer hProcessor).exists_error (w := 1) hFull rfl
  have hAccounted := accounted hFull hConsumer hProcessor hBegins hRun
  exact ⟨a, b, hBegins, hRun, hError, hAccounted.failed.mp hError, hAccounted⟩

end Tended

end LidarSweep
