import LidarSweep.Proofs.Machine.OneGo

/-!
# Telling listeners in one go

A listener may stop the stream when it is told of a state, or spare it (`Stream.Spared`). Telling
listeners of a state at which they spare the stream, or of anything while the stream is stopped,
comes to an end and leaves the stream to itself: only listeners and log have anything new
(`Stream.Unmoved`). Nobody is told of anything else on the way.
-/

namespace LidarSweep

namespace Locks

variable {ls : Locks} {lock : Lock} {me : ThreadId}

/-- A lock is in no other thread's hands. -/
def IsOpen (ls : Locks) (lock : Lock) (me : ThreadId) : Prop :=
  ∀ hold, ls.holder lock = some hold → hold.owner = me ∧ 0 < hold.depth

theorem isOpen_of_none (h : ls.holder lock = none) : ls.IsOpen lock me := by
  intro hold hHold
  cases h.symm.trans hHold

theorem isOpen_set_self (ls : Locks) (lock : Lock) (me : ThreadId) (depth : Nat) :
    (ls.set lock (some ⟨me, depth + 1⟩)).IsOpen lock me := by
  intro hold hHold
  rw [holder_set_self] at hHold
  cases hHold
  exact ⟨rfl, Nat.succ_pos depth⟩

theorem IsOpen.set_of_ne (h : ls.IsOpen lock me) {other : Lock} (hOther : lock ≠ other)
    (hold : Option Hold) : (ls.set other hold).IsOpen lock me := by
  intro hold' hHold
  rw [holder_set_of_ne ls hOther] at hHold
  exact h hold' hHold

/-- An open lock can be had, and its release undoes just that. -/
theorem IsOpen.acquire (h : ls.IsOpen lock me) :
    ∃ locks, ls.acquire? lock me = some locks ∧ locks.IsOpen lock me ∧
      locks.release lock = ls ∧ ∀ other, other ≠ lock → locks.holder other = ls.holder other := by
  unfold acquire?
  cases hHolder : ls.holder lock with
  | none =>
    refine ⟨_, rfl, ls.isOpen_set_self lock me 0, ?_,
      fun other hOther => holder_set_of_ne ls hOther _⟩
    simp only [release, holder_set_self]
    rw [set_set, set_eq_self hHolder]
  | some hold =>
    obtain ⟨owner, depth⟩ := hold
    obtain ⟨rfl, hDepth⟩ := h _ hHolder
    obtain ⟨n, rfl⟩ := Nat.exists_eq_succ_of_ne_zero (Nat.ne_of_gt hDepth)
    refine ⟨_, if_pos rfl, ls.isOpen_set_self lock owner (n + 1), ?_,
      fun other hOther => holder_set_of_ne ls hOther _⟩
    simp only [release, holder_set_self]
    rw [set_set, set_eq_self hHolder]

/-- No thread closes a lock to itself by taking one, -/
theorem IsOpen.of_acquire (h : ls.IsOpen lock me) {other : Lock} {ls' : Locks}
    (hAcquire : ls.acquire? other me = some ls') : ls'.IsOpen lock me := by
  by_cases hSame : lock = other
  · subst hSame
    obtain ⟨locks, hHad, hOpen, _⟩ := h.acquire
    cases hHad.symm.trans hAcquire
    exact hOpen
  · unfold acquire? at hAcquire
    split at hAcquire
    · cases hAcquire
      exact h.set_of_ne hSame _
    · split at hAcquire
      · cases hAcquire
        exact h.set_of_ne hSame _
      · cases hAcquire

/-- or by letting go of one. -/
theorem IsOpen.of_release (h : ls.IsOpen lock me) (other : Lock) :
    (ls.release other).IsOpen lock me := by
  have hNone : (ls.set other none).IsOpen lock me := by
    by_cases hSame : lock = other
    · subst hSame
      exact isOpen_of_none (holder_set_self _ _ _)
    · exact h.set_of_ne hSame _
  unfold release
  split
  next owner depth hHolder =>
    by_cases hSame : lock = other
    · subst hSame
      obtain ⟨rfl, _⟩ := h _ hHolder
      exact ls.isOpen_set_self lock owner depth
    · exact h.set_of_ne hSame _
  · exact hNone

/-- Whoever can have a lock finds it open. -/
theorem IsFirm.isOpen (hFirm : ls.IsFirm lock) {ls' : Locks}
    (h : ls.acquire? lock me = some ls') : ls.IsOpen lock me := by
  intro hold hHold
  refine ⟨?_, hFirm hold hHold⟩
  unfold acquire? at h
  rw [hHold] at h
  dsimp only at h
  split at h
  case isTrue hOwner => exact hOwner
  case isFalse => cases h

end Locks

theorem Control.state_of_transition {c : Control} {target : StreamState} {n : Notice}
    (h : (c.transition target).2 = some n) : n.state = target := by
  unfold transition at h
  split at h
  · cases h
  · dsimp only at h
    split at h
    · cases h
    · unfold notice at h
      split at h
      · cases h
      · cases h
        rfl

/-- Listeners are told of a change, unless a restart goes on. -/
theorem Control.news_transition {c : Control} {target : StreamState} (hChange : c.state ≠ target)
    (listener : Nat) :
    news listener (Notice.tellAll (c.transition target).2) =
      if c.quiet = false ∧ listener < c.listeners.length then [target] else [] := by
  rw [transition, if_neg hChange]
  dsimp only
  cases c.quiet with
  | true => simp [Control.wake, Notice.tellAll, news]
  | false => simp [Control.wake, news_tellAll]

namespace Listener

/-- Never stops the stream when it is told of this state. -/
def Spares (l : Listener) (state : StreamState) : Prop := ∀ r ∈ l.plan, r ≠ (state, .stop)

/-- What a listener has still before it was before it already, and it reacts as it had planned. -/
theorem hear_spec (l : Listener) (state : StreamState) :
    (∀ r ∈ (l.hear state).1.plan, r ∈ l.plan) ∧
      ∀ reaction, (l.hear state).2 = some reaction → (state, reaction) ∈ l.plan := by
  obtain ⟨keeps, plan⟩ := l
  cases plan with
  | nil => exact ⟨fun r hr => hr, fun _ hReaction => by cases hReaction⟩
  | cons r plan =>
    simp only [hear]
    split
    case isTrue hAwaited =>
      refine ⟨fun q hq => List.mem_cons_of_mem _ hq, fun reaction hReaction => ?_⟩
      cases hReaction
      exact hAwaited ▸ List.mem_cons_self
    case isFalse => exact ⟨fun q hq => hq, fun _ hReaction => by cases hReaction⟩

end Listener

namespace Stream

variable {s s' s'' : Stream}

/-- No listener stops the stream when it is told of this state. -/
def Spared (s : Stream) (state : StreamState) : Prop :=
  ∀ l ∈ s.control.listeners, l.Spares state

/-- Nothing is new but what listeners heard, what they have still before them, and the log. -/
structure Unmoved (s s' : Stream) : Prop where
  core : s'.core = s.core
  locks : s'.locks = s.locks
  audience : s'.control.listeners.length = s.control.listeners.length
  spared : ∀ state, s.Spared state → s'.Spared state

namespace Unmoved

theorem refl (s : Stream) : s.Unmoved s := ⟨rfl, rfl, rfl, fun _ h => h⟩

theorem trans (h : s.Unmoved s') (h' : s'.Unmoved s'') : s.Unmoved s'' where
  core := h'.core.trans h.core
  locks := h'.locks.trans h.locks
  audience := h'.audience.trans h.audience
  spared state hSpared := h'.spared state (h.spared state hSpared)

theorem state (h : s.Unmoved s') : s'.control.state = s.control.state := by
  show s'.core.control.state = s.core.control.state
  rw [h.core]

theorem heard (s : Stream) (entry : ListenerEntry) : s.Unmoved (s.heard entry) :=
  ⟨rfl, rfl, rfl, fun _ h => h⟩

theorem log (s : Stream) (lines : List LogLine) : s.Unmoved (s.log lines) :=
  ⟨rfl, rfl, rfl, fun _ h => h⟩

end Unmoved

/-- A listener has less before it. -/
theorem unmoved_set {l l' : Listener} {i : Nat} (hListener : s.control.listeners[i]? = some l)
    (hLess : ∀ r ∈ l'.plan, r ∈ l.plan) :
    s.Unmoved { s with
      control := { s.control with listeners := s.control.listeners.set i l' } } where
  core := rfl
  locks := rfl
  audience := List.length_set
  spared state hSpared := by
    intro l₁ hl₁
    rcases List.mem_or_eq_of_mem_set hl₁ with hOld | rfl
    · exact hSpared l₁ hOld
    · exact fun r hr => hSpared l (List.mem_of_getElem? hListener) r (hLess r hr)

/-- **Telling a listener** is all there is to it, or the listener stops the stream. -/
theorem tell_cases (s : Stream) (listener : Nat) (state : StreamState)
    (profile : Option Profile) :
    ∃ s', s.Unmoved s' ∧ (s.tell listener state profile = { stream := s' } ∨
      ¬ s.Spared state ∧ s.tell listener state profile =
        { stream := s', next := Action.stop ++ [.hearStopped] }) := by
  unfold tell
  cases hListener : s.control.listeners[listener]? with
  | none => exact ⟨s, .refl s, .inl rfl⟩
  | some l =>
    dsimp only
    generalize hHeard : (if l.keeps then s.heard (.state state profile) else s) = heard
    have hUnmoved : s.Unmoved heard ∧ heard.control = s.control := by
      subst hHeard
      split
      · exact ⟨.heard s _, rfl⟩
      · exact ⟨.refl s, rfl⟩
    obtain ⟨hLess, hPlanned⟩ := l.hear_spec state
    generalize l.hear state = after at hLess hPlanned
    obtain ⟨l', reaction⟩ := after
    have hSet := hUnmoved.1.trans (unmoved_set (hUnmoved.2 ▸ hListener) hLess)
    cases reaction with
    | none => exact ⟨_, hSet, .inl rfl⟩
    | some reaction =>
      cases reaction with
      | note => exact ⟨_, hSet.trans (.heard _ _), .inl rfl⟩
      | panic reason => exact ⟨_, hSet.trans (.log _ _), .inl rfl⟩
      | stop =>
        refine ⟨_, hSet, ?_⟩
        dsimp only
        rw [request]
        by_cases hAbandoned : heard.isAbandoned = true
        · exact .inl (congrArg (Effect.mk _ · none 0 []) (if_pos hAbandoned))
        · refine .inr ⟨fun hSpared => ?_, congrArg (Effect.mk _ · none 0 []) (if_neg hAbandoned)⟩
          exact hSpared l (List.mem_of_getElem? hListener) _ (hPlanned _ rfl) rfl

end Stream

/-- Listeners that spare the stream at a state go on doing so, whatever is done. -/
theorem Action.spared_of_perform {action : Action} {me : ThreadId} {last : Except Error Unit}
    {s : Stream} {e : Effect} {state : StreamState} (hSpared : s.Spared state)
    (h : action.perform me last s = some e) : e.stream.Spared state := by
  by_cases hTells : action.tells = true
  · cases action
    case tell listener state' profile =>
      cases h
      obtain ⟨s', hUnmoved, hTell | ⟨_, hTell⟩⟩ := s.tell_cases listener state' profile
      all_goals
        rw [hTell]
        exact hUnmoved.spared state hSpared
    all_goals cases hTells
  · have hSame := listeners_of_perform (Bool.eq_false_iff.mpr hTells) h
    exact fun l hl => hSpared l (hSame ▸ hl)

end LidarSweep
