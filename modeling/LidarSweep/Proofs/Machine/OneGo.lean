import LidarSweep.Proofs.Machine.Disclosure

/-!
# What a thread does in one go

While no other thread moves, a thread gets through what it has in front of the rest of its agenda in
one way only (`Machine.OneGo`). What is known to come first can be taken off (`Machine.Reaches`), so
that a call is followed action by action, or several of them at a time.
-/

namespace LidarSweep

theorem news_map_action (listener : Nat) (events : List Event) :
    news listener (events.map (·.action)) = told listener events := by
  rw [news, List.filterMap_map]
  rfl

theorem toldBy_append (k : ThreadId) (listener : Nat) (events later : List Event) :
    toldBy k listener (events ++ later) = toldBy k listener events ++ toldBy k listener later := by
  rw [toldBy, List.filter_append, told_append]
  rfl

theorem toldBy_of_all {k : ThreadId} {events : List Event}
    (h : ∀ event ∈ events, event.thread = k) (listener : Nat) :
    toldBy k listener events = told listener events := by
  rw [toldBy, List.filter_eq_self.mpr fun event he => decide_eq_true (h event he)]

namespace Machine

variable {m m' m₁ m₂ : Machine} {i k : ThreadId} {action : Action} {pre rest : List Action}
  {e : Effect} {events : List Event} {acts acts' : List Action} {last : Except Error Unit}
  {taken : Nat} {s : Stream} {t : Thread}

/-- Thread `i` does what it has in front of `rest`, and no other thread moves meanwhile. -/
inductive OneGo (i : ThreadId) (rest : List Action) : Machine → List Event → Machine → Prop where
  | back {m : Machine} (hBack : m.agenda i = rest) : OneGo i rest m [] m
  | step {m m₁ m' : Machine} {action : Action} {pre : List Action} {events : List Event}
      (hAgenda : m.agenda i = action :: (pre ++ rest)) (hStep : m.step? i = some m₁)
      (hLater : OneGo i rest m₁ events m') :
      OneGo i rest m ({ action, before := m.stream, thread := i, rest := pre ++ rest } :: events) m'

theorem ne_cons_append (action : Action) (pre rest : List Action) :
    rest ≠ action :: (pre ++ rest) := by
  intro h
  have hLength := congrArg List.length h
  rw [List.length_cons, List.length_append] at hLength
  omega

namespace OneGo

/-- There is only one way. -/
theorem unique (h : OneGo i rest m events m₁) {events' : List Event}
    (h' : OneGo i rest m events' m₂) : events' = events ∧ m₂ = m₁ := by
  induction h generalizing events' with
  | back hBack =>
    cases h' with
    | back => exact ⟨rfl, rfl⟩
    | step hAgenda => exact absurd (hBack.symm.trans hAgenda) (ne_cons_append _ _ _)
  | step hAgenda hStep _ ih =>
    cases h' with
    | back hBack => exact absurd (hBack.symm.trans hAgenda) (ne_cons_append _ _ _)
    | step hAgenda' hStep' hLater' =>
      cases hStep.symm.trans hStep'
      obtain ⟨rfl, hPre⟩ := List.cons.inj (hAgenda.symm.trans hAgenda')
      obtain rfl := List.append_cancel_right hPre
      obtain ⟨rfl, rfl⟩ := ih hLater'
      exact ⟨rfl, rfl⟩

theorem path (h : OneGo i rest m events m') : Path m events m' := by
  induction h with
  | back => exact .here
  | step hAgenda hStep _ ih => exact (Path.here.step hAgenda hStep).trans ih

/-- A thread that gets done with everything does so in one go. -/
theorem of_stride {n : Nat} (h : m.stride i n = some (events, m')) (hDone : m'.agenda i = []) :
    OneGo i [] m events m' := by
  induction n generalizing m events with
  | zero =>
    cases h
    exact .back hDone
  | succ n ih =>
    rw [stride] at h
    split at h
    next action pre m₁ hAgenda hStep =>
      obtain ⟨⟨later, m₂⟩, hLater, hEq⟩ := Option.map_eq_some_iff.mp h
      cases hEq
      have hFirst : m.agenda i = action :: (pre ++ []) := by rw [List.append_nil, hAgenda]
      have hGo := OneGo.step hFirst hStep (ih hLater)
      rw [List.append_nil] at hGo
      exact hGo
    · cases h

theorem agenda_back (h : OneGo i rest m events m') : m'.agenda i = rest := by
  induction h with
  | back hBack => exact hBack
  | step _ _ _ ih => exact ih

theorem thread_eq (h : OneGo i rest m events m') : ∀ event ∈ events, event.thread = i := by
  induction h with
  | back => exact List.forall_mem_nil _
  | step _ _ _ ih => exact List.forall_mem_cons.mpr ⟨rfl, ih⟩

/-- The thread keeps what it has before it after that. -/
theorem length_le (h : OneGo i rest m events m') :
    ∀ event ∈ events, rest.length ≤ event.rest.length := by
  induction h with
  | back => exact List.forall_mem_nil _
  | step _ _ _ ih =>
    refine List.forall_mem_cons.mpr ⟨?_, ih⟩
    rw [List.length_append]
    exact Nat.le_add_left _ _

end OneGo

/-- Whatever thread `i` does in one go from `m` on, it does these actions first and is at `m₁` after
them. -/
def Reaches (i : ThreadId) (rest : List Action) (m : Machine) (acts : List Action) (m₁ : Machine) :
    Prop :=
  ∃ first : List Event, first.map (·.action) = acts ∧ ∀ events m',
    OneGo i rest m events m' ↔ ∃ later, events = first ++ later ∧ OneGo i rest m₁ later m'

namespace Reaches

theorem refl (i : ThreadId) (rest : List Action) (m : Machine) : Reaches i rest m [] m :=
  ⟨[], rfl, fun events m' => ⟨fun h => ⟨events, rfl, h⟩, by rintro ⟨later, rfl, h⟩; exact h⟩⟩

theorem trans (h : Reaches i rest m acts m₁) (h' : Reaches i rest m₁ acts' m₂) :
    Reaches i rest m (acts ++ acts') m₂ := by
  obtain ⟨first, hFirst, hIff⟩ := h
  obtain ⟨next, hNext, hIff'⟩ := h'
  refine ⟨first ++ next, by rw [List.map_append, hFirst, hNext], fun events m' => ?_⟩
  rw [hIff]
  constructor
  · rintro ⟨later, rfl, hLater⟩
    obtain ⟨later', rfl, hLater'⟩ := (hIff' _ _).mp hLater
    exact ⟨later', (List.append_assoc _ _ _).symm, hLater'⟩
  · rintro ⟨later, rfl, hLater⟩
    exact ⟨next ++ later, List.append_assoc _ _ _, (hIff' _ _).mpr ⟨later, rfl, hLater⟩⟩

/-- What is reached with nothing left in front of `rest` is where the thread gets in one go. -/
theorem oneGo (h : Reaches i rest m acts m') (hBack : m'.agenda i = rest) :
    ∃ events, events.map (·.action) = acts ∧ OneGo i rest m events m' := by
  obtain ⟨first, hFirst, hIff⟩ := h
  exact ⟨first, hFirst, (hIff _ _).mpr ⟨[], (List.append_nil _).symm, .back hBack⟩⟩

theorem of_step (pre : List Action) (hAgenda : m.agenda i = action :: (pre ++ rest))
    (hStep : m.step? i = some m₁) : Reaches i rest m [action] m₁ := by
  refine ⟨[{ action, before := m.stream, thread := i, rest := pre ++ rest }], rfl,
    fun events m' => ⟨fun h => ?_, ?_⟩⟩
  · cases h with
    | back hBack => exact absurd (hBack.symm.trans hAgenda) (ne_cons_append _ _ _)
    | step hAgenda' hStep' hLater =>
      cases hStep.symm.trans hStep'
      obtain ⟨rfl, hPre⟩ := List.cons.inj (hAgenda.symm.trans hAgenda')
      obtain rfl := List.append_cancel_right hPre
      exact ⟨_, rfl, hLater⟩
  · rintro ⟨later, rfl, hLater⟩
    exact .step hAgenda hStep hLater

end Reaches

/-! ### One thread at work -/

/-- The machine when thread `i` has got to `t` and the stream to `s`. -/
def seat (m : Machine) (i : ThreadId) (t : Thread) (s : Stream) : Machine :=
  ⟨s, m.threads.set i t⟩

theorem exists_thread (hAgenda : m.agenda i = action :: rest) :
    ∃ t, m.threads[i]? = some t ∧ t.agenda = action :: rest := by
  rw [agenda] at hAgenda
  cases hThread : m.threads[i]? with
  | none =>
    rw [hThread] at hAgenda
    cases hAgenda
  | some t =>
    rw [hThread] at hAgenda
    exact ⟨t, rfl, hAgenda⟩

theorem seat_self (hThread : m.threads[i]? = some t) : m.seat i t m.stream = m := by
  obtain ⟨_, rfl⟩ := List.getElem?_eq_some_iff.mp hThread
  rw [seat, List.set_getElem_self]

/-- A thread that has anything before it sits where it is. -/
theorem exists_seat {agenda : List Action} (hAgenda : m.agenda i = agenda) (hBusy : agenda ≠ []) :
    ∃ last taken, i < m.threads.length ∧ m.seat i ⟨agenda, last, taken⟩ m.stream = m := by
  obtain ⟨action, rest, rfl⟩ := List.exists_cons_of_ne_nil hBusy
  obtain ⟨⟨_, last, taken⟩, hThread, rfl⟩ := exists_thread hAgenda
  exact ⟨last, taken, (List.getElem?_eq_some_iff.mp hThread).1, seat_self hThread⟩

theorem thread_seat (hThere : i < m.threads.length) (t : Thread) (s : Stream) :
    (m.seat i t s).threads[i]? = some t := List.getElem?_set_self hThere

theorem agenda_seat (hThere : i < m.threads.length) (t : Thread) (s : Stream) :
    (m.seat i t s).agenda i = t.agenda := by rw [agenda, thread_seat hThere]

theorem last_seat (hThere : i < m.threads.length) (t : Thread) (s : Stream) :
    (m.seat i t s).last i = t.last := by rw [Machine.last, thread_seat hThere]

theorem step_seat (hThere : i < m.threads.length) {rest : List Action}
    (hAgenda : t.agenda = action :: rest) :
    (m.seat i t s).step? i = (action.perform i t.last s).map fun e =>
      ⟨e.stream, m.threads.set i (t.advance e) ++
        e.spawned.map fun agenda => ({ agenda } : Thread)⟩ := by
  unfold step?
  rw [thread_seat hThere]
  dsimp only
  rw [hAgenda]
  dsimp only [seat]
  simp only [List.set_set]

/-- An action that sets no new thread to work. -/
theorem Reaches.act (hThere : i < m.threads.length) (hPerform : action.perform i last s = some e)
    (hAlone : e.spawned = []) :
    Reaches i rest (m.seat i ⟨action :: (pre ++ rest), last, taken⟩ s) [action]
      (m.seat i ⟨e.next ++ (pre ++ rest), e.result.getD last, taken + e.taken⟩ e.stream) := by
  refine .of_step pre (agenda_seat hThere _ _) ?_
  rw [step_seat hThere rfl]
  dsimp only
  rw [hPerform, Option.map_some, hAlone, List.map_nil, List.append_nil]
  rfl

/-- Actions of thread `me` that do nothing but to change the stream. -/
inductive Passes (me : ThreadId) (last : Except Error Unit) :
    Stream → List Action → Stream → Prop where
  | nil (s : Stream) : Passes me last s [] s
  | cons {s s₁ s' : Stream} {action : Action} {acts : List Action}
      (hPerform : action.perform me last s = some { stream := s₁ })
      (hLater : Passes me last s₁ acts s') : Passes me last s (action :: acts) s'

theorem Passes.reaches {s' : Stream} (h : Passes i last s acts s') (hThere : i < m.threads.length)
    (pre rest : List Action) (taken : Nat) :
    Reaches i rest (m.seat i ⟨acts ++ (pre ++ rest), last, taken⟩ s) acts
      (m.seat i ⟨pre ++ rest, last, taken⟩ s') := by
  induction h with
  | nil => exact .refl i rest _
  | @cons s s₁ s' action acts hPerform _ ih =>
    have hFirst : Reaches i rest
        (m.seat i ⟨action :: ((acts ++ pre) ++ rest), last, taken⟩ s) [action]
        (m.seat i ⟨(acts ++ pre) ++ rest, last, taken⟩ s₁) :=
      .act hThere hPerform rfl
    rw [List.append_assoc] at hFirst
    exact hFirst.trans ih

/-- A thread that has to wait gets nothing done. -/
theorem not_oneGo (hThere : i < m.threads.length) (pre : List Action)
    (hWaits : action.perform i last s = none) :
    ¬ OneGo i rest (m.seat i ⟨action :: (pre ++ rest), last, taken⟩ s) events m' := by
  intro h
  cases h with
  | back hBack =>
    rw [agenda_seat hThere] at hBack
    exact absurd hBack.symm (ne_cons_append _ _ _)
  | step _ hStep =>
    rw [step_seat hThere rfl] at hStep
    dsimp only at hStep
    rw [hWaits] at hStep
    cases hStep

end Machine

end LidarSweep
