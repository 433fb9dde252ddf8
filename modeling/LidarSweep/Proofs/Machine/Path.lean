import LidarSweep.Proofs.Stream.Sequential

/-!
# Interleavings

A path is what happens on a machine, step by step, when any thread may move at any time and the
circumstances of the stream may change in between. It is written down as the list of its events:
which thread did what, what it still had before it, and how the stream was until then.

Threads begin with requests: with what code from outside asks of a stream.
-/

namespace LidarSweep

/-- What code from outside has a thread do. -/
inductive Request where
  | start (profile : Profile) (consumer : ConsumerId)
  | stop
  | inject (packet : List UInt8)
  | configure (recovery : RecoveryConfig)
  /-- Sets a watcher to work -/
  | employ
  | discard

def Request.actions : Request → List Action
  | start profile consumer => Action.start profile consumer
  | stop => Action.stop
  | inject packet => [.offer packet]
  | configure recovery => [.configure recovery]
  | employ => [.employ]
  | discard => Action.discard

/-- A step of a thread. -/
structure Event extends Deed where
  thread : ThreadId
  /-- What the thread had before it beyond this action -/
  rest : List Action

namespace Machine

/-- What thread `i` has before it. -/
def agenda (m : Machine) (i : ThreadId) : List Action :=
  match m.threads[i]? with
  | some t => t.agenda
  | none => []

/-- The machine of a stream that was never started, on which threads are to begin. -/
structure Fresh (m : Machine) : Prop where
  stopped : m.stream.control.state = .stopped
  free : m.stream.locks = {}
  requests : ∀ i, ∃ requests : List Request, m.agenda i = requests.flatMap Request.actions

/-- What holds of all that code from outside asks for holds of what threads begin with. -/
theorem Fresh.forall_mem {m : Machine} {p : Action → Bool} (h : m.Fresh)
    (hRequests : ∀ r : Request, r.actions.all p = true) (k : ThreadId) :
    ∀ x ∈ m.agenda k, p x = true := by
  obtain ⟨requests, hAgenda⟩ := h.requests k
  rw [hAgenda]
  intro x hx
  obtain ⟨r, _, hr⟩ := List.mem_flatMap.mp hx
  exact List.all_eq_true.mp (hRequests r) x hr

/-- What a step of thread `i` does to all agendas and to the stream. -/
structure Moved (m : Machine) (i : ThreadId) (action : Action) (rest : List Action) (e : Effect)
    (m' : Machine) : Prop where
  agenda : m.agenda i = action :: rest
  performs : ∃ last, action.perform i last m.stream = some e
  stream : m'.stream = e.stream
  own : m'.agenda i = e.next ++ rest
  /-- The other threads stay where they are, and new ones begin. -/
  others : ∀ k, k ≠ i →
    m'.agenda k = m.agenda k ∨ m.threads.length ≤ k ∧ m'.agenda k ∈ e.spawned
  grows : m.threads.length ≤ m'.threads.length

theorem agenda_of_length_le {m : Machine} {k : ThreadId} (h : m.threads.length ≤ k) :
    m.agenda k = [] := by
  rw [agenda, List.getElem?_eq_none h]

theorem lt_length_of_agenda {m : Machine} {k : ThreadId} (h : m.agenda k ≠ []) :
    k < m.threads.length :=
  Nat.lt_of_not_le fun hLe => h (agenda_of_length_le hLe)

/-- A thread that there is stays where it is while another moves. -/
theorem Moved.agenda_of_ne {m m' : Machine} {i k : ThreadId} {action : Action}
    {rest : List Action} {e : Effect} (h : m.Moved i action rest e m') (hOther : k ≠ i)
    (hThere : k < m.threads.length) : m'.agenda k = m.agenda k :=
  (h.others k hOther).resolve_right fun hNew => Nat.not_le_of_lt hThere hNew.1

/-- How the latest start or halt of thread `i` ended. -/
def last (m : Machine) (i : ThreadId) : Except Error Unit :=
  match m.threads[i]? with
  | some t => t.last
  | none => .ok ()

/-- A step of thread `i` moves it, and nobody else learns how its starts and halts end. -/
theorem moved_and_last_of_step {m m' : Machine} {i : ThreadId} (h : m.step? i = some m') :
    ∃ action rest e, m.Moved i action rest e m' ∧
      action.perform i (m.last i) m.stream = some e ∧
      m'.last i = e.result.getD (m.last i) ∧
      ∀ k, k ≠ i → k < m.threads.length → m'.last k = m.last k := by
  unfold step? at h
  cases hThread : m.threads[i]? with
  | none =>
    rw [hThread] at h
    cases h
  | some t =>
    rw [hThread] at h
    dsimp only at h
    cases hAgenda : t.agenda with
    | nil =>
      rw [hAgenda] at h
      cases h
    | cons action rest =>
      rw [hAgenda] at h
      obtain ⟨e, hPerform, rfl⟩ := Option.map_eq_some_iff.mp h
      obtain ⟨hLength, _⟩ := List.getElem?_eq_some_iff.mp hThread
      have hOwn : (m.threads.set i (t.advance e) ++ e.spawned.map fun agenda =>
          ({ agenda } : Thread))[i]? = some (t.advance e) := by
        rw [List.getElem?_append_left (by rwa [List.length_set]), List.getElem?_set_self hLength]
      have hOld (k : ThreadId) (hOther : k ≠ i) (hThere : k < m.threads.length) :
          (m.threads.set i (t.advance e) ++ e.spawned.map fun agenda =>
            ({ agenda } : Thread))[k]? = m.threads[k]? := by
        rw [List.getElem?_append_left (by rwa [List.length_set]),
          List.getElem?_set_ne (Ne.symm hOther)]
      have hLast : m.last i = t.last := by rw [last, hThread]
      refine ⟨action, rest, e, ⟨?_, ⟨t.last, hPerform⟩, rfl, ?_, fun k hOther => ?_, ?_⟩, ?_, ?_,
        fun k hOther hThere => ?_⟩
      · rw [agenda, hThread]
        exact hAgenda
      · simp only [agenda, hOwn]
        rw [Thread.advance, hAgenda]
        rfl
      · simp only [agenda]
        rcases Nat.lt_or_ge k m.threads.length with hThere | hNew
        · rw [hOld k hOther hThere]
          exact .inl rfl
        · rw [List.getElem?_append_right (by rwa [List.length_set]), List.length_set,
            List.getElem?_eq_none hNew, List.getElem?_map]
          cases hSpawned : e.spawned[k - m.threads.length]? with
          | none => exact .inl rfl
          | some agenda => exact .inr ⟨hNew, List.mem_of_getElem? hSpawned⟩
      · rw [List.length_append, List.length_set]
        exact Nat.le_add_right _ _
      · rwa [hLast]
      · simp only [last, hOwn, hThread]
        rfl
      · simp only [last, hOld k hOther hThere]

theorem moved_of_step {m m' : Machine} {i : ThreadId} (h : m.step? i = some m') :
    ∃ action rest e, m.Moved i action rest e m' := by
  obtain ⟨action, rest, e, hMoved, _⟩ := moved_and_last_of_step h
  exact ⟨action, rest, e, hMoved⟩

/-- The machine in other circumstances. -/
def amid (m : Machine) (x : Circumstances) : Machine := { m with stream := m.stream.amid x }

/-- What happens on a machine from `m₀` on, and what comes of it. -/
inductive Path (m₀ : Machine) : List Event → Machine → Prop where
  | here : Path m₀ [] m₀
  | change {events : List Event} {m : Machine} (x : Circumstances) (hPath : Path m₀ events m) :
      Path m₀ events (m.amid x)
  | step {events : List Event} {m m' : Machine} {i : ThreadId} {action : Action}
      {rest : List Action} (hPath : Path m₀ events m) (hAgenda : m.agenda i = action :: rest)
      (hStep : m.step? i = some m') :
      Path m₀ (events ++ [{ action, before := m.stream, thread := i, rest }]) m'

namespace Path

variable {m₀ m m' : Machine} {events events' : List Event}

theorem trans (h : Path m₀ events m) (h' : Path m events' m') : Path m₀ (events ++ events') m' := by
  induction h' with
  | here => rwa [List.append_nil]
  | change x _ ih => exact ih.change x
  | step _ hAgenda hStep ih =>
    rw [← List.append_assoc]
    exact ih.step hAgenda hStep

/-- Where the events so far are more than `before`, there was a machine that these had led to. -/
theorem of_append {before after : List Event} (h : Path m₀ (before ++ after) m) :
    ∃ m₁, Path m₀ before m₁ ∧ Path m₁ after m := by
  generalize hEvents : before ++ after = events at h
  induction h generalizing after with
  | here =>
    obtain ⟨rfl, rfl⟩ := List.append_eq_nil_iff.mp hEvents
    exact ⟨m₀, .here, .here⟩
  | change x _ ih =>
    obtain ⟨m₁, hBefore, hAfter⟩ := ih hEvents
    exact ⟨m₁, hBefore, hAfter.change x⟩
  | step hPath hAgenda hStep ih =>
    rcases List.eq_nil_or_concat after with rfl | ⟨after, event, rfl⟩
    · rw [List.append_nil] at hEvents
      exact ⟨_, hEvents ▸ hPath.step hAgenda hStep, .here⟩
    · rw [List.concat_eq_append, ← List.append_assoc] at hEvents
      obtain ⟨hInit, hLast⟩ := List.append_inj' hEvents rfl
      obtain rfl := List.singleton_inj.mp hLast
      obtain ⟨m₁, hBefore, hAfter⟩ := ih hInit
      rw [List.concat_eq_append]
      exact ⟨m₁, hBefore, hAfter.step hAgenda hStep⟩

/-- The first event is of what its thread had before it. -/
theorem agenda_of_cons {event : Event} {after : List Event} (h : Path m₀ (event :: after) m) :
    m₀.agenda event.thread = event.action :: event.rest := by
  have hNil {m : Machine} (h : Path m₀ [] m) (k : ThreadId) : m.agenda k = m₀.agenda k := by
    generalize hEvents : [] = events at h
    induction h with
    | here => rfl
    | change x _ ih => exact ih hEvents
    | step => simp at hEvents
  generalize hEvents : event :: after = events at h
  induction h generalizing after with
  | here => cases hEvents
  | change x _ ih => exact ih hEvents
  | @step events m m' i action rest hPath hAgenda hStep ih =>
    cases events with
    | nil =>
      obtain ⟨rfl, _⟩ := List.cons.inj hEvents
      rw [← hNil hPath]
      exact hAgenda
    | cons first events =>
      obtain ⟨rfl, _⟩ := List.cons.inj hEvents
      exact ih rfl

/-- A run of the machine is a path. -/
theorem of_run (h : Run m₀ m) : ∃ events, Path m₀ events m := by
  induction h with
  | refl => exact ⟨[], .here⟩
  | step _ hStep ih =>
    obtain ⟨events, hPath⟩ := ih
    obtain ⟨action, rest, e, hMoved⟩ := moved_of_step hStep
    exact ⟨_, hPath.step hMoved.agenda hStep⟩
  | @pass m now _ ih =>
    obtain ⟨events, hPath⟩ := ih
    let x : Circumstances := {
      device := m.stream.device
      refusesStart := m.stream.source.refusesStart
      stopFailure := m.stream.source.stopFailure
      elapsed := max m.stream.now now - m.stream.now
      wall := m.stream.wall }
    have hLater : m.stream.now + (max m.stream.now now - m.stream.now) = max m.stream.now now :=
      Nat.add_sub_of_le (Nat.le_max_left _ _)
    have hPass : m.amid x = m.passTo now := by
      unfold amid Stream.amid passTo
      rw [hLater]
    exact ⟨events, hPass ▸ hPath.change x⟩

/-- What holds at first and is kept by every change and every move holds all along. -/
@[elab_as_elim]
theorem induct {motive : ∀ events m, Path m₀ events m → Prop} (here : motive [] m₀ .here)
    (change : ∀ {events m} (x : Circumstances) (hPath : Path m₀ events m),
      motive events m hPath → motive events (m.amid x) (hPath.change x))
    (step : ∀ {events m m' i action rest e} (hPath : Path m₀ events m)
      (_ : m.Moved i action rest e m')
      (hNext : Path m₀ (events ++ [{ action, before := m.stream, thread := i, rest }]) m'),
      motive events m hPath → motive _ m' hNext)
    {events : List Event} {m : Machine} (h : Path m₀ events m) : motive events m h := by
  induction h with
  | here => exact here
  | change x hPath ih => exact change x hPath ih
  | step hPath hAgenda hStep ih =>
    obtain ⟨_, _, _, hMoved⟩ := moved_of_step hStep
    obtain ⟨rfl, rfl⟩ := List.cons.inj (hAgenda.symm.trans hMoved.agenda)
    exact step hPath hMoved _ ih

end Path

/-! ### Paths to order -/

/-- A machine on which each thread begins with its requests. -/
def begin (s : Stream) (work : List (List Request)) : Machine where
  stream := s
  threads := work.map fun requests => { agenda := requests.flatMap Request.actions }

theorem fresh_begin {s : Stream} (hStopped : s.control.state = .stopped) (hFree : s.locks = {})
    (work : List (List Request)) : (begin s work).Fresh := by
  refine ⟨hStopped, hFree, fun i => ?_⟩
  simp only [agenda, begin, List.getElem?_map]
  cases work[i]? with
  | none => exact ⟨[], rfl⟩
  | some requests => exact ⟨requests, rfl⟩

/-- What is to happen next. -/
inductive Cue where
  /-- A thread takes so many steps -/
  | go (thread : ThreadId) (steps : Nat)
  /-- Nanoseconds pass -/
  | pass (ns : Nat)

/-- Thread `i` takes so many steps, with the events. -/
def stride (m : Machine) (i : ThreadId) : Nat → Option (List Event × Machine)
  | 0 => some ([], m)
  | n + 1 =>
    match m.agenda i, m.step? i with
    | action :: rest, some m' =>
      (m'.stride i n).map fun (events, m'') =>
        ({ action, before := m.stream, thread := i, rest } :: events, m'')
    | _, _ => none

/-- Nothing changes but the time. -/
def wait (m : Machine) (ns : Nat) : Machine :=
  m.amid {
    device := m.stream.device
    refusesStart := m.stream.source.refusesStart
    stopFailure := m.stream.source.stopFailure
    elapsed := ns
    wall := m.stream.wall }

def follow (m : Machine) : List Cue → Option (List Event × Machine)
  | [] => some ([], m)
  | .go i n :: cues =>
    (m.stride i n).bind fun (events, m') =>
      (m'.follow cues).map fun (later, m'') => (events ++ later, m'')
  | .pass ns :: cues => (m.wait ns).follow cues

theorem Path.of_stride {m m' : Machine} {i : ThreadId} {n : Nat} {events : List Event}
    (h : m.stride i n = some (events, m')) : Path m events m' := by
  induction n generalizing m events with
  | zero =>
    cases h
    exact .here
  | succ n ih =>
    rw [stride] at h
    split at h
    next action rest m₁ hAgenda hStep =>
      obtain ⟨⟨later, m₂⟩, hLater, hEq⟩ := Option.map_eq_some_iff.mp h
      cases hEq
      exact (Path.here.step hAgenda hStep).trans (ih hLater)
    · cases h

/-- What follows the cues is a path. -/
theorem Path.of_follow {m m' : Machine} {cues : List Cue} {events : List Event}
    (h : m.follow cues = some (events, m')) : Path m events m' := by
  induction cues generalizing m events with
  | nil =>
    cases h
    exact .here
  | cons cue cues ih =>
    cases cue with
    | go i n =>
      obtain ⟨⟨first, m₁⟩, hFirst, hRest⟩ := Option.bind_eq_some_iff.mp h
      obtain ⟨⟨later, m₂⟩, hLater, hEq⟩ := Option.map_eq_some_iff.mp hRest
      cases hEq
      exact (of_stride hFirst).trans (ih hLater)
    | pass ns => exact (Path.here.change _).trans (ih h)

/-- Whether the cues can be followed, and lead to where the check holds. -/
def leads (m : Machine) (cues : List Cue) (check : List Event → Machine → Bool) : Bool :=
  (m.follow cues).any fun (events, m') => check events m'

theorem exists_of_leads {m : Machine} {cues : List Cue} {check : List Event → Machine → Bool}
    (h : m.leads cues check = true) :
    ∃ events m', Path m events m' ∧ check events m' = true := by
  obtain ⟨⟨events, m'⟩, hFollow, hCheck⟩ := (Option.any_eq_true _ _).mp h
  exact ⟨events, m', .of_follow hFollow, hCheck⟩

end Machine

end LidarSweep
