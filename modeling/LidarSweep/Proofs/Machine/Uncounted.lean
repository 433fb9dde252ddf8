import LidarSweep.Proofs.Machine.Refusal

/-!
# What counts on from start to start

Activations are numbered, starts and wakes counted, and the counters of the stream and of its last
assembler are kept. Actions that come late in a start do not look at any of these
(`Action.perform_uncounted`), so whatever is left of a start once its activation has begun goes the
same way with other numbers and counts (`Machine.OneGo.alike`).
-/

namespace LidarSweep

namespace Action

/-- The action without the number of its activation. -/
def unnumbered : Action → Action
  | openSource _ => .openSource 0
  | play _ index dueNs => .play 0 index dueNs
  | action => action

/-- Whether the action may come after an activation has begun and before its start is over; a
listener may stop the stream in between. -/
def isLate : Action → Bool
  | acquire _ | release _ | finish _ | openSource _ | uninstall | revert _ | halt _ | beginHalt _
  | closeSource _ | retire | settle _ _ | conclude _ _ | tell _ _ _ | hearStopped => true
  | _ => false

@[simp] theorem unnumbered_unnumbered (action : Action) :
    action.unnumbered.unnumbered = action.unnumbered := by
  cases action <;> rfl

theorem isLate_unnumbered (action : Action) : action.unnumbered.isLate = action.isLate := by
  cases action <;> rfl

theorem news_unnumbered (action : Action) (listener : Nat) :
    action.unnumbered.news? listener = action.news? listener := by
  cases action <;> rfl

end Action

/-- The control block without what counts on from activation to activation. -/
def Control.uncounted (c : Control) : Control := { c with wakes := 0, activation := 0, stats := {} }

/-- The stream without what counts on from activation to activation, and without the counters of its
last assembler. -/
def Stream.uncounted (s : Stream) : Stream :=
  { s with
    source := { s.source with receiver := s.source.receiver.map fun _ => 0, starts := 0 }
    control := s.control.uncounted
    lastStats := {} }

def Effect.uncounted (e : Effect) : Effect :=
  { e with
    stream := e.stream.uncounted
    next := e.next.map Action.unnumbered
    spawned := e.spawned.map (·.map Action.unnumbered) }

def Thread.unnumbered (t : Thread) : Thread := { t with agenda := t.agenda.map Action.unnumbered }

theorem Thread.unnumbered_unnumbered (t : Thread) : t.unnumbered.unnumbered = t.unnumbered := by
  simp [unnumbered]

theorem Thread.unnumbered_advance (t : Thread) (e : Effect) :
    (t.advance e).unnumbered = t.unnumbered.advance e.uncounted := by
  simp [unnumbered, advance, Effect.uncounted]

/-- The machine without what counts on from activation to activation. -/
def Machine.uncounted (m : Machine) : Machine :=
  ⟨m.stream.uncounted, m.threads.map Thread.unnumbered⟩

namespace Action

variable {action : Action} {me : ThreadId} {last : Except Error Unit} {s : Stream} {e : Effect}

/-- **What comes late in a start does not look at what counts on.** -/
theorem perform_uncounted (hLate : action.isLate = true) (me : ThreadId)
    (last : Except Error Unit) (s : Stream) :
    (action.unnumbered.perform me last s.uncounted).map Effect.uncounted =
      (action.perform me last s).map Effect.uncounted := by
  obtain ⟨streamType, device, table, ⟨receiver, starts, refusesStart, stopFailure⟩, feed, control,
    assembler, lastStats, pipeline, consumer, locks, isWatched, isAbandoned, now, wall,
    journal⟩ := s
  cases action
  case release | finish | uninstall | hearStopped => cases receiver <;> rfl
  case retire => cases receiver <;> cases assembler <;> rfl
  case conclude ending result => cases receiver <;> cases ending <;> rfl
  case acquire lock =>
    dsimp only [unnumbered, perform, Stream.uncounted]
    cases locks.acquire? lock me with
    | none => rfl
    | some locks => cases receiver <;> rfl
  case tell listener state profile =>
    dsimp only [unnumbered, perform, Stream.tell, Stream.uncounted, Control.uncounted]
    cases control.listeners[listener]? with
    | none => cases receiver <;> rfl
    | some l =>
      dsimp only
      rcases l.hear state with ⟨l', reaction⟩
      cases receiver <;> cases l.keeps
      all_goals
        cases reaction with
        | none => rfl
        | some reaction =>
          cases reaction with
          | note | panic => rfl
          | stop => cases isAbandoned <;> rfl
  case openSource activation =>
    cases refusesStart with
    | true => cases receiver <;> rfl
    | false => cases feed <;> rfl
  case closeSource ending => cases stopFailure <;> rfl
  case revert | settle =>
    dsimp only [unnumbered, perform, Stream.revert, Stream.settle, Control.transition,
      Stream.uncounted, Control.uncounted]
    cases receiver <;> split <;> rfl
  case beginHalt ending =>
    dsimp only [unnumbered, perform, Stream.beginHalt, Control.transition, Stream.uncounted,
      Control.uncounted]
    cases receiver
    all_goals
      split
      · rfl
      · split <;> rfl
  case halt ending =>
    dsimp only [unnumbered, perform, Stream.halt?, Stream.uncounted, Control.uncounted]
    cases receiver
    all_goals
      cases locks.isHeldBy .delivery me
      · cases locks.acquire? .restart me <;> rfl
      · by_cases hEnded : control.state = ending.state
        · rw [if_pos rfl, if_pos hEnded, if_pos rfl, if_pos hEnded]
          rfl
        rw [if_pos rfl, if_neg hEnded, if_pos rfl, if_neg hEnded]
        by_cases hStopping : control.state = .stopping
        · rw [if_pos hStopping, if_pos hStopping]
          rfl
        rw [if_neg hStopping, if_neg hStopping]
        cases locks.acquire? .restart me <;> rfl
  all_goals cases hLate

theorem isLate_of_mem_tellAll {n : Option Notice} {x : Action} (h : x ∈ Notice.tellAll n) :
    x.isLate = true := by
  obtain ⟨_, _, _, rfl⟩ := Notice.eq_tell_of_mem_tellAll h
  rfl

/-- What comes late in a start is followed by such again. -/
theorem isLate_of_perform (hLate : action.isLate = true) (h : action.perform me last s = some e) :
    ∀ x ∈ e.next, x.isLate = true := by
  have hTold {n : Option Notice} {l : List Action} (hl : ∀ x ∈ l, x.isLate = true) :
      ∀ x ∈ Notice.tellAll n ++ l, x.isLate = true :=
    List.forall_mem_append.mpr ⟨fun _ hx => isLate_of_mem_tellAll hx, hl⟩
  cases action
  case acquire lock =>
    obtain ⟨locks, _, rfl⟩ := Option.map_eq_some_iff.mp h
    exact List.forall_mem_nil _
  case release | finish | uninstall | retire | conclude | hearStopped =>
    cases h
    exact List.forall_mem_nil _
  case tell listener state profile =>
    cases h
    obtain ⟨s', _, hTell | ⟨_, hTell⟩⟩ := s.tell_cases listener state profile
    · rw [hTell]
      exact List.forall_mem_nil _
    · rw [hTell]
      simp [stop, isLate]
  case openSource activation =>
    cases h
    rcases s.next_openSource activation with hNone | ⟨cause, hNext⟩
    · rw [hNone]
      exact List.forall_mem_nil _
    · rw [hNext]
      simp [isLate]
  case halt ending =>
    rcases s.halt_cases h with ⟨locks, _, rfl⟩ | ⟨_, ⟨_, rfl⟩ | ⟨_, rfl⟩⟩ <;> simp [isLate]
  case beginHalt ending =>
    cases h
    unfold Stream.beginHalt
    split
    · exact List.forall_mem_nil _
    · dsimp only
      split
      · exact hTold (by simp [isLate])
      · simp [isLate]
  case closeSource ending =>
    cases h
    obtain ⟨result, hNext⟩ := s.next_closeSource ending
    rw [hNext]
    simp [isLate]
  case revert | settle =>
    cases h
    exact hTold (by simp [isLate])
  all_goals cases hLate

end Action

namespace Machine

variable {m m' m₁ : Machine} {i : ThreadId} {action : Action} {pre pre' rest : List Action}
  {events : List Event}

/-- The machine after an effect, without what counts on. -/
theorem uncounted_stepped (threads : List Thread) (i : ThreadId) (t : Thread) (e : Effect) :
    uncounted ⟨e.stream, threads.set i (t.advance e) ++
        e.spawned.map fun agenda => ({ agenda } : Thread)⟩ =
      ⟨e.uncounted.stream,
        (threads.map Thread.unnumbered).set i (t.unnumbered.advance e.uncounted) ++
          e.uncounted.spawned.map fun agenda => ({ agenda } : Thread)⟩ := by
  simp only [uncounted, Effect.uncounted, List.map_append, List.map_set, List.map_map,
    Thread.unnumbered_advance]
  rfl

/-- A step late in a start goes the same way without what counts on. -/
theorem step_uncounted (hAgenda : m.agenda i = action :: rest) (hLate : action.isLate = true) :
    (m.uncounted.step? i).map uncounted = (m.step? i).map uncounted := by
  obtain ⟨t, hThread, hFirst⟩ := exists_thread hAgenda
  have hThread' : m.uncounted.threads[i]? = some t.unnumbered := by
    rw [uncounted, List.getElem?_map, hThread]
    rfl
  have hFirst' : t.unnumbered.agenda = action.unnumbered :: rest.map Action.unnumbered := by
    rw [Thread.unnumbered, hFirst, List.map_cons]
  have hPerform := Action.perform_uncounted hLate i t.last m.stream
  unfold step?
  rw [hThread, hThread']
  dsimp only
  rw [hFirst, hFirst']
  dsimp only
  rw [Option.map_map, Option.map_map]
  have hTwice : m.uncounted.threads.map Thread.unnumbered = m.threads.map Thread.unnumbered := by
    rw [uncounted, List.map_map]
    exact List.map_congr_left fun t _ => t.unnumbered_unnumbered
  have hEffects {p : Option Effect} (threads : List Thread) (t : Thread) :
      p.map (uncounted ∘ fun e => ⟨e.stream, threads.set i (t.advance e) ++
          e.spawned.map fun agenda => ({ agenda } : Thread)⟩) =
        (p.map Effect.uncounted).map fun e => ⟨e.stream,
          (threads.map Thread.unnumbered).set i (t.unnumbered.advance e) ++
            e.spawned.map fun agenda => ({ agenda } : Thread)⟩ := by
    rw [Option.map_map]
    exact congrArg (Option.map · p) (funext fun e => uncounted_stepped threads i t e)
  rw [hEffects, hEffects, hTwice, Thread.unnumbered_unnumbered]
  exact congrArg (Option.map _) hPerform

theorem agenda_uncounted (m : Machine) (i : ThreadId) :
    m.uncounted.agenda i = (m.agenda i).map Action.unnumbered := by
  simp only [agenda, uncounted, List.getElem?_map]
  cases m.threads[i]? <;> rfl

theorem last_uncounted (m : Machine) (i : ThreadId) : m.uncounted.last i = m.last i := by
  simp only [Machine.last, uncounted, List.getElem?_map]
  cases m.threads[i]? <;> rfl

/-- What comes first is the same but for the numbers. -/
theorem front_unnumbered (hAlike : m'.uncounted = m.uncounted) (hAgenda : m.agenda i = pre ++ rest)
    (hAgenda' : m'.agenda i = pre' ++ rest) :
    pre'.map Action.unnumbered = pre.map Action.unnumbered := by
  have hAgendas := agenda_uncounted m' i
  rw [hAlike, agenda_uncounted, hAgenda, hAgenda', List.map_append, List.map_append] at hAgendas
  exact (List.append_cancel_right hAgendas).symm

/-- **What is left of a start goes the same way** wherever nothing is different but what counts
on. -/
theorem OneGo.alike (h : OneGo i rest m events m₁) {m' : Machine}
    (hAlike : m'.uncounted = m.uncounted) (hAgenda : m.agenda i = pre ++ rest)
    (hAgenda' : m'.agenda i = pre' ++ rest) (hLate : ∀ x ∈ pre, x.isLate = true) :
    ∃ events' m₁', OneGo i rest m' events' m₁' ∧ m₁'.uncounted = m₁.uncounted ∧
      events'.map (·.action.unnumbered) = events.map (·.action.unnumbered) := by
  induction h generalizing m' pre pre' with
  | @back m hBack =>
    obtain rfl : pre = [] := List.append_cancel_right (hAgenda.symm.trans hBack)
    obtain rfl : pre' = [] := List.map_eq_nil_iff.mp (front_unnumbered hAlike hAgenda hAgenda')
    exact ⟨[], m', .back hAgenda', hAlike, rfl⟩
  | @step m m₂ m₁ action front events hFirst hStep _ ih =>
    obtain rfl : pre = action :: front := List.append_cancel_right (hAgenda.symm.trans hFirst)
    obtain ⟨action', front', rfl, hAction, _⟩ :=
      List.map_eq_cons_iff.mp (front_unnumbered hAlike hAgenda hAgenda')
    obtain ⟨hActionLate, hFrontLate⟩ := List.forall_mem_cons.mp hLate
    have hActionLate' : action'.isLate = true := by
      rw [← Action.isLate_unnumbered, hAction, Action.isLate_unnumbered, hActionLate]
    have hSteps : (m'.step? i).map uncounted = some m₂.uncounted := by
      rw [← step_uncounted hAgenda' hActionLate', hAlike, step_uncounted hAgenda hActionLate, hStep]
      rfl
    obtain ⟨m₂', hStep', hAlike'⟩ := Option.map_eq_some_iff.mp hSteps
    -- Both threads now have what the step left them in front of the same rest.
    obtain ⟨action₁, rest₁, e, hMoved⟩ := moved_of_step hStep
    obtain ⟨action₁', rest₁', e', hMoved'⟩ := moved_of_step hStep'
    obtain ⟨rfl, rfl⟩ := List.cons.inj (hFirst.symm.trans hMoved.agenda)
    obtain ⟨rfl, rfl⟩ := List.cons.inj (hAgenda'.symm.trans hMoved'.agenda)
    obtain ⟨last, hPerform⟩ := hMoved.performs
    have hOwn : m₂.agenda i = (e.next ++ front) ++ rest := by rw [hMoved.own, List.append_assoc]
    have hOwn' : m₂'.agenda i = (e'.next ++ front') ++ rest := by
      rw [hMoved'.own, List.append_assoc]
      rfl
    obtain ⟨events', m₁', hGo, hEnd, hSame⟩ := ih hAlike' hOwn hOwn'
      (List.forall_mem_append.mpr ⟨Action.isLate_of_perform hActionLate hPerform, hFrontLate⟩)
    exact ⟨_, m₁', .step hAgenda' hStep' hGo, hEnd, congrArg₂ List.cons hAction hSame⟩

theorem told_of_unnumbered {events' : List Event}
    (h : events'.map (·.action.unnumbered) = events.map (·.action.unnumbered)) (listener : Nat) :
    told listener events' = told listener events := by
  have hTold (events : List Event) :
      news listener (events.map (·.action.unnumbered)) = told listener events := by
    rw [news, List.filterMap_map]
    exact List.filterMap_congr fun event _ => event.action.news_unnumbered listener
  rw [← hTold, h, hTold]

theorem uncounted_seat (m : Machine) (i : ThreadId) (t : Thread) (s : Stream) :
    (m.seat i t s).uncounted =
      ⟨s.uncounted, (m.threads.map Thread.unnumbered).set i t.unnumbered⟩ := by
  rw [seat, uncounted, List.map_set]

end Machine

end LidarSweep
