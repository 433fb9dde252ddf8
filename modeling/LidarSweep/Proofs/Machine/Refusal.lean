import LidarSweep.Proofs.Machine.Telling
import LidarSweep.Proofs.Stream.Objection

/-!
# Starts in one go

A start is turned down when something stands against it, and then leaves the stream as it was.  One
that nothing stands against is let in, and gets as far as its activation where the stages are at
rest.  Here both are followed in one go, action by action.
-/

namespace LidarSweep

/-- What is looked up stays true to the rows. -/
theorem Action.isFaithful_of_perform {action : Action} {me : ThreadId} {last : Except Error Unit}
    {s : Stream} {e : Effect} (hFaithful : s.table.IsFaithful)
    (h : action.perform me last s = some e) : e.stream.table.IsFaithful := by
  -- Only a start looks at the geometry table.
  by_cases hTouches : action.touches .table = true
  · cases action
    case checkStart profile consumer =>
      cases h
      have hTable : (s.admission profile).2.IsFaithful := by
        unfold Stream.admission
        split
        · exact hFaithful
        · split
          · exact hFaithful
          · split
            · exact hFaithful
            · exact hFaithful.resolve _ _
      unfold Stream.checkStart
      generalize s.admission profile = admission at hTable
      obtain ⟨verdict, table⟩ := admission
      cases verdict <;> exact hTable
    all_goals cases hTouches
  · have hSame : e.stream.table = s.table :=
      same_of_perform .table (Bool.eq_false_iff.mpr hTouches) h
    rwa [hSame]

/-- What a start that nothing stands against has before it. -/
def Action.onset (profile : Profile) (consumer : ConsumerId) (g : Geometry) : List Action :=
  [acquire .pipeline, resetPipeline profile.rate, release .pipeline, install g profile.format,
    activate profile consumer, release .restart]

namespace Stream

/-- The stream with stages and assembler ready for an activation that is about to begin. -/
def prepared (s : Stream) (profile : Profile) (g : Geometry) (locks : Locks) : Stream :=
  { s with
    locks
    pipeline := s.pipeline.reset s.now profile.rate
    assembler := some (.new g profile.format) }

end Stream

namespace Machine

variable {m₀ m : Machine} {i : ThreadId} {s : Stream} {profile : Profile} {events : List Event}

theorem isFaithful_of_path (h : m₀.stream.table.IsFaithful) (hPath : Path m₀ events m) :
    m.stream.table.IsFaithful := by
  induction hPath using Path.induct with
  | here => exact h
  | change x _ ih => exact ih
  | step _ hMoved _ ih =>
    obtain ⟨last, hPerform⟩ := hMoved.performs
    rw [hMoved.stream]
    exact Action.isFaithful_of_perform ih hPerform

/-- **A start that something stands against** leaves the stream as it was. -/
theorem Reaches.turned_down (hThere : i < m.threads.length) (hOpen : s.locks.IsOpen .restart i)
    {e : Error} (hAdmission : s.admission profile = (.error e, s.table)) (consumer : ConsumerId)
    (rest : List Action) (last : Except Error Unit) (taken : Nat) :
    Reaches i rest (m.seat i ⟨Action.start profile consumer ++ rest, last, taken⟩ s)
      (Action.start profile consumer) (m.seat i ⟨rest, .error e, taken⟩ s) := by
  obtain ⟨locks, hAcquire, _, hRelease, _⟩ := hOpen.acquire
  have hEnter : Passes i last s [.acquire .restart] { s with locks } :=
    .cons (by rw [Action.perform, hAcquire]; rfl) (.nil _)
  have hCheck : (Action.checkStart profile consumer).perform i last { s with locks } =
      some { stream := { s with locks }, result := some (.error e) } := by
    rw [Action.perform, Stream.checkStart,
      show Stream.admission { s with locks } profile = (.error e, s.table) from hAdmission]
  have hRefuse : Reaches i rest
      (m.seat i ⟨.checkStart profile consumer :: ([.release .restart] ++ rest), last, taken⟩
        { s with locks }) [.checkStart profile consumer]
      (m.seat i ⟨[.release .restart] ++ rest, .error e, taken⟩ { s with locks }) :=
    .act hThere hCheck rfl
  have hLeave : Passes i (.error e) { s with locks } [.release .restart]
      { s with locks := locks.release .restart } := .cons rfl (.nil _)
  rw [hRelease] at hLeave
  exact (hEnter.reaches hThere [.checkStart profile consumer, .release .restart] rest taken).trans
    (hRefuse.trans (hLeave.reaches hThere [] rest taken))

/-- A start that nothing stands against takes the lock and goes on. -/
theorem steps_start (hThere : i < m.threads.length) {g : Geometry} {table : GeometryTable}
    {locks : Locks} (hAcquire : s.locks.acquire? .restart i = some locks)
    (hAdmission : s.admission profile = (.ok g, table)) (consumer : ConsumerId)
    (rest : List Action) (last : Except Error Unit) (taken : Nat) :
    (m.seat i ⟨Action.start profile consumer ++ rest, last, taken⟩ s).step? i =
        some (m.seat i ⟨[.checkStart profile consumer, .release .restart] ++ rest, last, taken⟩
          { s with locks }) ∧
      (m.seat i ⟨[.checkStart profile consumer, .release .restart] ++ rest, last, taken⟩
          { s with locks }).step? i =
        some (m.seat i ⟨Action.onset profile consumer g ++ rest, last, taken⟩
          { s with table, locks }) := by
  constructor
  · rw [step_seat hThere rfl, Action.perform, hAcquire]
    exact congrArg some (congrArg (Machine.mk _) (List.append_nil _))
  · rw [step_seat hThere rfl, Action.perform, Stream.checkStart,
      show Stream.admission { s with locks } profile = (.ok g, table) from hAdmission]
    exact congrArg some (congrArg (Machine.mk _) (List.append_nil _))

theorem Reaches.admit (hThere : i < m.threads.length) {g : Geometry} {table : GeometryTable}
    {locks : Locks} (hAcquire : s.locks.acquire? .restart i = some locks)
    (hAdmission : s.admission profile = (.ok g, table)) (consumer : ConsumerId)
    (rest : List Action) (last : Except Error Unit) (taken : Nat) :
    Reaches i rest (m.seat i ⟨Action.start profile consumer ++ rest, last, taken⟩ s)
      [.acquire .restart, .checkStart profile consumer]
      (m.seat i ⟨Action.onset profile consumer g ++ rest, last, taken⟩
        { s with table, locks }) := by
  obtain ⟨hEnter, hCheck⟩ := steps_start hThere hAcquire hAdmission consumer rest last taken
  have hEntered := Reaches.of_step [.checkStart profile consumer, .release .restart]
    (agenda_seat hThere _ _) hEnter
  exact hEntered.trans (.of_step [.release .restart] (agenda_seat hThere _ _) hCheck)

/-- A start that nothing stands against takes two steps to its onset. -/
theorem stride_start (hThere : i < m.threads.length) {g : Geometry} {table : GeometryTable}
    {locks : Locks} (hAcquire : s.locks.acquire? .restart i = some locks)
    (hAdmission : s.admission profile = (.ok g, table)) (consumer : ConsumerId)
    (rest : List Action) (last : Except Error Unit) (taken : Nat) :
    ∃ first, (m.seat i ⟨Action.start profile consumer ++ rest, last, taken⟩ s).stride i 2 =
        some (first, m.seat i ⟨Action.onset profile consumer g ++ rest, last, taken⟩
          { s with table, locks }) ∧ ∀ l, toldBy i l first = [] := by
  obtain ⟨hEnter, hCheck⟩ := steps_start hThere hAcquire hAdmission consumer rest last taken
  simp only [stride, agenda_seat hThere, Action.start, List.cons_append,
    List.nil_append] at hEnter hCheck ⊢
  rw [hEnter]
  dsimp only
  rw [agenda_seat hThere, hCheck]
  refine ⟨_, rfl, fun l => toldBy_of_all ?_ l⟩
  exact List.forall_mem_cons.mpr ⟨rfl, List.forall_mem_singleton.mpr rfl⟩

/-- From its onset a start gets as far as its activation. -/
theorem Reaches.prepare (hThere : i < m.threads.length) {pipeline : Locks}
    (hPipeline : s.locks.acquire? .pipeline i = some pipeline) (profile : Profile)
    (consumer : ConsumerId) (g : Geometry) (rest : List Action) (last : Except Error Unit)
    (taken : Nat) :
    Reaches i rest (m.seat i ⟨Action.onset profile consumer g ++ rest, last, taken⟩ s)
      [.acquire .pipeline, .resetPipeline profile.rate, .release .pipeline,
        .install g profile.format]
      (m.seat i ⟨[.activate profile consumer, .release .restart] ++ rest, last, taken⟩
        (s.prepared profile g (pipeline.release .pipeline))) := by
  have hPrepare : Passes i last s
      [.acquire .pipeline, .resetPipeline profile.rate, .release .pipeline,
        .install g profile.format] (s.prepared profile g (pipeline.release .pipeline)) :=
    .cons (by rw [Action.perform, hPipeline]; rfl) (.cons rfl (.cons rfl (.cons rfl (.nil _))))
  exact hPrepare.reaches hThere [.activate profile consumer, .release .restart] rest taken

end Machine

end LidarSweep
