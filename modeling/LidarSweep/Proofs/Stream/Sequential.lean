import LidarSweep.Proofs.Stream.Restart

/-!
# Sequential runs

A stream driven by hand: callers start and stop it and hand packets to its source, the watcher
restarts it and gives it up, one operation after another, each on some thread and none before the
last is over. In between, time passes, and device, source and wall clock may change. The calls that
a consumer or a processor makes are part of the operation that runs it.

Every operation comes to an end, and `Operation.done` says what it leaves behind.
-/

namespace LidarSweep

inductive Operation where
  | start (profile : Profile) (consumer : ConsumerId)
  | stop
  | inject (packet : List UInt8)
  /-- One attempt of the watcher to start the stream anew -/
  | restart (budget : Budget) (vigil : Vigil) (limit : Nat)
  /-- The watcher's halt when it has spent all attempts -/
  | giveUp

namespace Operation

def agenda : Operation → List Action
  | start profile consumer => Action.start profile consumer
  | stop => Action.stop
  | inject packet => [.offer packet]
  | restart budget vigil limit => [.acquire .restart, .beginRestart budget vigil limit]
  | giveUp => [.halt .failed, .reportHalt]

/-- What the operation makes of the core of a stream. -/
def done (s : Stream) : Operation → Stream
  | start profile consumer => (s.started profile consumer).1
  | stop => s.halted .stopped
  | inject packet => s.offered packet
  | restart _ vigil _ => s.restarted vigil
  | giveUp => s.halted .failed

end Operation

theorem Moves.reportHalt {me : ThreadId} {rest : List Action} {c : Stream} {locks : Locks}
    {last : Except Error Unit} :
    Moves me ⟨.reportHalt :: rest, c, locks, last⟩ ⟨rest, c, locks, last⟩ := by
  refine act rfl ?_
  rintro s rfl rfl hCalm
  cases last with
  | ok => exact ⟨_, rfl, rfl, hCalm, refl _⟩
  | error e => exact ⟨_, rfl, rfl, hCalm, refl _⟩

/-- **Every operation comes to an end**, and no lock stays in the hands of its thread. -/
theorem Operation.comes_to_rest {me : ThreadId} {s : Stream} (op : Operation)
    (hFree : s.locks.FreeFor me) (hReady : s.core.Ready) (hCalm : s.IsCalm) :
    ∃ deeds t s', Turn me { agenda := op.agenda } s deeds t s' ∧ t.isResting = true ∧
      s'.core = op.done s.core ∧ s'.locks = s.locks ∧ s'.IsCalm := by
  -- All but a restart leave nothing on the agenda.
  have hAll : Completes me op.agenda s.core s.locks (op.done s.core) s.locks →
      ∃ deeds t s', Turn me { agenda := op.agenda } s deeds t s' ∧ t.isResting = true ∧
        s'.core = op.done s.core ∧ s'.locks = s.locks ∧ s'.IsCalm := by
    intro hCompletes
    obtain ⟨deeds, s', last', taken', hTurn, hEnd⟩ := hCompletes [] (.ok ()) s 0 rfl rfl hCalm
    rw [List.append_nil] at hTurn
    exact ⟨deeds, _, s', hTurn, rfl, hEnd⟩
  cases op with
  | start profile consumer => exact hAll (.start hFree hReady)
  | stop => exact hAll (.halt hFree hReady)
  | inject packet => exact hAll (.offer hFree hReady)
  | restart budget vigil limit =>
    obtain ⟨last', hMoves⟩ := Moves.restart hFree hReady budget vigil limit [] (.ok ())
    obtain ⟨deeds, s', taken', hTurn, hEnd⟩ := hMoves s 0 rfl rfl hCalm
    exact ⟨deeds, _, s', hTurn, s.core.isPause_rest budget vigil limit, hEnd⟩
  | giveUp =>
    exact hAll (.of_moves fun rest last => ⟨_, (Moves.halt hFree hReady.steady).trans .reportHalt⟩)

/-! ### Runs -/

/-- What is around a stream, apart from those who work on it. -/
structure Circumstances where
  device : Device
  refusesStart : Bool
  stopFailure : Option Error
  /-- Nanoseconds that pass -/
  elapsed : Nat
  wall : Nat → Nat

/-- The stream in other circumstances. -/
def Stream.amid (s : Stream) (x : Circumstances) : Stream :=
  { s with
    device := x.device
    source := { s.source with refusesStart := x.refusesStart, stopFailure := x.stopFailure }
    now := s.now + x.elapsed
    wall := x.wall }

/-- An operation of a run. -/
structure Episode where
  thread : ThreadId
  operation : Operation
  before : Stream
  deeds : List Deed
  after : Stream

/-- One operation after another. -/
inductive Sequential (s₀ : Stream) : List Episode → Stream → Prop where
  | begin : Sequential s₀ [] s₀
  | change {episodes : List Episode} {s : Stream} (x : Circumstances)
      (hRun : Sequential s₀ episodes s) : Sequential s₀ episodes (s.amid x)
  | operate {episodes : List Episode} {s s' : Stream} {deeds : List Deed} {t : Thread}
      (me : ThreadId) (op : Operation) (hRun : Sequential s₀ episodes s)
      (hTurn : Turn me { agenda := op.agenda } s deeds t s') (hRest : t.isResting = true) :
      Sequential s₀ (episodes ++ [⟨me, op, s, deeds, s'⟩]) s'

/-- A stream driven by hand, before its first start. -/
structure Setup where
  streamType : StreamType
  device : Device
  table : GeometryTable
  config : Config := {}
  pipeline : Pipeline := {}
  /-- What the consumer does at each call; it never waits for another thread -/
  consumer : Stage Conduct
  polite : ∀ call frame list, consumer.act call frame = .errands list → .awaitStopping ∉ list
  listeners : List Listener := []
  passive : ∀ l ∈ listeners, l.IsPassive
  wall : Nat → Nat := fun ns => ns / 1000

def Setup.stream (u : Setup) : Stream :=
  let s := Stream.new u.streamType u.device u.table u.config
  { s with
    pipeline := u.pipeline
    consumer := u.consumer
    wall := u.wall
    control := { s.control with listeners := u.listeners } }

end LidarSweep
