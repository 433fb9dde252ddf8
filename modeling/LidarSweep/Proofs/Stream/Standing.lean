import LidarSweep.Proofs.Assembler.Frames
import LidarSweep.Proofs.Stream.Balance
import LidarSweep.Proofs.Stream.Sequential
import Mathlib.Data.List.Induction

/-!
# How a stream stands between operations

State, consumer, assembler, source and activation of a stream are changed one after another, under
different locks, and on some paths a change is taken back. `Coherent` says how they go together when
no operation is under way; `coherent_between_operations` says that they
always do.
-/

namespace LidarSweep

namespace Stream

variable {s : Stream}

/-- What goes together in a stream whose halts and restarts are over. -/
structure Consistent (s : Stream) : Prop where
  idle : s.control.canStart = true →
    s.control.consumer = none ∧ s.assembler = none ∧ s.source.receiver = none
  /-- An active stream is fed, or it is held as starting after a restart that failed. -/
  active : s.control.state.isActive = true →
    s.control.profile ≠ none ∧ s.control.consumer ≠ none ∧
      (s.assembler ≠ none ∧ s.source.receiver = some s.control.activation ∨
        s.control.state = .starting ∧ s.source.receiver = none ∧ s.assembler = none)

/-- How a stream stands while no operation is under way. -/
structure Coherent (s : Stream) : Prop extends s.Consistent where
  settled : s.control.state ≠ .stopping
  audible : s.control.quiet = false

theorem Consistent.halted (h : s.Consistent) (ending : Ending) : (s.halted ending).Consistent := by
  unfold Stream.halted
  split
  · exact h
  · refine ⟨fun _ => ⟨rfl, rfl, rfl⟩, fun hActive => ?_⟩
    cases ending <;> cases hActive

/-- Only a stream that is over passes the checks of a start. -/
theorem canStart_of_admission {profile : Profile} {g : Geometry} {table : GeometryTable}
    (h : s.admission profile = (.ok g, table)) : s.control.canStart = true := by
  unfold admission at h
  split at h
  · cases h
  next hStart => simpa using hStart

theorem Consistent.started (h : s.Consistent) (profile : Profile) (consumer : ConsumerId) :
    (s.started profile consumer).1.Consistent := by
  unfold Stream.started
  split
  · exact ⟨h.idle, h.active⟩
  next g table hAdmission =>
    have hOver := h.idle (canStart_of_admission hAdmission)
    dsimp only [ManualSource.start]
    split
    next source hStart =>
      split at hStart
      · cases hStart
      · cases hStart
        exact ⟨nofun, fun _ => ⟨nofun, nofun, .inl ⟨nofun, rfl⟩⟩⟩
    next source e hStart =>
      split at hStart
      · cases hStart
        exact ⟨fun _ => ⟨rfl, rfl, hOver.2.2⟩, nofun⟩
      · cases hStart

/-- All that the steps of an operation keep, and whether listeners are told anything. -/
structure Poised (quiet : Bool) (s : Stream) : Prop extends s.Consistent, s.Ready where
  quiet : s.control.quiet = quiet

/-- What `Poised` speaks of; all the rest may change. -/
def posture (s : Stream) :=
  (s.control.state, s.control.profile, s.control.consumer, s.control.activation, s.control.quiet,
    s.assembler, s.source.receiver, s.feed, s.isAbandoned, s.consumer.act)

namespace Poised

variable {quiet : Bool} {profile : Profile} {consumer : ConsumerId} {frame : Frame}
  {activation : Nat}

theorem coherent (h : s.Poised false) : s.Coherent := ⟨h.toConsistent, h.steady, h.quiet⟩

theorem of_posture {s' : Stream} (h : s.Poised quiet) (hSame : s'.posture = s.posture) :
    s'.Poised quiet := by
  simp only [posture, Prod.mk.injEq] at hSame
  obtain ⟨hState, hProfile, hConsumer, hActivation, hQuiet, hAssembler, hReceiver, hFeed,
    hAbandoned, hAct⟩ := hSame
  refine ⟨⟨fun hIdle => ?_, fun hActive => ?_⟩, ⟨?_, ?_, ?_, ?_⟩, ?_⟩
  · rw [hConsumer, hAssembler, hReceiver]
    rw [Control.canStart, hState] at hIdle
    exact h.idle hIdle
  · rw [hProfile, hConsumer, hAssembler, hReceiver, hActivation, hState]
    exact h.active (hState ▸ hActive)
  · exact hState ▸ h.steady
  · exact hFeed ▸ h.feed
  · exact hAbandoned ▸ h.reached
  · exact hAct ▸ h.polite
  · exact hQuiet ▸ h.quiet

theorem consumed (h : s.Poised quiet) (entry : ConsumerEntry) : (s.consumed entry).Poised quiet :=
  h.of_posture rfl

theorem halted (h : s.Poised quiet) (ending : Ending) : (s.halted ending).Poised quiet := by
  refine ⟨h.toConsistent.halted ending, h.toReady.halted ending, ?_⟩
  unfold Stream.halted
  split <;> exact h.quiet

theorem started (h : s.Poised quiet) (profile : Profile) (consumer : ConsumerId) :
    (s.started profile consumer).1.Poised quiet := by
  refine ⟨h.toConsistent.started profile consumer, h.toReady.started profile consumer, ?_⟩
  unfold Stream.started
  split
  · exact h.quiet
  · dsimp only
    split <;> exact h.quiet

theorem errand (h : s.Poised quiet) (profile : Profile) (consumer : ConsumerId) (e : Errand) :
    (errand profile consumer s e).Poised quiet := by
  cases e with
  | stop => exact (h.halted .stopped).consumed _
  | start => exact (h.started _ _).consumed _
  | awaitStopping => exact h

theorem handed (h : s.Poised quiet) : (s.handed profile consumer frame).Poised quiet := by
  have hCalled : Poised quiet (Stream.consumed
      { s with consumer := (s.consumer.call frame).1 } (.frame consumer frame)) :=
    h.of_posture rfl
  unfold Stream.handed
  dsimp only
  split
  next list _ =>
    exact List.foldlRecOn list _ hCalled fun s' hs' e _ => hs'.errand profile consumer e
  · exact hCalled

/-- A frame is confirmed only while there is an assembler that it can have come from. -/
theorem confirmed (h : s.Poised quiet)
    (hAssembler : s.control.isCurrent activation = true → s.assembler ≠ none) :
    (s.confirmed activation profile consumer frame).Poised quiet := by
  unfold Stream.confirmed
  split
  case isTrue hCurrent =>
    obtain ⟨_, hActive⟩ := of_decide_eq_true hCurrent
    obtain ⟨hProfile, hConsumer, hFed⟩ := h.active hActive
    refine handed ⟨⟨nofun, fun _ => ⟨hProfile, hConsumer, .inl ?_⟩⟩,
      ⟨nofun, h.feed, h.reached, h.polite⟩, h.quiet⟩
    exact hFed.resolve_right fun hHeld => hAssembler hCurrent hHeld.2.2
  case isFalse => exact h.of_posture rfl

theorem state_halted_stopped (s : Stream) : (s.halted .stopped).control.state = .stopped := by
  unfold Stream.halted
  split
  case isTrue hOver => exact (of_decide_eq_true hOver).elim id id
  case isFalse => rfl

theorem processed (h : s.Poised quiet) (hAssembler : s.assembler ≠ none) :
    (s.processed activation profile consumer frame).Poised quiet := by
  have hRun : ∀ pipeline, Poised quiet { s with pipeline } := fun _ => h.of_posture rfl
  unfold Stream.processed
  dsimp only
  split
  · exact h.of_posture rfl
  · exact hRun _
  · exact (hRun _).confirmed fun _ => hAssembler
  · refine ((hRun _).halted .stopped).confirmed fun hCurrent => ?_
    rw [Control.isCurrent, state_halted_stopped] at hCurrent
    cases (of_decide_eq_true hCurrent).2

theorem delivered (h : s.Poised quiet) (hAssembler : s.assembler ≠ none) :
    (s.delivered activation frame).Poised quiet := by
  unfold Stream.delivered
  split
  · exact h.processed hAssembler
  · exact h.of_posture rfl

theorem ingested (h : s.Poised quiet) (packet : List UInt8) :
    (s.ingested activation packet).Poised quiet := by
  unfold Stream.ingested
  split
  · exact h
  next a hAssembler =>
    have hIngest : ∀ a', Poised quiet { s with assembler := some a' } := by
      refine fun a' => ⟨⟨fun hOver => ?_, fun hActive => ?_⟩,
        ⟨h.steady, h.feed, h.reached, h.polite⟩, h.quiet⟩
      · cases hAssembler.symm.trans (h.idle hOver).2.1
      · obtain ⟨hProfile, hConsumer, ⟨_, hReceiver⟩ | ⟨_, _, hNone⟩⟩ := h.active hActive
        · exact ⟨hProfile, hConsumer, .inl ⟨nofun, hReceiver⟩⟩
        · cases hAssembler.symm.trans hNone
    dsimp only
    split
    · exact hIngest _
    · exact (hIngest _).delivered nofun

theorem offered (h : s.Poised quiet) (packet : List UInt8) : (s.offered packet).Poised quiet := by
  unfold Stream.offered Stream.received
  split
  · exact h
  · split
    · exact h.ingested packet
    · exact h

theorem state_of_started_error {c : Stream} {e : Error} (hState : s.control.state = .stopped)
    (hStart : s.started profile consumer = (c, .error e)) : c.control.state = .stopped := by
  unfold Stream.started at hStart
  split at hStart
  · cases hStart
    exact hState
  · dsimp only at hStart
    split at hStart
    · cases hStart
    · cases hStart
      rfl

/-- A restart ends with the listeners as they were, whether it worked or not. -/
theorem renewed (h : s.Poised false) : (s.renewed profile consumer).Poised false := by
  have hBegun : Poised true { s with control := { s.control with quiet := true } } :=
    ⟨⟨h.idle, h.active⟩, ⟨h.steady, h.feed, h.reached, h.polite⟩, rfl⟩
  have hStopped := hBegun.halted .stopped
  have hState := state_halted_stopped { s with control := { s.control with quiet := true } }
  unfold Stream.renewed
  dsimp only
  generalize Stream.halted { s with control := { s.control with quiet := true } } .stopped = s'
    at hStopped hState
  split
  · exact ⟨⟨hStopped.idle, hStopped.active⟩,
      ⟨hStopped.steady, hStopped.feed, hStopped.reached, hStopped.polite⟩, rfl⟩
  · have hStarted := hStopped.started profile consumer
    split
    next s'' hStart =>
      rw [hStart] at hStarted
      exact ⟨⟨hStarted.idle, hStarted.active⟩,
        ⟨hStarted.steady, hStarted.feed, hStarted.reached, hStarted.polite⟩, rfl⟩
    next s'' e hStart =>
      rw [hStart] at hStarted
      -- A start that failed leaves the stream over: nothing is fed, so it can be held.
      have hOver := hStarted.idle (by
        rw [Control.canStart, state_of_started_error hState hStart]
        rfl)
      exact ⟨⟨nofun, fun _ => ⟨nofun, nofun, .inr ⟨rfl, hOver.2.2, hOver.2.1⟩⟩⟩,
        ⟨nofun, hStarted.feed, hStarted.reached, hStarted.polite⟩, rfl⟩

theorem restarted (h : s.Poised false) (vigil : Vigil) : (s.restarted vigil).Poised false := by
  unfold Stream.restarted
  split
  · exact h.renewed
  · exact h

theorem done (h : s.Poised false) (op : Operation) : (op.done s).Poised false := by
  cases op with
  | start profile consumer => exact h.started profile consumer
  | stop => exact h.halted .stopped
  | inject packet => exact h.offered packet
  | restart budget vigil limit => exact h.restarted vigil
  | giveUp => exact h.halted .failed

theorem amid (h : s.Poised quiet) (x : Circumstances) : (s.amid x).Poised quiet :=
  h.of_posture rfl

theorem core_iff : s.core.Poised quiet ↔ s.Poised quiet :=
  ⟨fun h => h.of_posture rfl, fun h => h.of_posture rfl⟩

end Poised

end Stream

/-! ### Runs -/

namespace Operation

/-- Operations one after another, each with the core of a stream before and after it. -/
def trace (c : Stream) : List (ThreadId × Operation) →
    List (ThreadId × Operation × Stream × Stream)
  | [] => []
  | (me, op) :: work => (me, op, c, op.done c) :: trace (op.done c) work

theorem trace_concat (c : Stream) (work : List (ThreadId × Operation))
    (w : ThreadId × Operation) :
    trace c (work ++ [w]) = trace c work ++
      [(w.1, w.2, work.foldl (fun c w => w.2.done c) c,
        w.2.done (work.foldl (fun c w => w.2.done c) c))] := by
  induction work generalizing c with
  | nil => rfl
  | cons first work ih => exact congrArg (_ :: ·) (ih (first.2.done c))

theorem map_trace (c : Stream) (work : List (ThreadId × Operation)) :
    (trace c work).map (fun step => (step.1, step.2.1)) = work := by
  induction work generalizing c with
  | nil => rfl
  | cons first work ih => exact congrArg (first :: ·) (ih (first.2.done c))

end Operation

/-- Between operations nobody holds a lock, and the stream is poised for the next one. -/
structure Stream.Standing (s : Stream) : Prop extends s.Poised false where
  free : s.locks = {}
  calm : s.IsCalm

theorem Setup.standing (u : Setup) : u.stream.Standing where
  idle _ := ⟨rfl, rfl, rfl⟩
  active := nofun
  steady := nofun
  feed := rfl
  reached := rfl
  polite := u.polite
  quiet := rfl
  free := rfl
  calm := u.passive

/-- A stream that streams at the end of a turn did so before, or began with a delivery. -/
theorem Turn.streaming {me : ThreadId} {t t' : Thread} {s s' : Stream} {deeds : List Deed}
    (h : Turn me t s deeds t' s') (hStreaming : s'.control.state = .streaming) :
    s.control.state = .streaming ∧ s'.control.activation = s.control.activation ∨
      ∃ deed ∈ deeds, deed.Delivers s'.control.activation := by
  induction h with
  | stay => exact .inl ⟨hStreaming, rfl⟩
  | step _ _ hPerform _ _ ih =>
    rcases ih hStreaming with ⟨hNext, hSame⟩ | ⟨deed, hDeed, hDelivers⟩
    · rcases Action.streaming_of_perform hPerform hNext with ⟨hState, hSame'⟩ | hDelivers
      · exact .inl ⟨hState, hSame.trans hSame'⟩
      · exact .inr ⟨_, List.mem_cons_self, hSame ▸ hDelivers⟩
    · exact .inr ⟨deed, List.mem_cons_of_mem _ hDeed, hDelivers⟩

namespace Sequential

variable {u : Setup} {episodes : List Episode} {s : Stream}

theorem operation_ends (h : s.Standing) (me : ThreadId) (op : Operation) :
    ∃ deeds t s', Turn me { agenda := op.agenda } s deeds t s' ∧ t.isResting = true ∧
      s'.core = op.done s.core ∧ s'.Standing := by
  obtain ⟨deeds, t, s', hTurn, hRest, hCore, hLocks, hCalm⟩ :=
    op.comes_to_rest (h.free ▸ Locks.freeFor_none me)
      (Stream.Poised.core_iff.mpr h.toPoised).toReady h.calm
  refine ⟨deeds, t, s', hTurn, hRest, hCore, ?_, hLocks.trans h.free, hCalm⟩
  exact Stream.Poised.core_iff.mp (hCore ▸ (Stream.Poised.core_iff.mpr h.toPoised).done op)

/-- An operation that has come to rest has done what `Operation.done` says. -/
theorem done_of_turn (h : s.Standing) {me : ThreadId} {op : Operation} {deeds : List Deed}
    {t : Thread} {s' : Stream} (hTurn : Turn me { agenda := op.agenda } s deeds t s')
    (hRest : t.isResting = true) : s'.core = op.done s.core ∧ s'.Standing := by
  obtain ⟨deeds', t', s'', hTurn', hRest', hCore, hStanding⟩ := operation_ends h me op
  obtain ⟨_, _, rfl⟩ := hTurn.unique hRest hTurn' hRest'
  exact ⟨hCore, hStanding⟩

theorem standing (hRun : Sequential u.stream episodes s) : s.Standing := by
  induction hRun with
  | begin => exact u.standing
  | change x _ ih => exact ⟨ih.toPoised.amid x, ih.free, ih.calm⟩
  | operate me op _ hTurn hRest ih => exact (done_of_turn ih hTurn hRest).2

theorem streaming (hRun : Sequential u.stream episodes s)
    (hStreaming : s.control.state = .streaming) :
    ∃ episode ∈ episodes, ∃ deed ∈ episode.deeds, deed.Delivers s.control.activation := by
  induction hRun with
  | begin => cases hStreaming
  | change x _ ih => exact ih hStreaming
  | operate me op _ hTurn _ ih =>
    rcases hTurn.streaming hStreaming with ⟨hState, hSame⟩ | ⟨deed, hDeed, hDelivers⟩
    · obtain ⟨episode, hEpisode, hFound⟩ := ih hState
      exact ⟨episode, List.mem_append_left _ hEpisode, hSame ▸ hFound⟩
    · exact ⟨_, List.mem_append_right _ (List.mem_singleton_self _), deed, hDeed, hDelivers⟩

/-- Any operations can be done one after another, by any threads, and each makes of the core what
`Operation.done` says. -/
theorem exists_of_trace (u : Setup) (work : List (ThreadId × Operation)) :
    ∃ episodes s, Sequential u.stream episodes s ∧
      episodes.map (fun e => (e.thread, e.operation, e.before.core, e.after.core)) =
        Operation.trace u.stream.core work ∧
      s.core = work.foldl (fun c w => w.2.done c) u.stream.core := by
  induction work using List.reverseRecOn with
  | nil => exact ⟨[], _, .begin, rfl, rfl⟩
  | append_singleton work w ih =>
    obtain ⟨episodes, s, hRun, hMap, hCore⟩ := ih
    obtain ⟨deeds, t, s', hTurn, hRest, hCore', _⟩ := operation_ends hRun.standing w.1 w.2
    refine ⟨_, s', .operate w.1 w.2 hRun hTurn hRest, ?_, ?_⟩
    · rw [List.map_append, hMap, Operation.trace_concat, ← hCore, ← hCore']
      rfl
    · rw [List.foldl_append, ← hCore, hCore']
      rfl

theorem exists_of_operations (u : Setup) (work : List (ThreadId × Operation)) :
    ∃ episodes s, Sequential u.stream episodes s ∧
      episodes.map (fun e => (e.thread, e.operation)) = work ∧
      s.core = work.foldl (fun c w => w.2.done c) u.stream.core := by
  obtain ⟨episodes, s, hRun, hMap, hCore⟩ := exists_of_trace u work
  refine ⟨episodes, s, hRun, ?_, hCore⟩
  have hWork := congrArg (List.map fun step => (step.1, step.2.1)) hMap
  rwa [List.map_map, Operation.map_trace] at hWork

/-- **A stream is coherent between operations**, in every sequential run: whatever its consumer and
its processor ask for, whichever starts and stops of its source fail, and however the watcher's
restarts turn out.  It streams only if a frame has been delivered in its activation, and every
operation on it comes to an end. -/
theorem coherent_between_operations (hRun : Sequential u.stream episodes s) :
    s.Coherent ∧
      (s.control.state = .streaming →
        ∃ episode ∈ episodes, ∃ deed ∈ episode.deeds, deed.Delivers s.control.activation) ∧
      ∀ me (op : Operation), ∃ deeds t s',
        Turn me { agenda := op.agenda } s deeds t s' ∧ t.isResting = true := by
  refine ⟨hRun.standing.toPoised.coherent, hRun.streaming, fun me op => ?_⟩
  obtain ⟨deeds, t, s', hTurn, hRest, _⟩ := operation_ends hRun.standing me op
  exact ⟨deeds, t, s', hTurn, hRest⟩

end Sequential

/-! ### The smallest stream -/

open Assembler (pairRow pairBytes)

def pairProfile : Profile := ⟨.lidar, pairRow.format, pairRow.rate⟩

/-- A stream with sweeps of two blocks, and a consumer that lets it run. -/
def pairSetup : Setup where
  streamType := .lidar
  device := { modelCode := 0x0101, model := pairRow.model, workMode := .calibration }
  table := .ofRows [pairRow]
  consumer := .constant fun _ => .errands []
  polite := by
    intro call frame list h
    cases h
    exact nofun
  passive := List.forall_mem_nil _

/-- A start and the two blocks of a sweep, each by another thread. -/
def pairWork : List (ThreadId × Operation) :=
  [(0, .start pairProfile 7), (1, .inject (pairBytes 0 1)), (2, .inject (pairBytes 0 2))]

theorem Sequential.coherent_between_operations_pair :
    ∃ episodes s, Sequential pairSetup.stream episodes s ∧ s.control.state = .streaming ∧
      s.Coherent ∧
      ∃ episode ∈ episodes, ∃ deed ∈ episode.deeds, deed.Delivers s.control.activation := by
  obtain ⟨episodes, s, hRun, _, hCore⟩ := exists_of_operations pairSetup pairWork
  have hStreaming : s.control.state = .streaming := by
    show s.core.control.state = .streaming
    rw [hCore]
    decide +kernel
  obtain ⟨hCoherent, hDelivered, _⟩ := coherent_between_operations hRun
  exact ⟨episodes, s, hRun, hStreaming, hCoherent, hDelivered hStreaming⟩

end LidarSweep
