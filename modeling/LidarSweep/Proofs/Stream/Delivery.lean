import LidarSweep.Proofs.Stream.Halt
import LidarSweep.Proofs.Stream.Start

/-!
# Deliveries, done

What a packet comes to when no other thread moves: it goes through the assembler, the frame that it
may complete through the stages and to the consumer, and whatever the consumer then asks of the
stream is done before the delivery is over.
-/

namespace LidarSweep

namespace Stream

variable {s : Stream}

/-- A thread can work on the stream alone: nothing else is under way, the source plays nothing by
itself, and no consumer waits for another thread. -/
structure Ready (s : Stream) : Prop where
  steady : s.control.state ≠ .stopping
  feed : s.feed = none
  reached : s.isAbandoned = false
  polite : ∀ call frame list, s.consumer.act call frame = .errands list →
    .awaitStopping ∉ list

theorem Ready.consumed (h : s.Ready) (entry : ConsumerEntry) : (s.consumed entry).Ready :=
  ⟨h.steady, h.feed, h.reached, h.polite⟩

theorem Ready.halted (h : s.Ready) (ending : Ending) : (s.halted ending).Ready := by
  unfold Stream.halted
  split
  · exact h
  · refine ⟨?_, h.feed, h.reached, h.polite⟩
    cases ending <;> exact nofun

theorem Ready.started (h : s.Ready) (profile : Profile) (consumer : ConsumerId) :
    (s.started profile consumer).1.Ready := by
  unfold Stream.started
  split
  · exact ⟨h.steady, h.feed, h.reached, h.polite⟩
  · dsimp only
    split
    · exact ⟨nofun, h.feed, h.reached, h.polite⟩
    · exact ⟨nofun, h.feed, h.reached, h.polite⟩

/-- What a consumer asks for, and how it ended. -/
def errand (profile : Profile) (consumer : ConsumerId) (s : Stream) : Errand → Stream
  | .stop => (s.halted .stopped).consumed (.stopped (s.haltResult .stopped))
  | .start profile? consumer? =>
    let start := s.started (profile?.getD profile) (consumer?.getD consumer)
    start.1.consumed (.started start.2)
  | .awaitStopping => s

theorem Ready.errand (h : s.Ready) (profile : Profile) (consumer : ConsumerId) (e : Errand) :
    (errand profile consumer s e).Ready := by
  cases e with
  | stop => exact (h.halted .stopped).consumed _
  | start => exact (h.started _ _).consumed _
  | awaitStopping => exact h

def handed (s : Stream) (profile : Profile) (consumer : ConsumerId) (frame : Frame) : Stream :=
  let (stage, conduct) := s.consumer.call frame
  let s := { s with consumer := stage }.consumed (.frame consumer frame)
  match conduct with
  | .errands list => list.foldl (errand profile consumer) s
  | .panic _ => s

def confirmed (s : Stream) (activation : Nat) (profile : Profile) (consumer : ConsumerId)
    (frame : Frame) : Stream :=
  if s.control.isCurrent activation then
    handed { s with control := { s.control.countDelivered with state := .streaming } }
      profile consumer frame
  else { s with control := s.control.countLate }

def processed (s : Stream) (activation : Nat) (profile : Profile) (consumer : ConsumerId)
    (frame : Frame) : Stream :=
  let (pipeline, verdict) := s.pipeline.run (s.wall s.now) s.device.syncMode profile frame
  let s := { s with pipeline }
  match verdict with
  | .error _ => { s with control := s.control.countDropped }
  | .ok .swallow => s
  | .ok (.keep frame) => s.confirmed activation profile consumer frame
  | .ok (.stopThen frame) => (s.halted .stopped).confirmed activation profile consumer frame

def delivered (s : Stream) (activation : Nat) (frame : Frame) : Stream :=
  match s.control.profile, s.control.consumer, s.control.isCurrent activation with
  | some profile, some consumer, true => s.processed activation profile consumer frame
  | _, _, _ => { s with control := s.control.countLate }

def ingested (s : Stream) (activation : Nat) (packet : List UInt8) : Stream :=
  match s.assembler with
  | none => s
  | some a =>
    let (a, outcome) := a.ingest s.now packet
    let s := { s with assembler := some a }
    match outcome.frame? with
    | none => s
    | some frame => s.delivered activation frame

def received (s : Stream) (activation : Nat) (packet : List UInt8) : Stream :=
  if s.control.isCurrent activation then s.ingested activation packet else s

def offered (s : Stream) (packet : List UInt8) : Stream :=
  match s.source.receiver with
  | none => s
  | some activation => s.received activation packet

end Stream

namespace Completes

variable {me : ThreadId} {c : Stream} {locks : Locks} {profile : Profile} {consumer : ConsumerId}
  {activation : Nat} {frame : Frame}

theorem halt (hFree : locks.FreeFor me) (hReady : c.Ready) {ending : Ending} :
    Completes me [.halt ending] c locks (c.halted ending) locks :=
  of_moves fun _ _ => ⟨_, .halt hFree hReady.steady⟩

theorem start (hFree : locks.FreeFor me) (hReady : c.Ready) :
    Completes me (Action.start profile consumer) c locks (c.started profile consumer).1 locks :=
  of_moves fun _ _ => ⟨_, .start hFree hReady.feed⟩

theorem seeStopped (hFree : locks.FreeFor me) (hReady : c.Ready) :
    Completes me (Errand.actions profile consumer .stop) c locks
      (Stream.errand profile consumer c .stop) locks := by
  refine of_moves fun rest last => ⟨c.haltResult .stopped, ?_⟩
  refine (Moves.halt hFree hReady.steady).trans (.act rfl ?_)
  rintro s hCore rfl hCalm
  exact ⟨_, rfl, rfl, hCalm, by rw [Stream.errand, ← hCore]; exact .refl _⟩

theorem seeStarted (hFree : locks.FreeFor me) (hReady : c.Ready) (profile? : Option Profile)
    (consumer? : Option ConsumerId) :
    Completes me (Errand.actions profile consumer (.start profile? consumer?)) c locks
      (Stream.errand profile consumer c (.start profile? consumer?)) locks := by
  refine of_moves fun rest last =>
    ⟨(c.started (profile?.getD profile) (consumer?.getD consumer)).2, ?_⟩
  refine (Moves.start hFree hReady.feed).trans (.act rfl ?_)
  rintro s hCore rfl hCalm
  exact ⟨_, rfl, rfl, hCalm, by dsimp only [Stream.errand]; rw [← hCore]; exact .refl _⟩

theorem errands (hFree : locks.FreeFor me) (hReady : c.Ready) {list : List Errand}
    (hPolite : .awaitStopping ∉ list) :
    Completes me (list.flatMap (Errand.actions profile consumer)) c locks
      (list.foldl (Stream.errand profile consumer) c) locks := by
  induction list generalizing c with
  | nil => exact nil
  | cons e list ih =>
    obtain ⟨hThis, hRest⟩ := not_or.mp (mt List.mem_cons.mpr hPolite)
    have hNext := ih (hReady.errand profile consumer e) hRest
    rw [List.flatMap_cons, List.foldl_cons]
    cases e with
    | stop => exact (seeStopped hFree hReady).append hNext
    | start profile? consumer? => exact (seeStarted hFree hReady profile? consumer?).append hNext
    | awaitStopping => exact absurd rfl hThis

theorem consume (hFree : locks.FreeFor me) (hReady : c.Ready) :
    Completes me [.consume profile consumer frame] c locks
      (c.handed profile consumer frame) locks := by
  rcases hCall : c.consumer.call frame with ⟨stage, conduct⟩
  have hAct : stage.act = c.consumer.act ∧
      c.consumer.act (c.consumer.calls + 1) frame = conduct := by
    cases hCall
    exact ⟨rfl, rfl⟩
  have hHanded : (Stream.consumed { c with consumer := stage } (.frame consumer frame)).Ready :=
    ⟨hReady.steady, hReady.feed, hReady.reached, hAct.1 ▸ hReady.polite⟩
  refine act rfl ?_
  rintro last s rfl rfl hCalm
  rw [Stream.handed, hCall]
  cases conduct with
  | errands list =>
    have hConsume : s.consume profile consumer frame = {
        stream := { s with consumer := stage }.consumed (.frame consumer frame)
        next := list.flatMap (Errand.actions profile consumer) } := by
      rw [Stream.consume, show s.consumer.call frame = (stage, .errands list) from hCall]
      dsimp only
      rw [Stream.request_of_reached (by exact hReady.reached)]
    exact ⟨_, congrArg some hConsume, rfl, hCalm,
      errands hFree hHanded (hReady.polite _ _ _ hAct.2)⟩
  | panic reason =>
    have hConsume : s.consume profile consumer frame = {
        stream := ({ s with consumer := stage }.consumed (.frame consumer frame)).log
          [.fail s!"frame callback panicked: {reason}"] } := by
      rw [Stream.consume, show s.consumer.call frame = (stage, .panic reason) from hCall]
    exact ⟨_, congrArg some hConsume, rfl, hCalm, nil⟩

theorem confirm (hFree : locks.FreeFor me) (hReady : c.Ready) :
    Completes me [.confirm activation profile consumer frame] c locks
      (c.confirmed activation profile consumer frame) locks := by
  refine act rfl ?_
  rintro last s rfl rfl hCalm
  unfold Stream.confirmed
  by_cases hCurrent : s.control.isCurrent activation = true
  · have hConfirm : s.confirm activation profile consumer frame = {
        stream := { s with control := (s.control.countDelivered.transition .streaming).1.wake }
        next := Notice.tellAll (s.control.countDelivered.transition .streaming).2 ++
          [.consume profile consumer frame] } := if_pos hCurrent
    have hCore : Stream.core
        { s with control := (s.control.countDelivered.transition .streaming).1.wake } =
        Stream.core { s with control := { s.control.countDelivered with state := .streaming } } :=
      s.core_transition s.control.countDelivered .streaming
    have hCalm' : Stream.IsCalm
        { s with control := (s.control.countDelivered.transition .streaming).1.wake } :=
      Stream.isCalm_transition (c := s.control.countDelivered) hCalm rfl .streaming
    rw [if_pos (by exact hCurrent)]
    refine ⟨_, congrArg some hConfirm, rfl, hCalm', (tellAll _).append ?_⟩
    rw [hCore]
    exact consume hFree ⟨nofun, hReady.feed, hReady.reached, hReady.polite⟩
  · have hConfirm : s.confirm activation profile consumer frame = {
        stream := { s with control := s.control.countLate } } := if_neg hCurrent
    rw [if_neg (by exact hCurrent)]
    exact ⟨_, congrArg some hConfirm, rfl, hCalm, nil⟩

theorem dropFrame (e : Error) :
    Completes me [.dropFrame e] c locks { c with control := c.control.countDropped } locks := by
  refine act rfl ?_
  rintro last s rfl rfl hCalm
  dsimp only [Action.perform, Stream.dropFrame]
  split
  · exact ⟨_, rfl, rfl, hCalm, nil⟩
  · exact ⟨_, rfl, rfl, hCalm, nil⟩

/-- The stages are run with the lock of the pipeline in hand; what comes of it is done without. -/
theorem process (hFree : locks.FreeFor me) (hReady : c.Ready) :
    Completes me [.acquire .pipeline, .process activation profile consumer frame] c locks
      (c.processed activation profile consumer frame) locks := by
  obtain ⟨locks', hFree', hRelease, hAcquire⟩ := acquire hFree .pipeline
  refine (hAcquire c).append (act rfl ?_)
  rintro last s rfl rfl hCalm
  rcases hRun : s.pipeline.run (s.wall s.now) s.device.syncMode profile frame with
    ⟨pipeline, verdict⟩
  have hNext : Stream.Ready { s.core with pipeline } :=
    ⟨hReady.steady, hReady.feed, hReady.reached, hReady.polite⟩
  rw [Stream.processed, show s.core.pipeline.run (s.core.wall s.core.now) s.core.device.syncMode
    profile frame = (pipeline, verdict) from hRun]
  dsimp only [Action.perform, Stream.process]
  rw [hRun]
  cases verdict with
  | error e => exact ⟨_, rfl, rfl, hCalm, (release hRelease).append (dropFrame e)⟩
  | ok processed =>
    cases processed with
    | swallow => exact ⟨_, rfl, rfl, hCalm, release hRelease⟩
    | keep frame => exact ⟨_, rfl, rfl, hCalm, (release hRelease).append (confirm hFree hNext)⟩
    | stopThen frame =>
      refine ⟨_, rfl, rfl, hCalm, ?_⟩
      dsimp only
      rw [Stream.request_of_reached (by exact hReady.reached)]
      exact (halt hFree' hNext).append
        ((release hRelease).append (confirm hFree (hNext.halted .stopped)))

theorem deliver (hFree : locks.FreeFor me) (hReady : c.Ready) :
    Completes me [.deliver activation frame] c locks (c.delivered activation frame) locks := by
  refine act rfl ?_
  rintro last s rfl rfl hCalm
  dsimp only [Action.perform, Stream.deliver]
  unfold Stream.delivered
  rw [show s.core.control.profile = s.control.profile from rfl,
    show s.core.control.consumer = s.control.consumer from rfl,
    show s.core.control.isCurrent activation = s.control.isCurrent activation from rfl]
  cases s.control.profile with
  | none => exact ⟨_, rfl, rfl, hCalm, nil⟩
  | some profile =>
    cases s.control.consumer with
    | none => exact ⟨_, rfl, rfl, hCalm, nil⟩
    | some consumer =>
      cases s.control.isCurrent activation with
      | false => exact ⟨_, rfl, rfl, hCalm, nil⟩
      | true => exact ⟨_, rfl, rfl, hCalm, process hFree hReady⟩

theorem ingest (hFree : locks.FreeFor me) (hReady : c.Ready) {packet : List UInt8} :
    Completes me [.ingest activation packet] c locks (c.ingested activation packet) locks := by
  refine act rfl ?_
  rintro last s rfl rfl hCalm
  dsimp only [Action.perform, Stream.ingest]
  unfold Stream.ingested
  rw [show s.core.assembler = s.assembler from rfl, show s.core.now = s.now from rfl]
  cases s.assembler with
  | none => exact ⟨_, rfl, rfl, hCalm, nil⟩
  | some a =>
    dsimp only
    cases (a.ingest s.now packet).2.frame? with
    | none => exact ⟨_, rfl, rfl, hCalm, nil⟩
    | some frame =>
      obtain ⟨locks', hFree', hRelease, hAcquire⟩ := acquire hFree .delivery
      have hNext : Stream.Ready { s.core with assembler := some (a.ingest s.now packet).1 } :=
        ⟨hReady.steady, hReady.feed, hReady.reached, hReady.polite⟩
      exact ⟨_, rfl, rfl, hCalm,
        (hAcquire _).append ((deliver hFree' hNext).append (release hRelease))⟩

theorem receive (hFree : locks.FreeFor me) (hReady : c.Ready) {packet : List UInt8} :
    Completes me [.receive activation packet] c locks (c.received activation packet) locks := by
  refine act rfl ?_
  rintro last s rfl rfl hCalm
  dsimp only [Action.perform, Stream.receive]
  unfold Stream.received
  rw [show s.core.control.isCurrent activation = s.control.isCurrent activation from rfl]
  cases s.control.isCurrent activation with
  | false => exact ⟨_, rfl, rfl, hCalm, nil⟩
  | true => exact ⟨_, rfl, rfl, hCalm, ingest hFree hReady⟩

/-- **What a packet comes to.** -/
theorem offer (hFree : locks.FreeFor me) (hReady : c.Ready) {packet : List UInt8} :
    Completes me [.offer packet] c locks (c.offered packet) locks := by
  refine act rfl ?_
  rintro last s rfl rfl hCalm
  dsimp only [Action.perform, Stream.offer]
  unfold Stream.offered
  rw [show s.core.source = s.source from rfl]
  cases s.source.receiver with
  | none => exact ⟨_, rfl, rfl, hCalm, nil⟩
  | some activation => exact ⟨_, rfl, rfl, hCalm, receive hFree hReady⟩

end Completes

end LidarSweep
