import LidarSweep.Stream.Action

/-!
# From packets to consumers

A packet counts for the activation whose source took it. The frame that it may complete passes the
stages and goes to the consumer, unless the stream was stopped meanwhile. The first frame of an
activation makes the stream streaming.
-/

namespace LidarSweep.Stream

/-- What code from outside asks of the stream, as long as that code reaches it. -/
def request (s : Stream) (agenda : List Action) : List Action :=
  if s.isAbandoned then [] else agenda

theorem request_of_reached {s : Stream} (h : s.isAbandoned = false) (agenda : List Action) :
    s.request agenda = agenda := by
  rw [request, h]
  rfl

/-- Hands a packet to the source. -/
def offer (s : Stream) (packet : List UInt8) : Effect :=
  match s.source.receiver with
  | none => { stream := s }
  | some activation => { stream := s, next := [.receive activation packet], taken := 1 }

/-- Plays the feed from a position on while the source is started for this activation. -/
def play? (s : Stream) (activation index dueNs : Nat) : Option Effect :=
  if s.source.receiver ≠ some activation then some { stream := s }
  else if s.now < dueNs then none
  else
    match s.feed with
    | none => some { stream := s }
    | some feed =>
      match feed.packet? index with
      | none => some { stream := s }
      | some packet =>
        some {
          stream := s
          next := [.receive activation packet,
            .play activation (index + 1) (s.now + feed.intervalNs)] }

def receive (s : Stream) (activation : Nat) (packet : List UInt8) : Effect :=
  { stream := s
    next := if s.control.isCurrent activation then [.ingest activation packet] else [] }

def ingest (s : Stream) (activation : Nat) (packet : List UInt8) : Effect :=
  match s.assembler with
  | none => { stream := s }
  | some a =>
    let (a, outcome) := a.ingest s.now packet
    let s := { s with assembler := some a }.log outcome.log
    match outcome.frame? with
    | none => { stream := s }
    | some frame =>
      { stream := s
        next := [.acquire .delivery, .deliver activation frame, .release .delivery] }

def deliver (s : Stream) (activation : Nat) (frame : Frame) : Effect :=
  match s.control.profile, s.control.consumer, s.control.isCurrent activation with
  | some profile, some consumer, true =>
    { stream := s
      next := [.acquire .pipeline, .process activation profile consumer frame] }
  | _, _, _ => { stream := { s with control := s.control.countLate } }

/-- Runs the stages. The processor may ask for a stop, which comes before it is done. -/
def process (s : Stream) (activation : Nat) (profile : Profile) (consumer : ConsumerId)
    (frame : Frame) : Effect :=
  let (pipeline, verdict) := s.pipeline.run (s.wall s.now) s.device.syncMode profile frame
  let s := { s with pipeline }
  match verdict with
  | .error e => { stream := s, next := [.release .pipeline, .dropFrame e] }
  | .ok .swallow => { stream := s, next := [.release .pipeline] }
  | .ok (.keep frame) =>
    { stream := s
      next := [.release .pipeline, .confirm activation profile consumer frame] }
  | .ok (.stopThen frame) =>
    { stream := s
      next := s.request Action.stop ++
        [.release .pipeline, .confirm activation profile consumer frame] }

/-- A frame that failed the check of its timing is dropped without a word. -/
def dropFrame (s : Stream) (cause : Error) : Effect :=
  let isSilent :=
    match cause with
    | .stage .anomaly _ => true
    | _ => false
  let s := if isSilent then s else s.log [.warn s!"dropping frame: {cause.message}"]
  { stream := { s with control := s.control.countDropped } }

/-- A frame that is done only after a stop was asked for never revives the stream. -/
def confirm (s : Stream) (activation : Nat) (profile : Profile) (consumer : ConsumerId)
    (frame : Frame) : Effect :=
  if s.control.isCurrent activation then
    let (control, notice) := s.control.countDelivered.transition .streaming
    { stream := { s with control := control.wake }
      next := Notice.tellAll notice ++ [.consume profile consumer frame] }
  else { stream := { s with control := s.control.countLate } }

def consume (s : Stream) (profile : Profile) (consumer : ConsumerId) (frame : Frame) :
    Effect :=
  let (stage, conduct) := s.consumer.call frame
  let s := { s with consumer := stage }.consumed (.frame consumer frame)
  match conduct with
  | .errands list =>
    { stream := s, next := s.request (list.flatMap (Errand.actions profile consumer)) }
  | .panic reason => { stream := s.log [.fail s!"frame callback panicked: {reason}"] }

/-- Tells one listener of a state. -/
def tell (s : Stream) (listener : Nat) (state : StreamState) (profile : Option Profile) :
    Effect :=
  match s.control.listeners[listener]? with
  | none => { stream := s }
  | some l =>
    let s := if l.keeps then s.heard (.state state profile) else s
    let (l, reaction) := l.hear state
    let s := { s with
      control := { s.control with listeners := s.control.listeners.set listener l } }
    match reaction with
    | none => { stream := s }
    | some .note => { stream := s.heard (.noted state) }
    | some .stop => { stream := s, next := s.request (Action.stop ++ [.hearStopped]) }
    | some (.panic reason) =>
      { stream := s.log [.fail s!"state listener panicked: {reason}"] }

end LidarSweep.Stream
