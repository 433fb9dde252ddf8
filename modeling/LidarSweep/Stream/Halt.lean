import LidarSweep.Stream.Action

/-!
# Halting a stream

A halt stops the source, waits until no frame is being delivered, and retires the assembler. A
consumer that asks for it out of a delivery must not wait for a halt that itself waits for the
delivery: it leaves the matter to that one.
-/

namespace LidarSweep.Stream

/-- Begins a halt, or leaves it to the one under way. Waits for the restart lock. -/
def halt? (s : Stream) (me : ThreadId) (ending : Ending) : Option Effect :=
  let enter : Option Effect :=
    (s.locks.acquire? .restart me).map fun locks =>
      { stream := { s with locks }, next := [.beginHalt ending, .release .restart] }
  if s.locks.isHeldBy .delivery me then
    if s.control.state = ending.state then some { stream := s, result := some (.ok ()) }
    else if s.control.state = .stopping then
      some {
        stream := { s with control := { s.control with stopPending := true } }
        result := some (.ok ()) }
    else enter
  else enter

/-- Nothing is to be done where the stream has ended, and a stopped stream does not fail. Listeners
do not see the way to a failure. -/
def beginHalt (s : Stream) (ending : Ending) : Effect :=
  if s.control.state = ending.state ∨ s.control.state = .stopped then
    { stream := s, result := some (.ok ()) }
  else
    let (control, notice) := s.control.transition .stopping
    { stream := { s with control }
      next := (if ending = .stopped then Notice.tellAll notice else []) ++
        [.closeSource ending] }

def closeSource (s : Stream) (ending : Ending) : Effect :=
  let (source, result) := s.source.stop
  let s := { s with source }
  let s :=
    match result with
    | .ok () => s
    | .error e => s.warn s!"stream source failed to stop: {e.message}"
  { stream := s
    next := [.acquire .delivery, .release .delivery, .retire, .settle ending result] }

def retire (s : Stream) : Effect :=
  { stream := { s with assembler := none, lastStats := s.assemblerStats } }

def settle (s : Stream) (ending : Ending) (result : Except Error Unit) : Effect :=
  let (control, notice) := Control.transition { s.control with consumer := none } ending.state
  { stream := { s with control }
    next := Notice.tellAll notice ++ [.conclude ending result] }

def conclude (s : Stream) (ending : Ending) (result : Except Error Unit) : Effect :=
  { stream := if ending = .failed then s.fail "stream failed" else s
    result := some result }

def reportHalt (s : Stream) (result : Except Error Unit) : Effect :=
  match result with
  | .ok () => { stream := s }
  | .error e => { stream := s.warn s!"stream: {e.message}" }

def shutDown (s : Stream) : Effect :=
  { stream := { s with control := { s.control with shutdown := true }.wake } }

end LidarSweep.Stream
