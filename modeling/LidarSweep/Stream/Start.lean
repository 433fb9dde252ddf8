import LidarSweep.Stream.Action

/-!
# Starting a stream

The checks come first and change nothing but the geometry cache. Then the stages are made ready, an
assembler is put in place, the new activation begins, listeners are told, and the source is
started. If the source refuses, the stream is stopped again.
-/

namespace LidarSweep.Stream

/-- The first reason why the stream cannot be started, or the geometry to start with. -/
def admission (s : Stream) (profile : Profile) : Except Error Geometry × GeometryTable :=
  if !s.control.canStart then
    (.error (.invalidState
      s!"cannot start {s.streamType.label} stream while {s.control.state.label}"), s.table)
  else if profile.streamType ≠ s.streamType then
    (.error (.configuration (.wrongStreamType profile s.streamType)), s.table)
  else
    match s.device.allows s.streamType with
    | .error e => (.error e, s.table)
    | .ok () =>
      s.table.resolve ⟨s.device.model, profile.rate, profile.format⟩ s.device.workMode

def checkStart (s : Stream) (profile : Profile) (consumer : ConsumerId) : Effect :=
  let (verdict, table) := s.admission profile
  let s := { s with table }
  match verdict with
  | .error e => { stream := s, result := some (.error e) }
  | .ok g => {
      stream := s
      next := [.acquire .pipeline, .resetPipeline profile.rate, .release .pipeline,
        .install g profile.format, .activate profile consumer] }

def resetPipeline (s : Stream) (rate : ScanRate) : Effect :=
  { stream := { s with pipeline := s.pipeline.reset s.now rate } }

def install (s : Stream) (geometry : Geometry) (format : Format) : Effect :=
  { stream := { s with assembler := some (.new geometry format) } }

def activate (s : Stream) (profile : Profile) (consumer : ConsumerId) : Effect :=
  let (control, notice) := Control.transition {
    s.control with
    activation := s.control.activation + 1
    stopPending := false
    profile := some profile
    consumer := some consumer } .starting
  { stream := { s with control }
    next := Notice.tellAll notice ++ [.openSource control.activation] }

/-- A source that plays by itself does so on a thread of its own. -/
def openSource (s : Stream) (activation : Nat) : Effect :=
  let (source, result) := s.source.start activation
  let s := { s with source }
  match result with
  | .ok () => {
      stream := s
      result := some (.ok ())
      spawned := if s.feed.isSome then [[.play activation 0 s.now]] else [] }
  | .error e => {
      stream := s.warn s!"stream source failed to start: {e.message}"
      next := [.uninstall, .revert e] }

def uninstall (s : Stream) : Effect := { stream := { s with assembler := none } }

def revert (s : Stream) (cause : Error) : Effect :=
  let (control, notice) := Control.transition { s.control with consumer := none } .stopped
  { stream := { s with control }
    next := Notice.tellAll notice ++ [.finish (.error cause)] }

end LidarSweep.Stream
