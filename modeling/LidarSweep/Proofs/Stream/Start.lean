import LidarSweep.Proofs.Stream.Core

/-!
# Starts, done

What a start comes to when no other thread moves: it is refused and only the geometry cache may have
changed, or a new activation has begun, whose source is started or whose stream is stopped again.
-/

namespace LidarSweep

namespace Stream

/-- The stream of an activation that has begun, except for assembler, source and state. -/
def begun (s : Stream) (profile : Profile) (table : GeometryTable) : Stream :=
  { s with
    table
    pipeline := s.pipeline.reset s.now profile.rate
    control := { s.control with
      activation := s.control.activation + 1
      stopPending := false
      profile := some profile } }

def started (s : Stream) (profile : Profile) (consumer : ConsumerId) :
    Stream × Except Error Unit :=
  match s.admission profile with
  | (.error e, table) => ({ s with table }, .error e)
  | (.ok g, table) =>
    let s := s.begun profile table
    match s.source.start s.control.activation with
    | (source, .ok ()) =>
      ({ s with
          source
          assembler := some (.new g profile.format)
          control := { s.control with consumer := some consumer, state := .starting } },
        .ok ())
    | (source, .error e) =>
      ({ s with
          source
          assembler := none
          control := { s.control with consumer := none, state := .stopped } },
        .error e)

end Stream

namespace Moves

variable {me : ThreadId} {rest : List Action} {c : Stream} {locks : Locks}
  {last : Except Error Unit} {profile : Profile} {consumer : ConsumerId}

theorem checkStart_of_error {e : Error} {table : GeometryTable}
    (hAdmission : c.admission profile = (.error e, table)) :
    Moves me ⟨.checkStart profile consumer :: rest, c, locks, last⟩
      ⟨rest, { c with table }, locks, .error e⟩ := by
  refine act rfl ?_
  rintro s rfl rfl hCalm
  have hCheck : s.checkStart profile consumer = {
      stream := { s with table }, result := some (.error e) } := by
    rw [Stream.checkStart, show s.admission profile = (.error e, table) from hAdmission]
  exact ⟨_, congrArg some hCheck, rfl, hCalm, refl _⟩

theorem checkStart_of_ok {g : Geometry} {table : GeometryTable}
    (hAdmission : c.admission profile = (.ok g, table)) :
    Moves me ⟨.checkStart profile consumer :: rest, c, locks, last⟩
      ⟨.acquire .pipeline :: .resetPipeline profile.rate :: .release .pipeline ::
        .install g profile.format :: .activate profile consumer :: rest,
        { c with table }, locks, last⟩ := by
  refine act rfl ?_
  rintro s rfl rfl hCalm
  have hCheck : s.checkStart profile consumer = {
      stream := { s with table }
      next := [.acquire .pipeline, .resetPipeline profile.rate, .release .pipeline,
        .install g profile.format, .activate profile consumer] } := by
    rw [Stream.checkStart, show s.admission profile = (.ok g, table) from hAdmission]
  exact ⟨_, congrArg some hCheck, rfl, hCalm, refl _⟩

theorem resetPipeline (rate : ScanRate) :
    Moves me ⟨.resetPipeline rate :: rest, c, locks, last⟩
      ⟨rest, { c with pipeline := c.pipeline.reset c.now rate }, locks, last⟩ := by
  refine act rfl ?_
  rintro s rfl rfl hCalm
  exact ⟨_, rfl, rfl, hCalm, refl _⟩

theorem install (g : Geometry) (format : Format) :
    Moves me ⟨.install g format :: rest, c, locks, last⟩
      ⟨rest, { c with assembler := some (.new g format) }, locks, last⟩ := by
  refine act rfl ?_
  rintro s rfl rfl hCalm
  exact ⟨_, rfl, rfl, hCalm, refl _⟩

theorem activate :
    Moves me ⟨.activate profile consumer :: rest, c, locks, last⟩
      ⟨.openSource (c.control.activation + 1) :: rest,
        { c with control := { c.control with
            activation := c.control.activation + 1
            stopPending := false
            profile := some profile
            consumer := some consumer
            state := .starting } }, locks, last⟩ := by
  refine transition (fun d => { d with
    activation := d.activation + 1
    stopPending := false
    profile := some profile
    consumer := some consumer }) .starting [.openSource (c.control.activation + 1)] rfl ?_
    (fun _ => rfl) fun _ => rfl
  rintro s rfl
  dsimp only [Action.perform, Stream.activate]
  rw [Control.transition_fst]
  rfl

theorem uninstall :
    Moves me ⟨.uninstall :: rest, c, locks, last⟩
      ⟨rest, { c with assembler := none }, locks, last⟩ := by
  refine act rfl ?_
  rintro s rfl rfl hCalm
  exact ⟨_, rfl, rfl, hCalm, refl _⟩

theorem finish (result : Except Error Unit) :
    Moves me ⟨.finish result :: rest, c, locks, last⟩ ⟨rest, c, locks, result⟩ := by
  refine act rfl ?_
  rintro s rfl rfl hCalm
  exact ⟨_, rfl, rfl, hCalm, refl _⟩

theorem revert (e : Error) :
    Moves me ⟨.revert e :: rest, c, locks, last⟩
      ⟨rest, { c with control := { c.control with consumer := none, state := .stopped } },
        locks, .error e⟩ :=
  (transition (fun d => { d with consumer := none }) .stopped [.finish (.error e)] rfl
    (fun _ _ => rfl) (fun _ => rfl) fun _ => rfl).trans (finish (.error e))

theorem openSource_of_ok {activation : Nat} {source : ManualSource Nat} (hFeed : c.feed = none)
    (hStart : c.source.start activation = (source, .ok ())) :
    Moves me ⟨.openSource activation :: rest, c, locks, last⟩
      ⟨rest, { c with source }, locks, .ok ()⟩ := by
  refine act rfl ?_
  rintro s rfl rfl hCalm
  have hOpen : s.openSource activation = {
      stream := { s with source }, result := some (.ok ()) } := by
    rw [Stream.openSource, show s.source.start activation = (source, .ok ()) from hStart,
      show s.feed = none from hFeed]
    rfl
  exact ⟨_, congrArg some hOpen, rfl, hCalm, refl _⟩

theorem openSource_of_error {activation : Nat} {source : ManualSource Nat} {e : Error}
    (hStart : c.source.start activation = (source, .error e)) :
    Moves me ⟨.openSource activation :: rest, c, locks, last⟩
      ⟨rest,
        { c with
          source
          assembler := none
          control := { c.control with consumer := none, state := .stopped } },
        locks, .error e⟩ := by
  refine act rfl ?_
  rintro s rfl rfl hCalm
  have hOpen : s.openSource activation = {
      stream := { s with source }.warn s!"stream source failed to start: {e.message}"
      next := [.uninstall, .revert e] } := by
    rw [Stream.openSource, show s.source.start activation = (source, .error e) from hStart]
  exact ⟨_, congrArg some hOpen, rfl, hCalm, uninstall.trans (revert e)⟩

/-- **What a start comes to.**  A thread that no lock keeps out starts the stream or is refused. -/
theorem start (hFree : locks.FreeFor me) (hFeed : c.feed = none) :
    Moves me ⟨Action.start profile consumer ++ rest, c, locks, last⟩
      ⟨rest, (c.started profile consumer).1, locks, (c.started profile consumer).2⟩ := by
  obtain ⟨restartLocks, hFree', hRelease, hAcquire⟩ := acquire hFree .restart
  suffices hCourse : Moves me
      ⟨.checkStart profile consumer :: .release .restart :: rest, c, restartLocks, last⟩
      ⟨.release .restart :: rest, (c.started profile consumer).1, restartLocks,
        (c.started profile consumer).2⟩ from
    (hAcquire _ _ _).trans (hCourse.trans (hRelease ▸ release _))
  rw [Stream.started]
  rcases hAdmission : c.admission profile with ⟨verdict, table⟩
  cases verdict with
  | error e => exact checkStart_of_error hAdmission
  | ok g =>
    obtain ⟨pipelineLocks, _, hRelease', hAcquire'⟩ := acquire hFree' .pipeline
    refine (checkStart_of_ok hAdmission).trans ((hAcquire' _ _ _).trans
      ((resetPipeline _).trans ((release _).trans
        ((install _ _).trans (activate.trans ?_)))))
    dsimp only
    rw [hRelease']
    rcases hStart : c.source.start (c.control.activation + 1) with ⟨source, outcome⟩
    have hStart' : (c.begun profile table).source.start
        (c.begun profile table).control.activation = (source, outcome) := hStart
    rw [hStart']
    cases outcome with
    | ok => exact openSource_of_ok (by exact hFeed) (by exact hStart)
    | error e => exact openSource_of_error (by exact hStart)

end Moves

end LidarSweep
