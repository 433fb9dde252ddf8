import LidarSweep.Proofs.Clock.GapCheck
import LidarSweep.Stream.Pipeline

/-!
# Times that advance

With the built-in clocks and a check of gaps, a frame that passes the stages comes later than every
frame that passed them before it since they were made ready, and the offset between its two times
is theirs (`Pipeline.run_of_isStandard`).  Frames that are dropped on the way change what is kept of
earlier ones only so that later ones have to come later still.
-/

namespace LidarSweep

/-- The frame that goes on. -/
def Processed.frame? : Processed → Option Frame
  | .keep frame | .stopThen frame => some frame
  | .swallow => none

/-- A processor that gives back no other frame than it was given, but perhaps with other points. -/
def Stage.Returns (stage : Stage (Except StageFault Processed)) : Prop :=
  ∀ call frame processed, stage.act call frame = .ok processed →
    ∀ frame' ∈ processed.frame?, ∃ data, frame' = frame.withData data

namespace Pipeline

/-- Built-in clocks, a check of gaps, and a processor that gives back what it was given. -/
structure IsStandard (p : Pipeline) : Prop where
  device : ∃ clock, p.deviceTiming = .receipt clock
  global : ∃ clock, p.globalTiming = .host clock
  gaps : p.gaps.isSome = true
  processor : ∀ stage ∈ p.processor, stage.Returns

/-- The global time of the frame is by the host clock, whose offset is fixed. -/
def Shifted (p : Pipeline) (frame : Frame) : Prop :=
  ∃ offset, p.globalTiming = .host ⟨some offset⟩ ∧ frame.globalUs = frame.deviceUs + offset

/-- The frame has passed the check of its timing, and those to come have to be later. -/
structure Passed (p : Pipeline) (frame : Frame) : Prop where
  shifted : p.Shifted frame
  last : ∃ gaps last, p.gaps = some gaps ∧ gaps.lastUs = some last ∧ frame.deviceUs ≤ last

variable {p p' p'' : Pipeline} {α β : Type}

/-- What is kept of earlier frames stays true. -/
structure Keeps (p p' : Pipeline) : Prop where
  standard : p'.IsStandard
  passed : ∀ frame, p.Passed frame → p'.Passed frame

theorem Keeps.refl (h : p.IsStandard) : p.Keeps p := ⟨h, fun _ => id⟩

theorem Keeps.trans (h : p.Keeps p') (h' : p'.Keeps p'') : p.Keeps p'' :=
  ⟨h'.standard, fun frame hPassed => h'.passed frame (h.passed frame hPassed)⟩

theorem IsStandard.reset (h : p.IsStandard) (now : Nat) (rate : ScanRate) :
    (p.reset now rate).IsStandard := by
  obtain ⟨⟨device, hDevice⟩, ⟨global, hGlobal⟩, hGaps, hProcessor⟩ := h
  refine ⟨⟨device.reset now, ?_⟩, ⟨global.reset, ?_⟩, ?_, hProcessor⟩
  · simp only [Pipeline.reset, hDevice]
  · simp only [Pipeline.reset, hGlobal]
  · rw [Pipeline.reset, Option.isSome_map]
    exact hGaps

/-- What a step that begins with `p` comes to: it keeps what there is to keep, and what it lets pass
is as it should be. -/
structure Yields (p : Pipeline) (post : Pipeline → α → Prop) (step : Pipeline × Except Error α) :
    Prop where
  keeps : p.Keeps step.1
  post : ∀ a, step.2 = .ok a → post step.1 a

theorem Yields.imp {step : Pipeline × Except Error α} {post post' : Pipeline → α → Prop}
    (h : p.Yields post step) (hImp : ∀ p' a, post p' a → post' p' a) : p.Yields post' step :=
  ⟨h.keeps, fun a hPass => hImp _ a (h.post a hPass)⟩

theorem Yields.andThen {step : Pipeline × Except Error α}
    {next : Pipeline → α → Pipeline × Except Error β} {post : Pipeline → α → Prop}
    {post' : Pipeline → β → Prop} (h : p.Yields post step)
    (hNext : ∀ p' a, p.Keeps p' → post p' a → p'.Yields post' (next p' a)) :
    p.Yields post' (andThen step next) := by
  obtain ⟨hKeeps, hPost⟩ := h
  obtain ⟨p', verdict⟩ := step
  cases verdict with
  | ok a =>
    have hLater := hNext p' a hKeeps (hPost a rfl)
    exact ⟨hKeeps.trans hLater.keeps, hLater.post⟩
  | error e => exact ⟨hKeeps, nofun⟩

variable (profile : Profile) (frame : Frame)

theorem yields_annotate (h : p.IsStandard) :
    p.Yields (fun _ a => a.sequence = frame.sequence) (annotate profile p frame) := by
  refine ⟨.refl h, fun a hPass => ?_⟩
  rw [annotate] at hPass
  cases hValues : MetadataKey.values p.keys frame.header with
  | ok metadata =>
    rw [hValues] at hPass
    cases hPass
    rfl
  | error e =>
    rw [hValues] at hPass
    cases hPass

theorem yields_stampDevice (h : p.IsStandard) :
    p.Yields (fun _ a => a.sequence = frame.sequence) (p.stampDevice frame) := by
  obtain ⟨clock, hClock⟩ := h.device
  simp only [stampDevice, hClock]
  refine ⟨⟨⟨⟨_, rfl⟩, h.global, h.gaps, h.processor⟩, fun _ hPassed =>
    ⟨hPassed.shifted, hPassed.last⟩⟩, fun a hPass => ?_⟩
  cases hTime : (clock.stamp frame.receiptNs).2 with
  | ok time =>
    rw [hTime] at hPass
    cases hPass
    rfl
  | error e =>
    rw [hTime] at hPass
    cases hPass

theorem yields_stampGlobal (h : p.IsStandard) (wallUs : Nat) :
    p.Yields (fun p' a => a.sequence = frame.sequence ∧ p'.Shifted a)
      (p.stampGlobal wallUs frame) := by
  obtain ⟨⟨offset⟩, hClock⟩ := h.global
  simp only [stampGlobal, hClock]
  refine ⟨⟨⟨h.device, ⟨_, rfl⟩, h.gaps, h.processor⟩, fun earlier hPassed => ⟨?_, hPassed.last⟩⟩,
    fun a hPass => ?_⟩
  · -- An offset that is fixed stays.
    obtain ⟨fixed, hFixed, hGlobal⟩ := hPassed.shifted
    cases hClock.symm.trans hFixed
    exact ⟨fixed, rfl, hGlobal⟩
  · cases hPass
    exact ⟨rfl, _, rfl, rfl⟩

/-- The frame bears the number of the one that came in, it is later than all that passed before,
and it has passed. -/
structure Succeeds (p : Pipeline) (frame : Frame) (p' : Pipeline) (a : Frame) : Prop where
  sequence : a.sequence = frame.sequence
  passed : p'.Passed a
  later : ∀ earlier, p.Passed earlier → earlier.deviceUs < a.deviceUs

/-- A frame that passes the check is later than all that have passed it. -/
theorem yields_checkTiming (h : p.IsStandard) (hShifted : p.Shifted frame) (mode : SyncMode) :
    p.Yields (p.Succeeds frame) (p.checkTiming mode frame) := by
  obtain ⟨gaps, hGaps⟩ := Option.isSome_iff_exists.mp h.gaps
  simp only [checkTiming, hGaps]
  refine ⟨⟨⟨h.device, h.global, rfl, h.processor⟩, fun earlier hPassed =>
    ⟨hPassed.shifted, ?_⟩⟩, fun a hPass => ?_⟩
  · obtain ⟨gaps', last, hSome, hLast, hLe⟩ := hPassed.last
    cases hGaps.symm.trans hSome
    obtain ⟨last', hLast', hMore⟩ := GapCheck.lastUs_check hLast frame.deviceUs mode
    exact ⟨_, last', rfl, hLast', Nat.le_trans hLe hMore⟩
  · cases hVerdict : (gaps.check frame.deviceUs mode).2 with
    | error e =>
      rw [hVerdict] at hPass
      cases hPass
    | ok =>
      rw [hVerdict] at hPass
      cases hPass
      obtain ⟨hLast, hLater⟩ := GapCheck.lastUs_of_check_ok hVerdict
      refine ⟨rfl, ⟨hShifted, _, _, rfl, hLast, Nat.le_refl _⟩, fun earlier hPassed => ?_⟩
      obtain ⟨gaps', last, hSome, hOld, hLe⟩ := hPassed.last
      cases hGaps.symm.trans hSome
      exact Nat.lt_of_le_of_lt hLe (hLater last hOld)

theorem Succeeds.keeps {frame a : Frame} (h : p.Succeeds frame p' a) (hKeeps : p'.Keeps p'')
    (data : List UInt8) : p.Succeeds frame p'' (a.withData data) where
  sequence := h.sequence
  passed := ⟨(hKeeps.passed a h.passed).shifted, (hKeeps.passed a h.passed).last⟩
  later := h.later

variable {frame' : Frame}

theorem yields_record (h : p'.IsStandard) (hSucceeds : p.Succeeds frame p' frame') :
    p'.Yields (p.Succeeds frame) (p'.record frame') := by
  have hKeeps (recorder : Option Recorder) : p'.Keeps { p' with recorder } :=
    ⟨⟨h.device, h.global, h.gaps, h.processor⟩, fun _ hPassed => ⟨hPassed.shifted, hPassed.last⟩⟩
  rw [record]
  cases p'.recorder with
  | none =>
    refine ⟨.refl h, fun a hPass => ?_⟩
    cases hPass
    exact hSucceeds
  | some recorder =>
    dsimp only
    cases (recorder.stage.call frame').2 with
    | ok =>
      refine ⟨hKeeps _, fun a hPass => ?_⟩
      cases hPass
      exact hSucceeds.keeps (hKeeps _) frame'.data
    | error fault => exact ⟨hKeeps _, nofun⟩

theorem yields_process (h : p'.IsStandard) (hSucceeds : p.Succeeds frame p' frame') :
    p'.Yields (fun p'' processed => ∀ a ∈ processed.frame?, p.Succeeds frame p'' a)
      (p'.process frame') := by
  rw [process]
  cases hProcessor : p'.processor with
  | none =>
    refine ⟨.refl h, fun processed hPass a ha => ?_⟩
    cases hPass
    cases ha
    exact hSucceeds
  | some stage =>
    have hReturns := h.processor stage hProcessor
    have hKeeps : p'.Keeps { p' with processor := some (stage.call frame').1 } := by
      refine ⟨⟨h.device, h.global, h.gaps, fun stage' hStage => ?_⟩, fun _ hPassed =>
        ⟨hPassed.shifted, hPassed.last⟩⟩
      cases hStage
      exact hReturns
    refine ⟨hKeeps, fun processed hPass a ha => ?_⟩
    dsimp only [Stage.call] at hPass
    cases hVerdict : stage.act (stage.calls + 1) frame' with
    | error e =>
      rw [hVerdict] at hPass
      cases hPass
    | ok processed' =>
      rw [hVerdict] at hPass
      cases hPass
      obtain ⟨data, rfl⟩ := hReturns _ _ _ hVerdict a ha
      exact hSucceeds.keeps hKeeps data

/-- **A frame that passes the stages** has the number that it came with, comes later than all that
passed them before, and has those to come later still. -/
theorem run_of_isStandard (h : p.IsStandard) (wallUs : Nat) (mode : SyncMode) :
    p.Yields (fun p' processed => ∀ a ∈ processed.frame?, p.Succeeds frame p' a)
      (p.run wallUs mode profile frame) := by
  have hDevice : p.Yields (fun _ a => a.sequence = frame.sequence)
      (andThen (annotate profile p frame) stampDevice) :=
    (yields_annotate profile frame h).andThen fun _ a hKeeps hSame =>
      (yields_stampDevice a hKeeps.standard).imp fun _ _ hPost => hPost.trans hSame
  have hGlobal : p.Yields (fun p' a => a.sequence = frame.sequence ∧ p'.Shifted a)
      (andThen (andThen (annotate profile p frame) stampDevice) (stampGlobal wallUs)) :=
    hDevice.andThen fun _ a hKeeps hSame =>
      (yields_stampGlobal a hKeeps.standard wallUs).imp fun _ _ hPost =>
        ⟨hPost.1.trans hSame, hPost.2⟩
  have hChecked : p.Yields (p.Succeeds frame)
      (andThen (andThen (andThen (annotate profile p frame) stampDevice) (stampGlobal wallUs))
        (checkTiming mode)) :=
    hGlobal.andThen fun _ a hKeeps hPassed =>
      (yields_checkTiming a hKeeps.standard hPassed.2 mode).imp fun _ _ hPost =>
        ⟨hPost.sequence.trans hPassed.1, hPost.passed, fun earlier hEarlier =>
          hPost.later earlier (hKeeps.passed earlier hEarlier)⟩
  have hRecorded : p.Yields (p.Succeeds frame)
      (andThen (andThen (andThen (andThen (annotate profile p frame) stampDevice)
        (stampGlobal wallUs)) (checkTiming mode)) record) :=
    hChecked.andThen fun _ _ hKeeps hSucceeds => yields_record frame hKeeps.standard hSucceeds
  exact hRecorded.andThen fun _ _ hKeeps hSucceeds =>
    yields_process frame hKeeps.standard hSucceeds

end Pipeline

end LidarSweep
