import LidarSweep.Proofs.Stream.Timing

/-!
# What recorder and processor decide

A frame that has its times and has passed the check of its timing comes to the recorder and then to
the processor.  The stages before them look at neither (`Overlooks`), so what comes to the recorder
is the same with any other recorder and processor.  Parts that do the same with a frame at every
call decide by the frame alone (`Pipeline.verdict`): what comes of a frame then says nothing of the
frames before it (`run_of_isSteady`).
-/

namespace LidarSweep

/-- Does the same with a frame at every call. -/
def Stage.IsPure {α : Type} (stage : Stage α) : Prop :=
  ∀ k k' frame, stage.act k frame = stage.act k' frame

namespace Pipeline

/-- The stages before the recorder. -/
def front (wallUs : Nat) (mode : SyncMode) (profile : Profile) (p : Pipeline) (frame : Frame) :
    Pipeline × Except Error Frame :=
  andThen (andThen (andThen (annotate profile p frame) stampDevice) (stampGlobal wallUs))
    (checkTiming mode)

/-- The same stages with another recorder and processor. -/
def equipped (p : Pipeline) (recorder : Option Recorder)
    (processor : Option (Stage (Except StageFault Processed))) : Pipeline :=
  { p with recorder, processor }

/-- The stages before the recorder alone. -/
def timing (p : Pipeline) : Pipeline := p.equipped none none

variable {p q : Pipeline} {wallUs : Nat} {mode : SyncMode} {profile : Profile} {frame : Frame}

/-! ### Before the recorder -/

/-- A step for which recorder and processor make no difference, and that leaves them as they are. -/
def Overlooks {α β : Type} (step : Pipeline → α → Pipeline × Except Error β) : Prop :=
  ∀ p recorder processor a, step (p.equipped recorder processor) a =
    ((step p a).1.equipped recorder processor, (step p a).2)

theorem Overlooks.andThen {α β γ : Type} {step : Pipeline → α → Pipeline × Except Error β}
    {next : Pipeline → β → Pipeline × Except Error γ} (h : Overlooks step) (h' : Overlooks next) :
    Overlooks fun p a => andThen (step p a) next := by
  intro p recorder processor a
  dsimp only
  rw [h]
  obtain ⟨p', e | b⟩ := step p a
  · rfl
  · exact h' p' recorder processor b

theorem overlooks_annotate (profile : Profile) : Overlooks (annotate profile) :=
  fun _ _ _ _ => rfl

theorem overlooks_stampDevice : Overlooks stampDevice := fun _ _ _ _ => rfl

theorem overlooks_stampGlobal (wallUs : Nat) : Overlooks (stampGlobal wallUs) :=
  fun _ _ _ _ => rfl

theorem overlooks_checkTiming (mode : SyncMode) : Overlooks (checkTiming mode) := by
  rintro ⟨keys, device, global, gaps, _, _⟩ recorder processor frame
  cases gaps with
  | none => rfl
  | some gaps => rfl

theorem overlooks_front (wallUs : Nat) (mode : SyncMode) (profile : Profile) :
    Overlooks (front wallUs mode profile) :=
  (((overlooks_annotate profile).andThen overlooks_stampDevice).andThen
    (overlooks_stampGlobal wallUs)).andThen (overlooks_checkTiming mode)

/-- What comes to the recorder is told by the stages before it. -/
theorem front_eq (p : Pipeline) (wallUs : Nat) (mode : SyncMode) (profile : Profile)
    (frame : Frame) :
    p.front wallUs mode profile frame =
      ((p.timing.front wallUs mode profile frame).1.equipped p.recorder p.processor,
        (p.timing.front wallUs mode profile frame).2) :=
  overlooks_front wallUs mode profile p.timing p.recorder p.processor frame

theorem timing_front (p : Pipeline) (wallUs : Nat) (mode : SyncMode) (profile : Profile)
    (frame : Frame) :
    (p.front wallUs mode profile frame).1.timing =
      (p.timing.front wallUs mode profile frame).1.timing := by
  rw [front_eq]
  rfl

theorem snd_front (p : Pipeline) (wallUs : Nat) (mode : SyncMode) (profile : Profile)
    (frame : Frame) :
    (p.timing.front wallUs mode profile frame).2 = (p.front wallUs mode profile frame).2 := by
  rw [front_eq p]

/-! ### Recorder and processor -/

/-- Neither recorder nor processor remembers anything. -/
structure IsSteady (p : Pipeline) : Prop where
  recorder : ∀ r ∈ p.recorder, r.stage.IsPure
  processor : ∀ stage ∈ p.processor, stage.IsPure

def recording (p : Pipeline) (frame : Frame) : Except StageFault Unit :=
  match p.recorder with
  | none => .ok ()
  | some recorder => recorder.stage.act 1 frame

def processing (p : Pipeline) (frame : Frame) : Except StageFault Processed :=
  match p.processor with
  | none => .ok (.keep frame)
  | some stage => stage.act 1 frame

/-- What recorder and processor decide on a frame that comes to them. -/
def verdict (p : Pipeline) (frame : Frame) : Except StageFault Processed := do
  p.recording frame
  p.processing frame

/-- The frame that goes on to the consumer. -/
def delivers? (p : Pipeline) (frame : Frame) : Option Frame :=
  (p.verdict frame).toOption.bind Processed.frame?

/-- The same parts decide as before. -/
structure Persists (p q : Pipeline) : Prop where
  steady : q.IsSteady
  recording : q.recording = p.recording
  processing : q.processing = p.processing

theorem Persists.refl (h : p.IsSteady) : p.Persists p := ⟨h, rfl, rfl⟩

theorem Persists.trans {r : Pipeline} (h : p.Persists q) (h' : q.Persists r) : p.Persists r :=
  ⟨h'.steady, h'.recording.trans h.recording, h'.processing.trans h.processing⟩

theorem Persists.verdict (h : p.Persists q) : q.verdict = p.verdict := by
  funext frame
  rw [Pipeline.verdict, Pipeline.verdict, h.recording, h.processing]

theorem Persists.delivers? (h : p.Persists q) : q.delivers? = p.delivers? := by
  funext frame
  rw [Pipeline.delivers?, Pipeline.delivers?, h.verdict]

theorem persists_front (h : p.IsSteady) (wallUs : Nat) (mode : SyncMode) (profile : Profile)
    (frame : Frame) : p.Persists (p.front wallUs mode profile frame).1 := by
  rw [front_eq]
  exact ⟨⟨h.recorder, h.processor⟩, rfl, rfl⟩

/-- A recorder that remembers nothing lets a frame pass by the frame alone. -/
theorem record_of_isSteady (h : p.IsSteady) (frame : Frame) :
    ∃ q, p.Persists q ∧ q.timing = p.timing ∧
      p.record frame = (q, match p.recording frame with
        | .ok () => .ok frame
        | .error fault => .error (.stage .record fault.reason)) := by
  cases hRecorder : p.recorder with
  | none =>
    refine ⟨p, .refl h, rfl, ?_⟩
    simp only [record, recording, hRecorder]
  | some recorder =>
    have hPure := h.recorder recorder hRecorder
    have hPersists : ∀ kept, p.Persists
        { p with recorder := some ⟨(recorder.stage.call frame).1, kept⟩ } := by
      intro kept
      refine ⟨⟨?_, h.processor⟩, ?_, rfl⟩
      · rintro r hr
        cases hr
        exact hPure
      · funext frame'
        simp only [recording, hRecorder]
        rfl
    have hCall : (recorder.stage.call frame).2 = p.recording frame := by
      simp only [recording, hRecorder]
      exact hPure _ 1 frame
    simp only [record, hRecorder, ← hCall]
    cases (recorder.stage.call frame).2 with
    | ok => exact ⟨_, hPersists _, rfl, rfl⟩
    | error fault => exact ⟨_, hPersists _, rfl, rfl⟩

/-- A processor that remembers nothing decides by the frame alone. -/
theorem process_of_isSteady (h : p.IsSteady) (frame : Frame) :
    ∃ q, p.Persists q ∧ q.timing = p.timing ∧
      p.process frame = (q, failAt .process (p.processing frame)) := by
  cases hProcessor : p.processor with
  | none =>
    refine ⟨p, .refl h, rfl, ?_⟩
    simp only [process, processing, hProcessor, failAt]
  | some stage =>
    have hPure := h.processor stage hProcessor
    have hCall : (stage.call frame).2 = p.processing frame := by
      simp only [processing, hProcessor]
      exact hPure _ 1 frame
    refine ⟨{ p with processor := some (stage.call frame).1 }, ⟨⟨h.recorder, ?_⟩, rfl, ?_⟩, rfl,
      ?_⟩
    · rintro stage' hStage
      cases hStage
      exact hPure
    · funext frame'
      simp only [processing, hProcessor]
      rfl
    · simp only [process, hProcessor, ← hCall]

/-- **What comes of a frame** is told by the stages before the recorder, and from there on by the
frame alone. -/
theorem run_of_isSteady (h : p.IsSteady) (wallUs : Nat) (mode : SyncMode) (profile : Profile)
    (frame : Frame) :
    ∃ q, p.Persists q ∧ q.timing = (p.front wallUs mode profile frame).1.timing ∧
      ((∃ e, (p.front wallUs mode profile frame).2 = .error e ∧
          p.run wallUs mode profile frame = (q, .error e)) ∨
        ∃ timed, (p.front wallUs mode profile frame).2 = .ok timed ∧
          ((∃ fault e, p.verdict timed = .error fault ∧
              p.run wallUs mode profile frame = (q, .error e)) ∨
            ∃ processed, p.verdict timed = .ok processed ∧
              p.run wallUs mode profile frame = (q, .ok processed))) := by
  have hRun : p.run wallUs mode profile frame =
      andThen (andThen (p.front wallUs mode profile frame) record) process := rfl
  have hFront := persists_front h wallUs mode profile frame
  generalize p.front wallUs mode profile frame = step at hRun hFront ⊢
  obtain ⟨p₁, e | timed⟩ := step
  · exact ⟨p₁, hFront, rfl, .inl ⟨e, rfl, hRun⟩⟩
  · obtain ⟨p₂, hRecorded, hTiming, hRecord⟩ := record_of_isSteady hFront.steady timed
    rw [hFront.recording] at hRecord
    cases hRecording : p.recording timed with
    | error fault =>
      refine ⟨p₂, hFront.trans hRecorded, hTiming, .inr ⟨timed, rfl,
        .inl ⟨fault, .stage .record fault.reason, ?_, ?_⟩⟩⟩
      · rw [verdict, hRecording]
        rfl
      · rw [hRun, andThen, hRecord, hRecording]
        rfl
    | ok =>
      obtain ⟨p₃, hProcessed, hTiming', hProcess⟩ := process_of_isSteady hRecorded.steady timed
      have hKept : p.Persists p₃ := (hFront.trans hRecorded).trans hProcessed
      rw [(hFront.trans hRecorded).processing] at hProcess
      have hVerdict : p.verdict timed = p.processing timed := by
        rw [verdict, hRecording]
        rfl
      have hEnd : p.run wallUs mode profile frame =
          (p₃, failAt .process (p.processing timed)) := by
        rw [hRun, andThen, hRecord, hRecording, ← hProcess]
        rfl
      refine ⟨p₃, hKept, hTiming'.trans hTiming, .inr ⟨timed, rfl, ?_⟩⟩
      rw [hVerdict, hEnd]
      cases p.processing timed with
      | error fault => exact .inl ⟨fault, _, rfl, rfl⟩
      | ok processed => exact .inr ⟨processed, rfl, rfl⟩

/-! ### Parts that fail -/

/-- The second pipeline is the first one, except that its recorder or its processor fails on the
frames of a set. -/
structure Disturbs (failing : Frame → Bool) (p q : Pipeline) : Prop where
  steady : p.IsSteady
  alike : q.IsSteady
  timing : q.timing = p.timing
  spares : ∀ frame, failing frame = false →
    q.recording frame = p.recording frame ∧ q.processing frame = p.processing frame
  fails : ∀ frame, failing frame = true →
    (∃ fault, q.recording frame = .error fault) ∨ ∃ fault, q.processing frame = .error fault

namespace Disturbs

variable {failing : Frame → Bool}

theorem verdict_of_spared (h : Disturbs failing p q) (hSpared : failing frame = false) :
    q.verdict frame = p.verdict frame := by
  obtain ⟨hRecording, hProcessing⟩ := h.spares frame hSpared
  rw [verdict, verdict, hRecording, hProcessing]

theorem verdict_of_failing (h : Disturbs failing p q) (hFailing : failing frame = true) :
    ∃ fault, q.verdict frame = .error fault := by
  rcases h.fails frame hFailing with ⟨fault, hFault⟩ | ⟨fault, hFault⟩
  · refine ⟨fault, ?_⟩
    rw [verdict, hFault]
    rfl
  · rw [verdict, hFault]
    cases q.recording frame with
    | ok => exact ⟨fault, rfl⟩
    | error earlier => exact ⟨earlier, rfl⟩

end Disturbs

end Pipeline

end LidarSweep
