import LidarSweep.Stream.Pipeline

/-!
# Stages that let every frame pass

With no check of timing, no recorder and no processor, only metadata and times can fail a frame.
Where they cannot, a frame goes all the way, and the stages add to it without changing what the
assembler put there (`Pipeline.run_of_isPlain`).
-/

namespace LidarSweep

/-- The frame without what the stages add. -/
def Frame.bare (f : Frame) : Frame :=
  { f with deviceUs := 0, globalUs := 0, profile := none, metadata := .empty }

namespace Pipeline

/-- Nothing checks, records or processes frames, and no supplied clock fails. -/
structure IsPlain (p : Pipeline) : Prop where
  gaps : p.gaps = none
  recorder : p.recorder = none
  processor : p.processor = none
  device : ∀ stage, p.deviceTiming = .supplied stage →
    ∀ call frame, ∃ time, stage.act call frame = .ok time
  global : ∀ stage, p.globalTiming = .supplied stage →
    ∀ call frame, ∃ time, stage.act call frame = .ok time

/-- The built-in device clock did not begin after `now`. -/
def IsPunctual (p : Pipeline) (now : Nat) : Prop :=
  ∀ clock origin, p.deviceTiming = .receipt clock → clock.originNs = some origin → origin ≤ now

variable {p : Pipeline} {now : Nat}

theorem IsPlain.reset (h : p.IsPlain) (now : Nat) (rate : ScanRate) :
    (p.reset now rate).IsPlain := by
  obtain ⟨keys, device, global, gaps, recorder, processor⟩ := p
  obtain ⟨rfl, rfl, rfl, hDevice, hGlobal⟩ := h
  refine ⟨rfl, rfl, rfl, fun stage hStage => ?_, fun stage hStage => ?_⟩
  · cases device with
    | receipt clock => cases hStage
    | supplied _ => exact hDevice stage hStage
  · cases global with
    | host clock => cases hStage
    | supplied _ => exact hGlobal stage hStage

theorem isPunctual_reset (p : Pipeline) (now : Nat) (rate : ScanRate) :
    (p.reset now rate).IsPunctual now := by
  obtain ⟨keys, device, global, gaps, recorder, processor⟩ := p
  intro clock origin hClock hOrigin
  cases device with
  | receipt _ =>
    cases hClock
    cases hOrigin
    exact Nat.le_refl now
  | supplied stage => cases hClock

theorem IsPunctual.mono (h : p.IsPunctual now) {later : Nat} (hLater : now ≤ later) :
    p.IsPunctual later := fun clock origin hClock hOrigin =>
  Nat.le_trans (h clock origin hClock hOrigin) hLater

theorem stampDevice_of_isPlain (frame : Frame) (hPlain : p.IsPlain)
    (hPunctual : p.IsPunctual frame.receiptNs) :
    ∃ p' time, p.stampDevice frame = (p', .ok { frame with deviceUs := time }) ∧ p'.IsPlain ∧
      p'.IsPunctual frame.receiptNs ∧ p'.keys = p.keys := by
  obtain ⟨keys, device, global, gaps, recorder, processor⟩ := p
  obtain ⟨rfl, rfl, rfl, hDevice, hGlobal⟩ := hPlain
  cases device with
  | receipt clock =>
    have hOrigin : clock.originNs.getD frame.receiptNs ≤ frame.receiptNs := by
      cases hClock : clock.originNs with
      | none => exact Nat.le_refl _
      | some origin => exact hPunctual clock origin rfl hClock
    refine ⟨⟨keys, .receipt ⟨some (clock.originNs.getD frame.receiptNs)⟩, global, none, none, none⟩,
      (frame.receiptNs - clock.originNs.getD frame.receiptNs) / 1000, ?_,
      ⟨rfl, rfl, rfl, nofun, hGlobal⟩, ?_, rfl⟩
    · simp only [stampDevice, ReceiptClock.stamp, if_neg (Nat.not_lt.mpr hOrigin)]
      rfl
    · intro clock' origin hClock hSome
      cases hClock
      cases hSome
      exact hOrigin
  | supplied stage =>
    obtain ⟨time, hTime⟩ := hDevice stage rfl (stage.calls + 1) frame
    refine ⟨⟨keys, .supplied { stage with calls := stage.calls + 1 }, global, none, none, none⟩,
      time, ?_, ⟨rfl, rfl, rfl, ?_, hGlobal⟩, nofun, rfl⟩
    · simp only [stampDevice, Stage.call, hTime]
      rfl
    · intro stage' hStage
      cases hStage
      exact hDevice stage rfl

theorem stampGlobal_of_isPlain (frame : Frame) (hPlain : p.IsPlain)
    (hPunctual : p.IsPunctual now) (wallUs : Nat) :
    ∃ p' time, p.stampGlobal wallUs frame = (p', .ok { frame with globalUs := time }) ∧
      p'.IsPlain ∧ p'.IsPunctual now ∧ p'.keys = p.keys := by
  obtain ⟨keys, device, global, gaps, recorder, processor⟩ := p
  obtain ⟨rfl, rfl, rfl, hDevice, hGlobal⟩ := hPlain
  cases global with
  | host clock =>
    exact ⟨⟨keys, device, .host (clock.stamp wallUs frame.deviceUs).1, none, none, none⟩,
      (clock.stamp wallUs frame.deviceUs).2, rfl, ⟨rfl, rfl, rfl, hDevice, nofun⟩, hPunctual, rfl⟩
  | supplied stage =>
    obtain ⟨time, hTime⟩ := hGlobal stage rfl (stage.calls + 1) frame
    refine ⟨⟨keys, device, .supplied { stage with calls := stage.calls + 1 }, none, none, none⟩,
      time, ?_, ⟨rfl, rfl, rfl, hDevice, ?_⟩, hPunctual, rfl⟩
    · simp only [stampGlobal, Stage.call, hTime]
      rfl
    · intro stage' hStage
      cases hStage
      exact hGlobal stage rfl

/-- **Plain stages pass every frame** whose metadata can be read and that came in no earlier than
the clock began. -/
theorem run_of_isPlain (frame : Frame) (hPlain : p.IsPlain)
    (hPunctual : p.IsPunctual frame.receiptNs) {metadata : Metadata}
    (hKeys : MetadataKey.values p.keys frame.header = .ok metadata) (wallUs : Nat)
    (mode : SyncMode) (profile : Profile) :
    ∃ p' frame', p.run wallUs mode profile frame = (p', .ok (.keep frame')) ∧ p'.IsPlain ∧
      p'.IsPunctual frame.receiptNs ∧ p'.keys = p.keys ∧ frame'.bare = frame.bare := by
  have hAnnotate : annotate profile p frame =
      (p, .ok { frame with profile := some profile, metadata }) := by
    rw [annotate, hKeys]
    rfl
  obtain ⟨p₁, device, hDevice, hPlain₁, hPunctual₁, hKeys₁⟩ :=
    stampDevice_of_isPlain { frame with profile := some profile, metadata } hPlain hPunctual
  obtain ⟨p₂, global, hGlobal, hPlain₂, hPunctual₂, hKeys₂⟩ :=
    stampGlobal_of_isPlain { frame with profile := some profile, metadata, deviceUs := device }
      hPlain₁ hPunctual₁ wallUs
  refine ⟨p₂, { frame with
    profile := some profile, metadata, deviceUs := device, globalUs := global }, ?_, hPlain₂,
    hPunctual₂, hKeys₂.trans hKeys₁, rfl⟩
  rw [run, hAnnotate]
  simp only [andThen, hDevice, hGlobal, checkTiming, hPlain₂.gaps, record, hPlain₂.recorder,
    process, hPlain₂.processor]

end Pipeline

end LidarSweep
