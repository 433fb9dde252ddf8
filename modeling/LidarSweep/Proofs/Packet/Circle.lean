import LidarSweep.Proofs.Point.Reading
import LidarSweep.Proofs.Point.Seam

/-!
# A made-up scan goes round once

The points of a made-up scan stand one `turnStep` apart, the whole thousandths of a degree that fit
between two of as many points as a sweep has.  A block says where it starts in whole hundredths of a
degree, so its first point, and every other with it, may stand up to 9 thousandths before its place
(`turn_le`, `le_turn`), and stands in its place where the points of a block make whole hundredths
together (`turn_eq`).

Position times step stays below a full circle (`position_mul_turnStep_lt`).  That bounds the start
of every block, so each number fits the word that it is sent in (`scanPayload?_eq`), and it bounds
what a conversion adds up, so no point is ever brought back from beyond the turn.
-/

namespace LidarSweep

open Bytes Checked

/-! ### Places on the circle -/

namespace Geometry

/-- Between two points of a made-up sweep, in thousandths of a degree. -/
def turnStep (g : Geometry) : Nat := 360000 / (g.points * g.blocks.toNat)

/-- Where point `i` of a block stands in a made-up sweep, in thousandths of a degree. -/
def turn (g : Geometry) (block i : Nat) : Nat :=
  10 * ((block - 1) * g.points * g.turnStep / 10) + i * g.turnStep

section
variable (g : Geometry) (block i : Nat)

theorem turn_le : g.turn block i ≤ ((block - 1) * g.points + i) * g.turnStep := by
  rw [turn, Nat.add_mul]
  omega

theorem le_turn : ((block - 1) * g.points + i) * g.turnStep ≤ g.turn block i + 9 := by
  rw [turn, Nat.add_mul]
  omega

/-- Blocks that turn by whole hundredths of a degree start where the one before leaves off. -/
theorem turn_eq (hWhole : 10 ∣ g.points * g.turnStep) :
    g.turn block i = ((block - 1) * g.points + i) * g.turnStep := by
  have hStart : 10 ∣ (block - 1) * g.points * g.turnStep := by
    rw [Nat.mul_assoc]
    exact Dvd.dvd.mul_left hWhole _
  rw [turn, Nat.mul_div_cancel' hStart, ← Nat.add_mul]

end

/-- As many points as there are thousandths of a degree to a turn at the most, and so many that the
step between them fits its word. -/
structure FillsCircle (g : Geometry) : Prop where
  few : 6 ≤ g.points * g.blocks.toNat
  many : g.points * g.blocks.toNat ≤ 360000

namespace FillsCircle

variable {g : Geometry}

theorem turnStep_pos (h : g.FillsCircle) : 0 < g.turnStep :=
  Nat.div_pos h.many (Nat.lt_of_lt_of_le (by decide) h.few)

theorem turnStep_le (h : g.FillsCircle) : g.turnStep ≤ 60000 :=
  Nat.div_le_div_left h.few (by decide)

theorem points_pos (h : g.FillsCircle) : 0 < g.points :=
  Nat.pos_of_mul_pos_right (Nat.lt_of_lt_of_le (by decide) h.few)

/-- No position of a sweep is as much as a turn on. -/
theorem position_mul_turnStep_lt (h : g.FillsCircle) {position : Nat}
    (hPosition : position < g.points * g.blocks.toNat) : position * g.turnStep < 360000 := by
  have hStep := h.turnStep_pos
  have hNext : (position + 1) * g.turnStep ≤ g.points * g.blocks.toNat * g.turnStep :=
    Nat.mul_le_mul_right _ hPosition
  have hCircle : g.points * g.blocks.toNat * g.turnStep ≤ 360000 := Nat.mul_div_le 360000 _
  rw [Nat.succ_mul] at hNext
  omega

theorem turn_lt (h : g.FillsCircle) {block : UInt16} (hFirst : 1 ≤ block.toNat)
    (hLast : block.toNat ≤ g.blocks.toNat) {i : Nat} (hi : i < g.points) :
    g.turn block.toNat i < 360000 :=
  Nat.lt_of_le_of_lt (turn_le g block.toNat i)
    (h.position_mul_turnStep_lt (position_lt hFirst hLast hi))

end FillsCircle

end Geometry

/-! ### In the words of the wire -/

/-- The made-up payload of a scan, with every step in a machine's numbers and no cast that loses
anything. -/
def scanPayload? (g : Geometry) (block : UInt16) : Option (List UInt8) := do
  let before ← sub? block.toNat 1
  let first ← mul? USize.size before g.points
  let total ← mul? USize.size g.points g.blocks.toNat
  let step ← cast? UInt16.size (← div? 360000 total)
  let turned ← mul? UInt32.size (← cast? UInt32.size first) step
  let start ← cast? UInt16.size (turned / 10)
  let samples ← (List.range g.points).mapM fun i =>
    (cast? UInt8.size (i % 256)).map fun intensity => ⟨40000, UInt8.ofNat intensity⟩
  ScanSample.encodeAll? (UInt16.ofNat start) (UInt16.ofNat step) samples

section
variable {g : Geometry} {block : UInt16}

/-- The words that a block of a made-up scan begins with, each as it was worked out. -/
theorem syntheticPayload_scan (h : g.FillsCircle) (hFirst : 1 ≤ block.toNat)
    (hLast : block.toNat ≤ g.blocks.toNat) :
    syntheticPayload (some .scan) g block =
      ScanSample.encodeAll (UInt16.ofNat ((block.toNat - 1) * g.points * g.turnStep / 10))
        (UInt16.ofNat g.turnStep) ((List.range g.points).map fun i => ⟨40000, UInt8.ofNat i⟩) := by
  have hPlace := position_lt hFirst hLast h.points_pos
  have hMany := h.many
  have hStep : (UInt16.ofNat g.turnStep).toNat = g.turnStep :=
    UInt16.toNat_ofNat_of_lt' (Nat.lt_of_le_of_lt h.turnStep_le (by decide))
  have hBefore : (UInt32.ofNat ((block.toNat - 1) * g.points)).toNat =
      (block.toNat - 1) * g.points :=
    UInt32.toNat_ofNat_of_lt' (Nat.lt_of_lt_of_le (by omega) (by decide : 360000 ≤ UInt32.size))
  rw [Geometry.turnStep] at hStep
  simp only [syntheticPayload, hBefore, hStep]
  rfl

theorem start_lt (h : g.FillsCircle) (hFirst : 1 ≤ block.toNat)
    (hLast : block.toNat ≤ g.blocks.toNat) :
    (block.toNat - 1) * g.points * g.turnStep / 10 < 36000 := by
  have hTurned := h.position_mul_turnStep_lt (position_lt hFirst hLast h.points_pos)
  rw [Nat.add_zero] at hTurned
  omega

/-- **A scan that goes round once is made up without loss.** -/
theorem scanPayload?_eq (h : g.FillsCircle) (hFirst : 1 ≤ block.toNat)
    (hLast : block.toNat ≤ g.blocks.toNat) :
    scanPayload? g block = some (syntheticPayload (some .scan) g block) := by
  have hPlace := position_lt hFirst hLast h.points_pos
  have hMany := h.many
  have hBlocks : g.points ≤ g.points * g.blocks.toNat :=
    Nat.le_mul_of_pos_right _ (by omega)
  have hRow : mul? USize.size (block.toNat - 1) g.points = some ((block.toNat - 1) * g.points) :=
    mul?_of_lt (lt_word (by omega))
  have hWhole : mul? USize.size g.points g.blocks.toNat = some (g.points * g.blocks.toNat) :=
    mul?_of_lt (lt_word (by omega))
  have hDivided : div? 360000 (g.points * g.blocks.toNat) = some g.turnStep :=
    div?_of_pos (by omega)
  have hStep : cast? UInt16.size g.turnStep = some g.turnStep :=
    cast?_of_lt (Nat.lt_of_le_of_lt h.turnStep_le (by decide))
  have hBefore : cast? UInt32.size ((block.toNat - 1) * g.points) =
      some ((block.toNat - 1) * g.points) :=
    cast?_of_lt (Nat.lt_of_lt_of_le (by omega) (by decide : 360000 ≤ UInt32.size))
  have hTurned : mul? UInt32.size ((block.toNat - 1) * g.points) g.turnStep =
      some ((block.toNat - 1) * g.points * g.turnStep) :=
    mul?_of_lt (Nat.lt_trans (h.position_mul_turnStep_lt (by omega)) (by decide))
  have hStart := cast?_of_lt (Nat.lt_trans (start_lt h hFirst hLast)
    (by decide : 36000 < UInt16.size))
  have hSamples : (List.range g.points).mapM (fun i =>
        (cast? UInt8.size (i % 256)).map fun intensity =>
          ({ distance := 40000, intensity := UInt8.ofNat intensity } : ScanSample)) =
      some ((List.range g.points).map fun i => ⟨40000, UInt8.ofNat i⟩) :=
    mapM_of_forall fun i _ => by
      have hByte : UInt8.ofNat (i % 256) = UInt8.ofNat i := by
        rw [← UInt8.toNat_inj, UInt8.toNat_ofNat', UInt8.toNat_ofNat', Nat.mod_mod]
      rw [cast?_of_lt (Nat.mod_lt i (by decide)), Option.map_some, hByte]
  simp only [scanPayload?, sub?_of_le hFirst, hRow, hWhole, hDivided, hStep, hBefore, hTurned,
    hStart, hSamples, Option.bind_eq_bind, Option.bind_some]
  rw [syntheticPayload_scan h hFirst hLast]
  exact ScanSample.encodeAll?_eq (by simp; omega) _ _

/-! ### As it is converted -/

namespace ScanPoint

/-- What is added up for point `i` of a scan, before whole turns are taken out. -/
def turnOf (payload : List UInt8) (i : Nat) : Nat := 10 * word payload 0 + i * word payload 2

/-- The angle of point `i` of a scan in thousandths of a degree. -/
def millidegreesOf (payload : List UInt8) (i : Nat) : Nat :=
  millidegrees (UInt16.ofNat (word payload 0)) (UInt16.ofNat (word payload 2)) i

/-- What is written for an angle. -/
def angleAt (millidegrees : Nat) : Float32 :=
  Single.radians ((UInt64.ofNat millidegrees).toFloat32 * Resolution.scanStep)

theorem millidegreesOf_eq (payload : List UInt8) (i : Nat) :
    millidegreesOf payload i = turnOf payload i % 360000 := by
  rw [millidegreesOf, millidegrees, UInt16.toNat_ofNat_of_lt' (word_lt payload 0),
    UInt16.toNat_ofNat_of_lt' (word_lt payload 2), turnOf, Nat.mul_comm 10]

theorem turnOf_encodeAll (start step : UInt16) (samples : List ScanSample) (i : Nat) :
    turnOf (ScanSample.encodeAll start step samples) i = 10 * start.toNat + i * step.toNat := by
  have hLength := ScanSample.length_encodeAll start step samples
  rw [turnOf, ← big_slice_two (by omega), ← big_slice_two (by omega), ScanSample.slice_start,
    ScanSample.slice_step, big_ofBig start.toNat_lt, big_ofBig step.toNat_lt]

theorem angle_ofPayload (payload : List UInt8) (i : Nat) :
    (ofPayload payload i).angle = angleAt (millidegreesOf payload i) := by
  rw [millidegreesOf_eq]
  rfl

end ScanPoint

/-- What is added up for a point is where the point stands. -/
theorem turnOf_syntheticPayload (h : g.FillsCircle) (hFirst : 1 ≤ block.toNat)
    (hLast : block.toNat ≤ g.blocks.toNat) (i : Nat) :
    ScanPoint.turnOf (syntheticPayload (some .scan) g block) i = g.turn block.toNat i := by
  rw [syntheticPayload_scan h hFirst hLast, ScanPoint.turnOf_encodeAll,
    UInt16.toNat_ofNat_of_lt' (Nat.lt_trans (start_lt h hFirst hLast) (by decide)),
    UInt16.toNat_ofNat_of_lt' (Nat.lt_of_le_of_lt h.turnStep_le (by decide)), Geometry.turn]

/-- **No turn is taken out** of what is added up for a point. -/
theorem millidegreesOf_syntheticPayload (h : g.FillsCircle) (hFirst : 1 ≤ block.toNat)
    (hLast : block.toNat ≤ g.blocks.toNat) {i : Nat} (hi : i < g.points) :
    ScanPoint.millidegreesOf (syntheticPayload (some .scan) g block) i = g.turn block.toNat i := by
  have hTurn := h.turn_lt hFirst hLast hi
  rw [ScanPoint.millidegreesOf_eq, turnOf_syntheticPayload h hFirst hLast, Nat.mod_eq_of_lt hTurn]

/-- The payload of a block holds the points of the block. -/
theorem payloadSize_syntheticPayload (h : g.FillsCircle) (hFirst : 1 ≤ block.toNat)
    (hLast : block.toNat ≤ g.blocks.toNat) :
    Format.scan.payloadSize g.points ≤ (syntheticPayload (some .scan) g block).length := by
  rw [syntheticPayload_scan h hFirst hLast]
  simpa using Format.payloadSize_encodeAll _ _ ((List.range g.points).map _)

end

/-- A block of a made-up scan as it is made and converted. -/
structure Geometry.Places (g : Geometry) (block : UInt16) : Prop where
  lossless : scanPayload? g block = some (syntheticPayload (some .scan) g block)
  converted : ∀ out : List UInt8, g.points * 12 ≤ out.length → ∃ written,
    Format.scan.convertInto (syntheticPayload (some .scan) g block) g.points out =
        (written ++ out.drop (g.points * 12), .ok (g.points * 12)) ∧
      (ScanPoint.readAll written).map ScanPoint.angle =
        (List.range g.points).map fun i => ScanPoint.angleAt (g.turn block.toNat i)
  millidegrees : ∀ i < g.points,
    ScanPoint.millidegreesOf (syntheticPayload (some .scan) g block) i = g.turn block.toNat i
  unwrapped : ∀ i < g.points,
    ScanPoint.turnOf (syntheticPayload (some .scan) g block) i = g.turn block.toNat i ∧
      g.turn block.toNat i < 360000
  near : ∀ i < g.points,
    ((block.toNat - 1) * g.points + i) * g.turnStep ≤ g.turn block.toNat i + 9 ∧
      g.turn block.toNat i ≤ ((block.toNat - 1) * g.points + i) * g.turnStep
  exact : 10 ∣ g.points * g.turnStep → ∀ i < g.points,
    g.turn block.toNat i = ((block.toNat - 1) * g.points + i) * g.turnStep

theorem Geometry.FillsCircle.places {g : Geometry} (h : g.FillsCircle) {block : UInt16}
    (hFirst : 1 ≤ block.toNat) (hLast : block.toNat ≤ g.blocks.toNat) : g.Places block where
  lossless := scanPayload?_eq h hFirst hLast
  converted out hOut := by
    have hPayload := payloadSize_syntheticPayload h hFirst hLast
    refine ⟨_, Format.convertInto_of_le hPayload hOut, ?_⟩
    rw [(Format.renders_convertPoints hPayload).reading, List.map_map]
    refine List.map_congr_left fun i hi => ?_
    rw [Function.comp_apply, ScanPoint.angle_ofPayload,
      millidegreesOf_syntheticPayload h hFirst hLast (List.mem_range.mp hi)]
  millidegrees _ hi := millidegreesOf_syntheticPayload h hFirst hLast hi
  unwrapped i hi := ⟨turnOf_syntheticPayload h hFirst hLast i, h.turn_lt hFirst hLast hi⟩
  near i _ := ⟨g.le_turn block.toNat i, g.turn_le block.toNat i⟩
  exact hWhole i _ := g.turn_eq block.toNat i hWhole

/-! ### The whole sweep -/

/-- The angles of a made-up sweep in thousandths of a degree, block after block. -/
def Geometry.sweepAngles (g : Geometry) : List Nat :=
  (List.range g.blocks.toNat).flatMap fun j => (List.range g.points).map
    (ScanPoint.millidegreesOf (syntheticPayload (some .scan) g (UInt16.ofNat (j + 1))))

/-- Rows of one length, one behind another. -/
theorem flatMap_range_range {α : Type} (f : Nat → α) (rows size : Nat) :
    ((List.range rows).flatMap fun j => (List.range size).map fun i => f (j * size + i)) =
      (List.range (rows * size)).map f := by
  induction rows with
  | zero => rw [Nat.zero_mul]; rfl
  | succ rows ih =>
    rw [List.range_succ, List.flatMap_append, ih, List.flatMap_singleton, Nat.succ_mul,
      List.range_add, List.map_append, List.map_map]
    rfl

theorem Geometry.FillsCircle.sweepAngles_eq {g : Geometry} (h : g.FillsCircle)
    (hWhole : 10 ∣ g.points * g.turnStep) :
    g.sweepAngles = (List.range (g.blocks.toNat * g.points)).map (· * g.turnStep) := by
  rw [← flatMap_range_range, sweepAngles, List.flatMap_def, List.flatMap_def]
  refine congrArg List.flatten (List.map_congr_left fun j hj => List.map_congr_left fun i hi => ?_)
  have hBlock := Builder.toNat_block (List.mem_range.mp hj)
  have hPlaces : g.Places (UInt16.ofNat (j + 1)) :=
    h.places (by omega) (by rw [hBlock]; exact List.mem_range.mp hj)
  have hPoint := List.mem_range.mp hi
  rw [hPlaces.millidegrees i hPoint, hPlaces.exact hWhole i hPoint, hBlock, Nat.add_sub_cancel]

/-- **A made-up scan goes round once.**  For as many points as there are thousandths of a degree to
a turn, or fewer, every block is made without loss and converted without a turn being taken out of
its angles, and every point stands in its place in the sweep or less than 0.01 degrees before it.
Where the points of a block make whole hundredths of a degree, every point stands in its place, and
the angles rise over the whole sweep, from one block to the next as within a block. -/
theorem Geometry.scan_goes_round (g : Geometry) (hFew : 6 ≤ g.points * g.blocks.toNat)
    (hMany : g.points * g.blocks.toNat ≤ 360000) :
    (∀ block : UInt16, 1 ≤ block.toNat → block.toNat ≤ g.blocks.toNat → g.Places block) ∧
      (10 ∣ g.points * g.turnStep →
        g.sweepAngles = (List.range (g.blocks.toNat * g.points)).map (· * g.turnStep) ∧
          g.sweepAngles.Pairwise (· < ·)) := by
  have h : g.FillsCircle := ⟨hFew, hMany⟩
  refine ⟨fun block hFirst hLast => h.places hFirst hLast, fun hWhole => ?_⟩
  have hAngles := h.sweepAngles_eq hWhole
  refine ⟨hAngles, ?_⟩
  rw [hAngles]
  exact List.pairwise_lt_range.map _ fun _ _ hLess =>
    Nat.mul_lt_mul_of_pos_right hLess h.turnStep_pos

/-- The built-in scan at 10 Hz, 18 blocks of 200 points that are a tenth of a degree apart. -/
theorem Geometry.scan_goes_round_tenths :
    let g := GeometryRow.geometry ⟨.singleLine, .hz10, .scan, 200, 18⟩
    (6 ≤ g.points * g.blocks.toNat ∧ g.points * g.blocks.toNat ≤ 360000) ∧
      (∀ block : UInt16, 1 ≤ block.toNat → block.toNat ≤ 18 → g.Places block) ∧
      g.sweepAngles = (List.range 3600).map (· * 100) ∧ g.sweepAngles.Pairwise (· < ·) := by
  intro g
  have hFew : 6 ≤ g.points * g.blocks.toNat := by decide
  have hMany : g.points * g.blocks.toNat ≤ 360000 := by decide
  have hTotal : g.blocks.toNat * g.points = 3600 := by decide
  have hStep : g.turnStep = 100 := by decide
  obtain ⟨hPlaces, hRising⟩ := g.scan_goes_round hFew hMany
  rw [hTotal, hStep] at hRising
  exact ⟨⟨hFew, hMany⟩, hPlaces, hRising (by decide)⟩

end LidarSweep
