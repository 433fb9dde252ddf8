import LidarSweep.Packet.Builder
import LidarSweep.Proofs.Checked

/-!
# Made-up payloads and the numbers in them

The made-up payload of a block has as many bytes as the geometry of its row asks for
(`length_syntheticPayload`).  `syntheticPayload?`, `Builder.encode?` and `Builder.sweep?` make the
same bytes out of steps that can fail, in a machine's own numbers, and none of them fails as long
as a sweep has a point and a block of it fits into a packet (`Builder.sweep?_eq`): a position in
the sweep times the angle between two points is never more than a full circle.
-/

namespace LidarSweep

open Checked

/-! ### Sizes -/

theorem Sample.length_encodeAll (samples : List Sample) :
    (encodeAll samples).length = samples.length * 8 := by
  rw [encodeAll, List.flatMap_def, Bytes.length_flatten_of_forall (n := 8), List.length_map]
  intro piece hPiece
  obtain ⟨s, _, rfl⟩ := List.mem_map.mp hPiece
  simp [encode]

theorem ScanSample.length_encodeAll (start step : UInt16) (samples : List ScanSample) :
    (encodeAll start step samples).length = 4 + samples.length * 4 := by
  have hSamples : (samples.flatMap encode).length = samples.length * 4 := by
    rw [List.flatMap_def, Bytes.length_flatten_of_forall (n := 4), List.length_map]
    intro piece hPiece
    obtain ⟨s, _, rfl⟩ := List.mem_map.mp hPiece
    simp [encode]
  simp only [encodeAll, List.length_append, Bytes.length_ofBig, hSamples]

/-- A made-up payload has the length that its block must declare. -/
theorem length_syntheticPayload (row : GeometryRow) (block : UInt16) :
    (syntheticPayload (some row.format) row.geometry block).length = row.geometry.payloadSize := by
  obtain ⟨model, rate, format, points, blocks⟩ := row
  cases format with
  | calibration => simp [syntheticPayload]
  | point =>
    simp [syntheticPayload, Sample.length_encodeAll, GeometryRow.geometry, Geometry.payloadSize,
      Format.layout, Nat.mul_comm]
  | spherePoint =>
    simp [syntheticPayload, Sample.length_encodeAll, GeometryRow.geometry, Geometry.payloadSize,
      Format.layout, Nat.mul_comm]
  | scan =>
    simp [syntheticPayload, ScanSample.length_encodeAll, GeometryRow.geometry,
      Geometry.payloadSize, Format.layout, Nat.mul_comm]

/-! ### In a machine's numbers -/

def ScanSample.encodeAll? (start step : UInt16) (samples : List ScanSample) :
    Option (List UInt8) := do
  let room ← mul? USize.size samples.length 4
  let _ ← add? USize.size 4 room
  return encodeAll start step samples

def Sample.encodeAll? (samples : List Sample) : Option (List UInt8) := do
  let _ ← mul? USize.size samples.length 8
  return encodeAll samples

/-- Point `i` of a block, at `position` among the `total` points of the sweep. -/
def Sample.onCylinder (total position i : Nat) : Sample where
  distanceMm := 5000
  azimuthDeg := (UInt64.ofNat position).toFloat32 * 360 / (UInt64.ofNat total).toFloat32
  elevationDeg := ((UInt64.ofNat (i % 16)).toFloat32 - 8) * 2
  intensity := UInt8.ofNat i

/-- The made-up payload, with every step in a machine's numbers.  A cast keeps what fits. -/
def syntheticPayload? (format : Option Format) (g : Geometry) (block : UInt16) :
    Option (List UInt8) := do
  let before ← sub? block.toNat 1
  let first ← mul? USize.size before g.points
  match format with
  | some .scan =>
    let total ← mul? USize.size g.points g.blocks.toNat
    let step := UInt16.ofNat (← div? 360000 total)
    let turned ← mul? UInt32.size (UInt32.ofNat first).toNat step.toNat
    ScanSample.encodeAll? (UInt16.ofNat (turned / 10)) step
      ((List.range g.points).map fun i => ⟨40000, UInt8.ofNat i⟩)
  | some .point | some .spherePoint =>
    let total ← mul? USize.size g.points g.blocks.toNat
    let samples ← (List.range g.points).mapM fun i =>
      (add? USize.size first i).map fun position => Sample.onCylinder total position i
    Sample.encodeAll? samples
  | _ =>
    let size ← g.payloadSize?
    return (List.range size).map fun i => UInt8.ofNat (i % 251)

/-- A sweep that is made up block by block in a machine's numbers. -/
structure Geometry.IsMakeable (g : Geometry) : Prop where
  points_pos : 0 < g.points
  points_le : g.points ≤ 65535
  payload : g.payloadSize ≤ 65535

theorem GeometryRow.isMakeable {row : GeometryRow} (hPoints : 0 < row.points)
    (hPayload : row.geometry.payloadSize ≤ 65535) : row.geometry.IsMakeable where
  points_pos := hPoints
  points_le := by
    have hWire : 0 < row.geometry.wireSize := by
      simp only [geometry]
      cases row.format <;> decide
    have hWires := Nat.le_mul_of_pos_left row.geometry.points hWire
    simp only [Geometry.payloadSize] at hPayload
    omega
  payload := hPayload

section
variable {g : Geometry} {block : UInt16}

theorem ScanSample.encodeAll?_eq {samples : List ScanSample} (h : samples.length ≤ 360000)
    (start step : UInt16) :
    encodeAll? start step samples = some (encodeAll start step samples) := by
  rw [encodeAll?, mul?_of_lt (lt_word (by omega)), Option.bind_eq_bind, Option.bind_some,
    add?_of_lt (lt_word (by omega))]
  rfl

theorem Sample.encodeAll?_eq {samples : List Sample} (h : samples.length ≤ 65535) :
    encodeAll? samples = some (encodeAll samples) := by
  rw [encodeAll?, mul?_of_lt (lt_word (by omega))]
  rfl

/-- Every point of a block has its place among the points of the sweep. -/
theorem position_lt (hFirst : 1 ≤ block.toNat) (hLast : block.toNat ≤ g.blocks.toNat) {i : Nat}
    (hi : i < g.points) :
    (block.toNat - 1) * g.points + i < g.points * g.blocks.toNat := by
  have hWhole : (block.toNat - 1 + 1) * g.points ≤ g.blocks.toNat * g.points :=
    Nat.mul_le_mul_right g.points (by omega)
  rw [Nat.succ_mul, Nat.mul_comm g.blocks.toNat] at hWhole
  omega

theorem Geometry.IsMakeable.total_lt (hMakeable : g.IsMakeable) :
    g.points * g.blocks.toNat < 4294967296 := by
  have hBlocks : g.blocks.toNat ≤ 65535 := Nat.le_of_lt_succ g.blocks.toNat_lt
  have hTotal := Nat.mul_le_mul hMakeable.points_le hBlocks
  omega

/-- A turn by as many steps as a sweep has points is within a circle. -/
theorem mul_step_le {first total : Nat} (h : first ≤ total) :
    first * (UInt16.ofNat (360000 / total)).toNat ≤ 360000 := by
  have hStep : (UInt16.ofNat (360000 / total)).toNat ≤ 360000 / total := by
    rw [UInt16.toNat_ofNat']
    exact Nat.mod_le _ _
  exact Nat.le_trans (Nat.mul_le_mul h hStep) (Nat.mul_div_le 360000 total)

/-- The points of a block on the cylinder. -/
theorem mapM_onCylinder (hMakeable : g.IsMakeable) (hFirst : 1 ≤ block.toNat)
    (hLast : block.toNat ≤ g.blocks.toNat) (total : Nat) :
    (List.range g.points).mapM (fun i =>
        (add? USize.size ((block.toNat - 1) * g.points) i).map fun position =>
          Sample.onCylinder total position i) =
      some ((List.range g.points).map fun i =>
        Sample.onCylinder total ((block.toNat - 1) * g.points + i) i) :=
  mapM_of_forall fun i hi => by
    have hTotal := hMakeable.total_lt
    have hPlace := position_lt hFirst hLast (List.mem_range.mp hi)
    rw [add?_of_lt (lt_word (by omega)), Option.map_some]

/-- The turn up to the first point of a block, which is a point of the sweep. -/
theorem mul?_turn (first total : Nat) (h : first ≤ total) :
    mul? UInt32.size (UInt32.ofNat first).toNat (UInt16.ofNat (360000 / total)).toNat =
      some ((UInt32.ofNat first).toNat * (UInt16.ofNat (360000 / total)).toNat) := by
  have hFirst : (UInt32.ofNat first).toNat ≤ total := by
    rw [UInt32.toNat_ofNat']
    exact Nat.le_trans (Nat.mod_le _ _) h
  exact mul?_of_lt (Nat.lt_of_le_of_lt (mul_step_le hFirst) (by decide))

/-- **Making up a payload never stops.** -/
theorem syntheticPayload?_eq (hMakeable : g.IsMakeable) (format : Option Format)
    (hFirst : 1 ≤ block.toNat) (hLast : block.toNat ≤ g.blocks.toNat) :
    syntheticPayload? format g block = some (syntheticPayload format g block) := by
  have hTotal := hMakeable.total_lt
  have hBefore := position_lt hFirst hLast hMakeable.points_pos
  have hPoints := hMakeable.points_le
  have hRow : mul? USize.size (block.toNat - 1) g.points = some ((block.toNat - 1) * g.points) :=
    mul?_of_lt (lt_word (by omega))
  have hWhole : mul? USize.size g.points g.blocks.toNat = some (g.points * g.blocks.toNat) :=
    mul?_of_lt (lt_word hTotal)
  have hRamp : g.payloadSize? = some g.payloadSize :=
    Geometry.payloadSize?_of_lt (lt_word (Nat.lt_of_le_of_lt hMakeable.payload (by decide)))
  have hStep : div? 360000 (g.points * g.blocks.toNat) =
      some (360000 / (g.points * g.blocks.toNat)) := div?_of_pos (by omega)
  have hTurned := mul?_turn ((block.toNat - 1) * g.points) (g.points * g.blocks.toNat) (by omega)
  simp only [syntheticPayload?, sub?_of_le hFirst, hRow, hWhole, hRamp, hStep, hTurned,
    mapM_onCylinder hMakeable hFirst hLast, Option.bind_eq_bind, Option.bind_some, Option.pure_def]
  match format with
  | none => rfl
  | some .calibration => rfl
  | some .point => exact Sample.encodeAll?_eq (by simpa using hPoints)
  | some .spherePoint => exact Sample.encodeAll?_eq (by simpa using hPoints)
  | some .scan => exact ScanSample.encodeAll?_eq (by simp; omega) _ _

end

/-! ### Packets and sweeps -/

namespace Builder

/-- The packet of a block, with its time and size in a machine's numbers. -/
def encode? (b : Builder) (sweep : UInt32) (block : UInt16) (payload : List UInt8) :
    Option (List UInt8) := do
  let sweepUs ← mul? UInt64.size sweep.toNat 100000
  let wireTimeUs ← add? UInt64.size sweepUs block.toNat
  let room ← add? USize.size Header.size payload.length
  let _ ← add? USize.size room Packet.tailSize
  let header := { b.template with
    payloadSize := UInt16.ofNat payload.length
    block
    sweep
    wireTimeUs := UInt64.ofNat wireTimeUs }
  return header.encode ++ payload ++ Packet.validTail

/-- All blocks of one sweep in a machine's numbers. -/
def sweep? (b : Builder) (g : Geometry) (index : UInt32) : Option (List (List UInt8)) :=
  (List.range g.blocks.toNat).mapM fun i => do
    let block := UInt16.ofNat (i + 1)
    let payload ← syntheticPayload? b.template.format? g block
    b.encode? index block payload

theorem encode?_eq (b : Builder) (sweep : UInt32) (block : UInt16) {payload : List UInt8}
    (h : payload.length ≤ 65535) :
    b.encode? sweep block payload = some (b.encode sweep block payload) := by
  have hSweep := sweep.toNat_lt
  have hBlock := block.toNat_lt
  have hRange : UInt64.size = 18446744073709551616 := rfl
  have hFrame : Header.size = 40 ∧ Packet.tailSize = 4 := ⟨rfl, rfl⟩
  have hSweepUs : mul? UInt64.size sweep.toNat 100000 = some (sweep.toNat * 100000) :=
    mul?_of_lt (by omega)
  have hTimeUs : add? UInt64.size (sweep.toNat * 100000) block.toNat =
      some (sweep.toNat * 100000 + block.toNat) := add?_of_lt (by omega)
  have hRoom : add? USize.size Header.size payload.length = some (Header.size + payload.length) :=
    add?_of_lt (lt_word (by omega))
  have hWhole : add? USize.size (Header.size + payload.length) Packet.tailSize =
      some (Header.size + payload.length + Packet.tailSize) := add?_of_lt (lt_word (by omega))
  simp only [encode?, Option.bind_eq_bind]
  rw [hSweepUs, Option.bind_some, hTimeUs, Option.bind_some, hRoom, Option.bind_some, hWhole,
    Option.bind_some]
  rfl

/-- The number of a block is kept by the word for it. -/
theorem toNat_block {blocks : UInt16} {i : Nat} (h : i < blocks.toNat) :
    (UInt16.ofNat (i + 1)).toNat = i + 1 := by
  have hBlocks := blocks.toNat_lt
  rw [UInt16.toNat_ofNat']
  exact Nat.mod_eq_of_lt (by omega)

/-- **Making up a sweep never stops.** -/
theorem sweep?_eq {b : Builder} {row : GeometryRow} (hFormat : b.template.format? = some row.format)
    (hPoints : 0 < row.points) (hPayload : row.geometry.payloadSize ≤ 65535) (index : UInt32) :
    b.sweep? row.geometry index = some (b.sweep row.geometry index) := by
  rw [sweep?, sweep]
  refine mapM_of_forall fun i hi => ?_
  have hBlock := toNat_block (List.mem_range.mp hi)
  have hMade : syntheticPayload? b.template.format? row.geometry (UInt16.ofNat (i + 1)) =
      some (syntheticPayload b.template.format? row.geometry (UInt16.ofNat (i + 1))) :=
    syntheticPayload?_eq (GeometryRow.isMakeable hPoints hPayload) _ (by omega)
      (by rw [hBlock]; exact List.mem_range.mp hi)
  have hSize : (syntheticPayload b.template.format? row.geometry (UInt16.ofNat (i + 1))).length ≤
      65535 := by
    rw [hFormat, length_syntheticPayload]
    exact hPayload
  simp only [Option.bind_eq_bind]
  rw [hMade, Option.bind_some, b.encode?_eq index _ hSize]

end Builder

end LidarSweep
