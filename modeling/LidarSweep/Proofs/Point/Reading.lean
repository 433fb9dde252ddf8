import LidarSweep.Proofs.Packet.Checked
import Mathlib

/-!
# Converted points, read back

The points of a block are written one behind another, and each is read back as it was written
(`PointCodec`), so what a frame shows of a block is what the conversion made of it, point by point.
`ofPayload` says what that is from the bytes of the payload themselves: two bytes of distance, of
azimuth and of elevation, one of intensity, and for a scan also the four bytes in front of all
points.  The last byte of a wire point is not among them.
-/

namespace LidarSweep

open Bytes

/-! ### A point written and read -/

namespace Single

theorem length_toBytes (x : Float32) : (toBytes x).length = 4 := length_ofLittle 4 _

/-- A number is read from the four bytes that it was written to. -/
theorem atOffset_toBytes (before : List UInt8) {start : Nat} (h : before.length = start)
    (x : Float32) (after : List UInt8) :
    atOffset (before ++ (toBytes x ++ after)) start = x := by
  have hSlice : slice (before ++ (toBytes x ++ after)) start 4 = toBytes x := by
    rw [← h, ← length_toBytes x]
    exact slice_append before (toBytes x) after
  rw [atOffset, hSlice, toBytes, little_ofLittle x.toBits.toNat_lt, UInt32.ofNat_toNat,
    Float32.ofBits_toBits]

/-- Three numbers one behind another. -/
theorem atOffset_three (a b c : Float32) (after : List UInt8) :
    atOffset (toBytes a ++ toBytes b ++ toBytes c ++ after) 0 = a ∧
      atOffset (toBytes a ++ toBytes b ++ toBytes c ++ after) 4 = b ∧
      atOffset (toBytes a ++ toBytes b ++ toBytes c ++ after) 8 = c := by
  refine ⟨?_, ?_, ?_⟩
  · rw [List.append_assoc, List.append_assoc]
    exact atOffset_toBytes [] rfl a _
  · rw [List.append_assoc, List.append_assoc]
    exact atOffset_toBytes _ (length_toBytes a) b _
  · rw [List.append_assoc]
    exact atOffset_toBytes _ (by rw [List.length_append, length_toBytes, length_toBytes]) c _

end Single

/-- How points of one kind are written and read: each in as many bytes, the last four of which are
its intensity and three zeros. -/
structure PointCodec (α : Type) where
  size : Nat
  encode : α → List UInt8
  decode : List UInt8 → α
  intensity : α → UInt8
  four_le_size : 4 ≤ size
  length_encode : ∀ p, (encode p).length = size
  decode_encode : ∀ p, decode (encode p) = p
  closing : ∀ p, slice (encode p) (size - 4) 4 = [intensity p, 0, 0, 0]

def ScanPoint.codec : PointCodec ScanPoint where
  size := 12
  encode := encode
  decode := decode
  intensity := intensity
  four_le_size := by decide
  length_encode p := by simp [encode, Single.toBytes]
  decode_encode p := by
    have hAngle : Single.atOffset p.encode 0 = p.angle := by
      rw [encode, List.append_assoc]
      exact Single.atOffset_toBytes [] rfl p.angle _
    have hDistance : Single.atOffset p.encode 4 = p.distance := by
      rw [encode, List.append_assoc]
      exact Single.atOffset_toBytes _ (Single.length_toBytes _) p.distance _
    have hIntensity : p.encode.getD 8 0 = p.intensity := by simp [encode, Single.toBytes]
    rw [decode, hAngle, hDistance, hIntensity]
  closing p := by
    rw [encode, slice_append_right (by simp [Single.toBytes])]
    simp [Single.toBytes, slice]

def CartesianPoint.codec : PointCodec CartesianPoint where
  size := 16
  encode := encode
  decode := decode
  intensity := intensity
  four_le_size := by decide
  length_encode p := by simp [encode, Single.toBytes]
  decode_encode p := by
    obtain ⟨hX, hY, hZ⟩ := Single.atOffset_three p.x p.y p.z [p.intensity, 0, 0, 0]
    have hIntensity : p.encode.getD 12 0 = p.intensity := by simp [encode, Single.toBytes]
    rw [decode, hIntensity, encode, hX, hY, hZ]
  closing p := by
    rw [encode, slice_append_right (by simp [Single.toBytes])]
    simp [Single.toBytes, slice]

def SphericalPoint.codec : PointCodec SphericalPoint where
  size := 16
  encode := encode
  decode := decode
  intensity := intensity
  four_le_size := by decide
  length_encode p := by simp [encode, Single.toBytes]
  decode_encode p := by
    obtain ⟨hDistance, hAzimuth, hElevation⟩ :=
      Single.atOffset_three p.distance p.azimuth p.elevation [p.intensity, 0, 0, 0]
    have hIntensity : p.encode.getD 12 0 = p.intensity := by simp [encode, Single.toBytes]
    rw [decode, hIntensity, encode, hDistance, hAzimuth, hElevation]
  closing p := by
    rw [encode, slice_append_right (by simp [Single.toBytes])]
    simp [Single.toBytes, slice]

/-! ### Points one behind another -/

/-- Piece `i` of pieces of one size. -/
theorem Bytes.slice_flatMap_range {size points i : Nat} {piece : Nat → List UInt8}
    (hSize : 0 < size) (hLength : ∀ i < points, (piece i).length = size) (hi : i < points) :
    slice ((List.range points).flatMap piece) (i * size) size = piece i := by
  have hPieces : ∀ bs ∈ (List.range points).map piece, bs.length = size := by
    intro bs hBs
    obtain ⟨j, hj, rfl⟩ := List.mem_map.mp hBs
    exact hLength j (List.mem_range.mp hj)
  have hTotal : ((List.range points).flatMap piece).length = points * size := by
    rw [List.flatMap_def, length_flatten_of_forall hPieces, List.length_map, List.length_range]
  have hTake := take_chunks hSize (Nat.le_of_eq hTotal.symm)
  rw [List.flatMap_def, chunks_flatten hSize hPieces, List.take_of_length_le (by simp)] at hTake
  exact (List.map_inj_left.mp hTake i (List.mem_range.mpr hi)).symm

namespace PointCodec

variable {α : Type} (codec : PointCodec α) (f : Nat → α) {points i : Nat}

/-- As many points are read as were written, and the same ones. -/
theorem map_decode_chunks (points : Nat) :
    (chunks codec.size ((List.range points).flatMap fun i => codec.encode (f i))).map codec.decode =
      (List.range points).map f := by
  rw [List.flatMap_def, chunks_flatten (Nat.lt_of_lt_of_le (by decide) codec.four_le_size),
    List.map_map]
  · exact List.map_congr_left fun i _ => codec.decode_encode (f i)
  · intro piece hPiece
    obtain ⟨i, -, rfl⟩ := List.mem_map.mp hPiece
    exact codec.length_encode (f i)

/-- What closes a point closes it among others. -/
theorem slice_closing (hi : i < points) :
    slice ((List.range points).flatMap fun i => codec.encode (f i)) ((i + 1) * codec.size - 4) 4 =
      [codec.intensity (f i), 0, 0, 0] := by
  have hSize := codec.four_le_size
  have hStart : (i + 1) * codec.size - 4 = i * codec.size + (codec.size - 4) := by
    rw [Nat.succ_mul]
    omega
  have hPiece : slice ((List.range points).flatMap fun i => codec.encode (f i)) (i * codec.size)
      codec.size = codec.encode (f i) :=
    slice_flatMap_range (by omega) (fun j _ => codec.length_encode (f j)) hi
  rw [hStart, ← slice_slice _ _ (by omega : codec.size - 4 + 4 ≤ codec.size), hPiece,
    codec.closing]

end PointCodec

/-! ### A point from the bytes of a payload -/

/-- The number that 16 bits stand for, of which the upper half is below zero. -/
def Bytes.signed (n : Nat) : Int := if n < 32768 then n else n - 65536

theorem Bytes.toInt16_ofNat (n : Nat) : (UInt16.ofNat n).toInt16 = Int16.ofInt (signed n) := by
  rw [UInt16.toInt16_ofNat', ← Int16.ofInt_eq_ofNat, ← Int16.toInt_inj, Int16.toInt_ofInt,
    Int16.toInt_ofInt, signed]
  split
  · rfl
  · exact (Int.sub_bmod_right (n : Int) Int16.size).symm

/-- Point `i` of a scan. -/
def ScanPoint.ofPayload (payload : List UInt8) (i : Nat) : ScanPoint where
  angle := Single.radians ((UInt64.ofNat ((10 * word payload 0 + i * word payload 2) % 360000)
    ).toFloat32 * Resolution.scanStep)
  distance := (UInt16.ofNat (word payload (4 + i * 4))).toFloat32 * Resolution.distance
  intensity := payload.getD (4 + i * 4 + 2) 0

/-- Point `i` of several lines. -/
def SphericalPoint.ofPayload (payload : List UInt8) (i : Nat) : SphericalPoint where
  distance := (UInt16.ofNat (word payload (i * 8))).toFloat32 * Resolution.distance
  azimuth := Single.radians
    ((UInt16.ofNat (word payload (i * 8 + 2))).toFloat32 * Resolution.angle)
  elevation := Single.radians
    ((Int16.ofInt (signed (word payload (i * 8 + 4)))).toFloat32 * Resolution.angle)
  intensity := payload.getD (i * 8 + 6) 0

def CartesianPoint.ofPayload (payload : List UInt8) (i : Nat) : CartesianPoint :=
  let p := SphericalPoint.ofPayload payload i
  { x := p.distance * p.elevation.cos * p.azimuth.cos
    y := p.distance * p.elevation.cos * p.azimuth.sin
    z := p.distance * p.elevation.sin
    intensity := p.intensity }

namespace Format

variable {format : Format} {payload : List UInt8} {points i : Nat}

theorem convertPoint_scan (h : Format.scan.payloadSize points ≤ payload.length) (hi : i < points) :
    Format.scan.convertPoint (UInt16.ofNat (big (slice payload 0 2)))
        (UInt16.ofNat (big (slice payload 2 2))) i (Format.scan.wire payload i) =
      ScanPoint.codec.encode (.ofPayload payload i) := by
  have hWire : 4 + (i + 1) * 4 ≤ payload.length := wire_le h hi
  have hSlice : Format.scan.wire payload i = slice payload (4 + i * 4) 4 := rfl
  have hDistance : big (slice (slice payload (4 + i * 4) 4) 0 2) = word payload (4 + i * 4) := by
    rw [slice_slice _ _ (by omega), Nat.add_zero, big_slice_two (by omega)]
  have hIntensity : (slice payload (4 + i * 4) 4).getD 2 0 = payload.getD (4 + i * 4 + 2) 0 := by
    simp [slice]
  rw [convertPoint, ScanPoint.ofWire, millidegrees, big_slice_two (by omega),
    big_slice_two (by omega), hSlice, hDistance, hIntensity,
    UInt16.toNat_ofNat_of_lt' (word_lt payload 0), UInt16.toNat_ofNat_of_lt' (word_lt payload 2),
    Nat.mul_comm (word payload 0)]
  rfl

theorem ofWire_eq_ofPayload (hLayout : format.layout = ⟨16, 8, 0⟩)
    (h : format.payloadSize points ≤ payload.length) (hi : i < points) :
    SphericalPoint.ofWire (.decode (format.wire payload i)) = .ofPayload payload i := by
  have hWire : 0 + (i + 1) * 8 ≤ payload.length := by simpa only [hLayout] using wire_le h hi
  have hSlice : format.wire payload i = slice payload (i * 8) 8 := by
    rw [wire, hLayout, Nat.zero_add]
  have hWord : ∀ k ≤ 4, big (slice (slice payload (i * 8) 8) k 2) = word payload (i * 8 + k) := by
    intro k hk
    rw [slice_slice _ _ (by omega), big_slice_two (by omega)]
  have hIntensity : (slice payload (i * 8) 8).getD 6 0 = payload.getD (i * 8 + 6) 0 := by
    simp [slice]
  rw [WirePoint.decode, hSlice, hWord 0 (by omega), hWord 2 (by omega), hWord 4 (by omega),
    hIntensity, toInt16_ofNat]
  rfl

theorem convertPoint_spherePoint (h : Format.spherePoint.payloadSize points ≤ payload.length)
    (hi : i < points) (start step : UInt16) :
    Format.spherePoint.convertPoint start step i (Format.spherePoint.wire payload i) =
      SphericalPoint.codec.encode (.ofPayload payload i) :=
  congrArg SphericalPoint.encode (ofWire_eq_ofPayload rfl h hi)

theorem convertPoint_point (h : Format.point.payloadSize points ≤ payload.length) (hi : i < points)
    (start step : UInt16) :
    Format.point.convertPoint start step i (Format.point.wire payload i) =
      CartesianPoint.codec.encode (.ofPayload payload i) :=
  congrArg (fun p => (CartesianPoint.ofSpherical p).encode) (ofWire_eq_ofPayload rfl h hi)

/-! ### A block, as it is read -/

/-- What is to be read of a block's first points: a point of its own for each wire point, or the
samples as they are; and behind the numbers of a point its intensity and three zeros. -/
structure Renders (format : Format) (payload : List UInt8) (points : Nat) (written : List UInt8) :
    Prop where
  reading : match format with
    | .scan => ScanPoint.readAll written = (List.range points).map (.ofPayload payload)
    | .point => CartesianPoint.readAll written = (List.range points).map (.ofPayload payload)
    | .spherePoint => SphericalPoint.readAll written = (List.range points).map (.ofPayload payload)
    | .calibration => written = payload.take (points * 4)
  closing : format ≠ .calibration → ∀ i < points,
    slice written ((i + 1) * format.layout.pointSize - 4) 4 =
      [payload.getD (format.layout.preamble + (i + 1) * format.layout.wireSize - 2) 0, 0, 0, 0]

/-- A block whose points are those of `f`, written by a codec. -/
theorem convertEach_reads {α : Type} {codec : PointCodec α} {f : Nat → α} {start step : UInt16}
    (hPoint : ∀ i < points,
      format.convertPoint start step i (format.wire payload i) = codec.encode (f i)) :
    (chunks codec.size (format.convertEach start step payload points)).map codec.decode =
        (List.range points).map f ∧
      ∀ i < points, slice (format.convertEach start step payload points)
        ((i + 1) * codec.size - 4) 4 = [codec.intensity (f i), 0, 0, 0] := by
  have hEach : format.convertEach start step payload points =
      (List.range points).flatMap fun i => codec.encode (f i) := by
    rw [convertEach, List.flatMap_def, List.flatMap_def]
    exact congrArg List.flatten
      (List.map_congr_left fun i hi => hPoint i (List.mem_range.mp hi))
  rw [hEach]
  exact ⟨codec.map_decode_chunks f points, fun i hi => codec.slice_closing f hi⟩

/-- **A block is read as it was sent.** -/
theorem renders_convertPoints (h : format.payloadSize points ≤ payload.length) :
    format.Renders payload points (format.convertPoints payload points) := by
  rw [convertPoints_eq h]
  cases format with
  | calibration => exact ⟨convertEach_calibration _ _, fun hNot => absurd rfl hNot⟩
  | scan =>
    obtain ⟨hReading, hClosing⟩ := convertEach_reads fun i hi => convertPoint_scan h hi
    refine ⟨hReading, fun _ i hi => (hClosing i hi).trans ?_⟩
    have hPlace : 4 + i * 4 + 2 = 4 + (i + 1) * 4 - 2 := by omega
    exact congrArg (fun k => [payload.getD k 0, 0, 0, 0]) hPlace
  | point =>
    obtain ⟨hReading, hClosing⟩ := convertEach_reads fun i hi => convertPoint_point h hi _ _
    refine ⟨hReading, fun _ i hi => (hClosing i hi).trans ?_⟩
    have hPlace : i * 8 + 6 = 0 + (i + 1) * 8 - 2 := by omega
    exact congrArg (fun k => [payload.getD k 0, 0, 0, 0]) hPlace
  | spherePoint =>
    obtain ⟨hReading, hClosing⟩ := convertEach_reads fun i hi => convertPoint_spherePoint h hi _ _
    refine ⟨hReading, fun _ i hi => (hClosing i hi).trans ?_⟩
    have hPlace : i * 8 + 6 = 0 + (i + 1) * 8 - 2 := by omega
    exact congrArg (fun k => [payload.getD k 0, 0, 0, 0]) hPlace

/-- **What a conversion does.**  It succeeds exactly if payload and `out` hold the points that are
asked for.  Otherwise it says which of the two is too short, the payload first, and leaves `out` as
it is.  If it succeeds it says how many bytes it wrote, and leaves those behind them as they are;
and what it wrote is read as as many points, each of them its wire point alone.  All this takes no
slice out of range and no number too great for its words, for payloads of less than 2 ^ 50 bytes,
more than any memory holds. -/
theorem convertInto_reads (format : Format) (payload out : List UInt8) (points : Nat)
    (hIn : format.payloadSize points < USize.size)
    (hOut : points * format.layout.pointSize < USize.size) :
    ((format.convertInto payload points out).2.isOk ↔
      format.payloadSize points ≤ payload.length ∧
        points * format.layout.pointSize ≤ out.length) ∧
    (payload.length < format.payloadSize points →
      format.convertInto payload points out = (out, .error (.unexpectedEnd payload.length))) ∧
    (format.payloadSize points ≤ payload.length →
      out.length < points * format.layout.pointSize →
      format.convertInto payload points out = (out, .error (.invalidPacket
        (.outputTooSmall out.length (points * format.layout.pointSize))))) ∧
    (format.payloadSize points ≤ payload.length →
      points * format.layout.pointSize ≤ out.length →
      ∃ written, format.convertInto payload points out =
          (written ++ out.drop (points * format.layout.pointSize),
            .ok (points * format.layout.pointSize)) ∧
        written.length = points * format.layout.pointSize ∧
        format.Renders payload points written) ∧
    (payload.length < USize.size → payload.length < Nat.pow 2 50 → out.length < USize.size →
      format.convertInto? payload points out = some (format.convertInto payload points out)) := by
  refine ⟨⟨fun hOk => ?_, fun hFits => ?_⟩, fun hShort => ?_, fun hPayload hShort => ?_,
    fun hPayload hRoom => ?_, convertInto?_eq hIn hOut⟩
  · by_contra hShort
    obtain ⟨e, hError⟩ := convertInto_of_short hShort
    rw [hError] at hOk
    cases hOk
  · rw [convertInto_of_le hFits.1 hFits.2]
    rfl
  · simp only [convertInto]
    rw [if_pos hShort]
  · simp only [convertInto]
    rw [if_neg (Nat.not_lt.mpr hPayload), if_pos hShort]
  · exact ⟨_, convertInto_of_le hPayload hRoom, length_convertPoints hPayload,
      renders_convertPoints hPayload⟩

/-- Two points of a scan, from 359.99 degrees on in steps of 10 degrees, and a byte too many. -/
def wrappingPayload : List UInt8 := [0x8c, 0x9f, 0x27, 0x10, 1, 2, 3, 4, 5, 6, 7, 8, 9]

theorem convertInto_reads_wrapping :
    Format.scan.payloadSize 2 < USize.size ∧ 2 * Format.scan.layout.pointSize < USize.size ∧
      ∃ written, Format.scan.convertInto wrappingPayload 2 (List.replicate 26 0xff) =
          (written ++ [0xff, 0xff], .ok 24) ∧
        written.length = 24 ∧ Format.scan.Renders wrappingPayload 2 written := by
  have hIn : Format.scan.payloadSize 2 < USize.size := Checked.lt_word (by decide)
  have hOut : 2 * Format.scan.layout.pointSize < USize.size := Checked.lt_word (by decide)
  obtain ⟨-, -, -, hReads, -⟩ :=
    convertInto_reads .scan wrappingPayload (List.replicate 26 0xff) 2 hIn hOut
  exact ⟨hIn, hOut, hReads (by decide) (by decide)⟩

end Format

end LidarSweep
