import LidarSweep.Point.Convert
import LidarSweep.Proofs.Checked
import LidarSweep.Proofs.Packet.Codec

/-!
# Reading and converting in steps that can fail

`Packet.decode?` reads a packet, and `Format.convertInto?` converts the points of a payload, as a
machine does: byte by byte and slice by slice, with sums and products in its own numbers.  Neither
fails.  A packet is read with its size checked first (`Packet.decode?_eq`), and a conversion checks
the two sizes that all its slices lie within (`Format.convertInto?_eq`), so it does not matter
whether payload and `out` are the ones that a geometry promises.
-/

namespace LidarSweep

open Bytes Checked

/-! ### Reading a packet -/

def Header.decode? (bs : List UInt8) : Option (Except Error Header) :=
  if bs.length < size then some (.error (.unexpectedEnd bs.length))
  else do
    let magic ← array? 6 (← slice? bs 0 6)
    let payloadSize ← number? bs 6 2
    let modelCode ← number? bs 8 2
    let rateCode ← bs[10]?
    let formatCode ← bs[11]?
    let block ← number? bs 12 2
    let sweep ← number? bs 14 4
    let wireTimeUs ← number? bs 18 8
    let syncCode ← bs[26]?
    let warnings ← number? bs 28 2
    let scanSpeed ← number? bs 30 2
    let verticalRate ← number? bs 32 2
    let temperature ← number? bs 34 2
    return .ok {
      magic, rateCode, formatCode, syncCode
      payloadSize := UInt16.ofNat payloadSize
      modelCode := UInt16.ofNat modelCode
      block := UInt16.ofNat block
      sweep := UInt32.ofNat sweep
      wireTimeUs := UInt64.ofNat wireTimeUs
      warnings := UInt16.ofNat warnings
      scanSpeed := UInt16.ofNat scanSpeed
      verticalRate := UInt16.ofNat verticalRate
      temperature := (UInt16.ofNat temperature).toInt16 }

theorem Header.decode?_eq (bs : List UInt8) : decode? bs = some (decode bs) := by
  by_cases hSize : size ≤ bs.length
  · have hLong : 40 ≤ bs.length := hSize
    have hFront : slice? bs 0 6 = some (slice bs 0 6) := slice?_of_le (by omega) (by omega)
    have hMagic : array? 6 (slice bs 0 6) = some (Vector.ofFn fun i : Fin 6 => bs[i.val]) := by
      rw [array?_of_length (length_slice (by omega)), Option.some.injEq]
      exact ((vector_eq_iff (by omega) _).mpr rfl).symm
    rw [decode?, if_neg (Nat.not_lt.mpr hSize), decode, dif_pos hSize]
    simp (disch := omega) only [hFront, hMagic, number?_of_le, List.getElem?_eq_getElem,
      Option.bind_eq_bind, Option.bind_some]
    rfl
  · rw [decode?, if_pos (Nat.lt_of_not_le hSize), decode, dif_neg hSize]

def Packet.decode? (bs : List UInt8) : Option (Except Error Packet) := do
  match ← Header.decode? bs with
  | .error e => return .error e
  | .ok header =>
    let payloadEnd ← add? USize.size Header.size header.payloadSize.toNat
    let packetEnd ← add? USize.size payloadEnd tailSize
    if bs.length < packetEnd then
      return .error (.invalidPacket (.truncated bs.length packetEnd))
    else
      let tail ← array? tailSize (← slice? bs payloadEnd packetEnd)
      let payload ← slice? bs Header.size payloadEnd
      return .ok { header, payload, tail := tail.toList }

theorem Packet.decode?_eq (bs : List UInt8) : decode? bs = some (decode bs) := by
  rw [decode?, Header.decode?_eq, Option.bind_eq_bind, Option.bind_some]
  cases hHeader : Header.decode bs with
  | error e =>
    rw [decode, hHeader]
    rfl
  | ok header =>
    have hDeclared := header.payloadSize.toNat_lt
    have hFraming : Header.size = 40 ∧ tailSize = 4 := ⟨rfl, rfl⟩
    have hPayloadEnd : add? USize.size Header.size header.payloadSize.toNat =
        some (Header.size + header.payloadSize.toNat) := add?_of_lt (lt_word (by omega))
    have hPacketEnd : add? USize.size (Header.size + header.payloadSize.toNat) tailSize =
        some (Header.size + header.payloadSize.toNat + tailSize) :=
      add?_of_lt (lt_word (by omega))
    rw [decode_eq hHeader, ← payloadSize_of_decode hHeader]
    simp only [hPayloadEnd, hPacketEnd, Option.bind_eq_bind, Option.bind_some]
    by_cases hShort : bs.length < Header.size + header.payloadSize.toNat + tailSize
    · rw [if_pos hShort, if_pos hShort]
      rfl
    · rw [if_neg hShort, if_neg hShort, slice?_of_le (by omega) (by omega), Option.bind_some,
        Nat.add_sub_cancel_left, array?_of_length (length_slice (by omega)), Option.bind_some,
        slice?_of_le (by omega) (by omega), Option.bind_some, Nat.add_sub_cancel_left]
      rfl

/-! ### Converting points -/

def WirePoint.decode? (bs : List UInt8) : Option WirePoint := do
  let distance ← number? bs 0 2
  let azimuth ← number? bs 2 2
  let elevation ← number? bs 4 2
  let intensity ← bs[6]?
  return {
    intensity
    distance := UInt16.ofNat distance
    azimuth := UInt16.ofNat azimuth
    elevation := (UInt16.ofNat elevation).toInt16 }

theorem WirePoint.decode?_eq {bs : List UInt8} (h : 7 ≤ bs.length) :
    decode? bs = some (decode bs) := by
  have hIntensity : bs[6]? = some (bs.getD 6 0) := getElem?_of_lt (by omega) 0
  simp (disch := omega) only [decode?, number?_of_le, hIntensity, Option.bind_eq_bind,
    Option.bind_some]
  rfl

def ScanPoint.ofWire? (start step : UInt16) (i : Nat) (wire : List UInt8) : Option ScanPoint := do
  let front ← mul? UInt64.size start.toNat 10
  let turned ← mul? UInt64.size i step.toNat
  let turn ← add? UInt64.size front turned
  let distance ← number? wire 0 2
  let intensity ← wire[2]?
  return {
    intensity
    angle := Single.radians ((UInt64.ofNat (turn % 360000)).toFloat32 * Resolution.scanStep)
    distance := Resolution.millimetres (UInt16.ofNat distance) }

theorem ScanPoint.ofWire?_eq {wire : List UInt8} {i : Nat} (h : 3 ≤ wire.length)
    (hi : i < Nat.pow 2 48) (start step : UInt16) :
    ofWire? start step i wire = some (ofWire start step i wire) := by
  have hStart := start.toNat_lt
  have hStep := step.toNat_lt
  have hTurned : i * step.toNat ≤ 281474976710655 * 65535 :=
    Nat.mul_le_mul (Nat.le_of_lt_succ hi) (Nat.le_of_lt_succ hStep)
  have hRange : UInt64.size = 18446744073709551616 := rfl
  simp only [ofWire?, Option.bind_eq_bind]
  rw [mul?_of_lt (by omega), Option.bind_some, mul?_of_lt (by omega), Option.bind_some,
    add?_of_lt (by omega), Option.bind_some, number?_of_le (by omega), Option.bind_some,
    getElem?_of_lt (by omega) 0, Option.bind_some]
  rfl

namespace Format

def convertPoint? (format : Format) (start step : UInt16) (i : Nat) (wire : List UInt8) :
    Option (List UInt8) :=
  match format with
  | .scan => (ScanPoint.ofWire? start step i wire).map ScanPoint.encode
  | .point =>
    (WirePoint.decode? wire).map fun w => (CartesianPoint.ofSpherical (.ofWire w)).encode
  | .spherePoint => (WirePoint.decode? wire).map fun w => (SphericalPoint.ofWire w).encode
  | .calibration => some wire

/-- The first points of a payload, each converted into its place in `out`. -/
def convertEach? (format : Format) (start step : UInt16) (payload out : List UInt8) :
    Nat → Option (List UInt8)
  | 0 => some out
  | i + 1 => do
    let out ← convertEach? format start step payload out i
    let source ← piece? format.layout.preamble format.layout.wireSize i
    let target ← piece? 0 format.layout.pointSize i
    let wire ← slice? payload source.1 source.2
    let point ← format.convertPoint? start step i wire
    splice? out target.1 target.2 point

/-- Samples are copied, points are converted one after another. -/
def convertAll? (format : Format) (payload : List UInt8) (points : Nat) (out : List UInt8) :
    Option (List UInt8) :=
  match format with
  | .calibration => do
    let samples ← slice? payload 0 (Format.calibration.payloadSize points)
    splice? out 0 (points * Format.calibration.layout.pointSize) samples
  | .scan => do
    let start ← number? payload 0 2
    let step ← number? payload 2 2
    convertEach? .scan (UInt16.ofNat start) (UInt16.ofNat step) payload out points
  | .point | .spherePoint => format.convertEach? 0 0 payload out points

def convertInto? (format : Format) (payload : List UInt8) (points : Nat) (out : List UInt8) :
    Option (List UInt8 × Except Error Nat) := do
  let wires ← mul? USize.size points format.layout.wireSize
  let neededIn ← add? USize.size format.layout.preamble wires
  let neededOut ← mul? USize.size points format.layout.pointSize
  if payload.length < neededIn then
    return (out, .error (.unexpectedEnd payload.length))
  else if out.length < neededOut then
    return (out, .error (.invalidPacket (.outputTooSmall out.length neededOut)))
  else
    let converted ← format.convertAll? payload points out
    return (converted, .ok neededOut)

section
variable {format : Format} {payload out : List UInt8} {points i : Nat}

theorem convertPoint?_eq {wire : List UInt8} (h : wire.length = format.layout.wireSize)
    (hi : i < Nat.pow 2 48) (start step : UInt16) :
    format.convertPoint? start step i wire = some (format.convertPoint start step i wire) := by
  cases format with
  | calibration => rfl
  | scan =>
    have hWire : 3 ≤ wire.length := by rw [h]; decide
    rw [convertPoint?, ScanPoint.ofWire?_eq hWire hi]
    rfl
  | point =>
    have hWire : 7 ≤ wire.length := by rw [h]; decide
    rw [convertPoint?, WirePoint.decode?_eq hWire]
    rfl
  | spherePoint =>
    have hWire : 7 ≤ wire.length := by rw [h]; decide
    rw [convertPoint?, WirePoint.decode?_eq hWire]
    rfl

/-- Wire point `i` of a payload. -/
def wire (format : Format) (payload : List UInt8) (i : Nat) : List UInt8 :=
  slice payload (format.layout.preamble + i * format.layout.wireSize) format.layout.wireSize

/-- The first points of a payload, one after another. -/
def convertEach (format : Format) (start step : UInt16) (payload : List UInt8) (points : Nat) :
    List UInt8 :=
  (List.range points).flatMap fun i => format.convertPoint start step i (format.wire payload i)

theorem convertEach_succ (start step : UInt16) (points : Nat) :
    format.convertEach start step payload (points + 1) =
      format.convertEach start step payload points ++
        format.convertPoint start step points (format.wire payload points) := by
  rw [convertEach, List.range_succ, List.flatMap_append, List.flatMap_singleton]
  rfl

/-- Wire point `i` lies within a payload of more points. -/
theorem wire_le (h : format.payloadSize points ≤ payload.length) (hi : i < points) :
    format.layout.preamble + (i + 1) * format.layout.wireSize ≤ payload.length := by
  have hWires : (i + 1) * format.layout.wireSize ≤ points * format.layout.wireSize :=
    Nat.mul_le_mul_right _ hi
  simp only [payloadSize] at h
  omega

theorem length_wire (h : format.payloadSize points ≤ payload.length) (hi : i < points) :
    (format.wire payload i).length = format.layout.wireSize := by
  have hWire := wire_le h hi
  rw [Nat.succ_mul] at hWire
  exact length_slice (by omega)

theorem length_convertEach (h : format.payloadSize points ≤ payload.length) (start step : UInt16) :
    (format.convertEach start step payload points).length =
      points * format.layout.pointSize := by
  rw [convertEach, List.flatMap_def, length_flatten_of_forall (n := format.layout.pointSize),
    List.length_map, List.length_range]
  intro piece hPiece
  obtain ⟨i, hi, rfl⟩ := List.mem_map.mp hPiece
  exact length_convertPoint (length_wire h (List.mem_range.mp hi)) start step i

theorem zipIdx_map_range {α : Type} (f : Nat → α) (n : Nat) :
    ((List.range n).map f).zipIdx = (List.range n).map fun i => (f i, i) := by
  apply List.ext_getElem
  · simp
  · intro i hLeft hRight
    simp

theorem convertPoints_eq (h : format.payloadSize points ≤ payload.length) :
    format.convertPoints payload points =
      format.convertEach (UInt16.ofNat (big (slice payload 0 2)))
        (UInt16.ofNat (big (slice payload 2 2))) payload points := by
  have hWire : 0 < format.layout.wireSize := by cases format <;> decide
  have hRoom : points * format.layout.wireSize ≤
      (payload.drop format.layout.preamble).length := by
    simp only [payloadSize] at h
    rw [List.length_drop]
    omega
  rw [convertPoints, take_chunks hWire hRoom, zipIdx_map_range, List.map_map, convertEach,
    List.flatMap_def]
  refine congrArg List.flatten (List.map_congr_left fun i _ => ?_)
  rw [Function.comp_apply, slice_drop]
  rfl

/-- Only a scan has angles in front of its points. -/
theorem convertEach_of_ne_scan (h : format ≠ .scan) (start step start' step' : UInt16) :
    format.convertEach start step payload points =
      format.convertEach start' step' payload points := by
  cases format with
  | scan => exact absurd rfl h
  | _ => rfl

theorem convertEach_calibration (start step : UInt16) :
    Format.calibration.convertEach start step payload points = slice payload 0 (points * 4) := by
  induction points with
  | zero => rw [Nat.zero_mul, slice_zero]; rfl
  | succ points ih =>
    rw [convertEach_succ, ih, Nat.succ_mul]
    have hBehind : Format.calibration.wire payload points = slice payload (points * 4) 4 := by
      rw [wire, show Format.calibration.layout = ⟨4, 4, 0⟩ from rfl, Nat.zero_add]
    exact (congrArg (slice payload 0 (points * 4) ++ ·) hBehind).trans
      (slice_append_slice payload (Nat.zero_add _) 4)

theorem slice?_wire (h : format.payloadSize points ≤ payload.length) (hi : i < points) :
    slice? payload (format.layout.preamble + i * format.layout.wireSize)
      (format.layout.preamble + (i + 1) * format.layout.wireSize) =
        some (format.wire payload i) := by
  have hWire := wire_le h hi
  rw [Nat.succ_mul, ← Nat.add_assoc] at hWire ⊢
  rw [slice?_of_le (Nat.le_add_right _ _) hWire, Nat.add_sub_cancel_left]
  rfl

/-- **Points are converted within their payload and within `out`.**  What a payload below 2 ^ 50
bytes holds is too few points for their angles to need more than 64 bits. -/
theorem convertEach?_eq (hPayload : format.payloadSize points ≤ payload.length)
    (hWordIn : payload.length < USize.size) (hSmall : payload.length < Nat.pow 2 50)
    (hOut : points * format.layout.pointSize ≤ out.length) (hWord : out.length < USize.size)
    (start step : UInt16) :
    format.convertEach? start step payload out points =
      some (format.convertEach start step payload points ++
        out.drop (points * format.layout.pointSize)) := by
  -- What is converted so far stands in front of the bytes of `out` that nothing was put over yet.
  induction points with
  | zero => rw [convertEach?, Nat.zero_mul, List.drop_zero]; rfl
  | succ i ih =>
    have hWire := wire_le hPayload (Nat.lt_succ_self i)
    have hLength := length_wire hPayload (Nat.lt_succ_self i)
    have hPoint := length_convertPoint hLength start step i
    have hBefore : format.payloadSize i ≤ payload.length := by
      rw [Nat.succ_mul] at hWire
      rw [payloadSize]
      omega
    have hIndex : i < Nat.pow 2 48 := by
      have hPoints : Nat.pow 2 50 = 4 * Nat.pow 2 48 := rfl
      have hSize : 4 ≤ format.layout.wireSize := by cases format <;> decide
      have hLess := Nat.mul_le_mul_left (i + 1) hSize
      omega
    have hSource : piece? format.layout.preamble format.layout.wireSize i =
        some (format.layout.preamble + i * format.layout.wireSize,
          format.layout.preamble + (i + 1) * format.layout.wireSize) :=
      piece?_of_lt (Nat.lt_of_le_of_lt hWire hWordIn)
    have hTarget : piece? 0 format.layout.pointSize i =
        some (i * format.layout.pointSize, (i + 1) * format.layout.pointSize) := by
      rw [piece?_of_lt (by omega), Nat.zero_add, Nat.zero_add]
    have hConvert := convertPoint?_eq hLength hIndex start step
    have hWritten := splice?_behind (length_convertEach hBefore start step) hPoint
      (by rwa [← Nat.succ_mul])
    rw [← Nat.succ_mul] at hWritten
    rw [convertEach?, ih hBefore (Nat.le_trans (Nat.mul_le_mul_right _ (Nat.le_succ i)) hOut),
      hSource, hTarget]
    simp only [Option.bind_eq_bind, Option.bind_some, slice?_wire hPayload (Nat.lt_succ_self i),
      hConvert]
    rw [hWritten, convertEach_succ]

theorem convertAll?_eq (hPayload : format.payloadSize points ≤ payload.length)
    (hWordIn : payload.length < USize.size) (hSmall : payload.length < Nat.pow 2 50)
    (hOut : points * format.layout.pointSize ≤ out.length) (hWord : out.length < USize.size) :
    format.convertAll? payload points out =
      some (format.convertPoints payload points ++
        out.drop (points * format.layout.pointSize)) := by
  have hEach := convertEach?_eq hPayload hWordIn hSmall hOut hWord
  rw [convertPoints_eq hPayload]
  cases format with
  | calibration =>
    have hSize : Format.calibration.payloadSize points = points * 4 := Nat.zero_add _
    have hRoom : points * Format.calibration.layout.pointSize = points * 4 := rfl
    rw [hSize] at hPayload
    rw [hRoom] at hOut
    rw [convertAll?, hSize, hRoom, slice?_of_le (Nat.zero_le _) hPayload, Option.bind_eq_bind,
      Option.bind_some, splice?_of_le (Nat.zero_le _) hOut (length_slice (by omega)),
      convertEach_calibration]
    rfl
  | scan =>
    have hPreamble : 4 ≤ payload.length := Nat.le_trans (Nat.le_add_right _ _) hPayload
    rw [convertAll?, number?_of_le (by omega), Option.bind_eq_bind, Option.bind_some,
      number?_of_le (by omega), Option.bind_some, hEach]
  | point => rw [convertAll?, hEach, convertEach_of_ne_scan (by decide)]
  | spherePoint => rw [convertAll?, hEach, convertEach_of_ne_scan (by decide)]

/-- **A conversion never stops**, whatever sizes it is asked for. -/
theorem convertInto?_eq (hWires : format.payloadSize points < USize.size)
    (hPoints : points * format.layout.pointSize < USize.size)
    (hWordIn : payload.length < USize.size) (hSmall : payload.length < Nat.pow 2 50)
    (hWord : out.length < USize.size) :
    format.convertInto? payload points out = some (format.convertInto payload points out) := by
  have hWires' : mul? USize.size points format.layout.wireSize =
      some (points * format.layout.wireSize) :=
    mul?_of_lt (Nat.lt_of_le_of_lt (Nat.le_add_left _ _) hWires)
  have hNeededIn : add? USize.size format.layout.preamble (points * format.layout.wireSize) =
      some (format.payloadSize points) := add?_of_lt hWires
  simp only [convertInto?, hWires', hNeededIn, mul?_of_lt hPoints, Option.bind_eq_bind,
    Option.bind_some]
  by_cases hPayload : format.payloadSize points ≤ payload.length
  · by_cases hOut : points * format.layout.pointSize ≤ out.length
    · rw [if_neg (Nat.not_lt.mpr hPayload), if_neg (Nat.not_lt.mpr hOut),
        convertInto_of_le hPayload hOut, convertAll?_eq hPayload hWordIn hSmall hOut hWord]
      rfl
    · rw [if_neg (Nat.not_lt.mpr hPayload), if_pos (Nat.lt_of_not_le hOut), convertInto,
        if_neg (Nat.not_lt.mpr hPayload), if_pos (Nat.lt_of_not_le hOut)]
      rfl
  · rw [if_pos (Nat.lt_of_not_le hPayload), convertInto, if_pos (Nat.lt_of_not_le hPayload)]
    rfl

end

end Format

end LidarSweep
