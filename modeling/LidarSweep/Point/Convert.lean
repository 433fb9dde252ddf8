import LidarSweep.Error
import LidarSweep.Packet.Samples
import LidarSweep.Point

/-!
# From wire points to frame points

A block payload is a preamble and its wire points, most significant byte first. Each wire point is
converted alone; only a scan point also depends on its position, through the start angle and step
in the preamble. Angles of a scan are added up in whole millidegrees, so the wrap at 360 degrees
is exact.
-/

namespace LidarSweep

open Bytes

/-- A wire point of several lines. -/
structure WirePoint where
  distance : UInt16
  azimuth : UInt16
  elevation : Int16
  intensity : UInt8
  deriving DecidableEq, Repr

namespace WirePoint

def decode (bs : List UInt8) : WirePoint where
  distance := UInt16.ofNat (big (slice bs 0 2))
  azimuth := UInt16.ofNat (big (slice bs 2 2))
  elevation := (UInt16.ofNat (big (slice bs 4 2))).toInt16
  intensity := bs.getD 6 0

end WirePoint

/-- The circle constant in single precision. -/
def Single.pi : Float32 := .ofBits 0x40490fdb

def Single.radians (degrees : Float32) : Float32 := degrees * (pi / 180)

def Resolution.millimetres (distance : UInt16) : Float32 :=
  distance.toFloat32 * Resolution.distance

/-- The angle of scan point `i` in thousandths of a degree. -/
def millidegrees (start step : UInt16) (i : Nat) : Nat :=
  (start.toNat * 10 + i * step.toNat) % 360000

namespace ScanPoint

/-- From the wire point at position `i` of its block. -/
def ofWire (start step : UInt16) (i : Nat) (wire : List UInt8) : ScanPoint where
  angle := Single.radians
    ((UInt64.ofNat (millidegrees start step i)).toFloat32 * Resolution.scanStep)
  distance := Resolution.millimetres (UInt16.ofNat (big (slice wire 0 2)))
  intensity := wire.getD 2 0

end ScanPoint

namespace SphericalPoint

def ofWire (wire : WirePoint) : SphericalPoint where
  distance := Resolution.millimetres wire.distance
  azimuth := Single.radians (wire.azimuth.toFloat32 * Resolution.angle)
  elevation := Single.radians (wire.elevation.toFloat32 * Resolution.angle)
  intensity := wire.intensity

end SphericalPoint

namespace CartesianPoint

def ofSpherical (p : SphericalPoint) : CartesianPoint :=
  let horizontal := p.distance * p.elevation.cos
  { x := horizontal * p.azimuth.cos
    y := horizontal * p.azimuth.sin
    z := p.distance * p.elevation.sin
    intensity := p.intensity }

end CartesianPoint

namespace Format

/-- The frame bytes of wire point `i`, after a preamble with this start and step. -/
def convertPoint (format : Format) (start step : UInt16) (i : Nat) (wire : List UInt8) :
    List UInt8 :=
  match format with
  | .scan => (ScanPoint.ofWire start step i wire).encode
  | .point =>
    (CartesianPoint.ofSpherical (.ofWire (.decode wire))).encode
  | .spherePoint => (SphericalPoint.ofWire (.decode wire)).encode
  | .calibration => wire

/-- Bytes of payload that `points` points take. -/
def payloadSize (format : Format) (points : Nat) : Nat :=
  format.layout.preamble + points * format.layout.wireSize

/-- The first `points` points of a payload, converted. -/
def convertPoints (format : Format) (payload : List UInt8) (points : Nat) : List UInt8 :=
  let start := UInt16.ofNat (big (slice payload 0 2))
  let step := UInt16.ofNat (big (slice payload 2 2))
  let wires := (chunks format.layout.wireSize (payload.drop format.layout.preamble)).take points
  (wires.zipIdx.map fun (wire, i) => format.convertPoint start step i wire).flatten

theorem length_convertPoint {format : Format} {wire : List UInt8}
    (h : wire.length = format.layout.wireSize) (start step : UInt16) (i : Nat) :
    (format.convertPoint start step i wire).length = format.layout.pointSize := by
  cases format with
  | calibration => exact h
  | point => simp [convertPoint, CartesianPoint.encode, Single.toBytes, layout]
  | spherePoint => simp [convertPoint, SphericalPoint.encode, Single.toBytes, layout]
  | scan => simp [convertPoint, ScanPoint.encode, Single.toBytes, layout]

theorem length_convertPoints {format : Format} {payload : List UInt8} {points : Nat}
    (h : format.payloadSize points ≤ payload.length) :
    (format.convertPoints payload points).length = points * format.layout.pointSize := by
  have hWire : 0 < format.layout.wireSize := by cases format <;> decide
  simp only [payloadSize] at h
  have hChunks : points ≤ (chunks format.layout.wireSize
      (payload.drop format.layout.preamble)).length := by
    rw [length_chunks hWire, List.length_drop, Nat.le_div_iff_mul_le hWire]
    omega
  rw [convertPoints, length_flatten_of_forall (n := format.layout.pointSize)]
  · simp only [List.length_map, List.length_zipIdx, List.length_take, Nat.min_eq_left hChunks]
  · intro piece hPiece
    obtain ⟨⟨wire, i⟩, hMem, rfl⟩ := List.mem_map.mp hPiece
    have hWhole := List.mem_of_mem_take (List.fst_mem_of_mem_zipIdx hMem)
    exact length_convertPoint (length_of_mem_chunks hWhole) _ _ _

/-- Converts into the front of `out`, and says how many bytes of it were written. A payload or an
`out` that is too short leaves `out` as it is. -/
def convertInto (format : Format) (payload : List UInt8) (points : Nat) (out : List UInt8) :
    List UInt8 × Except Error Nat :=
  let needed := points * format.layout.pointSize
  if payload.length < format.payloadSize points then
    (out, .error (.unexpectedEnd payload.length))
  else if out.length < needed then
    (out, .error (.invalidPacket (.outputTooSmall out.length needed)))
  else
    (format.convertPoints payload points ++ out.drop needed, .ok needed)

/-- An `out` with room to spare keeps what stands behind the points. -/
theorem convertInto_of_le {format : Format} {payload out : List UInt8} {points : Nat}
    (hPayload : format.payloadSize points ≤ payload.length)
    (hOut : points * format.layout.pointSize ≤ out.length) :
    format.convertInto payload points out =
      (format.convertPoints payload points ++ out.drop (points * format.layout.pointSize),
        .ok (points * format.layout.pointSize)) := by
  simp only [convertInto]
  rw [if_neg (by omega), if_neg (by omega)]

/-- A payload and an `out` of the right size are converted, whatever stood in `out`. -/
theorem convertInto_of_fits {format : Format} {payload out : List UInt8} {points : Nat}
    (hPayload : format.payloadSize points ≤ payload.length)
    (hOut : out.length = points * format.layout.pointSize) :
    format.convertInto payload points out =
      (format.convertPoints payload points, .ok (points * format.layout.pointSize)) := by
  rw [convertInto_of_le hPayload (Nat.le_of_eq hOut.symm),
    List.drop_of_length_le (Nat.le_of_eq hOut), List.append_nil]

/-- Whether a conversion fails does not depend on what stands in the payload or in `out`. -/
theorem convertInto_of_short {format : Format} {payload out : List UInt8} {points : Nat}
    (h : ¬ (format.payloadSize points ≤ payload.length ∧
      points * format.layout.pointSize ≤ out.length)) :
    ∃ e, format.convertInto payload points out = (out, .error e) := by
  simp only [convertInto]
  by_cases hPayload : payload.length < format.payloadSize points
  · exact ⟨_, if_pos hPayload⟩
  · rw [if_neg hPayload]
    exact ⟨_, if_pos (by omega)⟩

end Format

end LidarSweep
