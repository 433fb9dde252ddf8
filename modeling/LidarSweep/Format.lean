import LidarSweep.Text.Names

/-!
# Data formats

A stream carries its points in one of four formats. A format fixes the wire code, the kind of
frame that a whole sweep makes, and how many bytes a point takes on the wire and in a frame.
-/

namespace LidarSweep

inductive Format where
  /-- Raw samples, in calibration mode only -/
  | calibration
  /-- Cartesian points -/
  | point
  /-- Distance, azimuth and elevation -/
  | spherePoint
  /-- One line of distances with interpolated angles -/
  | scan
  deriving DecidableEq, Repr

/-- The kind of a whole frame. -/
inductive FrameType where
  | scan
  | points
  | spherePoints
  | calibration
  deriving DecidableEq, Repr

/-- The name in diagnostics. -/
def FrameType.ident : FrameType → String
  | scan => "Scan"
  | points => "Points"
  | spherePoints => "SpherePoints"
  | calibration => "Calibration"

/-- Byte sizes of one format. -/
structure Layout where
  /-- Bytes of a converted point -/
  pointSize : Nat
  /-- Bytes of a point on the wire -/
  wireSize : Nat
  /-- Bytes before the points of a block -/
  preamble : Nat
  deriving DecidableEq, Repr

namespace Format

def code : Format → UInt8
  | calibration => 0x10
  | point => 0x20
  | spherePoint => 0x21
  | scan => 0x30

def ofCode? : UInt8 → Option Format
  | 0x10 => some calibration
  | 0x20 => some point
  | 0x21 => some spherePoint
  | 0x30 => some scan
  | _ => none

theorem ofCode?_code (format : Format) : ofCode? format.code = some format := by
  cases format <;> rfl

def frameType : Format → FrameType
  | calibration => .calibration
  | point => .points
  | spherePoint => .spherePoints
  | scan => .scan

def layout : Format → Layout
  | scan => ⟨12, 4, 4⟩
  | point | spherePoint => ⟨16, 8, 0⟩
  | calibration => ⟨4, 4, 0⟩

theorem pointSize_pos (format : Format) : 0 < format.layout.pointSize := by
  cases format <;> decide

def label : Format → String
  | calibration => "calibration"
  | point => "point"
  | spherePoint => "sphere-point"
  | scan => "scan"

/-- The name in diagnostics. -/
def ident : Format → String
  | calibration => "Calibration"
  | point => "Point"
  | spherePoint => "SpherePoint"
  | scan => "Scan"

instance : Named Format where
  values := [calibration, point, spherePoint, scan]
  name := label

end Format

end LidarSweep
