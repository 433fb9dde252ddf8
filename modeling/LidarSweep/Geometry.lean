import LidarSweep.Format
import LidarSweep.Model
import LidarSweep.Profile

/-!
# Geometry of a sweep

How many blocks make a sweep, how many points a block carries, and the sizes that follow. A table
row states the two counts for one model, rate and format; `GeometryRow.geometry` derives the rest.
-/

namespace LidarSweep

structure Geometry where
  /-- Bytes of a converted point -/
  pointSize : Nat
  /-- Points of every block -/
  points : Nat
  /-- Blocks of a whole sweep -/
  blocks : UInt16
  /-- Bytes of a whole frame -/
  frameSize : Nat
  /-- Nominal motor speed in revolutions a minute -/
  scanSpeed : UInt16
  /-- Bytes of a point on the wire -/
  wireSize : Nat
  /-- Bytes before the points of a block -/
  preamble : Nat
  deriving DecidableEq, Repr

namespace Geometry

/-- The payload length that every block header must declare. -/
def payloadSize (g : Geometry) : Nat := g.preamble + g.wireSize * g.points

/-- Bytes that one converted block adds to a frame. -/
def blockOutputSize (g : Geometry) : Nat := g.pointSize * g.points

end Geometry

/-- One supported configuration. -/
structure GeometryRow where
  model : Model
  rate : ScanRate
  format : Format
  points : Nat
  blocks : UInt16
  deriving DecidableEq, Repr

namespace GeometryRow

def geometry (row : GeometryRow) : Geometry where
  pointSize := row.format.layout.pointSize
  points := row.points
  blocks := row.blocks
  frameSize := row.format.layout.pointSize * row.points * row.blocks.toNat
  scanSpeed := row.rate.rpm
  wireSize := row.format.layout.wireSize
  preamble := row.format.layout.preamble

/-- The supported configurations. -/
def builtIn : List GeometryRow :=
  [⟨.singleLine, .hz5, .scan, 200, 36⟩,
   ⟨.singleLine, .hz10, .scan, 200, 18⟩,
   ⟨.singleLine, .hz15, .scan, 200, 12⟩,
   ⟨.singleLine, .hz20, .scan, 200, 9⟩,
   ⟨.singleLine, .hz10, .calibration, 256, 8⟩,
   ⟨.multiLine, .hz10, .point, 120, 300⟩,
   ⟨.multiLine, .hz20, .point, 120, 150⟩,
   ⟨.multiLine, .hz10, .spherePoint, 120, 300⟩,
   ⟨.multiLine, .hz20, .spherePoint, 120, 150⟩,
   ⟨.multiLine, .hz10, .calibration, 256, 32⟩]

end GeometryRow

end LidarSweep
