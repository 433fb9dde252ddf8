import LidarSweep.Frame
import LidarSweep.Point

/-!
# Range gates

A gate blanks the points of a frame that are nearer than its least or farther than its greatest
range. Scan and spherical points keep their angles. A range that is no number passes.
-/

namespace LidarSweep

open Bytes

/-- Ranges in millimetres. -/
structure RangeGate where
  least : Float32
  greatest : Float32

namespace RangeGate

/-- The least range must not be negative nor above the greatest. -/
def make (least greatest : Float32) : Except Error RangeGate :=
  if least ≥ 0 && least ≤ greatest then .ok ⟨least, greatest⟩
  else .error (.configuration (.invalidRange least greatest))

def rejects (gate : RangeGate) (range : Float32) : Bool :=
  range < gate.least || range > gate.greatest

/-- The range of a converted point. -/
def rangeOf (format : Format) (point : List UInt8) : Float32 :=
  match format with
  | .scan => Single.atOffset point 4
  | .point =>
    let x := Single.atOffset point 0
    let y := Single.atOffset point 4
    let z := Single.atOffset point 8
    (x * x + y * y + z * z).sqrt
  | .spherePoint => Single.atOffset point 0
  | .calibration => 0

/-- A converted point without its range and intensity. -/
def blank (format : Format) (point : List UInt8) : List UInt8 :=
  match format with
  | .scan => point.take 4 ++ List.replicate 5 0 ++ point.drop 9
  | .point => List.replicate 16 0
  | .spherePoint => List.replicate 4 0 ++ slice point 4 8 ++ [0] ++ point.drop 13
  | .calibration => point

def applyPoint (gate : RangeGate) (format : Format) (point : List UInt8) : List UInt8 :=
  if gate.rejects (rangeOf format point) then blank format point else point

/-- Calibration data and an incomplete last point stay as they are. -/
def apply (gate : RangeGate) (frame : Frame) : Frame :=
  match frame.format with
  | .calibration => frame
  | format =>
    frame.withData (mapChunks format.layout.pointSize (gate.applyPoint format) frame.data)

end RangeGate

end LidarSweep
