import LidarSweep.Bytes
import LidarSweep.Single

/-!
# Payload encoding

What a device measures, brought to the steps of the wire: distances in 0.25 mm, angles in 0.01
degrees, the step between the points of a scan in 0.001 degrees. Values are rounded to the nearest
step, half away from zero, and kept within the field's range.
-/

namespace LidarSweep

open Bytes

namespace Resolution

/-- Millimetres in a step of distance. -/
def distance : Float32 := .ofBits 0x3e800000

/-- Degrees in a step of azimuth, elevation or start angle. -/
def angle : Float32 := .ofBits 0x3c23d70a

/-- Degrees in a step between scan points. -/
def scanStep : Float32 := .ofBits 0x3a83126f

end Resolution

/-- A point of several lines, as measured. -/
structure Sample where
  distanceMm : Float32
  azimuthDeg : Float32
  elevationDeg : Float32
  intensity : UInt8

namespace Sample

/-- Eight bytes, the last one reserved. -/
def encode (s : Sample) : List UInt8 :=
  let distance := (s.distanceMm / Resolution.distance).round.toUInt16
  let azimuth := (Single.modulo s.azimuthDeg 360 / Resolution.angle).round.toUInt16
  let elevation := (s.elevationDeg / Resolution.angle).round.toInt16
  ofBig 2 distance.toNat ++ ofBig 2 azimuth.toNat ++ ofBig 2 elevation.toUInt16.toNat
    ++ [s.intensity, 0]

def encodeAll (samples : List Sample) : List UInt8 := samples.flatMap encode

end Sample

/-- A point of one line: distance in steps, and intensity. -/
structure ScanSample where
  distance : UInt16
  intensity : UInt8
  deriving DecidableEq, Repr

namespace ScanSample

/-- Four bytes, the last one reserved. -/
def encode (s : ScanSample) : List UInt8 := ofBig 2 s.distance.toNat ++ [s.intensity, 0]

/-- The points after a preamble with the start angle and the step between points. -/
def encodeAll (start step : UInt16) (samples : List ScanSample) : List UInt8 :=
  ofBig 2 start.toNat ++ ofBig 2 step.toNat ++ samples.flatMap encode

end ScanSample

end LidarSweep
