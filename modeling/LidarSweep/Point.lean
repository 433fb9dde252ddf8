import LidarSweep.Bytes
import LidarSweep.Single

/-!
# Converted points

Points of a frame, numbers least significant byte first: 12 bytes for a scan point, 16 for the
other two. Three bytes of padding close every point. Reading a frame's data takes the whole points
and leaves an incomplete last one out.
-/

namespace LidarSweep

open Bytes

namespace Single

def toBytes (x : Float32) : List UInt8 := ofLittle 4 x.toBits.toNat

/-- The number in the four bytes from `start` on. -/
def atOffset (bs : List UInt8) (start : Nat) : Float32 :=
  .ofBits (UInt32.ofNat (little (slice bs start 4)))

end Single

/-- Angle in radians, distance in millimetres. -/
structure ScanPoint where
  angle : Float32
  distance : Float32
  intensity : UInt8

/-- Coordinates in millimetres. -/
structure CartesianPoint where
  x : Float32
  y : Float32
  z : Float32
  intensity : UInt8

/-- Distance in millimetres, angles in radians. -/
structure SphericalPoint where
  distance : Float32
  azimuth : Float32
  elevation : Float32
  intensity : UInt8

namespace ScanPoint

def encode (p : ScanPoint) : List UInt8 :=
  Single.toBytes p.angle ++ Single.toBytes p.distance ++ [p.intensity, 0, 0, 0]

def decode (bs : List UInt8) : ScanPoint :=
  ⟨Single.atOffset bs 0, Single.atOffset bs 4, bs.getD 8 0⟩

def readAll (data : List UInt8) : List ScanPoint := (chunks 12 data).map decode

end ScanPoint

namespace CartesianPoint

def encode (p : CartesianPoint) : List UInt8 :=
  Single.toBytes p.x ++ Single.toBytes p.y ++ Single.toBytes p.z ++ [p.intensity, 0, 0, 0]

def decode (bs : List UInt8) : CartesianPoint :=
  ⟨Single.atOffset bs 0, Single.atOffset bs 4, Single.atOffset bs 8, bs.getD 12 0⟩

def readAll (data : List UInt8) : List CartesianPoint := (chunks 16 data).map decode

end CartesianPoint

namespace SphericalPoint

def encode (p : SphericalPoint) : List UInt8 :=
  Single.toBytes p.distance ++ Single.toBytes p.azimuth ++ Single.toBytes p.elevation
    ++ [p.intensity, 0, 0, 0]

def decode (bs : List UInt8) : SphericalPoint :=
  ⟨Single.atOffset bs 0, Single.atOffset bs 4, Single.atOffset bs 8, bs.getD 12 0⟩

def readAll (data : List UInt8) : List SphericalPoint := (chunks 16 data).map decode

end SphericalPoint

end LidarSweep
