import LidarSweep.Frame.Metadata

/-!
# Frames

A frame is one whole sweep of converted points. The assembler fills in what it knows; profile,
metadata and times are added on the way to the consumer.
-/

namespace LidarSweep

structure Frame where
  format : Format
  data : List UInt8
  /-- Monotonic time when the last block came in, in nanoseconds -/
  receiptNs : Nat
  sequence : Nat
  /-- Header of the last block -/
  header : Header
  /-- Time since the stream began, in microseconds -/
  deviceUs : Nat := 0
  /-- Time by the host's wall clock, in microseconds -/
  globalUs : Nat := 0
  profile : Option Profile := none
  metadata : Metadata := .empty

namespace Frame

def frameType (f : Frame) : FrameType := f.format.frameType

def byteSize (f : Frame) : Nat := f.data.length

/-- Whole points, or samples of calibration data. -/
def pointCount (f : Frame) : Nat := f.data.length / f.format.layout.pointSize

def metadataValue? (f : Frame) (key : MetadataKey) : Option Int := f.metadata.get? key

/-- Other points, all else as it was. -/
def withData (f : Frame) (data : List UInt8) : Frame := { f with data }

end Frame

end LidarSweep
