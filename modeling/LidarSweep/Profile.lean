import LidarSweep.Format
import LidarSweep.ScanRate

/-!
# Stream profiles

A device offers several streams, each with its own bit in the device's error mask. A profile
says which stream is wanted, in which format and at which rate.
-/

namespace LidarSweep

inductive StreamType where
  | lidar
  | depth
  | ir
  deriving DecidableEq, Repr

namespace StreamType

/-- The bit of the device's error mask that blocks this stream. -/
def errorBit : StreamType → UInt32
  | lidar => 1
  | depth => 2
  | ir => 4

def label : StreamType → String
  | lidar => "lidar"
  | depth => "depth"
  | ir => "ir"

/-- The name in diagnostics. -/
def ident : StreamType → String
  | lidar => "Lidar"
  | depth => "Depth"
  | ir => "Ir"

instance : Named StreamType where
  values := [lidar, depth, ir]
  name := label

end StreamType

/-- What the device is doing: its work, or a vendor calibration. -/
inductive WorkMode where
  | normal
  | calibration
  deriving DecidableEq, Repr

/-- The name in diagnostics. -/
def WorkMode.ident : WorkMode → String
  | normal => "Normal"
  | calibration => "Calibration"

structure Profile where
  streamType : StreamType
  format : Format
  rate : ScanRate
  deriving DecidableEq, Repr

def Profile.label (p : Profile) : String :=
  s!"{p.streamType.label}/{p.format.label}@{p.rate.label}"

/-- The profile in diagnostics. -/
def Profile.describe (p : Profile) : String :=
  s!"StreamProfile \x7b stream_type: {p.streamType.ident}, format: {p.format.ident}, "
    ++ s!"scan_rate: {p.rate.ident} \x7d"

/-- Where a stream is in its life. -/
inductive StreamState where
  | stopped
  | starting
  | streaming
  | stopping
  | error
  deriving DecidableEq, Repr

namespace StreamState

instance : Inhabited StreamState := ⟨stopped⟩

/-- States in which packets are taken. -/
def isActive : StreamState → Bool
  | starting | streaming => true
  | _ => false

def label : StreamState → String
  | stopped => "stopped"
  | starting => "starting"
  | streaming => "streaming"
  | stopping => "stopping"
  | error => "error"

instance : Named StreamState where
  values := [stopped, starting, streaming, stopping, error]
  name := label

end StreamState

end LidarSweep
