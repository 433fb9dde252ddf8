import LidarSweep.Packet.Header
import LidarSweep.SyncMode

/-!
# Frame metadata

A stream declares which header fields go along with its frames. They are taken from the header of
a sweep's last block; one that cannot be right fails the frame.
-/

namespace LidarSweep

inductive MetadataKey where
  | sweepIndex
  | modelCode
  | syncMode
  | warningFlags
  | scanSpeed
  | verticalRate
  | temperature
  | wireTimestamp
  deriving DecidableEq, Repr

/-- The values by key. -/
@[ext] structure Metadata where
  get? : MetadataKey → Option Int

namespace Metadata

def empty : Metadata := ⟨fun _ => none⟩

instance : Inhabited Metadata := ⟨empty⟩

def insert (m : Metadata) (key : MetadataKey) (value : Int) : Metadata :=
  ⟨fun k => if k = key then some value else m.get? k⟩

end Metadata

namespace MetadataKey

/-- Every key, in the order of declaration by default. -/
def all : List MetadataKey :=
  [sweepIndex, modelCode, syncMode, warningFlags, scanSpeed, verticalRate, temperature,
    wireTimestamp]

/-- The name in diagnostics. -/
def ident : MetadataKey → String
  | sweepIndex => "SweepIndex"
  | modelCode => "ModelCode"
  | syncMode => "SyncMode"
  | warningFlags => "WarningFlags"
  | scanSpeed => "ScanSpeed"
  | verticalRate => "VerticalRate"
  | temperature => "Temperature"
  | wireTimestamp => "WireTimestamp"

/-- The value of one header field. A sync mode must be known, and a device time must be below
`2 ^ 63`. -/
def value (h : Header) : MetadataKey → Except Error Int
  | sweepIndex => .ok h.sweep.toNat
  | modelCode => .ok h.modelCode.toNat
  | syncMode =>
    match SyncMode.ofCode? h.syncCode with
    | some mode => .ok mode.code.toNat
    | none => .error (.invalidPacket (.unknownSyncMode h.syncCode))
  | warningFlags => .ok h.warnings.toNat
  | scanSpeed => .ok h.scanSpeed.toNat
  | verticalRate => .ok h.verticalRate.toNat
  | temperature => .ok h.temperature.toInt
  | wireTimestamp =>
    if h.wireTimeUs.toNat < 0x8000000000000000 then .ok h.wireTimeUs.toNat
    else .error (.invalidPacket (.wireTimeOutOfRange h.wireTimeUs))

/-- The values of all declared keys, or the error of the first that has none. -/
def values (keys : List MetadataKey) (h : Header) : Except Error Metadata :=
  keys.foldlM (fun m key => (m.insert key ·) <$> key.value h) .empty

end MetadataKey

end LidarSweep
