import LidarSweep.Config
import LidarSweep.Error
import LidarSweep.Json.Codec

/-!
# Configuration documents

A configuration is written as a JSON record of its sections, which are records of their settings.
Numbers must be written as whole numbers that fit the setting. Everything else about JSON is left to
a codec.
-/

namespace LidarSweep

open Json

/-- A whole number below `limit`. -/
def Json.below? (limit : Nat) (value : Json) : Option Nat :=
  value.nat?.bind fun n => if n < limit then some n else none

def Json.uint32? (value : Json) : Option UInt32 := (value.below? UInt32.size).map UInt32.ofNat

def Json.uint64? (value : Json) : Option UInt64 := (value.below? UInt64.size).map UInt64.ofNat

namespace RecoveryConfig

def maxRestartsSetting : Setting RecoveryConfig UInt32 :=
  ⟨"max_recovery_count", uint32?, fun n c => { c with maxRestarts := n }⟩

def noStreamSetting : Setting RecoveryConfig UInt64 :=
  ⟨"no_stream_timeout_ms", uint64?, fun n c => { c with noStreamMs := n }⟩

def interruptSetting : Setting RecoveryConfig UInt64 :=
  ⟨"stream_interrupt_timeout_ms", uint64?, fun n c => { c with interruptMs := n }⟩

def fields : List (RecordField RecoveryConfig) :=
  [maxRestartsSetting.field, noStreamSetting.field, interruptSetting.field]

def ofJson? (codec : Codec) (value : Json) : Option RecoveryConfig := codec.decode fields {} value

def toJson (c : RecoveryConfig) : Json :=
  .object [
    (.ofString "max_recovery_count", .ofNat c.maxRestarts.toNat),
    (.ofString "no_stream_timeout_ms", .ofNat c.noStreamMs.toNat),
    (.ofString "stream_interrupt_timeout_ms", .ofNat c.interruptMs.toNat)]

end RecoveryConfig

namespace AnomalyConfig

def enabledSetting : Setting AnomalyConfig Bool :=
  ⟨"enabled", bool?, fun b c => { c with enabled := b }⟩

def maxGapSetting : Setting AnomalyConfig UInt32 :=
  ⟨"max_gap_periods", uint32?, fun n c => { c with maxGapPeriods := n }⟩

def fields : List (RecordField AnomalyConfig) := [enabledSetting.field, maxGapSetting.field]

def ofJson? (codec : Codec) (value : Json) : Option AnomalyConfig := codec.decode fields {} value

def toJson (c : AnomalyConfig) : Json :=
  .object [
    (.ofString "enabled", .bool c.enabled),
    (.ofString "max_gap_periods", .ofNat c.maxGapPeriods.toNat)]

end AnomalyConfig

namespace RecorderConfig

def queueDepthSetting : Setting RecorderConfig UInt64 :=
  ⟨"queue_depth", uint64?, fun n c => { c with queueDepth := n }⟩

def fields : List (RecordField RecorderConfig) := [queueDepthSetting.field]

def ofJson? (codec : Codec) (value : Json) : Option RecorderConfig := codec.decode fields {} value

def toJson (c : RecorderConfig) : Json :=
  .object [(.ofString "queue_depth", .ofNat c.queueDepth.toNat)]

end RecorderConfig

namespace Config

section
variable (codec : Codec)

def recoverySetting : Setting Config RecoveryConfig :=
  ⟨"recovery", RecoveryConfig.ofJson? codec, fun s c => { c with recovery := s }⟩

def anomalySetting : Setting Config AnomalyConfig :=
  ⟨"anomaly", AnomalyConfig.ofJson? codec, fun s c => { c with anomaly := s }⟩

def recorderSetting : Setting Config RecorderConfig :=
  ⟨"recorder", RecorderConfig.ofJson? codec, fun s c => { c with recorder := s }⟩

def fields : List (RecordField Config) :=
  [(recoverySetting codec).field, (anomalySetting codec).field, (recorderSetting codec).field]

def ofJson? (value : Json) : Option Config := codec.decode (fields codec) {} value

end

def toJson (c : Config) : Json :=
  .object [
    (.ofString "recovery", c.recovery.toJson),
    (.ofString "anomaly", c.anomaly.toJson),
    (.ofString "recorder", c.recorder.toJson)]

/-- Reads a whole document with a codec. -/
def ofTextWith (codec : Codec) (document : String) : Except Error Config :=
  match (codec.read? document).bind (ofJson? codec) with
  | some c => .ok c
  | none => .error (.json "invalid configuration")

def toTextWith (codec : Codec) (c : Config) : String := codec.print c.toJson

def ofText (document : String) : Except Error Config := ofTextWith Json.codec document

def toText (c : Config) : String := c.toTextWith Json.codec

end Config

end LidarSweep
