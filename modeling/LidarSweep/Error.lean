import LidarSweep.Profile
import LidarSweep.Model
import LidarSweep.Single.Shortest
import LidarSweep.Text.Hex
import LidarSweep.Text.Quoted

/-!
# Errors

An error says which part failed and why. `Error.message` is the only place that words them. A
stage supplied from outside states its reason as text, in the `other` case of its family.
-/

namespace LidarSweep

/-- A combination or setting that cannot work. -/
inductive ConfigurationFault where
  | unsupported (model : Model) (rate : ScanRate) (format : Format)
  | calibrationModeRequired
  | unavailableInCalibration (format : Format)
  | unknownModelCode (code : UInt16)
  | invalidRange (least greatest : Float32)
  | wrongStreamType (profile : Profile) (streamType : StreamType)
  | captureNotNamed
  | nothingForPort (port : UInt16) (path : String)
  | other (reason : String)

/-- Bytes that are no packet, no frame or no recording. -/
inductive PacketFault where
  | truncated (size declared : Nat)
  | bufferOverflow (offset reserve capacity : Nat)
  | outputTooSmall (size needed : Nat)
  | unknownSyncMode (code : UInt8)
  | wireTimeOutOfRange (time : UInt64)
  | notRecording (magic : List UInt8)
  | unknownFormatCode (code : UInt8)
  | other (reason : String)

/-- Frame times that cannot be right. -/
inductive TimingFault where
  | beforeStart (receipt origin : Nat)
  | duplicate (time : Nat)
  | backwards (last time : Nat)
  | gap (size periods : Nat)
  | other (reason : String)

/-- What ails a packet source. -/
inductive SourceFault where
  | refusedToStart
  | legacyHeader
  | sectionHeader
  | legacyRecord
  | block
  | other (reason : String)

/-- A stage that every frame passes on its way to the consumer. -/
inductive StageName where
  | metadata
  | timestamp
  | globalTimestamp
  | anomaly
  | record
  | process
  deriving DecidableEq, Repr

def StageName.label : StageName → String
  | metadata => "metadata"
  | timestamp => "timestamp"
  | globalTimestamp => "global_timestamp"
  | anomaly => "anomaly"
  | record => "record"
  | process => "process"

inductive Error where
  | io (reason : String)
  | json (reason : String)
  | systemTime (reason : String)
  | configuration (fault : ConfigurationFault)
  | deviceBusy (reason : String)
  | deviceFault (streamType : StreamType) (mask : UInt32)
  | invalidState (reason : String)
  | invalidPacket (fault : PacketFault)
  /-- Data ends at this position -/
  | unexpectedEnd (size : Nat)
  | timestampAnomaly (fault : TimingFault)
  | stall (reason : String)
  | source (fault : SourceFault)
  | stage (name : StageName) (reason : String)

def ConfigurationFault.message : ConfigurationFault → String
  | unsupported model rate format =>
    s!"unsupported combination: {model.label} model, {rate.label}, {format.label} format"
  | calibrationModeRequired => "calibration format requires calibration work mode"
  | unavailableInCalibration format =>
    s!"{format.label} format is unavailable in calibration work mode"
  | unknownModelCode code => s!"unsupported model code {Hex.code 4 code.toNat}"
  | invalidRange least greatest =>
    s!"invalid range gate [{Single.text least}, {Single.text greatest}]"
  | wrongStreamType profile streamType =>
    s!"profile {profile.label} does not match {streamType.label} stream"
  | captureNotNamed => "pcap source needs a capture file"
  | nothingForPort port path => s!"no packets for port {port.toNat} in {path}"
  | other reason => reason

def PacketFault.message : PacketFault → String
  | truncated size declared => s!"truncated packet: {size} bytes, header declares {declared}"
  | bufferOverflow offset reserve capacity =>
    s!"frame buffer overflow: offset {offset} + {reserve} exceeds {capacity}"
  | outputTooSmall size needed => s!"output slice too small: {size} < {needed}"
  | unknownSyncMode code => s!"unknown sync mode {code.toNat}"
  | wireTimeOutOfRange time => s!"wire timestamp {time.toNat} out of range"
  | notRecording magic => s!"not a frame recording: magic {Hex.listOfBytes magic}"
  | unknownFormatCode code => s!"unknown format code {Hex.code 2 code.toNat}"
  | other reason => reason

def TimingFault.message : TimingFault → String
  | beforeStart receipt origin => s!"receipt time {receipt} precedes stream start {origin}"
  | duplicate time => s!"duplicate timestamp {time}us"
  | backwards last time => s!"timestamp moved backwards from {last}us to {time}us"
  | gap size periods => s!"gap of {size}us exceeds {periods} frame periods"
  | other reason => reason

def SourceFault.message : SourceFault → String
  | refusedToStart => "test source refused to start"
  | legacyHeader => "failed to create PCAP reader"
  | sectionHeader => "failed to create PCAPNG reader"
  | legacyRecord => "PCAP parse error"
  | block => "PCAPNG parse error"
  | other reason => reason

def Error.message : Error → String
  | io reason => s!"I/O error: {reason}"
  | json reason => s!"JSON error: {reason}"
  | systemTime reason => s!"system time error: {reason}"
  | configuration fault => s!"configuration error: {fault.message}"
  | deviceBusy reason => s!"device busy: {reason}"
  | deviceFault streamType mask =>
    s!"device fault on {streamType.label} stream: error mask {Hex.code 8 mask.toNat}"
  | invalidState reason => s!"invalid state: {reason}"
  | invalidPacket fault => s!"invalid packet: {fault.message}"
  | unexpectedEnd size => s!"unexpected end of data at {size} bytes"
  | timestampAnomaly fault => s!"timestamp anomaly: {fault.message}"
  | stall reason => s!"stream stalled: {reason}"
  | source fault => s!"packet source error: {fault.message}"
  | stage name reason => s!"pipeline stage {name.label} failed: {reason}"

/-- The kind of an error in diagnostics. -/
def Error.ident : Error → String
  | io _ => "Io"
  | json _ => "Json"
  | systemTime _ => "SystemTime"
  | configuration _ => "Configuration"
  | deviceBusy _ => "DeviceBusy"
  | deviceFault .. => "DeviceFault"
  | invalidState _ => "InvalidState"
  | invalidPacket _ => "InvalidPacket"
  | unexpectedEnd _ => "UnexpectedEnd"
  | timestampAnomaly _ => "TimestampAnomaly"
  | stall _ => "Stall"
  | source _ => "Source"
  | stage .. => "Stage"

/-- The error in diagnostics. -/
def Error.describe : Error → String
  | deviceFault streamType mask =>
    s!"DeviceFault \x7b stream_type: {streamType.ident}, mask: {mask.toNat} \x7d"
  | unexpectedEnd size => s!"UnexpectedEnd({size})"
  | stage name reason =>
    s!"Stage \x7b stage: {Quoted.text name.label}, reason: {Quoted.text reason} \x7d"
  | configuration fault => s!"Configuration({Quoted.text fault.message})"
  | invalidPacket fault => s!"InvalidPacket({Quoted.text fault.message})"
  | timestampAnomaly fault => s!"TimestampAnomaly({Quoted.text fault.message})"
  | source fault => s!"Source({Quoted.text fault.message})"
  | io reason => s!"Io({Quoted.text reason})"
  | json reason => s!"Json({Quoted.text reason})"
  | systemTime reason => s!"SystemTime({Quoted.text reason})"
  | deviceBusy reason => s!"DeviceBusy({Quoted.text reason})"
  | invalidState reason => s!"InvalidState({Quoted.text reason})"
  | stall reason => s!"Stall({Quoted.text reason})"

end LidarSweep
