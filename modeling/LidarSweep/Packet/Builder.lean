import LidarSweep.Geometry
import LidarSweep.Packet
import LidarSweep.Packet.Samples

/-!
# Building packets

A builder holds a header with the fields that stay the same over a stream. Blocks can be given a
payload or carry a made-up one that depends only on format, geometry and position: a circle of 10 m
for scans, a cylinder for points, a ramp of bytes for everything else.
-/

namespace LidarSweep

/-- The payload made up for a block; without a format it is the ramp. -/
def syntheticPayload (format : Option Format) (g : Geometry) (block : UInt16) : List UInt8 :=
  let total := g.points * g.blocks.toNat
  let first := (block.toNat - 1) * g.points
  match format with
  | some .scan =>
    let step := UInt16.ofNat (360000 / total)
    let start := UInt16.ofNat ((UInt32.ofNat first).toNat * step.toNat / 10)
    ScanSample.encodeAll start step
      ((List.range g.points).map fun i => ⟨40000, UInt8.ofNat i⟩)
  | some .point | some .spherePoint =>
    Sample.encodeAll ((List.range g.points).map fun i => {
      distanceMm := 5000
      azimuthDeg := (UInt64.ofNat (first + i)).toFloat32 * 360 / (UInt64.ofNat total).toFloat32
      elevationDeg := ((UInt64.ofNat (i % 16)).toFloat32 - 8) * 2
      intensity := UInt8.ofNat i })
  | _ => (List.range g.payloadSize).map fun i => UInt8.ofNat (i % 251)

structure Builder where
  template : Header
  deriving DecidableEq, Repr

namespace Builder

def new (modelCode : UInt16) (rate : ScanRate) (format : Format) : Builder where
  template := {
    magic := Header.validMagic
    payloadSize := 0
    modelCode
    rateCode := rate.code
    formatCode := format.code
    block := 1
    sweep := 0
    wireTimeUs := 0
    syncCode := 0
    warnings := 0
    scanSpeed := rate.rpm
    verticalRate := 0
    temperature := 2500 }

def withSyncCode (b : Builder) (code : UInt8) : Builder :=
  ⟨{ b.template with syncCode := code }⟩

def withWarnings (b : Builder) (flags : UInt16) : Builder :=
  ⟨{ b.template with warnings := flags }⟩

def withTemperature (b : Builder) (temperature : Int16) : Builder :=
  ⟨{ b.template with temperature }⟩

/-- Also for codes that name no format. -/
def withFormatCode (b : Builder) (code : UInt8) : Builder :=
  ⟨{ b.template with formatCode := code }⟩

/-- The header of one block. Device time runs 100 ms a sweep and 1 us a block. -/
def header (b : Builder) (sweep : UInt32) (block : UInt16) (payload : List UInt8) : Header :=
  { b.template with
    payloadSize := UInt16.ofNat payload.length
    block
    sweep
    wireTimeUs := UInt64.ofNat (sweep.toNat * 100000 + block.toNat) }

def encode (b : Builder) (sweep : UInt32) (block : UInt16) (payload : List UInt8) :
    List UInt8 :=
  (b.header sweep block payload).encode ++ payload ++ Packet.validTail

/-- All blocks of one sweep in order, with made-up payloads. -/
def sweep (b : Builder) (g : Geometry) (index : UInt32) : List (List UInt8) :=
  (List.range g.blocks.toNat).map fun i =>
    let block := UInt16.ofNat (i + 1)
    b.encode index block (syntheticPayload b.template.format? g block)

end Builder

end LidarSweep
