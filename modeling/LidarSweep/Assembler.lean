import LidarSweep.Assembler.Stats
import LidarSweep.Frame
import LidarSweep.FrameBuffer
import LidarSweep.Geometry
import LidarSweep.Packet
import LidarSweep.Point.Convert

/-!
# Assembling sweeps

An assembler takes one packet at a time. Packets that suit the stream and come in the order of
their blocks fill a buffer, and the last block turns it into a frame. Everything else is dropped
with a reason. A first block always opens a new sweep, whatever came before; a block out of order
makes the assembler wait for one.
-/

namespace LidarSweep

structure Assembler where
  geometry : Geometry
  format : Format
  /-- The block that comes next, from 1 -/
  expected : UInt16 := 1
  /-- The sweep under way, from its first block on -/
  buffer : Option FrameBuffer := none
  /-- Sequence number of the next frame -/
  sequence : Nat := 0
  stats : AssemblerStats := {}

/-- What became of a packet. -/
inductive Verdict where
  | dropped (reason : Drop)
  | accepted
  | completed (frame : Frame)

/-- An unfinished sweep given up when sweep `sweep` began. -/
structure Discarded where
  sweep : UInt32
  size : Nat

structure Ingest where
  discarded : Option Discarded := none
  verdict : Verdict

namespace Ingest

def frame? (i : Ingest) : Option Frame :=
  match i.verdict with
  | .completed frame => some frame
  | _ => none

def log (i : Ingest) : List LogLine :=
  (i.discarded.toList.map fun d =>
    .warn s!"sweep {d.sweep.toNat} restarted, discarding partial frame of {d.size} bytes")
  ++ match i.verdict with
    | .dropped reason => [.warn reason.message]
    | _ => []

end Ingest

/-- The first reason, apart from its place in the sweep, why a packet does not suit a stream. -/
def Packet.unsuited? (p : Packet) (g : Geometry) (format : Format) : Option Drop :=
  let h := p.header
  if h.payloadSize.toNat ≠ g.payloadSize then
    some (.length h.block h.payloadSize g.payloadSize)
  else if !h.hasValidMagic || !p.hasValidTail then
    some (.magic h.block h.magic.toList p.tail)
  else if h.formatCode ≠ format.code then
    some (.format h.block h.formatCode format)
  else none

namespace Assembler

def new (geometry : Geometry) (format : Format) : Assembler := { geometry, format }

/-- Gives up the sweep under way. -/
def reset (a : Assembler) : Assembler := { a with buffer := none, expected := 1 }

/-- Bytes of the sweep under way. -/
def offset (a : Assembler) : Nat :=
  match a.buffer with
  | some b => b.length
  | none => 0

def drop (a : Assembler) (reason : Drop) : Assembler :=
  { a with stats := a.stats.countDrop reason }

/-- Writes a block's points behind what the buffer holds, then closes the sweep or waits for the
next block. -/
def write (a : Assembler) (buffer : FrameBuffer) (now : Nat) (p : Packet) :
    Assembler × Verdict :=
  let { geometry, format, sequence, stats, expected, .. } := a
  let block := p.header.block
  match buffer.writeWith geometry.blockOutputSize
      (format.convertInto p.payload geometry.points) with
  | (buffer, .error e) =>
    (drop { geometry, format, sequence, stats, expected, buffer := some buffer }
      (.overflow block e), .dropped (.overflow block e))
  | (buffer, .ok _) =>
    if block ≥ geometry.blocks then
      ({ geometry, format, expected := 1, buffer := none, sequence := sequence + 1,
         stats := { stats with frames := stats.frames + 1 } },
       .completed {
         format, data := buffer.contents, receiptNs := now, sequence, header := p.header })
    else
      ({ geometry, format, sequence, stats, expected := block + 1, buffer := some buffer },
       .accepted)

/-- Takes a suited packet. A first block begins with an empty buffer. -/
def place (a : Assembler) (now : Nat) (p : Packet) : Assembler × Ingest :=
  let block := p.header.block
  if block ≠ a.expected ∧ block ≠ 1 then
    let reason := .sequence block p.header.sweep a.expected
    ({ a.drop reason with expected := 1 }, { verdict := .dropped reason })
  else if block = 1 then
    let size := a.offset
    let discarded := if size = 0 then none else some { sweep := p.header.sweep, size }
    let stats := { a.stats with discarded := a.stats.discarded + discarded.toList.length }
    let (a, verdict) := write { a with stats } (.ofCapacity a.geometry.frameSize) now p
    (a, { discarded, verdict })
  else
    match a with
    | { geometry, format, expected, buffer := some buffer, sequence, stats } =>
      let (a, verdict) :=
        write { geometry, format, expected, sequence, stats } buffer now p
      (a, { verdict })
    | { buffer := none, .. } =>
      ({ a.drop (.orphan block) with expected := 1 }, { verdict := .dropped (.orphan block) })

/-- Takes one packet that came in at time `now`. -/
def ingest (a : Assembler) (now : Nat) (bs : List UInt8) : Assembler × Ingest :=
  let a := { a with stats := { a.stats with packets := a.stats.packets + 1 } }
  match Packet.decode bs with
  | .error e => (a.drop (.malformed e), { verdict := .dropped (.malformed e) })
  | .ok p =>
    match p.unsuited? a.geometry a.format with
    | some reason => (a.drop reason, { verdict := .dropped reason })
    | none => a.place now p

/-- Takes packets that came in at time `now`, one after another. -/
def ingestAll (a : Assembler) (now : Nat) (packets : List (List UInt8)) :
    Assembler × List Ingest :=
  match packets with
  | [] => (a, [])
  | p :: ps =>
    let (a, outcome) := a.ingest now p
    let (a, outcomes) := ingestAll a now ps
    (a, outcome :: outcomes)

end Assembler

end LidarSweep
