import LidarSweep.Capture.Blocks
import LidarSweep.Capture.Ethernet

/-!
# Captured traffic

The payloads of the UDP datagrams in a capture, in order and without the empty ones; a port can be
asked for, as the sender's or the receiver's. The first bytes tell which of the two formats a
capture has.
-/

namespace LidarSweep.Capture

/-- What a capture is taken apart with: a reader for each format, and the datagram in a frame. -/
structure Parsers where
  legacy : Reader
  blocks : Reader
  datagram? : List UInt8 → Option Datagram

/-- Whether a section header opens the capture. -/
def isInBlocks (bs : List UInt8) : Bool := bs.take 4 == [0x0a, 0x0d, 0x0d, 0x0a]

namespace Parsers

/-- The payload of a frame's datagram, if it has one and the port fits. -/
def payload? (p : Parsers) (port : Option UInt16) (frame : List UInt8) : Option (List UInt8) :=
  (p.datagram? frame).bind fun d =>
    if d.matchesPort port && !d.payload.isEmpty then some d.payload else none

def reader (p : Parsers) (bs : List UInt8) : Reader :=
  if isInBlocks bs then p.blocks else p.legacy

def payloads (p : Parsers) (bs : List UInt8) (port : Option UInt16) :
    Except Error (List (List UInt8)) :=
  (p.reader bs).gather (p.payload? port) bs

end Parsers

def parsers : Parsers := ⟨LegacyCapture.reader, BlockCapture.reader, Ethernet.datagram?⟩

def payloads (bs : List UInt8) (port : Option UInt16) : Except Error (List (List UInt8)) :=
  parsers.payloads bs port

end LidarSweep.Capture
