import LidarSweep.Packet.Header

/-!
# Block packets

A packet is a header, as many bytes of payload as the header declares, and four bytes of tail.
Decoding checks only that all of it is there. Whether magic, format and length suit the stream is
for the assembler to say.
-/

namespace LidarSweep

open Bytes

structure Packet where
  header : Header
  payload : List UInt8
  tail : List UInt8
  deriving DecidableEq, Repr

namespace Packet

def tailSize : Nat := 4

def validTail : List UInt8 := [0xa5, 0x5a, 0x0f, 0xf0]

/-- Bytes of the packet that a header announces. -/
def declaredSize (h : Header) : Nat := Header.size + h.payloadSize.toNat + tailSize

/-- Bytes after the tail are ignored. -/
def decode (bs : List UInt8) : Except Error Packet := do
  let header ← Header.decode bs
  if bs.length < declaredSize header then
    .error (.invalidPacket (.truncated bs.length (declaredSize header)))
  else
    .ok {
      header
      payload := slice bs Header.size header.payloadSize.toNat
      tail := slice bs (Header.size + header.payloadSize.toNat) tailSize }

theorem length_payload_of_decode {bs : List UInt8} {p : Packet} (h : decode bs = .ok p) :
    p.payload.length = p.header.payloadSize.toNat := by
  unfold decode at h
  cases hHeader : Header.decode bs with
  | error e => simp [hHeader, bind, Except.bind] at h
  | ok header =>
    simp only [hHeader, bind, Except.bind] at h
    split at h
    · simp at h
    · rename_i hLong
      cases h
      simp only [declaredSize] at hLong
      exact length_slice (by omega)

def hasValidTail (p : Packet) : Bool := p.tail == validTail

end Packet

end LidarSweep
