import LidarSweep.Bytes

/-!
# UDP datagrams in Ethernet frames

A frame may carry one or two VLAN tags, then IP version 4 or 6 with extension headers, then UDP.
Each layer is bounded by the length it declares. A frame that breaks off, contradicts itself, holds
a fragment or anything but UDP has no datagram.
-/

namespace LidarSweep

open Bytes

structure Datagram where
  sourcePort : Nat
  targetPort : Nat
  payload : List UInt8
  deriving DecidableEq, Repr

namespace Datagram

/-- Whether either port is the wanted one; every datagram passes if none is wanted. -/
def matchesPort (d : Datagram) : Option UInt16 → Bool
  | none => true
  | some port => d.sourcePort == port.toNat || d.targetPort == port.toNat

end Datagram

namespace Ethernet

/-- What follows an IP header, its extensions taken off. -/
structure IpPayload where
  protocol : Nat
  fragment : Bool
  bytes : List UInt8

namespace Protocol

def hopByHop : Nat := 0
def udp : Nat := 17
def routing : Nat := 43
def fragment : Nat := 44
def authentication : Nat := 51
def destinationOptions : Nat := 60

end Protocol

def byteAt (bs : List UInt8) (i : Nat) : Nat := (bs.getD i 0).toNat

/-- A declared length of zero means everything that is left. -/
def udp? (bs : List UInt8) : Option Datagram :=
  if bs.length < 8 then none
  else
    let size := big (slice bs 4 2)
    if size = 0 then some ⟨big (slice bs 0 2), big (slice bs 2 2), bs.drop 8⟩
    else if size < 8 ∨ bs.length < size then none
    else some ⟨big (slice bs 0 2), big (slice bs 2 2), slice bs 8 (size - 8)⟩

/-- The protocol after an authentication header, and the bytes after it. -/
def authentication? (bs : List UInt8) : Option (Nat × List UInt8) :=
  let size := (byteAt bs 1 + 2) * 4
  if bs.length < 12 ∨ byteAt bs 1 = 0 ∨ bs.length < size then none
  else some (byteAt bs 0, bs.drop size)

def ipv4? (bs : List UInt8) : Option IpPayload :=
  let headerSize := byteAt bs 0 % 16 * 4
  let total := big (slice bs 2 2)
  if bs.length < 20 ∨ byteAt bs 0 / 16 ≠ 4 ∨ headerSize < 20 ∨ bs.length < headerSize
      ∨ bs.length < total ∨ total < headerSize then none
  else
    let fragment := big (slice bs 6 2) % 0x4000 ≠ 0
    let body := slice bs headerSize (total - headerSize)
    if byteAt bs 9 = Protocol.authentication then
      (authentication? body).map fun (protocol, bytes) => ⟨protocol, fragment, bytes⟩
    else some ⟨byteAt bs 9, fragment, body⟩

/-- The protocol after an extension header of general form, and the bytes after it. -/
def extension? (bs : List UInt8) : Option (Nat × List UInt8) :=
  let size := (byteAt bs 1 + 1) * 8
  if bs.length < 8 ∨ bs.length < size then none else some (byteAt bs 0, bs.drop size)

/-- Takes off the extension headers of version 6, with fuel for one header each. Hop-by-hop
options come first or not at all. -/
def extensions? : Nat → IpPayload → Option IpPayload
  | 0, _ => none
  | fuel + 1, p =>
    if p.protocol = Protocol.hopByHop then none
    else if p.protocol = Protocol.destinationOptions ∨ p.protocol = Protocol.routing then
      (extension? p.bytes).bind fun (protocol, bytes) =>
        extensions? fuel ⟨protocol, p.fragment, bytes⟩
    else if p.protocol = Protocol.fragment then
      if p.bytes.length < 8 then none
      else
        let fragment := p.fragment || big (slice p.bytes 2 2) / 8 ≠ 0
          || big (slice p.bytes 2 2) % 2 ≠ 0
        extensions? fuel ⟨byteAt p.bytes 0, fragment, p.bytes.drop 8⟩
    else if p.protocol = Protocol.authentication then
      (authentication? p.bytes).bind fun (protocol, bytes) =>
        extensions? fuel ⟨protocol, p.fragment, bytes⟩
    else some p

/-- A declared length of zero means everything that is left. -/
def ipv6? (bs : List UInt8) : Option IpPayload :=
  if bs.length < 40 ∨ byteAt bs 0 / 16 ≠ 6 then none
  else
    let size := big (slice bs 4 2)
    if bs.length < 40 + size then none
    else
      let body := if size = 0 then bs.drop 40 else slice bs 40 size
      let fuel := body.length + 1
      if byteAt bs 6 = Protocol.hopByHop then
        (extension? body).bind fun (protocol, bytes) =>
          extensions? fuel ⟨protocol, false, bytes⟩
      else extensions? fuel ⟨byteAt bs 6, false, body⟩

def ip? (kind : Nat) (bs : List UInt8) : Option IpPayload :=
  if kind = 0x0800 then ipv4? bs
  else if kind = 0x86dd then ipv6? bs
  else none

def isVlan (kind : Nat) : Bool := kind == 0x8100 || kind == 0x88a8 || kind == 0x9100

/-- Takes off up to `count` VLAN tags. -/
def untag? : Nat → Nat → List UInt8 → Option (Nat × List UInt8)
  | 0, kind, bs => some (kind, bs)
  | count + 1, kind, bs =>
    if isVlan kind then
      if bs.length < 4 then none else untag? count (big (slice bs 2 2)) (bs.drop 4)
    else some (kind, bs)

/-- The UDP datagram that a frame carries. -/
def datagram? (frame : List UInt8) : Option Datagram :=
  if frame.length < 14 then none
  else
    (untag? 2 (big (slice frame 12 2)) (frame.drop 14)).bind fun (kind, bs) =>
      (ip? kind bs).bind fun p =>
        if p.fragment ∨ p.protocol ≠ Protocol.udp then none else udp? p.bytes

end Ethernet

end LidarSweep
