import LidarSweep.Capture.Ethernet
import LidarSweep.Proofs.Bytes

/-!
# Datagrams in their frames

A UDP datagram is found again in the Ethernet frame that carries it over IP version 4, whatever the
frame says of addresses, service and checksums, with IP options or without, and whatever pads the
frame behind it (`UdpFrame.datagram?_encode`).
-/

namespace LidarSweep

open Bytes Ethernet

theorem Bytes.big_two {n : Nat} (h : n < 65536) : big (ofBig 2 n) = n := big_ofBig h

/-- An Ethernet frame with a UDP datagram that was sent in one piece over IP version 4. -/
structure UdpFrame where
  targetStation : Vector UInt8 6
  sourceStation : Vector UInt8 6
  service : UInt8
  identification : UInt16
  dontFragment : Bool
  timeToLive : UInt8
  headerChecksum : UInt16
  sourceAddress : UInt32
  targetAddress : UInt32
  options : List UInt8
  sourcePort : UInt16
  targetPort : UInt16
  checksum : UInt16
  payload : List UInt8
  /-- What fills a short frame up -/
  padding : List UInt8
  options_words : options.length % 4 = 0
  options_le : options.length ≤ 40
  /-- Without options there is room for a payload of 65507 bytes. -/
  total_le : 28 + options.length + payload.length ≤ 65535
  padding_le : padding.length ≤ 46

namespace UdpFrame

variable (f : UdpFrame)

/-- The datagram with its own header. -/
def segment : List UInt8 :=
  ofBig 2 f.sourcePort.toNat ++ ofBig 2 f.targetPort.toNat ++ ofBig 2 (8 + f.payload.length)
    ++ ofBig 2 f.checksum.toNat ++ f.payload

/-- Bytes of the IP packet. -/
def total : Nat := 28 + f.options.length + f.payload.length

def ipHeader : List UInt8 :=
  [UInt8.ofNat (0x45 + f.options.length / 4), f.service] ++ ofBig 2 f.total
    ++ ofBig 2 f.identification.toNat ++ [if f.dontFragment then 0x40 else 0, 0]
    ++ [f.timeToLive, 17] ++ ofBig 2 f.headerChecksum.toNat
    ++ ofBig 4 f.sourceAddress.toNat ++ ofBig 4 f.targetAddress.toNat ++ f.options

def packet : List UInt8 := f.ipHeader ++ f.segment

def encode : List UInt8 :=
  f.targetStation.toList ++ f.sourceStation.toList ++ [0x08, 0x00] ++ f.packet ++ f.padding

/-- What the frame carries. -/
def datagram : Datagram := ⟨f.sourcePort.toNat, f.targetPort.toNat, f.payload⟩

@[simp] theorem length_segment : f.segment.length = 8 + f.payload.length := by
  simp [segment]
  omega

@[simp] theorem length_ipHeader : f.ipHeader.length = 20 + f.options.length := by
  simp [ipHeader]
  omega

@[simp] theorem length_packet : f.packet.length = f.total := by
  simp [packet, total]
  omega

theorem length_encode : f.encode.length = 14 + f.total + f.padding.length := by
  simp [encode]
  omega

theorem udp?_segment : udp? f.segment = some f.datagram := by
  have hTotal := f.total_le
  have hSource : big (slice f.segment 0 2) = f.sourcePort.toNat := big_two f.sourcePort.toNat_lt
  have hTarget : big (slice f.segment 2 2) = f.targetPort.toNat := big_two f.targetPort.toNat_lt
  have hSize : big (slice f.segment 4 2) = 8 + f.payload.length := big_two (by omega)
  have hPayload : slice f.segment 8 f.payload.length = f.payload := List.take_length
  have hLong : ¬ f.segment.length < 8 := by simp
  have hSome : 8 + f.payload.length ≠ 0 := by omega
  have hEnough : ¬ (8 + f.payload.length < 8 ∨ f.segment.length < 8 + f.payload.length) := by simp
  simp only [udp?, if_neg hLong, hSource, hTarget, hSize, if_neg hSome, if_neg hEnough,
    Nat.add_sub_cancel_left, hPayload]
  rfl

/-- The packet's own length tells the datagram from what pads the frame. -/
theorem ipv4?_packet_append (rest : List UInt8) :
    ipv4? (f.packet ++ rest) = some ⟨Protocol.udp, false, f.segment⟩ := by
  have hTotal := f.total_le
  have hOptions := f.options_le
  have hWords := f.options_words
  have hFirst : byteAt (f.packet ++ rest) 0 = 0x45 + f.options.length / 4 := by
    change (UInt8.ofNat (0x45 + f.options.length / 4)).toNat = _
    rw [UInt8.toNat_ofNat', Nat.mod_eq_of_lt (by omega)]
  have hHeader : byteAt (f.packet ++ rest) 0 % 16 * 4 = 20 + f.options.length := by omega
  have hVersion : byteAt (f.packet ++ rest) 0 / 16 = 4 := by omega
  have hSize : big (slice (f.packet ++ rest) 2 2) = f.total :=
    big_two (Nat.lt_of_le_of_lt hTotal (by decide))
  have hFragment : ¬ big (slice (f.packet ++ rest) 6 2) % 0x4000 ≠ 0 := by
    change ¬ big [if f.dontFragment then 0x40 else 0, 0] % 0x4000 ≠ 0
    cases f.dontFragment <;> decide
  have hProtocol : byteAt (f.packet ++ rest) 9 = Protocol.udp := rfl
  have hBody : slice (f.packet ++ rest) (20 + f.options.length)
      (f.total - (20 + f.options.length)) = f.segment := by
    have hBetween := slice_append f.ipHeader f.segment rest
    rw [length_ipHeader, length_segment] at hBetween
    rw [packet, List.append_assoc, total]
    convert hBetween using 2
    omega
  have hLength : (f.packet ++ rest).length = f.total + rest.length := by simp
  have hWhole : ¬ ((f.packet ++ rest).length < 20 ∨ byteAt (f.packet ++ rest) 0 / 16 ≠ 4 ∨
      20 + f.options.length < 20 ∨ (f.packet ++ rest).length < 20 + f.options.length ∨
      (f.packet ++ rest).length < f.total ∨ f.total < 20 + f.options.length) := by
    rw [hLength, total]
    omega
  have hOther : ¬ Protocol.udp = Protocol.authentication := by decide
  simp only [ipv4?, hHeader, hSize, if_neg hWhole, hProtocol, if_neg hOther, hBody]
  rw [decide_eq_false hFragment]

/-- **A frame gives its datagram back.** -/
theorem datagram?_encode : datagram? f.encode = some f.datagram := by
  have hLong : ¬ f.encode.length < 14 := by
    rw [length_encode]
    omega
  have hKind : big (slice f.encode 12 2) = 0x0800 := by
    have hBetween := slice_append (f.targetStation.toList ++ f.sourceStation.toList) [0x08, 0x00]
      (f.packet ++ f.padding)
    have hSlice : slice f.encode 12 2 = [0x08, 0x00] := by simpa [encode] using hBetween
    rw [hSlice]
    rfl
  have hRest : f.encode.drop 14 = f.packet ++ f.padding := by
    rw [encode, List.append_assoc]
    exact List.drop_left' (by simp)
  have hUntagged : untag? 2 0x0800 (f.packet ++ f.padding) =
      some (0x0800, f.packet ++ f.padding) := if_neg (by decide)
  have hIp : ip? 0x0800 (f.packet ++ f.padding) = some ⟨Protocol.udp, false, f.segment⟩ :=
    (if_pos rfl).trans (f.ipv4?_packet_append f.padding)
  have hWhole : ¬ (false = true ∨ Protocol.udp ≠ Protocol.udp) := by simp
  rw [datagram?, if_neg hLong, hKind, hRest, hUntagged, Option.bind_some]
  dsimp only
  rw [hIp, Option.bind_some, if_neg hWhole, udp?_segment]

end UdpFrame

end LidarSweep
