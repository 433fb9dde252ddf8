import LidarSweep.Bytes
import LidarSweep.Error

/-!
# Block headers

Every block of a sweep travels in one packet, which opens with a header of 40 bytes, numbers most
significant byte first. Byte 27 and the last four bytes are reserved: written as zero, ignored
when read.
-/

namespace LidarSweep

open Bytes

structure Header where
  magic : Vector UInt8 6
  /-- Declared bytes of payload -/
  payloadSize : UInt16
  modelCode : UInt16
  rateCode : UInt8
  formatCode : UInt8
  /-- Position of the block in its sweep, from 1 -/
  block : UInt16
  sweep : UInt32
  /-- Time by the device's own clock, which frame times never use -/
  wireTimeUs : UInt64
  syncCode : UInt8
  warnings : UInt16
  /-- Measured motor speed in revolutions a minute -/
  scanSpeed : UInt16
  /-- Vertical scan rate in hundredths of a hertz -/
  verticalRate : UInt16
  /-- Temperature in hundredths of a degree Celsius -/
  temperature : Int16
  deriving DecidableEq, Repr

namespace Header

def size : Nat := 40

/-- The letters `LDSTRM`. -/
def validMagic : Vector UInt8 6 := #v[0x4c, 0x44, 0x53, 0x54, 0x52, 0x4d]

instance : Inhabited Header := ⟨⟨validMagic, 0, 0, 0, 0, 0, 0, 0, 0, 0, 0, 0, 0⟩⟩

def encode (h : Header) : List UInt8 :=
  h.magic.toList
    ++ ofBig 2 h.payloadSize.toNat
    ++ ofBig 2 h.modelCode.toNat
    ++ [h.rateCode, h.formatCode]
    ++ ofBig 2 h.block.toNat
    ++ ofBig 4 h.sweep.toNat
    ++ ofBig 8 h.wireTimeUs.toNat
    ++ [h.syncCode, 0]
    ++ ofBig 2 h.warnings.toNat
    ++ ofBig 2 h.scanSpeed.toNat
    ++ ofBig 2 h.verticalRate.toNat
    ++ ofBig 2 h.temperature.toUInt16.toNat
    ++ [0, 0, 0, 0]

@[simp] theorem length_encode (h : Header) : h.encode.length = size := by
  simp [encode, size]

/-- Reads the header at the start of `bs`, whatever follows it. -/
def decode (bs : List UInt8) : Except Error Header :=
  if h : size ≤ bs.length then
    have : 40 ≤ bs.length := h
    .ok {
      magic := Vector.ofFn fun i : Fin 6 => bs[i.val]
      payloadSize := UInt16.ofNat (big (slice bs 6 2))
      modelCode := UInt16.ofNat (big (slice bs 8 2))
      rateCode := bs[10]
      formatCode := bs[11]
      block := UInt16.ofNat (big (slice bs 12 2))
      sweep := UInt32.ofNat (big (slice bs 14 4))
      wireTimeUs := UInt64.ofNat (big (slice bs 18 8))
      syncCode := bs[26]
      warnings := UInt16.ofNat (big (slice bs 28 2))
      scanSpeed := UInt16.ofNat (big (slice bs 30 2))
      verticalRate := UInt16.ofNat (big (slice bs 32 2))
      temperature := (UInt16.ofNat (big (slice bs 34 2))).toInt16 }
  else .error (.unexpectedEnd bs.length)

def hasValidMagic (h : Header) : Bool := h.magic == validMagic

/-- The format that the header names, if there is one. -/
def format? (h : Header) : Option Format := Format.ofCode? h.formatCode

def celsius (h : Header) : Float32 := h.temperature.toFloat32 / 100

end Header

end LidarSweep
