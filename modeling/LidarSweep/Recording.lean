import LidarSweep.Bytes
import LidarSweep.Frame

/-!
# Recordings of frames

A recording is eight letters and then a record a frame: sequence number and both times in eight
bytes each, format code, data length in four bytes, data. Numbers stand least significant byte
first. A record cut off at the end, as an interrupted writer leaves it, is left out when read.
-/

namespace LidarSweep

open Bytes

/-- A frame as a recording keeps it. -/
structure Record where
  sequence : Nat
  deviceUs : Nat
  globalUs : Nat
  format : Format
  data : List UInt8
  deriving DecidableEq, Repr

namespace Record

def headerSize : Nat := 29

def ofFrame (f : Frame) : Record := ⟨f.sequence, f.deviceUs, f.globalUs, f.format, f.data⟩

def encode (r : Record) : List UInt8 :=
  ofLittle 8 r.sequence ++ ofLittle 8 r.deviceUs ++ ofLittle 8 r.globalUs
    ++ [r.format.code] ++ ofLittle 4 r.data.length ++ r.data

@[simp] theorem length_encode (r : Record) :
    r.encode.length = headerSize + r.data.length := by
  simp [encode, headerSize]
  omega

/-- The records in `bs`, up to one that is cut off. -/
def readAll (bs : List UInt8) : Except Error (List Record) :=
  if _h : bs.length < headerSize then .ok []
  else
    let code := bs.getD 24 0
    match Format.ofCode? code with
    | none => .error (.invalidPacket (.unknownFormatCode code))
    | some format =>
      let size := little (slice bs 25 4)
      let body := bs.drop headerSize
      if body.length < size then .ok []
      else
        (readAll (body.drop size)).map ({
          sequence := little (slice bs 0 8)
          deviceUs := little (slice bs 8 8)
          globalUs := little (slice bs 16 8)
          format
          data := body.take size } :: ·)
termination_by bs.length
decreasing_by
  simp only [headerSize, List.length_drop] at *
  omega

end Record

namespace Recording

/-- The letters `LDSTREC1`. -/
def magic : List UInt8 := [0x4c, 0x44, 0x53, 0x54, 0x52, 0x45, 0x43, 0x31]

def encode (records : List Record) : List UInt8 := magic ++ records.flatMap Record.encode

def decode (bs : List UInt8) : Except Error (List Record) :=
  if bs.length < magic.length then .error (.io "failed to fill whole buffer")
  else if bs.take magic.length ≠ magic then
    .error (.invalidPacket (.notRecording (bs.take magic.length)))
  else Record.readAll (bs.drop magic.length)

end Recording

end LidarSweep
