import LidarSweep.Bytes
import LidarSweep.Capture.Reader

/-!
# Captures in the legacy format

A file header of 24 bytes tells the byte order and whether record headers have the longer, modified
form. Records follow, each with its captured length. A record that is cut off ends the capture.
-/

namespace LidarSweep

open Bytes

/-- A number in the byte order of a file. -/
def Bytes.ordered (bigEndian : Bool) (bs : List UInt8) : Nat :=
  if bigEndian then big bs else little bs

namespace LegacyCapture

structure FileHeader where
  bigEndian : Bool
  /-- Whether record headers have the longer form -/
  modified : Bool
  deriving DecidableEq, Repr

namespace FileHeader

def size : Nat := 24

/-- Bytes before the data of a record. -/
def recordHeaderSize (h : FileHeader) : Nat := if h.modified then 24 else 16

/-- The file header that opens `bs`; times may be in micro- or nanoseconds. -/
def ofBytes? (bs : List UInt8) : Option FileHeader :=
  if bs.length < size then none
  else
    match little (slice bs 0 4) with
    | 0xa1b2c3d4 | 0xa1b23c4d => some ⟨false, false⟩
    | 0xa1b2cd34 => some ⟨false, true⟩
    | 0xd4c3b2a1 | 0x4d3cb2a1 => some ⟨true, false⟩
    | _ => none

end FileHeader

/-- Where in a capture the bytes are that are left. -/
inductive Place where
  | fileHeader (h : FileHeader)
  | records (h : FileHeader)

def next : Place → List UInt8 → Capture.Reading Place
  | .fileHeader h, bs =>
    if bs.length < FileHeader.size then .finished else .block FileHeader.size none (.records h)
  | .records h, bs =>
    let front := h.recordHeaderSize
    let size := ordered h.bigEndian (slice bs 8 4)
    if bs.length < front + size then .finished
    else .block (front + size) (some (slice bs front size)) (.records h)

theorem size_of_next {place place' : Place} {bs : List UInt8} {size : Nat}
    {packet : Option (List UInt8)} (h : next place bs = .block size packet place') :
    0 < size ∧ size ≤ bs.length := by
  cases place with
  | fileHeader header =>
    rw [next] at h
    split at h
    · cases h
    · next hLong =>
      cases h
      exact ⟨by decide, Nat.le_of_not_lt hLong⟩
  | records header =>
    have hFront : 0 < header.recordHeaderSize := by
      rw [FileHeader.recordHeaderSize]
      split <;> decide
    simp only [next] at h
    split at h
    · cases h
    · next hLong =>
      cases h
      exact ⟨Nat.add_pos_left hFront _, Nat.le_of_not_lt hLong⟩

def reader : Capture.Reader where
  Mode := Place
  start bs :=
    match FileHeader.ofBytes? bs with
    | none => .error (.source .legacyHeader)
    | some h => .ok (.fileHeader h)
  next := next
  size_spec := size_of_next

end LegacyCapture

end LidarSweep
