import LidarSweep.Capture.Legacy
import LidarSweep.Proofs.Bytes

/-!
# Captures in little order, written and read

What a reader owes to a capture in the legacy format: it opens the capture by its file header, finds
each whole record with its data, and nothing in a record that is cut off.  The reader of this
library pays it (`LegacyCapture.reader_readsLegacy`).
-/

namespace LidarSweep

open Bytes

namespace LegacyCapture

/-! ### What is written -/

/-- A file header in little order. -/
structure LittleHeader where
  /-- Whether times are in nano- instead of microseconds -/
  nanoseconds : Bool
  zone : UInt32
  accuracy : UInt32
  snapLength : UInt32
  link : UInt32
  deriving Inhabited

namespace LittleHeader

def magic (h : LittleHeader) : Nat := if h.nanoseconds then 0xa1b23c4d else 0xa1b2c3d4

/-- The version is 2.4. -/
def encode (h : LittleHeader) : List UInt8 :=
  ofLittle 4 h.magic ++ ofLittle 2 2 ++ ofLittle 2 4 ++ ofLittle 4 h.zone.toNat
    ++ ofLittle 4 h.accuracy.toNat ++ ofLittle 4 h.snapLength.toNat ++ ofLittle 4 h.link.toNat

@[simp] theorem length_encode (h : LittleHeader) : h.encode.length = FileHeader.size := by
  simp [encode, FileHeader.size]

theorem ofBytes?_encode_append (h : LittleHeader) (rest : List UInt8) :
    FileHeader.ofBytes? (h.encode ++ rest) = some ⟨false, false⟩ := by
  have hLong : ¬ (h.encode ++ rest).length < FileHeader.size := by simp
  have hMagic : little (slice (h.encode ++ rest) 0 4) = h.magic := by
    have hSlice : slice (h.encode ++ rest) 0 4 = ofLittle 4 h.magic := rfl
    rw [hSlice, little_ofLittle]
    unfold magic
    split <;> decide
  rw [FileHeader.ofBytes?, if_neg hLong, hMagic, magic]
  cases h.nanoseconds <;> rfl

end LittleHeader

/-- What was captured at one time. -/
structure Record where
  seconds : UInt32
  /-- Micro- or nanoseconds -/
  fraction : UInt32
  /-- Bytes that were sent, of which some may be missing in the data -/
  sent : UInt32
  data : List UInt8
  length_data : data.length < UInt32.size

namespace Record

variable (record : Record)

def header : List UInt8 :=
  ofLittle 4 record.seconds.toNat ++ ofLittle 4 record.fraction.toNat
    ++ ofLittle 4 record.data.length ++ ofLittle 4 record.sent.toNat

def encode : List UInt8 := record.header ++ record.data

@[simp] theorem length_header : record.header.length = 16 := by simp [header]

theorem length_encode : record.encode.length = 16 + record.data.length := by simp [encode]

/-- A record's header says how many bytes of data belong behind it. -/
theorem size_header_append (bs : List UInt8) :
    little (slice (record.header ++ bs) 8 4) = record.data.length := by
  have hSlice : slice (record.header ++ bs) 8 4 = ofLittle 4 record.data.length := rfl
  rw [hSlice, little_ofLittle record.length_data]

/-- What is found behind a record's header, if its data are there or not. -/
theorem next_header_append (bs : List UInt8) :
    next (.records ⟨false, false⟩) (record.header ++ bs) =
      if bs.length < record.data.length then .finished
      else .block (16 + record.data.length) (some (bs.take record.data.length))
        (.records ⟨false, false⟩) := by
  have hSize : ordered false (slice (record.header ++ bs) 8 4) = record.data.length :=
    record.size_header_append bs
  have hFront : FileHeader.recordHeaderSize ⟨false, false⟩ = 16 := rfl
  have hFew : (record.header ++ bs).length < 16 + record.data.length ↔
      bs.length < record.data.length := by
    rw [List.length_append, length_header]
    omega
  have hData : slice (record.header ++ bs) 16 record.data.length = bs.take record.data.length := by
    rw [slice, List.drop_left' record.length_header]
  simp only [next, hFront, hSize, hFew, hData]

end Record

end LegacyCapture

/-! ### What a reader owes -/

namespace Capture.Reader

open LegacyCapture

/-- From here on a reader finds records in little order, and stops at one that is cut off. -/
structure ReadsRecords (r : Reader) (mode : r.Mode) : Prop where
  whole (record : Record) (rest : List UInt8) :
    r.next mode (record.encode ++ rest) =
      .block record.encode.length (some record.data) mode
  cut (record : Record) {n : Nat} (hCut : n < record.encode.length) :
    r.next mode (record.encode.take n) = .finished

/-- A reader opens captures in little order, and reads the records behind the file header. -/
def ReadsLegacy (r : Reader) : Prop :=
  ∀ (h : LittleHeader) (rest : List UInt8), ∃ mode mode',
    r.start (h.encode ++ rest) = .ok mode ∧
      r.next mode (h.encode ++ rest) = .block FileHeader.size none mode' ∧ r.ReadsRecords mode'

end Capture.Reader

namespace LegacyCapture

theorem next_encode_append (record : Record) (rest : List UInt8) :
    next (.records ⟨false, false⟩) (record.encode ++ rest) =
      .block record.encode.length (some record.data) (.records ⟨false, false⟩) := by
  have hEnough : ¬ (record.data ++ rest).length < record.data.length := by simp
  rw [Record.encode, List.append_assoc, record.next_header_append, if_neg hEnough, List.take_left,
    List.length_append, record.length_header]

theorem next_take_encode (record : Record) {n : Nat} (hCut : n < record.encode.length) :
    next (.records ⟨false, false⟩) (record.encode.take n) = .finished := by
  rw [record.length_encode] at hCut
  by_cases hHeader : n < 16
  · -- The record's header itself is cut off.
    have hShort : (record.encode.take n).length < 16 := by
      rw [List.length_take]
      omega
    exact if_pos (Nat.lt_of_lt_of_le hShort (Nat.le_add_right _ _))
  · have hSplit : record.encode.take n = record.header ++ record.data.take (n - 16) := by
      rw [Record.encode, List.take_append, record.length_header,
        List.take_of_length_le (by rw [record.length_header]; omega)]
    have hFew : (record.data.take (n - 16)).length < record.data.length := by
      rw [List.length_take]
      omega
    rw [hSplit, record.next_header_append, if_pos hFew]

theorem reader_readsLegacy : reader.ReadsLegacy := by
  intro h rest
  have hStart : reader.start (h.encode ++ rest) = .ok (.fileHeader ⟨false, false⟩) := by
    simp only [reader, h.ofBytes?_encode_append rest]
  have hLong : ¬ (h.encode ++ rest).length < FileHeader.size := by simp
  have hHeader : next (.fileHeader ⟨false, false⟩) (h.encode ++ rest) =
      .block FileHeader.size none (.records ⟨false, false⟩) := by
    rw [next, if_neg hLong]
  exact ⟨_, _, hStart, hHeader, next_encode_append, next_take_encode⟩

end LegacyCapture

end LidarSweep
