import LidarSweep.Proofs.Bytes
import LidarSweep.Recording

/-!
# Reading a recording that was cut off

A recording of frames is read back whole, and cut anywhere behind its letters it gives the frames
whose records were not cut into.

A record's header says by itself how many bytes of data belong behind it, so one lemma reads a
header and whatever stands behind it (`Record.readAll_header_append`): too few bytes end the
recording, and otherwise reading goes on behind the data.  The rest is an induction on the records,
with the position of the next one for an offset.
-/

namespace LidarSweep

open Bytes

namespace Record

variable {r : Record}

/-! ### One record -/

/-- The numbers of a record fit the bytes that it has for them. -/
structure Fits (r : Record) : Prop where
  sequence : r.sequence < UInt64.size
  deviceUs : r.deviceUs < UInt64.size
  globalUs : r.globalUs < UInt64.size
  data : r.data.length < UInt32.size

/-- What stands before the data. -/
def header (r : Record) : List UInt8 :=
  ofLittle 8 r.sequence ++ ofLittle 8 r.deviceUs ++ ofLittle 8 r.globalUs
    ++ [r.format.code] ++ ofLittle 4 r.data.length

theorem encode_eq (r : Record) : r.encode = r.header ++ r.data := rfl

@[simp] theorem length_header (r : Record) : r.header.length = headerSize := by
  simp [header, headerSize]

theorem slice_sequence (r : Record) (bs : List UInt8) :
    slice (r.header ++ bs) 0 8 = ofLittle 8 r.sequence := by
  have h := slice_append [] (ofLittle 8 r.sequence) (ofLittle 8 r.deviceUs ++
    (ofLittle 8 r.globalUs ++ (r.format.code :: (ofLittle 4 r.data.length ++ bs))))
  simpa [header] using h

theorem slice_deviceUs (r : Record) (bs : List UInt8) :
    slice (r.header ++ bs) 8 8 = ofLittle 8 r.deviceUs := by
  have h := slice_append (ofLittle 8 r.sequence) (ofLittle 8 r.deviceUs)
    (ofLittle 8 r.globalUs ++ (r.format.code :: (ofLittle 4 r.data.length ++ bs)))
  simpa [header] using h

theorem slice_globalUs (r : Record) (bs : List UInt8) :
    slice (r.header ++ bs) 16 8 = ofLittle 8 r.globalUs := by
  have h := slice_append (ofLittle 8 r.sequence ++ ofLittle 8 r.deviceUs) (ofLittle 8 r.globalUs)
    (r.format.code :: (ofLittle 4 r.data.length ++ bs))
  simpa [header] using h

theorem slice_size (r : Record) (bs : List UInt8) :
    slice (r.header ++ bs) 25 4 = ofLittle 4 r.data.length := by
  have h := slice_append (ofLittle 8 r.sequence ++ ofLittle 8 r.deviceUs ++
    ofLittle 8 r.globalUs ++ [r.format.code]) (ofLittle 4 r.data.length) bs
  simpa [header] using h

theorem getD_format (r : Record) (bs : List UInt8) :
    (r.header ++ bs).getD 24 0 = r.format.code := by
  have hBefore : (ofLittle 8 r.sequence ++ ofLittle 8 r.deviceUs ++
      ofLittle 8 r.globalUs).length = 24 := by
    simp
  have h : ((ofLittle 8 r.sequence ++ ofLittle 8 r.deviceUs ++ ofLittle 8 r.globalUs) ++
      (r.format.code :: (ofLittle 4 r.data.length ++ bs)))[24]? = some r.format.code := by
    rw [List.getElem?_append_right (by omega), hBefore]
    rfl
  have hSame : r.header ++ bs =
      (ofLittle 8 r.sequence ++ ofLittle 8 r.deviceUs ++ ofLittle 8 r.globalUs) ++
        (r.format.code :: (ofLittle 4 r.data.length ++ bs)) := by
    simp [header]
  rw [hSame, List.getD_eq_getElem?_getD, h, Option.getD_some]

/-- **A header says what belongs behind it.**  With fewer bytes than that the recording ends before
the record, and otherwise the record is read and what is behind its data comes next. -/
theorem readAll_header_append (hFits : r.Fits) (bs : List UInt8) :
    readAll (r.header ++ bs) =
      if bs.length < r.data.length then .ok []
      else (readAll (bs.drop r.data.length)).map
        ({ r with data := bs.take r.data.length } :: ·) := by
  have hLong : ¬ (r.header ++ bs).length < headerSize := by
    simp
  have hSequence : little (ofLittle 8 r.sequence) = r.sequence := little_ofLittle hFits.sequence
  have hDevice : little (ofLittle 8 r.deviceUs) = r.deviceUs := little_ofLittle hFits.deviceUs
  have hGlobal : little (ofLittle 8 r.globalUs) = r.globalUs := little_ofLittle hFits.globalUs
  have hSize : little (ofLittle 4 r.data.length) = r.data.length := little_ofLittle hFits.data
  have hBody : (r.header ++ bs).drop headerSize = bs :=
    List.drop_left' r.length_header
  rw [readAll, dif_neg hLong]
  simp only [getD_format, Format.ofCode?_code, slice_size, slice_sequence, slice_deviceUs,
    slice_globalUs, hSequence, hDevice, hGlobal, hSize, hBody]

/-- A whole record is read, and then what is behind it. -/
theorem readAll_encode_append (hFits : r.Fits) (bs : List UInt8) :
    readAll (r.encode ++ bs) = (readAll bs).map (r :: ·) := by
  have hEnough : ¬ (r.data ++ bs).length < r.data.length := by
    simp
  rw [encode_eq, List.append_assoc, readAll_header_append hFits, if_neg hEnough, List.drop_left,
    List.take_left]

/-- A record that was cut into is left out. -/
theorem readAll_take_encode (hFits : r.Fits) {c : Nat} (hCut : c < r.encode.length) :
    readAll (r.encode.take c) = .ok [] := by
  by_cases hHeader : c < headerSize
  · have hShort : (r.encode.take c).length < headerSize := by
      simp only [List.length_take]
      omega
    rw [readAll, dif_pos hShort]
  · have hSplit : r.encode.take c = r.header ++ r.data.take (c - headerSize) := by
      rw [encode_eq, List.take_append, List.take_of_length_le (by simp; omega), length_header]
    have hFew : (r.data.take (c - headerSize)).length < r.data.length := by
      rw [length_encode] at hCut
      rw [List.length_take]
      omega
    rw [hSplit, readAll_header_append hFits, if_pos hFew]

end Record

namespace Recording

/-! ### Record after record -/

/-- Each record with the position behind its last byte, the first one written from `start` on. -/
def layout : Nat → List Record → List (Record × Nat)
  | _, [] => []
  | start, r :: records =>
    (r, start + r.encode.length) :: layout (start + r.encode.length) records

/-- The records that lie wholly within the first `c` bytes of their recording. -/
def wholeWithin (c : Nat) (records : List Record) : List Record :=
  ((layout magic.length records).filter (·.2 ≤ c)).map (·.1)

theorem le_of_mem_layout {start : Nat} {records : List Record} {entry : Record × Nat}
    (h : entry ∈ layout start records) : start ≤ entry.2 := by
  induction records generalizing start with
  | nil => simp [layout] at h
  | cons r records ih =>
    rcases List.mem_cons.mp h with rfl | hLater
    · exact Nat.le_add_right _ _
    · have hNext := ih hLater
      omega

theorem map_fst_layout (start : Nat) (records : List Record) :
    (layout start records).map (·.1) = records := by
  induction records generalizing start with
  | nil => rfl
  | cons r records ih => simp [layout, ih]

theorem end_le_of_mem_layout {start : Nat} {records : List Record} {entry : Record × Nat}
    (h : entry ∈ layout start records) :
    entry.2 ≤ start + (records.flatMap Record.encode).length := by
  induction records generalizing start with
  | nil => simp [layout] at h
  | cons r records ih =>
    rw [List.flatMap_cons, List.length_append]
    rcases List.mem_cons.mp h with rfl | hLater
    · simp only
      omega
    · have hNext := ih hLater
      omega

/-- The whole recording has room for all its records. -/
theorem wholeWithin_length (records : List Record) :
    wholeWithin (encode records).length records = records := by
  have hAll : (layout magic.length records).filter (·.2 ≤ (encode records).length) =
      layout magic.length records := by
    rw [List.filter_eq_self]
    intro entry hEntry
    have hEnd := end_le_of_mem_layout hEntry
    rw [encode, List.length_append]
    exact decide_eq_true hEnd
  rw [wholeWithin, hAll, map_fst_layout]

/-- Reading `c` bytes of records that were written from `start` on. -/
theorem readAll_take {records : List Record} (hFits : ∀ r ∈ records, r.Fits) (start c : Nat) :
    Record.readAll ((records.flatMap Record.encode).take c) =
      .ok (((layout start records).filter (·.2 ≤ start + c)).map (·.1)) := by
  induction records generalizing start c with
  | nil =>
    rw [List.flatMap_nil, List.take_nil, Record.readAll, dif_pos (by decide)]
    rfl
  | cons r records ih =>
    have hFirst : r.Fits := hFits r List.mem_cons_self
    rw [List.flatMap_cons, List.take_append, layout]
    by_cases hWhole : r.encode.length ≤ c
    · -- The first record is whole, and the others begin behind it.
      have hLater := ih (fun r hr => hFits r (List.mem_cons_of_mem _ hr))
        (start + r.encode.length) (c - r.encode.length)
      have hBound : start + r.encode.length + (c - r.encode.length) = start + c := by omega
      have hKept : decide (start + r.encode.length ≤ start + c) = true :=
        decide_eq_true (Nat.add_le_add_left hWhole start)
      rw [List.take_of_length_le hWhole, Record.readAll_encode_append hFirst, hLater, hBound,
        List.filter_cons, if_pos hKept, List.map_cons]
      rfl
    · -- The cut is in the first record, so nothing behind it is left.
      have hCut : c < r.encode.length := Nat.lt_of_not_le hWhole
      have hNothing : c - r.encode.length = 0 := by omega
      have hNone : ((r, start + r.encode.length) ::
          layout (start + r.encode.length) records).filter (·.2 ≤ start + c) = [] := by
        rw [List.filter_eq_nil_iff]
        intro entry hEntry hEnd
        have hEnd : entry.2 ≤ start + c := of_decide_eq_true hEnd
        rcases List.mem_cons.mp hEntry with rfl | hLater
        · simp only at hEnd
          omega
        · have hBegin := le_of_mem_layout hLater
          omega
      rw [hNothing, List.take_zero, List.append_nil, Record.readAll_take_encode hFirst hCut, hNone]
      rfl

/-- Behind the letters come the records. -/
theorem decode_magic_append (bs : List UInt8) : decode (magic ++ bs) = Record.readAll bs := by
  have hLong : ¬ (magic ++ bs).length < magic.length := by
    simp
  have hLetters : (magic ++ bs).take magic.length = magic := List.take_left
  rw [decode, if_neg hLong, hLetters, if_neg (not_not_intro rfl), List.drop_left]

/-- A frame of points for examples. -/
def sample (sequence : Nat) (data : List UInt8) : Frame where
  format := .point
  data := data
  receiptNs := 0
  sequence := sequence
  header := default
  deviceUs := 1000 * sequence
  globalUs := 1000 * sequence + 5

/-- **A recording that was cut off.**  Whatever was lost behind its letters, reading gives the
records that lie wholly within what is left, and all of them if nothing was lost. -/
theorem decode_take_encode {frames : List Frame} (hFits : ∀ f ∈ frames, (Record.ofFrame f).Fits)
    {c : Nat} (hLetters : magic.length ≤ c) :
    decode ((encode (frames.map .ofFrame)).take c) =
        .ok (wholeWithin c (frames.map .ofFrame)) ∧
      decode (encode (frames.map .ofFrame)) = .ok (frames.map .ofFrame) := by
  have hRecords : ∀ r ∈ frames.map Record.ofFrame, r.Fits := by
    intro r hr
    obtain ⟨f, hf, rfl⟩ := List.mem_map.mp hr
    exact hFits f hf
  have hCut : ∀ c, magic.length ≤ c → decode ((encode (frames.map .ofFrame)).take c) =
      .ok (wholeWithin c (frames.map .ofFrame)) := by
    intro c hLetters
    have hSplit : (encode (frames.map .ofFrame)).take c =
        magic ++ ((frames.map Record.ofFrame).flatMap Record.encode).take (c - magic.length) := by
      rw [encode, List.take_append, List.take_of_length_le hLetters]
    have hPosition : magic.length + (c - magic.length) = c := by omega
    have hRead := readAll_take hRecords magic.length (c - magic.length)
    rw [hPosition] at hRead
    rw [hSplit, decode_magic_append, hRead]
    rfl
  refine ⟨hCut c hLetters, ?_⟩
  have hWhole := hCut (encode (frames.map .ofFrame)).length (by simp [encode])
  rwa [List.take_length, wholeWithin_length] at hWhole

/-- Two frames of one byte and of none, cut within the header of the second. -/
theorem decode_take_encode_two :
    (∀ f ∈ [sample 1 [7], sample 2 []], (Record.ofFrame f).Fits) ∧ magic.length ≤ 50 ∧
      decode ((encode ([sample 1 [7], sample 2 []].map .ofFrame)).take 50) =
        .ok [.ofFrame (sample 1 [7])] := by
  have hFits : ∀ f ∈ [sample 1 [7], sample 2 []], (Record.ofFrame f).Fits := by
    intro f hf
    simp only [List.mem_cons, List.not_mem_nil, or_false] at hf
    obtain rfl | rfl := hf <;> exact ⟨by decide, by decide, by decide, by decide⟩
  exact ⟨hFits, by decide, (decode_take_encode hFits (by decide)).1⟩

end Recording

end LidarSweep
