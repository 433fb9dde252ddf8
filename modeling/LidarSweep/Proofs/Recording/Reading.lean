import LidarSweep.Proofs.Recording.Cut

/-!
# Reading any bytes as a recording

Whatever the bytes are, reading them comes to an end, and what it answers says what they were.

One round of reading (`Record.round`) finds the bytes cut off within a record, a header with the
code of no format, or a record and what is behind it.  In the last case the bytes are those that
the record is written as (`Record.round_spec`), so any bytes are records one behind another and a
tail at which the next round stops (`Record.exists_split`).  The tail alone decides whether the
records are given out or the code is complained about.
-/

namespace LidarSweep

open Bytes

theorem Format.code_of_ofCode? {code : UInt8} {format : Format}
    (h : Format.ofCode? code = some format) : format.code = code := by
  unfold Format.ofCode? at h
  split at h <;> cases h <;> rfl

namespace Record

variable {bs : List UInt8}

/-! ### One round -/

/-- The format code in the header that `bs` begins with. -/
def codeAt (bs : List UInt8) : UInt8 := bs.getD 24 0

/-- How many bytes of data that header announces. -/
def declared (bs : List UInt8) : Nat := little (slice bs 25 4)

/-- The bytes end within a header, or before as much data as a good header announces. -/
def IsCut (bs : List UInt8) : Prop :=
  bs.length < headerSize ∨
    headerSize ≤ bs.length ∧ (Format.ofCode? (codeAt bs)).isSome ∧
      bs.length < headerSize + declared bs

/-- The bytes begin with a header that has the code of no format, whatever is behind it. -/
def IsForeign (bs : List UInt8) : Prop :=
  headerSize ≤ bs.length ∧ Format.ofCode? (codeAt bs) = none

/-- The record that `bs` begins with, of a known format. -/
def front (format : Format) (bs : List UInt8) : Record where
  sequence := little (slice bs 0 8)
  deviceUs := little (slice bs 8 8)
  globalUs := little (slice bs 16 8)
  format := format
  data := slice bs headerSize (declared bs)

/-- What one round of reading finds. -/
inductive Round where
  | cut
  | foreign (code : UInt8)
  | whole (r : Record) (rest : List UInt8)

def round (bs : List UInt8) : Round :=
  if bs.length < headerSize then .cut
  else
    match Format.ofCode? (codeAt bs) with
    | none => .foreign (codeAt bs)
    | some format =>
      if bs.length < headerSize + declared bs then .cut
      else .whole (front format bs) (bs.drop (headerSize + declared bs))

/-- Reading goes on after a round only if it found a whole record. -/
theorem readAll_eq (bs : List UInt8) :
    readAll bs = match round bs with
      | .cut => .ok []
      | .foreign code => .error (.invalidPacket (.unknownFormatCode code))
      | .whole r rest => (readAll rest).map (r :: ·) := by
  rw [readAll, round]
  by_cases hShort : bs.length < headerSize
  · rw [dif_pos hShort, if_pos hShort]
  · rw [dif_neg hShort, if_neg hShort]
    change (match Format.ofCode? (codeAt bs) with
      | none => _
      | some format => _) = _
    cases Format.ofCode? (codeAt bs) with
    | none => rfl
    | some format =>
      have hFew : (bs.drop headerSize).length < declared bs ↔
          bs.length < headerSize + declared bs := by
        rw [List.length_drop]
        omega
      by_cases hCut : bs.length < headerSize + declared bs
      · simp only [if_pos hCut]
        exact if_pos (hFew.mpr hCut)
      · simp only [if_neg hCut]
        rw [← List.drop_drop]
        exact if_neg (mt hFew.mp hCut)

/-! ### A record that was read, written again -/

section
variable {format : Format} (hEnough : headerSize + declared bs ≤ bs.length)
include hEnough

theorem length_data_front : (front format bs).data.length = declared bs := length_slice hEnough

theorem fits_front : (front format bs).Fits := by
  have hData : (front format bs).data.length < UInt32.size := by
    rw [length_data_front hEnough]
    apply little_slice_lt
    rw [headerSize] at hEnough
    omega
  rw [headerSize] at hEnough
  exact ⟨little_slice_lt (by omega), little_slice_lt (by omega), little_slice_lt (by omega), hData⟩

/-- The fields lie side by side, so written one behind another they are the front of the bytes. -/
theorem encode_front_append (hFormat : Format.ofCode? (codeAt bs) = some format) :
    (front format bs).encode ++ bs.drop (headerSize + declared bs) = bs := by
  have hLength : (front format bs).data.length = declared bs := length_data_front hEnough
  rw [headerSize] at hEnough
  have hLong : 24 < bs.length := by omega
  have hSequence : ofLittle 8 (front format bs).sequence = slice bs 0 8 :=
    ofLittle_slice (by omega)
  have hDevice : ofLittle 8 (front format bs).deviceUs = slice bs 8 8 := ofLittle_slice (by omega)
  have hGlobal : ofLittle 8 (front format bs).globalUs = slice bs 16 8 := ofLittle_slice (by omega)
  have hCode : [format.code] = slice bs 24 1 := by
    rw [Format.code_of_ofCode? hFormat, slice_one hLong, codeAt, ← List.getElem_eq_getD 0]
  have hSize : ofLittle 4 (front format bs).data.length = slice bs 25 4 := by
    rw [hLength]
    exact ofLittle_slice (by omega)
  have hBytes : (front format bs).encode = bs.take (headerSize + declared bs) := calc
    (front format bs).encode
      = slice bs 0 8 ++ slice bs 8 8 ++ slice bs 16 8 ++ slice bs 24 1 ++ slice bs 25 4
          ++ slice bs 29 (declared bs) := by
        rw [encode, hSequence, hDevice, hGlobal, hSize, ← hCode]
        rfl
    _ = slice bs 0 (29 + declared bs) := by
        rw [slice_append_slice bs rfl, slice_append_slice bs rfl, slice_append_slice bs rfl,
          slice_append_slice bs rfl, slice_append_slice bs rfl]
  rw [hBytes, List.take_append_drop]

end

/-- What the bytes are, by what a round finds in them. -/
theorem round_spec (bs : List UInt8) :
    match round bs with
    | .cut => IsCut bs
    | .foreign code => IsForeign bs ∧ codeAt bs = code
    | .whole r rest => r.Fits ∧ r.encode ++ rest = bs := by
  rw [round]
  by_cases hShort : bs.length < headerSize
  · rw [if_pos hShort]
    exact .inl hShort
  have hLong : headerSize ≤ bs.length := Nat.le_of_not_lt hShort
  rw [if_neg hShort]
  cases hFormat : Format.ofCode? (codeAt bs) with
  | none => exact ⟨⟨hLong, hFormat⟩, rfl⟩
  | some format =>
    by_cases hFew : bs.length < headerSize + declared bs
    · simp only [if_pos hFew]
      exact .inr ⟨hLong, Option.isSome_iff_exists.mpr ⟨format, hFormat⟩, hFew⟩
    · have hEnough : headerSize + declared bs ≤ bs.length := Nat.le_of_not_lt hFew
      simp only [if_neg hFew]
      exact ⟨fits_front hEnough, encode_front_append hEnough hFormat⟩

/-! ### Round after round -/

theorem readAll_of_isCut (h : IsCut bs) : readAll bs = .ok [] := by
  have hRound : round bs = .cut := by
    rw [round]
    rcases h with hShort | ⟨hLong, hKnown, hFew⟩
    · exact if_pos hShort
    · obtain ⟨format, hFormat⟩ := Option.isSome_iff_exists.mp hKnown
      rw [if_neg (Nat.not_lt.mpr hLong), hFormat]
      exact if_pos hFew
  rw [readAll_eq, hRound]

theorem readAll_of_isForeign (h : IsForeign bs) :
    readAll bs = .error (.invalidPacket (.unknownFormatCode (codeAt bs))) := by
  have hRound : round bs = .foreign (codeAt bs) := by
    rw [round, if_neg (Nat.not_lt.mpr h.1), h.2]
  rw [readAll_eq, hRound]

theorem readAll_flatMap_append {records : List Record} (hFits : ∀ r ∈ records, r.Fits)
    (tail : List UInt8) :
    readAll (records.flatMap encode ++ tail) = (readAll tail).map (records ++ ·) := by
  induction records with
  | nil => cases h : readAll tail <;> simp [h, Except.map]
  | cons r records ih =>
    have hLater := ih fun r hr => hFits r (List.mem_cons_of_mem _ hr)
    rw [List.flatMap_cons, List.append_assoc, readAll_encode_append (hFits r List.mem_cons_self),
      hLater]
    cases readAll tail <;> rfl

/-- Any bytes are whole records and a tail at which reading stops. -/
theorem exists_split (bs : List UInt8) :
    ∃ (records : List Record) (tail : List UInt8), (∀ r ∈ records, r.Fits) ∧
      records.flatMap encode ++ tail = bs ∧ (IsCut tail ∨ IsForeign tail) := by
  induction hLength : bs.length using Nat.strongRecOn generalizing bs with
  | ind length ih =>
    have hSpec := round_spec bs
    cases hRound : round bs with
    | cut =>
      rw [hRound] at hSpec
      exact ⟨[], bs, by simp, rfl, .inl hSpec⟩
    | foreign code =>
      rw [hRound] at hSpec
      exact ⟨[], bs, by simp, rfl, .inr hSpec.1⟩
    | whole r rest =>
      rw [hRound] at hSpec
      obtain ⟨hFirst, hBytes⟩ := hSpec
      have hShorter : rest.length < length := by
        rw [← hLength, ← hBytes, List.length_append, length_encode, headerSize]
        omega
      obtain ⟨records, tail, hFits, hRest, hTail⟩ := ih rest.length hShorter rest rfl
      refine ⟨r :: records, tail, List.forall_mem_cons.mpr ⟨hFirst, hFits⟩, ?_, hTail⟩
      rw [List.flatMap_cons, List.append_assoc, hRest, hBytes]

/-- What reading answers after at most so many rounds, if it is over by then. -/
def readFor : Nat → List UInt8 → Option (Except Error (List Record))
  | 0, _ => none
  | rounds + 1, bs =>
    match round bs with
    | .cut => some (.ok [])
    | .foreign code => some (.error (.invalidPacket (.unknownFormatCode code)))
    | .whole r rest => (readFor rounds rest).map (·.map (r :: ·))

/-- Every round but the last takes at least a header from the bytes. -/
theorem readFor_eq {rounds : Nat} (h : bs.length / headerSize < rounds) :
    readFor rounds bs = some (readAll bs) := by
  induction rounds generalizing bs with
  | zero => exact absurd h (Nat.not_lt_zero _)
  | succ rounds ih =>
    have hSpec := round_spec bs
    rw [readFor, readAll_eq]
    cases hRound : round bs with
    | cut => rfl
    | foreign code => rfl
    | whole r rest =>
      rw [hRound] at hSpec
      have hShorter : rest.length + headerSize ≤ bs.length := by
        rw [← hSpec.2, List.length_append, length_encode]
        omega
      have hFewer : rest.length / headerSize < rounds := by
        rw [headerSize] at *
        omega
      simp only [ih hFewer, Option.map_some]

end Record

namespace Recording

/-! ### Letters and records -/

variable {bs : List UInt8} {records : List Record} {tail : List UInt8}

theorem decode_of_short (h : bs.length < magic.length) :
    decode bs = .error (.io "failed to fill whole buffer") := if_pos h

theorem decode_of_other_letters (hLong : magic.length ≤ bs.length)
    (h : bs.take magic.length ≠ magic) :
    decode bs = .error (.invalidPacket (.notRecording (bs.take magic.length))) := by
  rw [decode, if_neg (Nat.not_lt.mpr hLong), if_pos h]

theorem decode_encode_append (hFits : ∀ r ∈ records, r.Fits) (tail : List UInt8) :
    decode (encode records ++ tail) = (Record.readAll tail).map (records ++ ·) := by
  rw [encode, List.append_assoc, decode_magic_append, Record.readAll_flatMap_append hFits]

theorem decode_of_isCut (hFits : ∀ r ∈ records, r.Fits) (h : Record.IsCut tail) :
    decode (encode records ++ tail) = .ok records := by
  rw [decode_encode_append hFits, Record.readAll_of_isCut h, Except.map, List.append_nil]

theorem decode_of_isForeign (hFits : ∀ r ∈ records, r.Fits) (h : Record.IsForeign tail) :
    decode (encode records ++ tail) =
      .error (.invalidPacket (.unknownFormatCode (Record.codeAt tail))) := by
  rw [decode_encode_append hFits, Record.readAll_of_isForeign h, Except.map]

/-- Other letters than those of a recording, or a record of no known format behind whole ones. -/
def IsInvalid (bs : List UInt8) : Prop :=
  bs.take magic.length ≠ magic ∨
    ∃ records tail, (∀ r ∈ records, Record.Fits r) ∧ encode records ++ tail = bs ∧
      Record.IsForeign tail

theorem length_le_of_encode_append (h : encode records ++ tail = bs) :
    magic.length ≤ bs.length := by
  rw [← h, encode, List.append_assoc, List.length_append]
  exact Nat.le_add_right _ _

/-- What bytes there are to read. -/
theorem cases_of_bytes (bs : List UInt8) :
    bs.length < magic.length ∨ (magic.length ≤ bs.length ∧ IsInvalid bs) ∨
      ∃ records tail, (∀ r ∈ records, Record.Fits r) ∧ encode records ++ tail = bs ∧
        Record.IsCut tail := by
  rcases Nat.lt_or_ge bs.length magic.length with hShort | hLong
  · exact .inl hShort
  by_cases hLetters : bs.take magic.length = magic
  · obtain ⟨records, tail, hFits, hSplit, hTail⟩ := Record.exists_split (bs.drop magic.length)
    have hBytes : encode records ++ tail = bs := by
      rw [encode, List.append_assoc, hSplit, ← hLetters, List.length_take_of_le hLong,
        List.take_append_drop]
    rcases hTail with hCut | hForeign
    · exact .inr (.inr ⟨records, tail, hFits, hBytes, hCut⟩)
    · exact .inr (.inl ⟨hLong, .inr ⟨records, tail, hFits, hBytes, hForeign⟩⟩)
  · exact .inr (.inl ⟨hLong, .inl hLetters⟩)

theorem decode_of_isInvalid (hLong : magic.length ≤ bs.length) (h : IsInvalid bs) :
    ∃ fault, decode bs = .error (.invalidPacket fault) := by
  rcases h with hLetters | ⟨records, tail, hFits, rfl, hForeign⟩
  · exact ⟨_, decode_of_other_letters hLong hLetters⟩
  · exact ⟨_, decode_of_isForeign hFits hForeign⟩

theorem io_iff (bs : List UInt8) :
    (∃ reason, decode bs = .error (.io reason)) ↔ bs.length < magic.length := by
  constructor
  · rintro ⟨reason, hIo⟩
    obtain hShort | ⟨hLong, hInvalid⟩ | ⟨records, tail, hFits, rfl, hCut⟩ := cases_of_bytes bs
    · exact hShort
    · obtain ⟨fault, hFault⟩ := decode_of_isInvalid hLong hInvalid
      rw [hFault] at hIo
      cases hIo
    · rw [decode_of_isCut hFits hCut] at hIo
      cases hIo
  · intro hShort
    exact ⟨_, decode_of_short hShort⟩

theorem invalidPacket_iff (bs : List UInt8) :
    (∃ fault, decode bs = .error (.invalidPacket fault)) ↔
      magic.length ≤ bs.length ∧ IsInvalid bs := by
  constructor
  · rintro ⟨fault, hFault⟩
    obtain hShort | hInvalid | ⟨records, tail, hFits, rfl, hCut⟩ := cases_of_bytes bs
    · rw [decode_of_short hShort] at hFault
      cases hFault
    · exact hInvalid
    · rw [decode_of_isCut hFits hCut] at hFault
      cases hFault
  · rintro ⟨hLong, hInvalid⟩
    exact decode_of_isInvalid hLong hInvalid

theorem ok_iff (bs : List UInt8) (records : List Record) :
    decode bs = .ok records ↔
      (∀ r ∈ records, r.Fits) ∧ ∃ tail, encode records ++ tail = bs ∧ Record.IsCut tail := by
  constructor
  · intro hOk
    obtain hShort | ⟨hLong, hInvalid⟩ | ⟨whole, tail, hFits, rfl, hCut⟩ := cases_of_bytes bs
    · rw [decode_of_short hShort] at hOk
      cases hOk
    · obtain ⟨fault, hFault⟩ := decode_of_isInvalid hLong hInvalid
      rw [hFault] at hOk
      cases hOk
    · rw [decode_of_isCut hFits hCut] at hOk
      cases hOk
      exact ⟨hFits, tail, rfl, hCut⟩
  · rintro ⟨hFits, tail, rfl, hCut⟩
    exact decode_of_isCut hFits hCut

theorem accepted_iff (bs : List UInt8) :
    (∃ records, decode bs = .ok records) ↔ magic.length ≤ bs.length ∧ ¬ IsInvalid bs := by
  constructor
  · rintro ⟨records, hOk⟩
    obtain ⟨-, tail, hBytes, -⟩ := (ok_iff bs records).mp hOk
    have hLong := length_le_of_encode_append hBytes
    refine ⟨hLong, fun hInvalid => ?_⟩
    obtain ⟨fault, hFault⟩ := decode_of_isInvalid hLong hInvalid
    rw [hFault] at hOk
    cases hOk
  · rintro ⟨hLong, hValid⟩
    obtain hShort | ⟨-, hInvalid⟩ | ⟨records, tail, hFits, rfl, hCut⟩ := cases_of_bytes bs
    · exact absurd hLong (Nat.not_le.mpr hShort)
    · exact absurd hInvalid hValid
    · exact ⟨records, decode_of_isCut hFits hCut⟩

/-- What `decode` answers if it may read at most so many records, if it is over by then. -/
def decodeFor (rounds : Nat) (bs : List UInt8) : Option (Except Error (List Record)) :=
  if bs.length < magic.length then some (.error (.io "failed to fill whole buffer"))
  else if bs.take magic.length ≠ magic then
    some (.error (.invalidPacket (.notRecording (bs.take magic.length))))
  else Record.readFor rounds (bs.drop magic.length)

theorem decodeFor_eq {rounds : Nat} (h : bs.length / Record.headerSize < rounds) :
    decodeFor rounds bs = some (decode bs) := by
  have hBehind : (bs.drop magic.length).length / Record.headerSize < rounds := by
    rw [List.length_drop]
    exact Nat.lt_of_le_of_lt (Nat.div_le_div_right (Nat.sub_le _ _)) h
  rw [decodeFor, decode, Record.readFor_eq hBehind]
  split
  · rfl
  · split <;> rfl

/-- **Reading any bytes.**  Too few for the letters are an I/O error, and other letters or a record
of no known format are an invalid packet, even if its data are missing.  All other bytes are
accepted: they are what the records given out are written as, and a tail too short for one more.
Either way reading is over after one round more than there is room for headers. -/
theorem decode_any (bs : List UInt8) :
    ((∃ reason, decode bs = .error (.io reason)) ↔ bs.length < magic.length) ∧
      ((∃ fault, decode bs = .error (.invalidPacket fault)) ↔
        magic.length ≤ bs.length ∧ IsInvalid bs) ∧
      ((∃ records, decode bs = .ok records) ↔ magic.length ≤ bs.length ∧ ¬ IsInvalid bs) ∧
      (∀ records, decode bs = .ok records ↔
        (∀ r ∈ records, r.Fits) ∧ ∃ tail, encode records ++ tail = bs ∧ Record.IsCut tail) ∧
      ∀ more, decodeFor (bs.length / Record.headerSize + 1 + more) bs = some (decode bs) := by
  refine ⟨io_iff bs, invalidPacket_iff bs, accepted_iff bs, ok_iff bs, fun more => ?_⟩
  apply decodeFor_eq
  omega

/-- Data that a header announces may be missing, but the code is complained about. -/
example :
    decodeFor 2 (encode [.ofFrame (sample 1 [7])] ++ List.replicate 24 0 ++ [0x77, 9, 0, 0, 0]) =
      some (.error (.invalidPacket (.unknownFormatCode 0x77))) := rfl

end Recording

end LidarSweep
