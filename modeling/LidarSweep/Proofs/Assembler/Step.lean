import LidarSweep.Assembler
import Mathlib.Tactic.Common

/-!
# What one packet does to an assembler

A byte string counts for a stream when it holds a whole packet that *suits* it: the payload length
of the geometry, both magics, the stream's format code (`Packet.Suits`, `Packet.suited?`). A byte
string that does not suit changes the counters and nothing else (`ingest_of_unsuited`), one that
does is placed (`ingest_of_suited`).

`place_of_gap`, `place_of_first` and `place_of_next` are the three ways a suited packet can go when
the assembler has the buffer that it waits with.  Whether it can be written is in the geometry, the
format and the room left (`Geometry.Admits`): `write_of_admits` and `write_of_refused` say what
comes of it, for a geometry that need not suit the format, and `write_of_room` for the one of a row,
which does.
-/

namespace LidarSweep

/-! ### Packets that suit a stream -/

/-- The payload length that the geometry asks for, both magics, and the stream's format. -/
structure Packet.Suits (p : Packet) (g : Geometry) (format : Format) : Prop where
  length : p.header.payloadSize.toNat = g.payloadSize
  front : p.header.magic = Header.validMagic
  tail : p.tail = Packet.validTail
  code : p.header.formatCode = format.code

theorem Packet.unsuited?_eq_none_iff {p : Packet} {g : Geometry} {format : Format} :
    p.unsuited? g format = none ↔ p.Suits g format := by
  simp only [Packet.unsuited?, Header.hasValidMagic, Packet.hasValidTail]
  constructor
  · intro h
    by_cases hLength : p.header.payloadSize.toNat = g.payloadSize
    · by_cases hMagic : p.header.magic = Header.validMagic ∧ p.tail = Packet.validTail
      · by_cases hCode : p.header.formatCode = format.code
        · exact ⟨hLength, hMagic.1, hMagic.2, hCode⟩
        · simp [hLength, hMagic, hCode] at h
      · have hEither : (!p.header.magic == Header.validMagic || !p.tail == Packet.validTail)
            = true := by
          by_contra hNot
          exact hMagic (by simpa using hNot)
        simp [hLength, hEither] at h
    · simp [hLength] at h
  · rintro ⟨hLength, hFront, hTail, hCode⟩
    simp [hLength, hFront, hTail, hCode]

instance (p : Packet) (g : Geometry) (format : Format) : Decidable (p.Suits g format) :=
  decidable_of_iff (p.header.payloadSize.toNat = g.payloadSize ∧
      p.header.magic = Header.validMagic ∧ p.tail = Packet.validTail ∧
      p.header.formatCode = format.code)
    ⟨fun h => ⟨h.1, h.2.1, h.2.2.1, h.2.2.2⟩, fun h => ⟨h.1, h.2, h.3, h.4⟩⟩

/-- The packet in a byte string, if it is whole and suits the stream. -/
def Packet.suited? (g : Geometry) (format : Format) (bytes : List UInt8) : Option Packet :=
  match Packet.decode bytes with
  | .ok p => if p.Suits g format then some p else none
  | .error _ => none

theorem Packet.suited?_eq_some_iff {g : Geometry} {format : Format} {bytes : List UInt8}
    {p : Packet} :
    Packet.suited? g format bytes = some p ↔ Packet.decode bytes = .ok p ∧ p.Suits g format := by
  unfold Packet.suited?
  cases hDecode : Packet.decode bytes with
  | error e => simp
  | ok q =>
    by_cases hSuits : q.Suits g format
    · simp only [if_pos hSuits, Option.some.injEq, Except.ok.injEq]
      exact ⟨fun h => ⟨h, h ▸ hSuits⟩, And.left⟩
    · simp only [if_neg hSuits, Except.ok.injEq, reduceCtorEq, false_iff]
      rintro ⟨rfl, h⟩
      exact hSuits h

/-- A reason that has nothing to do with the place of a packet in its sweep. -/
def Drop.IsApart : Drop → Prop
  | .malformed _ | .length .. | .magic .. | .format .. => True
  | .sequence .. | .orphan _ | .overflow .. => False

theorem Packet.isApart_of_unsuited? {p : Packet} {g : Geometry} {format : Format} {reason : Drop}
    (h : p.unsuited? g format = some reason) : reason.IsApart := by
  simp only [Packet.unsuited?] at h
  split_ifs at h <;> (obtain rfl := Option.some.inj h; trivial)

theorem Packet.length_payload_of_suited {g : Geometry} {format : Format} {bytes : List UInt8}
    {p : Packet} (h : Packet.suited? g format bytes = some p) :
    p.payload.length = g.payloadSize := by
  obtain ⟨hDecode, hSuits⟩ := Packet.suited?_eq_some_iff.mp h
  exact (Packet.length_payload_of_decode hDecode).trans hSuits.length

namespace Assembler

/-! ### One packet -/

/-- The assembler with one more packet counted. -/
def counted (a : Assembler) : Assembler :=
  { a with stats := { a.stats with packets := a.stats.packets + 1 } }

theorem ingest_of_unsuited {a : Assembler} {bytes : List UInt8}
    (h : Packet.suited? a.geometry a.format bytes = none) (now : Nat) :
    ∃ reason, reason.IsApart ∧
      a.ingest now bytes = (a.counted.drop reason, { verdict := .dropped reason }) := by
  unfold ingest
  cases hDecode : Packet.decode bytes with
  | error e => exact ⟨.malformed e, trivial, rfl⟩
  | ok p =>
    cases hReason : p.unsuited? a.geometry a.format with
    | some reason =>
      exact ⟨reason, Packet.isApart_of_unsuited? hReason, by simp only [hReason]; rfl⟩
    | none =>
      have hSuited := Packet.suited?_eq_some_iff.mpr
        ⟨hDecode, Packet.unsuited?_eq_none_iff.mp hReason⟩
      rw [h] at hSuited
      exact absurd hSuited (by simp)

theorem ingest_of_suited {a : Assembler} {bytes : List UInt8} {p : Packet}
    (h : Packet.suited? a.geometry a.format bytes = some p) (now : Nat) :
    a.ingest now bytes = a.counted.place now p := by
  obtain ⟨hDecode, hSuits⟩ := Packet.suited?_eq_some_iff.mp h
  unfold ingest
  simp only [hDecode, Packet.unsuited?_eq_none_iff.mpr hSuits]
  rfl

/-! ### Where a suited packet goes -/

theorem place_of_gap {a : Assembler} {p : Packet} (hNext : p.header.block ≠ a.expected)
    (hFirst : p.header.block ≠ 1) (now : Nat) :
    a.place now p =
      ({ a.drop (.sequence p.header.block p.header.sweep a.expected) with expected := 1 },
        { verdict := .dropped (.sequence p.header.block p.header.sweep a.expected) }) := by
  simp only [place, if_pos (And.intro hNext hFirst)]

theorem place_of_first {a : Assembler} {p : Packet} (hFirst : p.header.block = 1) (now : Nat) :
    ∃ stats discarded, a.place now p =
      ((write { a with stats } (.ofCapacity a.geometry.frameSize) now p).1,
        { discarded,
          verdict := (write { a with stats } (.ofCapacity a.geometry.frameSize) now p).2 }) := by
  simp only [place, hFirst, ne_eq, not_true_eq_false, and_false, if_false, if_true]
  exact ⟨_, _, rfl⟩

/-- A first block while there is nothing to throw away. -/
theorem place_of_fresh {a : Assembler} {p : Packet} (hFirst : p.header.block = 1)
    (hEmpty : a.offset = 0) (now : Nat) :
    a.place now p = ((write a (.ofCapacity a.geometry.frameSize) now p).1,
      { verdict := (write a (.ofCapacity a.geometry.frameSize) now p).2 }) := by
  simp only [place, hFirst, hEmpty, ne_eq, not_true_eq_false, and_false, if_false, if_true]
  rfl

theorem place_of_next {a : Assembler} {p : Packet} {buffer : FrameBuffer}
    (hNext : p.header.block = a.expected) (hFirst : p.header.block ≠ 1)
    (hBuffer : a.buffer = some buffer) (now : Nat) :
    a.place now p = ((write a buffer now p).1, { verdict := (write a buffer now p).2 }) := by
  obtain ⟨geometry, format, expected, _, sequence, stats⟩ := a
  subst hBuffer
  simp only [place, if_neg hFirst]
  rw [if_neg (fun h => h.1 hNext)]
  rfl

theorem place_of_orphan {a : Assembler} {p : Packet} (hNext : p.header.block = a.expected)
    (hFirst : p.header.block ≠ 1) (hBuffer : a.buffer = none) (now : Nat) :
    a.place now p = ({ a.drop (.orphan p.header.block) with expected := 1 },
      { verdict := .dropped (.orphan p.header.block) }) := by
  obtain ⟨geometry, format, expected, _, sequence, stats⟩ := a
  subst hBuffer
  simp only [place, if_neg hFirst]
  rw [if_neg (fun h => h.1 hNext)]

/-- The number after that of a block which is not the last. -/
theorem toNat_next {block blocks : UInt16} (h : block.toNat < blocks.toNat) :
    (block + 1).toNat = block.toNat + 1 := by
  have hBlocks := blocks.toNat_lt
  rw [UInt16.toNat_add]
  exact Nat.mod_eq_of_lt (by simp only [UInt16.toNat_one]; omega)

/-! ### What writing comes to -/

theorem write_of_written {a : Assembler} {buffer filled : FrameBuffer} {p : Packet} {n : Nat}
    (h : buffer.writeWith a.geometry.blockOutputSize
      (a.format.convertInto p.payload a.geometry.points) = (filled, .ok n)) (now : Nat) :
    a.write buffer now p =
      if a.geometry.blocks ≤ p.header.block then
        ({ a with
           expected := 1, buffer := none, sequence := a.sequence + 1
           stats := { a.stats with frames := a.stats.frames + 1 } },
         .completed {
           format := a.format, data := filled.contents, receiptNs := now
           sequence := a.sequence, header := p.header })
      else ({ a with expected := p.header.block + 1, buffer := some filled }, .accepted) := by
  obtain ⟨geometry, format, expected, _, sequence, stats⟩ := a
  simp only [write, h, ge_iff_le]

theorem write_of_failed {a : Assembler} {buffer kept : FrameBuffer} {p : Packet} {e : Error}
    (h : buffer.writeWith a.geometry.blockOutputSize
      (a.format.convertInto p.payload a.geometry.points) = (kept, .error e)) (now : Nat) :
    a.write buffer now p =
      ({ a with buffer := some kept }.drop (.overflow p.header.block e),
        .dropped (.overflow p.header.block e)) := by
  obtain ⟨geometry, format, expected, _, sequence, stats⟩ := a
  simp only [write, h]

/-! ### Frames are numbered as they are completed -/

theorem sequence_write (a : Assembler) (buffer : FrameBuffer) (now : Nat) (p : Packet)
    (discarded : Option Discarded) :
    (a.write buffer now p).1.sequence = a.sequence +
      (Ingest.frame? ⟨discarded, (a.write buffer now p).2⟩).toList.length := by
  rcases hWrite : buffer.writeWith a.geometry.blockOutputSize
    (a.format.convertInto p.payload a.geometry.points) with ⟨filled, e | n⟩
  · rw [write_of_failed hWrite]
    rfl
  · rw [write_of_written hWrite]
    split_ifs <;> rfl

theorem sequence_place (a : Assembler) (now : Nat) (p : Packet) :
    (a.place now p).1.sequence = a.sequence + (a.place now p).2.frame?.toList.length := by
  by_cases hFirst : p.header.block = 1
  · obtain ⟨stats, discarded, hPlace⟩ := place_of_first (a := a) hFirst now
    rw [hPlace]
    exact sequence_write { a with stats } _ now p discarded
  · by_cases hNext : p.header.block = a.expected
    · cases hBuffer : a.buffer with
      | some buffer =>
        rw [place_of_next hNext hFirst hBuffer]
        exact sequence_write a buffer now p none
      | none =>
        rw [place_of_orphan hNext hFirst hBuffer]
        rfl
    · rw [place_of_gap hNext hFirst]
      rfl

theorem sequence_ingest (a : Assembler) (now : Nat) (bytes : List UInt8) :
    (a.ingest now bytes).1.sequence =
      a.sequence + (a.ingest now bytes).2.frame?.toList.length := by
  cases hSuited : Packet.suited? a.geometry a.format bytes with
  | none =>
    obtain ⟨reason, -, hIngest⟩ := ingest_of_unsuited hSuited now
    rw [hIngest]
    rfl
  | some p =>
    rw [ingest_of_suited hSuited now]
    exact sequence_place a.counted now p

/-! ### What is on a frame besides its data -/

theorem frame?_write {a : Assembler} {buffer : FrameBuffer} {now : Nat} {p : Packet}
    {discarded : Option Discarded} {frame : Frame}
    (h : Ingest.frame? ⟨discarded, (a.write buffer now p).2⟩ = some frame) :
    ∃ data, frame =
      { format := a.format, data, receiptNs := now, sequence := a.sequence,
        header := p.header } := by
  rcases hWrite : buffer.writeWith a.geometry.blockOutputSize
    (a.format.convertInto p.payload a.geometry.points) with ⟨filled, e | n⟩
  · rw [write_of_failed hWrite] at h
    cases h
  · rw [write_of_written hWrite] at h
    split_ifs at h
    · exact ⟨filled.contents, (Option.some.inj h).symm⟩
    · cases h

theorem frame?_place {a : Assembler} {now : Nat} {p : Packet} {frame : Frame}
    (h : (a.place now p).2.frame? = some frame) :
    ∃ data, frame =
      { format := a.format, data, receiptNs := now, sequence := a.sequence,
        header := p.header } := by
  by_cases hFirst : p.header.block = 1
  · obtain ⟨stats, discarded, hPlace⟩ := place_of_first (a := a) hFirst now
    rw [hPlace] at h
    exact frame?_write (a := { a with stats }) h
  · by_cases hNext : p.header.block = a.expected
    · cases hBuffer : a.buffer with
      | some buffer =>
        rw [place_of_next hNext hFirst hBuffer] at h
        exact frame?_write h
      | none =>
        rw [place_of_orphan hNext hFirst hBuffer] at h
        cases h
    · rw [place_of_gap hNext hFirst] at h
      cases h

/-- A frame has the format of the stream, the time and the header of the packet that completes it,
and the next number; nothing else is filled in yet. -/
theorem frame?_ingest {a : Assembler} {now : Nat} {bytes : List UInt8} {frame : Frame}
    (h : (a.ingest now bytes).2.frame? = some frame) :
    ∃ p data, Packet.decode bytes = .ok p ∧ frame =
      { format := a.format, data, receiptNs := now, sequence := a.sequence,
        header := p.header } := by
  cases hSuited : Packet.suited? a.geometry a.format bytes with
  | none =>
    obtain ⟨reason, -, hIngest⟩ := ingest_of_unsuited hSuited now
    rw [hIngest] at h
    cases h
  | some p =>
    rw [ingest_of_suited hSuited now] at h
    obtain ⟨data, hFrame⟩ := frame?_place h
    exact ⟨p, data, (Packet.suited?_eq_some_iff.mp hSuited).1, hFrame⟩

end Assembler

/-! ### Blocks of any geometry -/

/-- A payload of this geometry holds the points that it is to hold, they fit into the room of a
block, and that room is there. -/
structure Geometry.Admits (g : Geometry) (format : Format) (room : Nat) : Prop where
  payload : format.payloadSize g.points ≤ g.payloadSize
  points : g.points * format.layout.pointSize ≤ g.blockOutputSize
  room : g.blockOutputSize ≤ room

theorem Geometry.Admits.mono {g : Geometry} {format : Format} {room more : Nat}
    (h : g.Admits format room) (hMore : room ≤ more) : g.Admits format more :=
  ⟨h.payload, h.points, Nat.le_trans h.room hMore⟩

namespace Assembler

variable {a : Assembler} {buffer : FrameBuffer} {p : Packet}

/-- **A block that has room is taken**: its points go behind the contents, and the last block of a
sweep makes a frame of them. -/
theorem write_of_admits (hAdmits : a.geometry.Admits a.format buffer.remaining)
    (hPayload : p.payload.length = a.geometry.payloadSize) (now : Nat) :
    ∃ filled : FrameBuffer,
      filled.contents = buffer.contents ++ a.format.convertPoints p.payload a.geometry.points ∧
      filled.capacity = buffer.capacity ∧
      a.write buffer now p =
        if a.geometry.blocks ≤ p.header.block then
          ({ a with
             expected := 1, buffer := none, sequence := a.sequence + 1
             stats := { a.stats with frames := a.stats.frames + 1 } },
           .completed {
             format := a.format, data := filled.contents, receiptNs := now
             sequence := a.sequence, header := p.header })
        else ({ a with expected := p.header.block + 1, buffer := some filled }, .accepted) := by
  obtain ⟨hWires, hPoints, hRoom⟩ := hAdmits
  have hLent := FrameBuffer.length_lent hRoom
  rw [← hPayload] at hWires
  rw [← hLent] at hPoints
  have hLength := Format.length_convertPoints hWires
  obtain ⟨filled, hWrite, hContents, hCapacity⟩ := FrameBuffer.writeWith_of_ok hRoom
    (Format.convertInto_of_le hWires hPoints)
    (by rw [List.length_append, List.length_drop, hLength]; omega)
  refine ⟨filled, ?_, hCapacity, write_of_written hWrite now⟩
  rw [hContents, ← hLength, List.take_left]

/-- **A block that has no room is refused**, and the contents stay as they are. -/
theorem write_of_refused (hRefused : ¬ a.geometry.Admits a.format buffer.remaining)
    (hPayload : p.payload.length = a.geometry.payloadSize) (now : Nat) :
    ∃ (kept : FrameBuffer) (e : Error),
      kept.contents = buffer.contents ∧ kept.capacity = buffer.capacity ∧
      a.write buffer now p =
        ({ a with buffer := some kept }.drop (.overflow p.header.block e),
          .dropped (.overflow p.header.block e)) := by
  by_cases hRoom : a.geometry.blockOutputSize ≤ buffer.remaining
  · have hShort : ¬ (a.format.payloadSize a.geometry.points ≤ p.payload.length ∧
        a.geometry.points * a.format.layout.pointSize ≤
          (buffer.lent a.geometry.blockOutputSize).length) := by
      rw [hPayload, FrameBuffer.length_lent hRoom]
      exact fun h => hRefused ⟨h.1, h.2, hRoom⟩
    obtain ⟨e, hConvert⟩ := Format.convertInto_of_short hShort
    obtain ⟨kept, hWrite, hContents, hCapacity⟩ := FrameBuffer.writeWith_of_error hRoom hConvert
    exact ⟨kept, e, hContents, hCapacity, write_of_failed hWrite now⟩
  · exact ⟨buffer, _, rfl, rfl, write_of_failed (FrameBuffer.writeWith_of_full hRoom _) now⟩

end Assembler

/-! ### Blocks of a row's geometry -/

namespace GeometryRow

/-- The bytes of a block's points, as the conversion leaves them in a slice of one block. -/
def convert (row : GeometryRow) (p : Packet) : List UInt8 :=
  (row.format.convertInto p.payload row.points (List.replicate row.geometry.blockOutputSize 0)).1

variable {row : GeometryRow} {p : Packet}

theorem payloadSize_geometry (row : GeometryRow) :
    row.geometry.payloadSize = row.format.payloadSize row.points := by
  simp only [Geometry.payloadSize, geometry, Format.payloadSize, Nat.mul_comm]

theorem blockOutputSize_geometry (row : GeometryRow) :
    row.geometry.blockOutputSize = row.points * row.format.layout.pointSize := Nat.mul_comm _ _

/-- A block that suits holds all its points. -/
theorem payloadSize_le_of_suits (hSuits : p.Suits row.geometry row.format)
    (hPayload : p.payload.length = p.header.payloadSize.toNat) :
    row.format.payloadSize row.points ≤ p.payload.length :=
  Nat.le_of_eq (by rw [hPayload, hSuits.length, payloadSize_geometry])

/-- **Every block that suits is converted.** -/
theorem convert_eq (hSuits : p.Suits row.geometry row.format)
    (hPayload : p.payload.length = p.header.payloadSize.toNat) :
    row.convert p = row.format.convertPoints p.payload row.points := by
  rw [convert, blockOutputSize_geometry, Format.convertInto_of_fits
    (payloadSize_le_of_suits hSuits hPayload) List.length_replicate]

theorem length_convert (hSuits : p.Suits row.geometry row.format)
    (hPayload : p.payload.length = p.header.payloadSize.toNat) :
    (row.convert p).length = row.geometry.blockOutputSize := by
  rw [convert_eq hSuits hPayload, blockOutputSize_geometry]
  exact Format.length_convertPoints (payloadSize_le_of_suits hSuits hPayload)

end GeometryRow

/-- A block of a row that has room. -/
theorem Assembler.write_of_room {row : GeometryRow} {a : Assembler} {buffer : FrameBuffer}
    {p : Packet} (hGeometry : a.geometry = row.geometry) (hFormat : a.format = row.format)
    (hSuits : p.Suits row.geometry row.format)
    (hPayload : p.payload.length = p.header.payloadSize.toNat)
    (hRoom : row.geometry.blockOutputSize ≤ buffer.remaining) (now : Nat) :
    ∃ filled : FrameBuffer, filled.contents = buffer.contents ++ row.convert p ∧
      filled.capacity = buffer.capacity ∧
      a.write buffer now p =
        if row.blocks ≤ p.header.block then
          ({ a with
             expected := 1, buffer := none, sequence := a.sequence + 1
             stats := { a.stats with frames := a.stats.frames + 1 } },
           .completed {
             format := row.format, data := filled.contents, receiptNs := now
             sequence := a.sequence, header := p.header })
        else ({ a with expected := p.header.block + 1, buffer := some filled }, .accepted) := by
  have hAdmits : row.geometry.Admits row.format buffer.remaining :=
    ⟨Nat.le_of_eq row.payloadSize_geometry.symm, Nat.le_of_eq row.blockOutputSize_geometry.symm,
      hRoom⟩
  have hSize := hPayload.trans hSuits.length
  rw [GeometryRow.convert_eq hSuits hPayload, ← hFormat]
  rw [← hGeometry] at hAdmits hSize
  rw [← hFormat] at hAdmits
  have hPoints : a.geometry.points = row.points := by rw [hGeometry]; rfl
  have hBlocks : a.geometry.blocks = row.blocks := by rw [hGeometry]; rfl
  rw [← hPoints, ← hBlocks]
  exact write_of_admits hAdmits hSize now

end LidarSweep
