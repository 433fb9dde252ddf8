import LidarSweep.Proofs.Assembler.Run
import Mathlib.Data.List.Infix

/-!
# Which packets make a frame

`Tracks row seen taken a` says what an assembler for a row's geometry remembers of the suited
packets `seen` since the latest reset and of the packets `taken` in its life: the blocks of the
sweep under way end both lists, they are numbered from 1 on, the next number is expected, and the
buffer holds their points.  `longest` is the other half: no longer run of numbered blocks at the
end of `seen` was missed.

Every input keeps it (`Tracks.feed`), because a suited packet either opens a gap, or goes behind
the sweep under way, or begins a sweep of its own, which is going behind an empty one
(`Tracks.write`).  A block that goes behind the sweep under way completes a frame exactly if it is
the last one, and one that opens a gap could not have completed any.
-/

namespace LidarSweep.Assembler

/-! ### Numbered blocks -/

/-- Blocks with the numbers from 1 on. -/
def Numbered (sweep : List Packet) : Prop :=
  sweep.map (fun p => p.header.block.toNat) = List.range' 1 sweep.length

theorem numbered_nil : Numbered [] := rfl

theorem numbered_concat {sweep : List Packet} {p : Packet} :
    Numbered (sweep ++ [p]) ↔ Numbered sweep ∧ p.header.block.toNat = sweep.length + 1 := by
  have hRange : List.range' 1 (sweep.length + 1) =
      List.range' 1 sweep.length ++ [sweep.length + 1] := by
    rw [List.range'_1_concat, Nat.add_comm 1]
  rw [Numbered, List.length_append, List.length_singleton, hRange, List.map_append]
  exact List.append_singleton_inj

theorem numbered_of_append {sweep rest : List Packet} (h : Numbered (sweep ++ rest)) :
    Numbered sweep := by
  rw [Numbered, List.map_append, List.length_append, ← List.range'_append_1] at h
  exact List.append_inj_left h (by simp)

theorem concat_suffix_concat {sweep seen : List Packet} {p q : Packet} :
    sweep ++ [p] <:+ seen ++ [q] ↔ sweep <:+ seen ∧ p = q := by
  rw [List.suffix_concat_iff]
  constructor
  · rintro (h | ⟨t, hEq, hSuffix⟩)
    · simp at h
    · obtain ⟨rfl, rfl⟩ := List.append_singleton_inj.mp hEq
      exact ⟨hSuffix, rfl⟩
  · rintro ⟨hSuffix, rfl⟩
    exact Or.inr ⟨sweep, rfl, hSuffix⟩

/-- Two runs of numbered blocks before the same block are the same run. -/
theorem eq_of_numbered_concat {sweep sweep' seen : List Packet} {p : Packet}
    (h : sweep <:+ seen) (h' : sweep' <:+ seen) (hNumbered : Numbered (sweep ++ [p]))
    (hNumbered' : Numbered (sweep' ++ [p])) : sweep = sweep' := by
  have hLength := (numbered_concat.mp hNumbered).2
  have hLength' := (numbered_concat.mp hNumbered').2
  have hSuffix := List.suffix_of_suffix_length_le h h' (by omega)
  exact hSuffix.eq_of_length (by omega)

/-- The numbered blocks that end with `p` are the same, wherever one looks for them. -/
theorem eq_concat_of_numbered {sweep run seen : List Packet} {p : Packet} (hSeen : sweep <:+ seen)
    (hNumbered : Numbered (sweep ++ [p])) (hNe : run ≠ []) (hSuffix : run <:+ seen ++ [p])
    (hRun : Numbered run) : run = sweep ++ [p] := by
  rcases List.suffix_concat_iff.mp hSuffix with h | ⟨earlier, rfl, hEarlier⟩
  · exact absurd h hNe
  · rw [eq_of_numbered_concat hEarlier hSeen hRun hNumbered]

/-! ### The sweep under way -/

variable {row : GeometryRow} {sweep seen taken : List Packet} {a : Assembler} {p : Packet}
  {buffer : FrameBuffer}

/-- The buffer has the room of a frame and holds the points of these blocks. -/
structure Holds (row : GeometryRow) (sweep : List Packet) (buffer : FrameBuffer) : Prop where
  contents : buffer.contents = sweep.flatMap row.convert
  length : buffer.length = sweep.length * row.geometry.blockOutputSize
  capacity : buffer.capacity = row.geometry.frameSize

theorem holds_ofCapacity (row : GeometryRow) :
    Holds row [] (.ofCapacity row.geometry.frameSize) :=
  ⟨FrameBuffer.contents_ofCapacity _, by simp [FrameBuffer.ofCapacity],
    FrameBuffer.capacity_ofCapacity _⟩

/-- The points of `n` suited blocks take `n` times the room of one. -/
theorem length_flatMap_convert {sweep : List Packet}
    (h : ∀ p ∈ sweep, ∃ bytes, Packet.suited? row.geometry row.format bytes = some p) :
    (sweep.flatMap row.convert).length = sweep.length * row.geometry.blockOutputSize := by
  rw [List.flatMap_def, Bytes.length_flatten_of_forall (n := row.geometry.blockOutputSize),
    List.length_map]
  intro piece hPiece
  obtain ⟨p, hp, rfl⟩ := List.mem_map.mp hPiece
  obtain ⟨bytes, hBytes⟩ := h p hp
  obtain ⟨hDecode, hSuits⟩ := Packet.suited?_eq_some_iff.mp hBytes
  exact GeometryRow.length_convert hSuits (Packet.length_payload_of_decode hDecode)

/-- A block's points behind those of the blocks before it. -/
theorem Holds.concat {filled : FrameBuffer} (h : Holds row sweep buffer)
    (hSuits : p.Suits row.geometry row.format)
    (hPayload : p.payload.length = p.header.payloadSize.toNat)
    (hContents : filled.contents = buffer.contents ++ row.convert p)
    (hCapacity : filled.capacity = buffer.capacity) : Holds row (sweep ++ [p]) filled := by
  refine ⟨?_, ?_, hCapacity.trans h.capacity⟩
  · rw [hContents, h.contents, List.flatMap_append, List.flatMap_singleton]
  · rw [← FrameBuffer.length_contents, hContents, List.length_append, FrameBuffer.length_contents,
      h.length, GeometryRow.length_convert hSuits hPayload, List.length_append,
      List.length_singleton, Nat.succ_mul]

/-- A sweep that lacks a block has room for one. -/
theorem Holds.room (h : Holds row sweep buffer) (hOpen : sweep.length < row.blocks.toNat) :
    row.geometry.blockOutputSize ≤ buffer.remaining := by
  have hMore := Nat.mul_le_mul_right row.geometry.blockOutputSize hOpen
  have hFrame : row.geometry.frameSize = row.blocks.toNat * row.geometry.blockOutputSize :=
    Nat.mul_comm _ _
  rw [Nat.succ_mul] at hMore
  rw [FrameBuffer.remaining, h.capacity, h.length, hFrame]
  omega

structure Tracks (row : GeometryRow) (seen taken : List Packet) (a : Assembler) : Prop where
  geometry : a.geometry = row.geometry
  format : a.format = row.format
  underway : ∃ sweep, sweep <:+ seen ∧ sweep <:+ taken ∧ Numbered sweep ∧
    sweep.length < row.blocks.toNat ∧ a.expected.toNat = sweep.length + 1 ∧
    (sweep ≠ [] → ∃ buffer, a.buffer = some buffer ∧ Holds row sweep buffer)
  longest : ∀ sweep, sweep ≠ [] → sweep <:+ seen → Numbered sweep →
    sweep.length < row.blocks.toNat → a.expected.toNat = sweep.length + 1

/-- An assembler that waits for a first block, as after a reset. -/
theorem tracks_of_waiting (hBlocks : 0 < row.blocks.toNat) (hGeometry : a.geometry = row.geometry)
    (hFormat : a.format = row.format) (hExpected : a.expected = 1)
    (hLongest : ∀ sweep, sweep ≠ [] → sweep <:+ seen → Numbered sweep →
      ¬ sweep.length < row.blocks.toNat) : Tracks row seen taken a where
  geometry := hGeometry
  format := hFormat
  underway := ⟨[], List.nil_suffix, List.nil_suffix, numbered_nil, hBlocks, by
    rw [hExpected]
    rfl, fun h => absurd rfl h⟩
  longest sweep hNe hSuffix hNumbered hOpen := absurd hOpen (hLongest sweep hNe hSuffix hNumbered)

theorem tracks_new (hBlocks : 0 < row.blocks.toNat) :
    Tracks row [] [] (new row.geometry row.format) :=
  tracks_of_waiting hBlocks rfl rfl rfl fun _ hNe hSuffix =>
    absurd (List.eq_nil_of_suffix_nil hSuffix) hNe

theorem Tracks.counted (h : Tracks row seen taken a) : Tracks row seen taken a.counted :=
  ⟨h.geometry, h.format, h.underway, h.longest⟩

/-! ### Behind the sweep under way -/

/-- The frame of a whole sweep. -/
def frameOf (row : GeometryRow) (sweep : List Packet) (last : Packet) (now sequence : Nat) :
    Frame where
  format := row.format
  data := (sweep ++ [last]).flatMap row.convert
  receiptNs := now
  sequence
  header := last.header

/-- **A block behind the sweep under way** is written behind its points.  The last one makes the
frame, any other has a number behind it. -/
theorem write_behind (hGeometry : a.geometry = row.geometry) (hFormat : a.format = row.format)
    (hNumbered : Numbered (sweep ++ [p])) (hOpen : sweep.length < row.blocks.toNat)
    (hHolds : Holds row sweep buffer) (hSuits : p.Suits row.geometry row.format)
    (hPayload : p.payload.length = p.header.payloadSize.toNat) (now : Nat) :
    ∃ filled, Holds row (sweep ++ [p]) filled ∧
      (sweep.length + 1 ≠ row.blocks.toNat →
        (p.header.block + 1).toNat = (sweep ++ [p]).length + 1) ∧
      a.write buffer now p =
        if sweep.length + 1 = row.blocks.toNat then
          ({ a with
             expected := 1, buffer := none, sequence := a.sequence + 1
             stats := { a.stats with frames := a.stats.frames + 1 } },
           .completed (frameOf row sweep p now a.sequence))
        else ({ a with expected := p.header.block + 1, buffer := some filled }, .accepted) := by
  have hBlock := (numbered_concat.mp hNumbered).2
  obtain ⟨filled, hContents, hCapacity, hWrite⟩ :=
    write_of_room hGeometry hFormat hSuits hPayload (hHolds.room hOpen) now
  have hFilled := hHolds.concat hSuits hPayload hContents hCapacity
  refine ⟨filled, hFilled, fun hMore => ?_, ?_⟩
  · have hEarlier : p.header.block.toNat < row.blocks.toNat := by omega
    rw [toNat_next hEarlier, hBlock, List.length_append, List.length_singleton]
  · rw [hWrite]
    by_cases hLast : sweep.length + 1 = row.blocks.toNat
    · have hReached : row.blocks ≤ p.header.block := UInt16.le_iff_toNat_le.mpr (by omega)
      rw [if_pos hReached, if_pos hLast, hFilled.contents]
      rfl
    · have hMore : ¬ row.blocks ≤ p.header.block := by
        rw [UInt16.le_iff_toNat_le]
        omega
      rw [if_neg hMore, if_neg hLast]

theorem tracks_write (hGeometry : a.geometry = row.geometry) (hFormat : a.format = row.format)
    (hSeen : sweep <:+ seen) (hTaken : sweep <:+ taken) (hNumbered : Numbered (sweep ++ [p]))
    (hOpen : sweep.length < row.blocks.toNat) (hHolds : Holds row sweep buffer)
    (hSuits : p.Suits row.geometry row.format)
    (hPayload : p.payload.length = p.header.payloadSize.toNat) (now : Nat) :
    Tracks row (seen ++ [p]) (taken ++ [p]) (a.write buffer now p).1 ∧
      (a.write buffer now p).2 =
        if sweep.length + 1 = row.blocks.toNat then
          .completed (frameOf row sweep p now a.sequence)
        else .accepted := by
  obtain ⟨filled, hFilled, hNext, hWrite⟩ :=
    write_behind hGeometry hFormat hNumbered hOpen hHolds hSuits hPayload now
  rw [hWrite]
  by_cases hLast : sweep.length + 1 = row.blocks.toNat
  · rw [if_pos hLast, if_pos hLast]
    refine ⟨tracks_of_waiting (by omega) hGeometry hFormat rfl ?_, rfl⟩
    intro run hNe hSuffix hRun
    rw [eq_concat_of_numbered hSeen hNumbered hNe hSuffix hRun, List.length_append,
      List.length_singleton]
    omega
  · rw [if_neg hLast, if_neg hLast]
    refine ⟨⟨hGeometry, hFormat, ⟨sweep ++ [p], ?_, ?_, hNumbered, ?_, hNext hLast, fun _ => ?_⟩,
      ?_⟩, rfl⟩
    · exact concat_suffix_concat.mpr ⟨hSeen, rfl⟩
    · exact concat_suffix_concat.mpr ⟨hTaken, rfl⟩
    · rw [List.length_append, List.length_singleton]
      omega
    · exact ⟨filled, rfl, hFilled⟩
    · intro run hNe hSuffix hRun _
      rw [eq_concat_of_numbered hSeen hNumbered hNe hSuffix hRun]
      exact hNext hLast

/-! ### One packet -/

/-- What a suited packet comes to. -/
theorem Tracks.place (h : Tracks row seen taken a) (hSuits : p.Suits row.geometry row.format)
    (hPayload : p.payload.length = p.header.payloadSize.toNat) (now : Nat) :
    (∃ reason, (a.place now p).2 = { verdict := .dropped reason } ∧
      Tracks row (seen ++ [p]) taken (a.place now p).1 ∧
      ∀ sweep, sweep <:+ seen → Numbered (sweep ++ [p]) →
        sweep.length + 1 ≠ row.blocks.toNat) ∨
    ∃ sweep, sweep <:+ seen ∧ sweep <:+ taken ∧ Numbered (sweep ++ [p]) ∧
      Tracks row (seen ++ [p]) (taken ++ [p]) (a.place now p).1 ∧
      (a.place now p).2.verdict =
        if sweep.length + 1 = row.blocks.toNat then
          .completed (frameOf row sweep p now a.sequence)
        else .accepted := by
  obtain ⟨sweep, hSeen, hTaken, hNumbered, hOpen, hExpected, hHolds⟩ := h.underway
  by_cases hFirst : p.header.block = 1
  · obtain ⟨stats, discarded, hPlace⟩ := place_of_first (a := a) hFirst now
    have hOne : Numbered ([] ++ [p]) := numbered_concat.mpr ⟨numbered_nil, by rw [hFirst]; rfl⟩
    obtain ⟨hTracks, hVerdict⟩ := tracks_write (a := { a with stats }) h.geometry
      h.format List.nil_suffix List.nil_suffix hOne (Nat.zero_lt_of_lt hOpen)
      (h.geometry ▸ holds_ofCapacity row) hSuits hPayload now
    rw [hPlace]
    exact Or.inr ⟨[], List.nil_suffix, List.nil_suffix, hOne, hTracks, hVerdict⟩
  · have hNotOne : p.header.block.toNat ≠ 1 := fun hEq =>
      hFirst (UInt16.toNat_inj.mp hEq)
    by_cases hNext : p.header.block = a.expected
    · have hBehind : Numbered (sweep ++ [p]) :=
        numbered_concat.mpr ⟨hNumbered, by rw [hNext, hExpected]⟩
      have hNe : sweep ≠ [] := by
        rintro rfl
        exact hNotOne (by rw [hNext, hExpected]; rfl)
      obtain ⟨buffer, hBuffer, hHolds⟩ := hHolds hNe
      obtain ⟨hTracks, hVerdict⟩ := tracks_write h.geometry h.format hSeen hTaken
        hBehind hOpen hHolds hSuits hPayload now
      rw [place_of_next hNext hFirst hBuffer now]
      exact Or.inr ⟨sweep, hSeen, hTaken, hBehind, hTracks, hVerdict⟩
    · have hMissed : ∀ run, run <:+ seen → Numbered (run ++ [p]) →
          ¬ run.length < row.blocks.toNat := by
        intro run hSuffix hRun hShort
        obtain ⟨hBefore, hBlock⟩ := numbered_concat.mp hRun
        have hNe : run ≠ [] := by
          rintro rfl
          exact hNotOne hBlock
        have hEnd := h.longest run hNe hSuffix hBefore hShort
        exact hNext (UInt16.toNat_inj.mp (hBlock.trans hEnd.symm))
      rw [place_of_gap hNext hFirst]
      refine Or.inl ⟨_, rfl, ?_, fun run hSuffix hRun hLast =>
        hMissed run hSuffix hRun (by omega)⟩
      refine tracks_of_waiting (by omega) h.geometry h.format rfl ?_
      intro run hNe hSuffix hRun hShort
      rcases List.suffix_concat_iff.mp hSuffix with hNil | ⟨earlier, rfl, hEarlier⟩
      · exact hNe hNil
      · rw [List.length_append, List.length_singleton] at hShort
        exact hMissed earlier hEarlier hRun (by omega)

/-- **A packet completes a frame** exactly if it suits and ends a whole run of numbered blocks. -/
theorem Tracks.frame?_ingest_iff (h : Tracks row seen taken a) (now : Nat) (bytes : List UInt8)
    (frame : Frame) :
    (a.ingest now bytes).2.frame? = some frame ↔
      ∃ sweep p, Packet.suited? row.geometry row.format bytes = some p ∧ sweep <:+ seen ∧
        Numbered (sweep ++ [p]) ∧ sweep.length + 1 = row.blocks.toNat ∧
        frame = frameOf row sweep p now a.sequence := by
  cases hSuited : Packet.suited? row.geometry row.format bytes with
  | none =>
    obtain ⟨reason, -, hIngest⟩ := ingest_of_unsuited (a := a)
      (by rw [h.geometry, h.format, hSuited]) now
    rw [hIngest]
    simp [Ingest.frame?]
  | some p =>
    obtain ⟨hDecode, hSuits⟩ := Packet.suited?_eq_some_iff.mp hSuited
    have hPayload := Packet.length_payload_of_decode hDecode
    rw [ingest_of_suited (by rw [h.geometry, h.format, hSuited]) now]
    rcases h.counted.place hSuits hPayload now with ⟨reason, hPlace, _, hNone⟩ |
      ⟨sweep, hSeen, _, hNumbered, _, hVerdict⟩
    · rw [hPlace]
      simp only [Ingest.frame?, reduceCtorEq, Option.some.injEq, false_iff]
      rintro ⟨run, q, rfl, hSuffix, hRun, hLast, _⟩
      exact hNone run hSuffix hRun hLast
    · simp only [Ingest.frame?, hVerdict, Option.some.injEq]
      constructor
      · intro hFrame
        by_cases hLast : sweep.length + 1 = row.blocks.toNat
        · rw [if_pos hLast] at hFrame
          exact ⟨sweep, p, rfl, hSeen, hNumbered, hLast, (Option.some.inj hFrame).symm⟩
        · rw [if_neg hLast] at hFrame
          exact absurd hFrame (by simp)
      · rintro ⟨run, q, rfl, hSuffix, hRun, hLast, rfl⟩
        rw [eq_of_numbered_concat hSuffix hSeen hRun hNumbered] at hLast ⊢
        rw [if_pos hLast]
        rfl

/-- Numbered blocks at the end of the suited packets were all taken. -/
theorem Tracks.suffix_taken (h : Tracks row seen taken a) (hSeen : sweep <:+ seen)
    (hNumbered : Numbered sweep) (hOpen : sweep.length < row.blocks.toNat) : sweep <:+ taken := by
  obtain ⟨underway, hUnderway, hTaken, _, _, hExpected, _⟩ := h.underway
  by_cases hNil : sweep = []
  · rw [hNil]
    exact List.nil_suffix
  · have hLongest := h.longest sweep hNil hSeen hNumbered hOpen
    have hSuffix := List.suffix_of_suffix_length_le hSeen hUnderway (by omega)
    rw [hSuffix.eq_of_length (by omega)]
    exact hTaken

theorem Tracks.ingest (h : Tracks row seen taken a) (now : Nat) (bytes : List UInt8) :
    Tracks row (seen ++ (Packet.suited? row.geometry row.format bytes).toList)
      (taken ++ (a.acceptedOf? (.packet now bytes)).toList) (a.ingest now bytes).1 := by
  cases hSuited : Packet.suited? row.geometry row.format bytes with
  | none =>
    obtain ⟨reason, -, hIngest⟩ := ingest_of_unsuited (a := a)
      (by rw [h.geometry, h.format, hSuited]) now
    simp only [acceptedOf?, hIngest, Ingest.isTaken, Option.toList_none, List.append_nil,
      Bool.false_eq_true, if_false]
    exact ⟨h.geometry, h.format, h.underway, h.longest⟩
  | some p =>
    obtain ⟨hDecode, hSuits⟩ := Packet.suited?_eq_some_iff.mp hSuited
    have hPayload := Packet.length_payload_of_decode hDecode
    have hIngest := ingest_of_suited (a := a) (by rw [h.geometry, h.format, hSuited]) now
    simp only [acceptedOf?, hIngest, hDecode]
    rcases h.counted.place hSuits hPayload now with ⟨reason, hPlace, hTracks, _⟩ |
      ⟨sweep, _, _, _, hTracks, hVerdict⟩
    · simpa [hPlace, Ingest.isTaken] using hTracks
    · have hTaken : (a.counted.place now p).2.isTaken = true := by
        rw [Ingest.isTaken, hVerdict]
        by_cases hLast : sweep.length + 1 = row.blocks.toNat
        · rw [if_pos hLast]
        · rw [if_neg hLast]
      simpa [hTaken, Except.toOption] using hTracks

theorem Tracks.reset (h : Tracks row seen taken a) : Tracks row [] taken a.reset := by
  obtain ⟨_, _, _, _, hOpen, _⟩ := h.underway
  exact tracks_of_waiting (by omega) h.geometry h.format rfl fun _ hNe hSuffix =>
    absurd (List.eq_nil_of_suffix_nil hSuffix) hNe

/-- **An assembler tracks all it is offered.** -/
theorem tracks_after (hBlocks : 0 < row.blocks.toNat) (inputs : List Input) :
    Tracks row (suitedSince row.geometry row.format inputs)
      ((new row.geometry row.format).accepted inputs)
      ((new row.geometry row.format).after inputs) := by
  induction inputs using List.reverseRecOn with
  | nil => exact tracks_new hBlocks
  | append_singleton inputs i ih =>
    rw [after_concat, accepted_concat]
    cases i with
    | packet now bytes =>
      rw [suitedSince_packet]
      exact ih.ingest now bytes
    | reset =>
      rw [suitedSince_reset]
      simpa [acceptedOf?, feed] using ih.reset

end LidarSweep.Assembler
