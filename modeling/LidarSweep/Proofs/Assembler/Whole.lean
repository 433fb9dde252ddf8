import LidarSweep.Proofs.Assembler.Sweep
import LidarSweep.Proofs.Packet.Codec
import LidarSweep.Proofs.Packet.Synthetic

/-!
# Sweeps that arrive whole

`Underway row sweep packets frames a` is an assembler to which nothing has gone wrong so far: of
the `packets` that it was offered it has made `frames`, and the rest are the blocks of the sweep
under way.  A block with the next number keeps it so (`Underway.ingest`), and what is left of a
sweep completes the frame with its last block and none before (`Underway.complete`).

The sweeps that a builder makes up are such sweeps, whatever is written into the fields that an
assembler does not look at.  `frames_of_sweeps` says what an assembler makes of any number of them.
-/

namespace LidarSweep

namespace Assembler

variable {row : GeometryRow} {sweep rest : List Packet} {packets frames : Nat} {a : Assembler}
  {p : Packet}

/-! ### A sweep under way -/

structure Underway (row : GeometryRow) (sweep : List Packet) (packets frames : Nat)
    (a : Assembler) : Prop where
  geometry : a.geometry = row.geometry
  format : a.format = row.format
  expected : a.expected.toNat = sweep.length + 1
  buffer : sweep = [] ∧ a.buffer = none ∨
    sweep ≠ [] ∧ ∃ buffer, a.buffer = some buffer ∧ Holds row sweep buffer
  sequence : a.sequence = frames
  stats : a.stats = { packets, frames }

theorem underway_new (row : GeometryRow) : Underway row [] 0 0 (new row.geometry row.format) :=
  ⟨rfl, rfl, rfl, Or.inl ⟨rfl, rfl⟩, rfl, rfl⟩

theorem Underway.counted (h : Underway row sweep packets frames a) :
    Underway row sweep (packets + 1) frames a.counted :=
  ⟨h.geometry, h.format, h.expected, h.buffer, h.sequence, by
    simp only [Assembler.counted, h.stats]⟩

/-- A block with the next number is written behind the blocks before it. -/
theorem Underway.place (h : Underway row sweep packets frames a)
    (hNumbered : Numbered (sweep ++ [p])) (now : Nat) :
    ∃ buffer, Holds row sweep buffer ∧
      a.place now p = ((a.write buffer now p).1, { verdict := (a.write buffer now p).2 }) := by
  have hBlock := (numbered_concat.mp hNumbered).2
  rcases h.buffer with ⟨rfl, hBuffer⟩ | ⟨hNe, buffer, hBuffer, hHolds⟩
  · have hFirst : p.header.block = 1 := UInt16.toNat_inj.mp hBlock
    have hEmpty : a.offset = 0 := by rw [offset, hBuffer]
    exact ⟨_, h.geometry ▸ holds_ofCapacity row, place_of_fresh hFirst hEmpty now⟩
  · have hNext : p.header.block = a.expected :=
      UInt16.toNat_inj.mp (hBlock.trans h.expected.symm)
    have hLater : p.header.block ≠ 1 := by
      intro hFirst
      rw [hFirst] at hBlock
      exact hNe (List.length_eq_zero_iff.mp (Nat.succ.inj hBlock).symm)
    exact ⟨buffer, hHolds, place_of_next hNext hLater hBuffer now⟩

/-- **A block with the next number** completes the frame if it is the last, and is kept if not. -/
theorem Underway.ingest (h : Underway row sweep packets frames a) {bytes : List UInt8}
    (hSuited : Packet.suited? row.geometry row.format bytes = some p)
    (hNumbered : Numbered (sweep ++ [p])) (hOpen : sweep.length < row.blocks.toNat) (now : Nat) :
    if sweep.length + 1 = row.blocks.toNat then
      (a.ingest now bytes).2.frame? = some (frameOf row sweep p now frames) ∧
        Underway row [] (packets + 1) (frames + 1) (a.ingest now bytes).1
    else
      (a.ingest now bytes).2.frame? = none ∧
        Underway row (sweep ++ [p]) (packets + 1) frames (a.ingest now bytes).1 := by
  obtain ⟨hDecode, hSuits⟩ := Packet.suited?_eq_some_iff.mp hSuited
  have hCounted := h.counted
  obtain ⟨buffer, hHolds, hPlace⟩ := hCounted.place hNumbered now
  obtain ⟨filled, hFilled, hNext, hWrite⟩ := write_behind hCounted.geometry hCounted.format
    hNumbered hOpen hHolds hSuits (Packet.length_payload_of_decode hDecode) now
  rw [ingest_of_suited (by rw [h.geometry, h.format, hSuited]) now, hPlace, hWrite]
  by_cases hLast : sweep.length + 1 = row.blocks.toNat
  · simp only [if_pos hLast]
    refine ⟨by rw [hCounted.sequence]; rfl, h.geometry, h.format, rfl, Or.inl ⟨rfl, rfl⟩, ?_, ?_⟩
    · simp only [hCounted.sequence]
    · simp only [hCounted.stats]
  · simp only [if_neg hLast]
    exact ⟨rfl, h.geometry, h.format, hNext hLast, Or.inr ⟨by simp, filled, rfl, hFilled⟩,
      hCounted.sequence, hCounted.stats⟩

/-- **The rest of a sweep**, whenever its packets come in: the last one completes the frame. -/
theorem Underway.complete (h : Underway row sweep packets frames a) (hRest : rest ≠ [])
    (hNumbered : Numbered (sweep ++ rest)) (hWhole : (sweep ++ rest).length = row.blocks.toNat)
    {offers : List (Nat × List UInt8)}
    (hOffers : offers.map (fun q => Packet.suited? row.geometry row.format q.2) = rest.map some) :
    ∃ frame, (a.steps (offered offers)).map Prod.fst =
        List.replicate (rest.length - 1) none ++ [some frame] ∧
      frame.format = row.format ∧ frame.data = (sweep ++ rest).flatMap row.convert ∧
      frame.sequence = frames ∧ frame.header = (rest.getLast hRest).header ∧
      Underway row [] (packets + rest.length) (frames + 1) (a.after (offered offers)) := by
  -- Each block moves over from the rest to the sweep under way.
  induction rest generalizing sweep packets a offers with
  | nil => exact absurd rfl hRest
  | cons p rest ih =>
    obtain ⟨⟨now, bytes⟩, later, rfl, hSuited, hLater⟩ := List.map_eq_cons_iff.mp hOffers
    have hFirst : Numbered (sweep ++ [p]) := by
      rw [List.append_cons] at hNumbered
      exact numbered_of_append hNumbered
    have hLength : sweep.length + (rest.length + 1) = row.blocks.toNat := by
      rwa [List.length_append, List.length_cons] at hWhole
    have hStep := h.ingest hSuited hFirst (by omega) now
    cases rest with
    | nil =>
      obtain rfl : later = [] := List.map_eq_nil_iff.mp hLater
      have hLast : sweep.length + 1 = row.blocks.toNat := hLength
      rw [if_pos hLast] at hStep
      exact ⟨_, by rw [← hStep.1]; rfl, rfl, rfl, rfl, rfl, hStep.2⟩
    | cons q rest =>
      have hMore : sweep.length + 1 ≠ row.blocks.toNat := by
        rw [List.length_cons] at hLength
        omega
      rw [if_neg hMore] at hStep
      obtain ⟨frame, hFrames, hFormat, hData, hSequence, hHeader, hAfter⟩ :=
        ih hStep.2 (List.cons_ne_nil q rest) (by rwa [← List.append_cons])
          (by rwa [← List.append_cons]) hLater
      refine ⟨frame, ?_, hFormat, by rw [hData, ← List.append_cons], hSequence, ?_, ?_⟩
      · rw [offered, List.map_cons, steps, List.map_cons, ← offered]
        simp only [frameOf?, feed, hStep.1]
        rw [hFrames]
        rfl
      · rw [hHeader, List.getLast_cons (List.cons_ne_nil q rest)]
      · rw [List.length_cons, Nat.add_comm _ 1, ← Nat.add_assoc]
        exact hAfter

end Assembler

/-! ### Sweeps that a builder makes up -/

namespace Builder

/-- What an assembler for this format looks at, apart from the sizes. -/
structure Speaks (b : Builder) (format : Format) : Prop where
  magic : b.template.magic = Header.validMagic
  code : b.template.formatCode = format.code

/-- A field that an assembler does not look at. -/
inductive Override where
  | syncCode (code : UInt8)
  | warnings (flags : UInt16)
  | temperature (temperature : Int16)

def override (b : Builder) : Override → Builder
  | .syncCode code => b.withSyncCode code
  | .warnings flags => b.withWarnings flags
  | .temperature temperature => b.withTemperature temperature

/-- A new builder for a format, with fields overridden one after another. -/
def overridden (modelCode : UInt16) (rate : ScanRate) (format : Format)
    (overrides : List Override) : Builder :=
  overrides.foldl override (new modelCode rate format)

variable {b : Builder} {row : GeometryRow} {format : Format}

theorem Speaks.override (h : b.Speaks format) (o : Override) : (b.override o).Speaks format := by
  cases o <;> exact ⟨h.magic, h.code⟩

theorem speaks_overridden (modelCode : UInt16) (rate : ScanRate) (format : Format)
    (overrides : List Override) : (overridden modelCode rate format overrides).Speaks format := by
  have hNew : (new modelCode rate format).Speaks format := ⟨rfl, rfl⟩
  rw [overridden]
  generalize new modelCode rate format = b at hNew ⊢
  induction overrides generalizing b with
  | nil => exact hNew
  | cons o overrides ih => exact ih _ (hNew.override o)

theorem Speaks.format? (h : b.Speaks format) : b.template.format? = some format := by
  rw [Header.format?, h.code, Format.ofCode?_code]

/-- The packet of a made-up block. -/
def madeUp (b : Builder) (row : GeometryRow) (index : UInt32) (i : Nat) : Packet :=
  b.packet index (UInt16.ofNat (i + 1))
    (syntheticPayload (some row.format) row.geometry (UInt16.ofNat (i + 1)))

/-- The packets of a made-up sweep. -/
def sweepPackets (b : Builder) (row : GeometryRow) (index : UInt32) : List Packet :=
  (List.range row.blocks.toNat).map (b.madeUp row index)

@[simp] theorem length_sweepPackets (b : Builder) (row : GeometryRow) (index : UInt32) :
    (b.sweepPackets row index).length = row.blocks.toNat := by
  rw [sweepPackets, List.length_map, List.length_range]

theorem sweepPackets_ne_nil (hBlocks : 0 < row.blocks.toNat) (b : Builder) (index : UInt32) :
    b.sweepPackets row index ≠ [] :=
  List.ne_nil_of_length_pos (by rwa [length_sweepPackets])

theorem numbered_sweepPackets (b : Builder) (row : GeometryRow) (index : UInt32) :
    Assembler.Numbered (b.sweepPackets row index) := by
  rw [Assembler.Numbered, length_sweepPackets, sweepPackets, List.map_map,
    List.range'_eq_map_range]
  refine List.map_congr_left fun i hi => ?_
  rw [Nat.add_comm 1]
  exact toNat_block (List.mem_range.mp hi)

theorem sweep_getLast_sweepPackets (b : Builder) (index : UInt32)
    (h : b.sweepPackets row index ≠ []) :
    ((b.sweepPackets row index).getLast h).header.sweep = index := by
  obtain ⟨i, _, hLast⟩ := List.mem_map.mp (List.getLast_mem h)
  rw [← hLast]
  rfl

/-- A made-up block suits the assembler of its row. -/
theorem Speaks.suited? (h : b.Speaks row.format) (hPayload : row.geometry.payloadSize ≤ 65535)
    (index : UInt32) (i : Nat) :
    Packet.suited? row.geometry row.format (b.encode index (UInt16.ofNat (i + 1))
      (syntheticPayload b.template.format? row.geometry (UInt16.ofNat (i + 1)))) =
        some (b.madeUp row index i) := by
  have hLength := length_syntheticPayload row (UInt16.ofNat (i + 1))
  have hFits := hLength.le.trans hPayload
  rw [h.format?, Packet.suited?_eq_some_iff]
  refine ⟨b.decode_encode index _ hFits, ?_, h.magic, rfl, h.code⟩
  rw [madeUp, payloadSize_packet b index _ hFits, hLength]

theorem Speaks.map_suited?_sweep (h : b.Speaks row.format)
    (hPayload : row.geometry.payloadSize ≤ 65535) (index : UInt32) :
    (b.sweep row.geometry index).map (Packet.suited? row.geometry row.format) =
      (b.sweepPackets row index).map some := by
  rw [sweep, sweepPackets, List.map_map, List.map_map]
  refine List.map_congr_left fun i _ => ?_
  rw [Function.comp_apply, Function.comp_apply]
  exact h.suited? hPayload index i

end Builder

namespace Assembler

variable {row : GeometryRow} {b : Builder} {packets frames : Nat} {a : Assembler}

/-- One made-up sweep, whenever its packets come in. -/
theorem Underway.sweep (h : Underway row [] packets frames a) (hSpeaks : b.Speaks row.format)
    (hBlocks : 0 < row.blocks.toNat) (hPayload : row.geometry.payloadSize ≤ 65535)
    (index : UInt32) {offers : List (Nat × List UInt8)}
    (hOffers : offers.map Prod.snd = b.sweep row.geometry index) :
    ∃ frame, (a.steps (offered offers)).map Prod.fst =
        List.replicate (row.blocks.toNat - 1) none ++ [some frame] ∧
      frame.format = row.format ∧ frame.data.length = row.geometry.frameSize ∧
      frame.header.sweep = index ∧ frame.sequence = frames ∧
      Underway row [] (packets + row.blocks.toNat) (frames + 1) (a.after (offered offers)) := by
  have hNe := Builder.sweepPackets_ne_nil hBlocks b index
  have hLength := b.length_sweepPackets row index
  have hSuited : offers.map (fun q => Packet.suited? row.geometry row.format q.2) =
      (b.sweepPackets row index).map some := by
    rw [← hSpeaks.map_suited?_sweep hPayload index, ← hOffers, List.map_map]
    rfl
  obtain ⟨frame, hFrames, hFormat, hData, hSequence, hHeader, hAfter⟩ :=
    h.complete hNe (b.numbered_sweepPackets row index) hLength hSuited
  have hParts : ∀ p ∈ b.sweepPackets row index,
      ∃ bytes, Packet.suited? row.geometry row.format bytes = some p := by
    intro p hp
    have hMem := List.mem_map_of_mem (f := some) hp
    rw [← hSuited] at hMem
    obtain ⟨q, _, hq⟩ := List.mem_map.mp hMem
    exact ⟨q.2, hq⟩
  rw [hLength] at hFrames hAfter
  refine ⟨frame, hFrames, hFormat, ?_, ?_, hSequence, hAfter⟩
  · rw [hData, List.nil_append, length_flatMap_convert hParts, hLength]
    exact Nat.mul_comm _ _
  · rw [hHeader, Builder.sweep_getLast_sweepPackets]

/-- Any number of made-up sweeps, one after another. -/
theorem Underway.sweeps (h : Underway row [] packets frames a) (hSpeaks : b.Speaks row.format)
    (hBlocks : 0 < row.blocks.toNat) (hPayload : row.geometry.payloadSize ≤ 65535)
    (indices : List UInt32) {offers : List (Nat × List UInt8)}
    (hOffers : offers.map Prod.snd = indices.flatMap (b.sweep row.geometry)) :
    ∃ made : List Frame, (a.steps (offered offers)).map Prod.fst =
        made.flatMap (fun frame =>
          List.replicate (row.blocks.toNat - 1) none ++ [some frame]) ∧
      made.map (fun frame => (frame.header.sweep, frame.sequence)) = indices.zipIdx frames ∧
      (∀ frame ∈ made, frame.format = row.format ∧
        frame.data.length = row.geometry.frameSize) ∧
      Underway row [] (packets + indices.length * row.blocks.toNat) (frames + indices.length)
        (a.after (offered offers)) := by
  induction indices generalizing packets frames a offers with
  | nil =>
    obtain rfl : offers = [] := List.map_eq_nil_iff.mp hOffers
    exact ⟨[], rfl, rfl, by simp, by simpa [offered, after] using h⟩
  | cons index indices ih =>
    rw [List.flatMap_cons] at hOffers
    obtain ⟨now, later, rfl, hNow, hLater⟩ := List.map_eq_append_iff.mp hOffers
    obtain ⟨frame, hFirst, hFormat, hSize, hIndex, hSequence, hNext⟩ :=
      h.sweep hSpeaks hBlocks hPayload index hNow
    obtain ⟨made, hRest, hNumbers, hAll, hAfter⟩ := ih hNext hLater
    refine ⟨frame :: made, ?_, ?_, ?_, ?_⟩
    · rw [offered_append, steps_append, List.map_append, hFirst, hRest, List.flatMap_cons]
    · rw [List.map_cons, hNumbers, hIndex, hSequence, List.zipIdx_cons]
    · exact List.forall_mem_cons.mpr ⟨⟨hFormat, hSize⟩, hAll⟩
    · rw [offered_append, after_append, List.length_cons, Nat.succ_mul]
      convert hAfter using 1 <;> omega

/-- **What an assembler makes of made-up sweeps.**  The sweeps are made up without a step that
could stop.  However long their packets take, an assembler for the row makes one frame of each, at
its last packet: with all its points, under its sweep index, numbered from 0 on.  Nothing is
dropped and nothing thrown away. -/
theorem frames_of_sweeps (row : GeometryRow) (hPoints : 0 < row.points)
    (hBlocks : 0 < row.blocks.toNat) (hPayload : row.geometry.payloadSize ≤ 65535)
    (modelCode : UInt16) (rate : ScanRate) (overrides : List Builder.Override)
    (indices : List UInt32) :
    (∀ index, (Builder.overridden modelCode rate row.format overrides).sweep? row.geometry index =
      some ((Builder.overridden modelCode rate row.format overrides).sweep row.geometry index)) ∧
    ∀ packets : List (Nat × List UInt8),
      packets.map Prod.snd = indices.flatMap
        ((Builder.overridden modelCode rate row.format overrides).sweep row.geometry) →
      ∃ made : List Frame,
        ((new row.geometry row.format).steps (offered packets)).map Prod.fst =
          made.flatMap (fun frame =>
            List.replicate (row.blocks.toNat - 1) none ++ [some frame]) ∧
        made.map (fun frame => (frame.header.sweep, frame.sequence)) = indices.zipIdx ∧
        (∀ frame ∈ made, frame.pointCount = row.points * row.blocks.toNat) ∧
        ((new row.geometry row.format).after (offered packets)).stats =
          { packets := indices.length * row.blocks.toNat, frames := indices.length } := by
  have hSpeaks := Builder.speaks_overridden modelCode rate row.format overrides
  refine ⟨Builder.sweep?_eq hSpeaks.format? hPoints hPayload, fun packets hPackets => ?_⟩
  obtain ⟨made, hFrames, hNumbers, hAll, hAfter⟩ :=
    (underway_new row).sweeps hSpeaks hBlocks hPayload indices hPackets
  refine ⟨made, hFrames, hNumbers, fun frame hFrame => ?_, ?_⟩
  · obtain ⟨hFormat, hSize⟩ := hAll frame hFrame
    have hWhole : row.geometry.frameSize =
        row.format.layout.pointSize * (row.points * row.blocks.toNat) := Nat.mul_assoc ..
    rw [Frame.pointCount, hSize, hFormat, hWhole,
      Nat.mul_div_cancel_left _ row.format.pointSize_pos]
  · rw [hAfter.stats, Nat.zero_add, Nat.zero_add]

/-- Scans of two blocks with three points each. -/
def scanRow : GeometryRow := ⟨.singleLine, .hz10, .scan, 3, 2⟩

def scanOverrides : List Builder.Override := [.warnings 3, .temperature (-250), .syncCode 1]

/-- Three sweeps, all of them at time 7. -/
def scanOffers : List (Nat × List UInt8) :=
  ([4, 4, 9] : List UInt32).flatMap
    ((Builder.overridden 0xffff .hz20 .scan scanOverrides).sweep scanRow.geometry)
  |>.map fun bytes => (7, bytes)

/-- A sweep that is sent twice makes two frames. -/
theorem frames_of_sweeps_scan :
    0 < scanRow.points ∧ 0 < scanRow.blocks.toNat ∧ scanRow.geometry.payloadSize ≤ 65535 ∧
      scanOffers.map Prod.snd = ([4, 4, 9] : List UInt32).flatMap
        ((Builder.overridden 0xffff .hz20 .scan scanOverrides).sweep scanRow.geometry) ∧
      ∃ made : List Frame,
        ((new scanRow.geometry .scan).steps (offered scanOffers)).map Prod.fst =
          made.flatMap (fun frame => [none, some frame]) ∧
        made.map (fun frame => (frame.header.sweep, frame.sequence)) = [(4, 0), (4, 1), (9, 2)] ∧
        (∀ frame ∈ made, frame.pointCount = 6) ∧
        ((new scanRow.geometry .scan).after (offered scanOffers)).stats =
          { packets := 6, frames := 3 } := by
  have hOffers : scanOffers.map Prod.snd = ([4, 4, 9] : List UInt32).flatMap
      ((Builder.overridden 0xffff .hz20 .scan scanOverrides).sweep scanRow.geometry) := by
    rw [scanOffers, List.map_map]
    exact List.map_id _
  exact ⟨by decide, by decide, by decide, hOffers, (frames_of_sweeps scanRow (by decide)
    (by decide) (by decide) 0xffff .hz20 scanOverrides [4, 4, 9]).2 scanOffers hOffers⟩

end Assembler

end LidarSweep
