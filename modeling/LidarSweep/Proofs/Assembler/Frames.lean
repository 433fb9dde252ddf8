import LidarSweep.Packet.Builder
import LidarSweep.Proofs.Assembler.Sweep

/-!
# The frames of an assembler

`frame?_ingest_after` says, for every history of packets and resets, which packet completes a frame
and what is in the frame: the last suited packets since the latest reset must be numbered from 1 to
the last block of the row, and their converted points, end to end, are the frame's data.

The numbers of the blocks are all that counts.  `frames_of_one_sweep_iff` says when the frames of a
run are sweeps of the device, each made of blocks of one sweep index: exactly if no run of suited
packets with the numbers of a whole sweep mixes two of them.  `seam_completes` is such a run: the
second block of one sweep and the first of the next are lost, and what is left of the two makes a
frame.
-/

namespace LidarSweep.Assembler

variable {row : GeometryRow}

theorem numbered_iff_of_length {sweep : List Packet} {last : Packet} {n : Nat}
    (h : sweep.length + 1 = n) :
    Numbered (sweep ++ [last]) ↔
      (sweep ++ [last]).map (fun p => p.header.block.toNat) = List.range' 1 n := by
  rw [Numbered, List.length_append, List.length_singleton, h]

/-- **When a frame comes, and what is in it.**  After any packets and resets, a packet completes a
frame exactly if it suits and ends a run of suited packets, since the latest reset, that are
numbered from 1 to the last block.  The frame holds the points of these blocks in order, as many
bytes as the geometry says, under the header of the last one and the number of frames before it. -/
theorem frame?_ingest_after (row : GeometryRow) (hBlocks : 0 < row.blocks.toNat)
    (inputs : List Input) (now : Nat) (bytes : List UInt8) :
    (∀ frame,
      (((new row.geometry row.format).after inputs).ingest now bytes).2.frame? = some frame ↔
        ∃ sweep last, Packet.suited? row.geometry row.format bytes = some last ∧
          sweep ++ [last] <:+
            suitedSince row.geometry row.format (inputs ++ [.packet now bytes]) ∧
          (sweep ++ [last]).map (fun p => p.header.block.toNat) =
            List.range' 1 row.blocks.toNat ∧
          frame = {
            format := row.format
            data := (sweep ++ [last]).flatMap row.convert
            receiptNs := now
            sequence := ((new row.geometry row.format).frames inputs).length
            header := last.header }) ∧
      ∀ frame,
        (((new row.geometry row.format).after inputs).ingest now bytes).2.frame? = some frame →
          frame.data.length = row.geometry.frameSize := by
  have hTracks := tracks_after hBlocks inputs
  have hSequence := sequence_after (new row.geometry row.format) inputs
  rw [show (new row.geometry row.format).sequence = 0 from rfl, Nat.zero_add] at hSequence
  refine ⟨fun frame => ?_, fun frame hFrame => ?_⟩
  · rw [hTracks.frame?_ingest_iff, hSequence, suitedSince_packet]
    constructor
    · rintro ⟨sweep, last, hSuited, hSeen, hNumbered, hLast, rfl⟩
      refine ⟨sweep, last, hSuited, ?_, (numbered_iff_of_length hLast).mp hNumbered, rfl⟩
      rw [hSuited]
      exact concat_suffix_concat.mpr ⟨hSeen, rfl⟩
    · rintro ⟨sweep, last, hSuited, hSuffix, hNumbers, rfl⟩
      rw [hSuited] at hSuffix
      have hLast : sweep.length + 1 = row.blocks.toNat := by
        simpa using congrArg List.length hNumbers
      exact ⟨sweep, last, hSuited, (concat_suffix_concat.mp hSuffix).1,
        (numbered_iff_of_length hLast).mpr hNumbers, hLast, rfl⟩
  · obtain ⟨sweep, last, hSuited, hSeen, _, hLast, rfl⟩ :=
      (hTracks.frame?_ingest_iff now bytes frame).mp hFrame
    have hParts : ∀ p ∈ sweep ++ [last],
        ∃ bytes, Packet.suited? row.geometry row.format bytes = some p := by
      intro p hp
      rcases List.mem_append.mp hp with hOld | hNew
      · exact exists_of_mem_suitedSince (hSeen.mem hOld)
      · exact ⟨bytes, List.mem_singleton.mp hNew ▸ hSuited⟩
    rw [frameOf, length_flatMap_convert hParts, List.length_append, List.length_singleton, hLast]
    exact Nat.mul_comm _ _

/-! ### The smallest sweep with a seam -/

/-- Sweeps of two blocks with one sample each. -/
def pairRow : GeometryRow := ⟨.singleLine, .hz10, .calibration, 1, 2⟩

def pairBytes (sweep : UInt32) (block : UInt16) : List UInt8 :=
  (Builder.new 0x0101 .hz10 .calibration).encode sweep block [1, 2, 3, 4]

def pairPacket (sweep : UInt32) (block : UInt16) : Packet where
  header := (Builder.new 0x0101 .hz10 .calibration).header sweep block [1, 2, 3, 4]
  payload := [1, 2, 3, 4]
  tail := Packet.validTail

/-- Neither a block before a reset nor bytes that are no packet keep a frame from coming. -/
theorem frame?_ingest_after_pair :
    0 < pairRow.blocks.toNat ∧
      (((new pairRow.geometry pairRow.format).after
          [.packet 1 (pairBytes 4 1), .reset, .packet 2 (pairBytes 5 1), .packet 3 [0]]).ingest 4
        (pairBytes 5 2)).2.frame? = some {
          format := pairRow.format
          data := [pairPacket 5 1, pairPacket 5 2].flatMap pairRow.convert
          receiptNs := 4
          sequence := ((new pairRow.geometry pairRow.format).frames
            [.packet 1 (pairBytes 4 1), .reset, .packet 2 (pairBytes 5 1), .packet 3 [0]]).length
          header := (pairPacket 5 2).header } :=
  ⟨by decide, ((frame?_ingest_after pairRow (by decide) _ 4 (pairBytes 5 2)).1 _).mpr
    ⟨[pairPacket 5 1], pairPacket 5 2, by decide, ⟨[], by decide⟩, by decide, rfl⟩⟩

/-! ### Frames and sweeps of the device -/

/-- A packet completes a frame, and these are the packets that it is made of: the last accepted
ones, as many as a sweep has blocks. -/
structure Makes (row : GeometryRow) (before : List (Nat × List UInt8)) (now : Nat)
    (bytes : List UInt8) (parts : List Packet) (frame : Frame) : Prop where
  frame : (((new row.geometry row.format).after (offered before)).ingest now bytes).2.frame? =
    some frame
  accepted : parts <:+ (new row.geometry row.format).accepted (offered (before ++ [(now, bytes)]))
  length : parts.length = row.blocks.toNat

/-- The packets that a frame is made of are the run of suited packets that completes it. -/
theorem makes_iff {before : List (Nat × List UInt8)} {now : Nat} {bytes : List UInt8}
    {parts : List Packet} {frame : Frame} (hBlocks : 0 < row.blocks.toNat) :
    Makes row before now bytes parts frame ↔
      ∃ sweep last, parts = sweep ++ [last] ∧
        Packet.suited? row.geometry row.format bytes = some last ∧
        sweep <:+ before.filterMap (fun q => Packet.suited? row.geometry row.format q.2) ∧
        Numbered (sweep ++ [last]) ∧ sweep.length + 1 = row.blocks.toNat ∧
        frame = frameOf row sweep last now
          ((new row.geometry row.format).after (offered before)).sequence := by
  have hTracks := tracks_after hBlocks (offered before)
  rw [suitedSince_offered] at hTracks
  -- The run that completes a frame was accepted to its last block.
  have hAccepted : ∀ sweep last,
      Packet.suited? row.geometry row.format bytes = some last →
      sweep <:+ before.filterMap (fun q => Packet.suited? row.geometry row.format q.2) →
      Numbered (sweep ++ [last]) → sweep.length + 1 = row.blocks.toNat →
      (((new row.geometry row.format).after (offered before)).ingest now bytes).2.frame? ≠ none →
      sweep ++ [last] <:+
        (new row.geometry row.format).accepted (offered (before ++ [(now, bytes)])) := by
    intro sweep last hSuited hSeen hNumbered hLast hFrame
    have hTaken := hTracks.suffix_taken hSeen (numbered_concat.mp hNumbered).1 (by omega)
    have hLastTaken : ((new row.geometry row.format).after (offered before)).acceptedOf?
        (.packet now bytes) = some last := by
      rw [acceptedOf?, if_pos (Ingest.isTaken_of_frame? hFrame),
        (Packet.suited?_eq_some_iff.mp hSuited).1]
      rfl
    rw [offered_append]
    simp only [offered, List.map_cons, List.map_nil]
    rw [accepted_concat, ← offered, hLastTaken]
    exact concat_suffix_concat.mpr ⟨hTaken, rfl⟩
  constructor
  · rintro ⟨hFrame, hParts, hLength⟩
    obtain ⟨sweep, last, hSuited, hSeen, hNumbered, hLast, hEq⟩ :=
      (hTracks.frame?_ingest_iff now bytes frame).mp hFrame
    refine ⟨sweep, last, ?_, hSuited, hSeen, hNumbered, hLast, hEq⟩
    have hOther := hAccepted sweep last hSuited hSeen hNumbered hLast (by simp [hFrame])
    have hSame : (sweep ++ [last]).length = parts.length := by
      rw [hLength, ← hLast, List.length_append, List.length_singleton]
    exact ((List.suffix_of_suffix_length_le hParts hOther hSame.ge).eq_of_length hSame.symm)
  · rintro ⟨sweep, last, rfl, hSuited, hSeen, hNumbered, hLast, hEq⟩
    have hFrame := (hTracks.frame?_ingest_iff now bytes frame).mpr
      ⟨sweep, last, hSuited, hSeen, hNumbered, hLast, hEq⟩
    refine ⟨hFrame, hAccepted sweep last hSuited hSeen hNumbered hLast (by simp [hFrame]), ?_⟩
    rw [List.length_append, List.length_singleton, hLast]

/-- **When the frames of a run are sweeps of the device.**  The data of a frame are the points of
the packets that it is made of.  In a run of packets all these have the sweep index of the frame's
own header, for every frame, exactly if no suited packets in a row that are numbered from 1 to the
last block have different sweep indices. -/
theorem frames_of_one_sweep_iff (row : GeometryRow) (hBlocks : 0 < row.blocks.toNat)
    (packets : List (Nat × List UInt8)) :
    (∀ before now bytes parts frame, Makes row before now bytes parts frame →
      frame.data = parts.flatMap row.convert) ∧
    ((∀ before now bytes later parts frame, packets = before ++ (now, bytes) :: later →
        Makes row before now bytes parts frame → ∀ p ∈ parts, p.header.sweep = frame.header.sweep) ↔
      ∀ run, run <:+: packets.filterMap (fun q => Packet.suited? row.geometry row.format q.2) →
        run.map (fun p => p.header.block.toNat) = List.range' 1 row.blocks.toNat →
        ∀ p ∈ run, ∀ q ∈ run, p.header.sweep = q.header.sweep) := by
  refine ⟨fun before now bytes parts frame hMakes => ?_, fun hOne run hInfix hNumbers => ?_,
    fun hRuns before now bytes later parts frame hSplit hMakes => ?_⟩
  · obtain ⟨sweep, last, rfl, _, _, _, _, rfl⟩ := (makes_iff hBlocks).mp hMakes
    rfl
  · -- The run ends with a packet, and the packets up to that one make a frame of the run.
    have hLength : run.length = row.blocks.toNat := by
      simpa using congrArg List.length hNumbers
    obtain ⟨sweep, last, rfl⟩ : ∃ sweep last, run = sweep ++ [last] :=
      ⟨_, _, (List.dropLast_concat_getLast
        (List.ne_nil_of_length_pos (hLength.symm ▸ hBlocks))).symm⟩
    obtain ⟨s, t, hEq⟩ := hInfix
    rw [← List.append_assoc, List.append_assoc, List.singleton_append] at hEq
    obtain ⟨front, back, hPackets, hFront, hBack⟩ := List.filterMap_eq_append_iff.mp hEq.symm
    obtain ⟨skipped, ⟨now, bytes⟩, later, rfl, hSkipped, hSuited, _⟩ :=
      List.filterMap_eq_cons_iff.mp hBack
    rw [List.length_append, List.length_singleton] at hLength
    have hSeen : sweep <:+ (front ++ skipped).filterMap
        (fun q => Packet.suited? row.geometry row.format q.2) := by
      rw [List.filterMap_append, hFront, List.filterMap_eq_nil_iff.mpr hSkipped, List.append_nil]
      exact List.suffix_append _ _
    have hMakes : Makes row (front ++ skipped) now bytes (sweep ++ [last])
        (frameOf row sweep last now _) :=
      (makes_iff hBlocks).mpr ⟨sweep, last, rfl, hSuited, hSeen,
        (numbered_iff_of_length hLength).mpr hNumbers, hLength, rfl⟩
    have hAll := hOne (front ++ skipped) now bytes later _ _
      (by rw [hPackets, List.append_assoc]) hMakes
    intro p hp q hq
    rw [hAll p hp, hAll q hq]
  · obtain ⟨sweep, last, rfl, hSuited, hSeen, hNumbered, hLast, rfl⟩ :=
      (makes_iff hBlocks).mp hMakes
    intro p hp
    refine hRuns (sweep ++ [last]) ?_ ((numbered_iff_of_length hLast).mp hNumbered) p hp last
      (List.mem_append_right _ (List.mem_singleton_self last))
    have hFound : sweep ++ [last] <:+ (before ++ [(now, bytes)]).filterMap
        (fun q => Packet.suited? row.geometry row.format q.2) := by
      have hNew : [(now, bytes)].filterMap
          (fun q => Packet.suited? row.geometry row.format q.2) = [last] :=
        List.filterMap_cons_some hSuited
      rw [List.filterMap_append, hNew]
      exact concat_suffix_concat.mpr ⟨hSeen, rfl⟩
    obtain ⟨s, hEq⟩ := hFound
    refine ⟨s, later.filterMap (fun q => Packet.suited? row.geometry row.format q.2), ?_⟩
    rw [hEq, hSplit, ← List.filterMap_append, List.append_assoc, List.singleton_append]

/-- Two blocks of two sweeps that the numbers glue together. -/
theorem frames_of_one_sweep_iff_pair :
    0 < pairRow.blocks.toNat ∧
      ((∀ before now bytes parts frame, Makes pairRow before now bytes parts frame →
        frame.data = parts.flatMap pairRow.convert) ∧
      ((∀ before now bytes later parts frame,
          [(1, pairBytes 0 1), (2, pairBytes 1 2)] = before ++ (now, bytes) :: later →
          Makes pairRow before now bytes parts frame →
          ∀ p ∈ parts, p.header.sweep = frame.header.sweep) ↔
        ∀ run, run <:+: [(1, pairBytes 0 1), (2, pairBytes 1 2)].filterMap
            (fun q => Packet.suited? pairRow.geometry pairRow.format q.2) →
          run.map (fun p => p.header.block.toNat) = List.range' 1 pairRow.blocks.toNat →
          ∀ p ∈ run, ∀ q ∈ run, p.header.sweep = q.header.sweep)) :=
  ⟨by decide, frames_of_one_sweep_iff pairRow (by decide) _⟩

/-- **The seam.**  The last block of sweep 0 and the first of sweep 1 are lost, and the other two
make a frame under the header of sweep 1. -/
theorem seam_completes :
    ∃ parts frame, Makes pairRow [(1, pairBytes 0 1)] 2 (pairBytes 1 2) parts frame ∧
      ¬ ∀ p ∈ parts, p.header.sweep = frame.header.sweep := by
  refine ⟨[pairPacket 0 1, pairPacket 1 2], _, (makes_iff (by decide)).mpr
    ⟨[pairPacket 0 1], pairPacket 1 2, rfl, by decide, by decide, by unfold Numbered; decide,
      by decide, rfl⟩, ?_⟩
  intro hOne
  exact absurd (hOne (pairPacket 0 1) List.mem_cons_self) (by decide)

end LidarSweep.Assembler
