import LidarSweep.Proofs.Assembler.Frames
import LidarSweep.Proofs.Checked

/-!
# The books of an assembler

Every packet is counted when it comes in, and a dropped one once more under its cause
(`booked_ingest`), so the packets that are counted once are the accepted ones.

What becomes of a sweep takes more than one packet to tell.  It begins with an accepted first block,
and it ends as a frame, is given up for the next first block, is thrown away by a reset, or is still
under way.  A block out of order makes the assembler wait but leaves the buffer as it is: the sweep
that it interrupts is given up only when the next first block comes.  So it is the bytes in the
buffer, and not the expected block, that tell whether a sweep is still to be counted
(`Tracks.sweeps_place`).
-/

namespace LidarSweep

/-! ### The counters of dropped packets -/

namespace AssemblerStats

/-- What a dropped packet is counted under. -/
inductive Cause where
  | malformed | length | magic | format | sequence | overflow
  deriving DecidableEq, Repr

def count (s : AssemblerStats) : Cause → Nat
  | .malformed => s.malformed
  | .length => s.length
  | .magic => s.magic
  | .format => s.format
  | .sequence => s.sequence
  | .overflow => s.overflow

/-- The dropped packets, added up in words of 64 bits. -/
def dropped? (s : AssemblerStats) : Option Nat := do
  let n ← Checked.add? UInt64.size s.malformed s.length
  let n ← Checked.add? UInt64.size n s.magic
  let n ← Checked.add? UInt64.size n s.format
  let n ← Checked.add? UInt64.size n s.sequence
  Checked.add? UInt64.size n s.overflow

theorem dropped?_of_lt {s : AssemblerStats} (h : s.dropped < UInt64.size) :
    s.dropped? = some s.dropped := by
  rw [dropped] at h ⊢
  simp only [dropped?, Option.bind_eq_bind]
  rw [Checked.add?_of_lt (by omega), Option.bind_some, Checked.add?_of_lt (by omega),
    Option.bind_some, Checked.add?_of_lt (by omega), Option.bind_some,
    Checked.add?_of_lt (by omega), Option.bind_some, Checked.add?_of_lt (by omega)]

end AssemblerStats

/-- A block without a sweep is counted with those out of order. -/
def Drop.cause : Drop → AssemblerStats.Cause
  | .malformed _ => .malformed
  | .length .. => .length
  | .magic .. => .magic
  | .format .. => .format
  | .sequence .. | .orphan _ => .sequence
  | .overflow .. => .overflow

def Ingest.cause? (i : Ingest) : Option AssemblerStats.Cause :=
  match i.verdict with
  | .dropped reason => some reason.cause
  | _ => none

namespace AssemblerStats

variable {s t u : AssemblerStats} {i : Ingest}

theorem count_countDrop (s : AssemblerStats) (reason : Drop) (cause : Cause) :
    (s.countDrop reason).count cause = s.count cause + if reason.cause = cause then 1 else 0 := by
  cases reason <;> cases cause <;> rfl

/-- What the counters gain by a packet that is counted already, from what became of it. -/
structure Booked (s : AssemblerStats) (i : Ingest) (t : AssemblerStats) : Prop where
  packets : t.packets = s.packets
  count : ∀ cause, t.count cause = s.count cause + if i.cause? = some cause then 1 else 0
  frames : t.frames = s.frames + i.frame?.toList.length
  discarded : t.discarded = s.discarded + i.discarded.toList.length

theorem booked_dropped (s : AssemblerStats) (reason : Drop) :
    s.Booked { verdict := .dropped reason } (s.countDrop reason) where
  packets := by cases reason <;> rfl
  count cause := by
    rw [count_countDrop]
    simp only [Ingest.cause?, Option.some.injEq]
  frames := by cases reason <;> rfl
  discarded := by cases reason <;> rfl

theorem Booked.dropped (h : s.Booked i t) :
    t.dropped = s.dropped + i.cause?.toList.length := by
  have hSum : ∀ r : AssemblerStats, r.dropped = r.count .malformed + r.count .length +
      r.count .magic + r.count .format + r.count .sequence + r.count .overflow := fun _ => rfl
  rw [hSum, hSum]
  simp only [h.count]
  cases hCause : i.cause? with
  | none => simp
  | some cause => cases cause <;> simp <;> omega

end AssemblerStats

namespace Assembler

open AssemblerStats (Booked)

/-! ### One packet in the books -/

variable {row : GeometryRow} {seen taken : List Packet} {a : Assembler} {p : Packet}

theorem booked_write (a : Assembler) (buffer : FrameBuffer) (now : Nat) (p : Packet) :
    a.stats.Booked { verdict := (a.write buffer now p).2 } (a.write buffer now p).1.stats := by
  rcases hWrite : buffer.writeWith a.geometry.blockOutputSize
    (a.format.convertInto p.payload a.geometry.points) with ⟨filled, e | n⟩
  · rw [write_of_failed hWrite]
    exact AssemblerStats.booked_dropped _ _
  · rw [write_of_written hWrite]
    split_ifs
    · exact ⟨rfl, fun cause => by cases cause <;> rfl, rfl, rfl⟩
    · exact ⟨rfl, fun _ => rfl, rfl, rfl⟩

/-- The sweep that a first block puts an end to. -/
def givenUp (a : Assembler) (p : Packet) : Option Discarded :=
  if a.offset = 0 then none else some { sweep := p.header.sweep, size := a.offset }

/-- The assembler with the sweep counted that a first block puts an end to. -/
def givingUp (a : Assembler) (p : Packet) : Assembler :=
  { a with stats := { a.stats with
      discarded := a.stats.discarded + (a.givenUp p).toList.length } }

theorem place_of_opening (hFirst : p.header.block = 1) (now : Nat) :
    a.place now p =
      (((a.givingUp p).write (.ofCapacity a.geometry.frameSize) now p).1,
        { discarded := a.givenUp p
          verdict := ((a.givingUp p).write (.ofCapacity a.geometry.frameSize) now p).2 }) := by
  simp only [place, hFirst, ne_eq, not_true_eq_false, and_false, if_false, if_true]
  rfl

theorem booked_place (a : Assembler) (now : Nat) (p : Packet) :
    a.stats.Booked (a.place now p).2 (a.place now p).1.stats := by
  by_cases hFirst : p.header.block = 1
  · obtain ⟨hPackets, hCount, hFrames, hDiscarded⟩ :=
      (a.givingUp p).booked_write (.ofCapacity a.geometry.frameSize) now p
    rw [place_of_opening hFirst]
    exact ⟨hPackets, hCount, hFrames, hDiscarded⟩
  · by_cases hNext : p.header.block = a.expected
    · cases hBuffer : a.buffer with
      | some buffer =>
        rw [place_of_next hNext hFirst hBuffer]
        exact a.booked_write buffer now p
      | none =>
        rw [place_of_orphan hNext hFirst hBuffer]
        exact AssemblerStats.booked_dropped _ _
    · rw [place_of_gap hNext hFirst]
      exact AssemblerStats.booked_dropped _ _

/-- **Any packet is counted**, and then booked under what became of it. -/
theorem booked_ingest (a : Assembler) (now : Nat) (bytes : List UInt8) :
    a.counted.stats.Booked (a.ingest now bytes).2 (a.ingest now bytes).1.stats := by
  cases hSuited : Packet.suited? a.geometry a.format bytes with
  | none =>
    obtain ⟨reason, -, hIngest⟩ := ingest_of_unsuited hSuited now
    rw [hIngest]
    exact AssemblerStats.booked_dropped _ _
  | some p =>
    rw [ingest_of_suited hSuited now]
    exact a.counted.booked_place now p

/-- A packet is accepted unless it is dropped. -/
theorem dropped_or_accepted (a : Assembler) (now : Nat) (bytes : List UInt8) :
    (∃ reason, (a.ingest now bytes).2.verdict = .dropped reason ∧
      a.acceptedOf? (.packet now bytes) = none) ∨
    ((a.ingest now bytes).2.cause? = none ∧ ∃ p, a.acceptedOf? (.packet now bytes) = some p) := by
  cases hSuited : Packet.suited? a.geometry a.format bytes with
  | none =>
    obtain ⟨reason, -, hIngest⟩ := ingest_of_unsuited hSuited now
    refine Or.inl ⟨reason, by rw [hIngest], ?_⟩
    simp only [acceptedOf?, hIngest]
    rfl
  | some p =>
    have hDecode := (Packet.suited?_eq_some_iff.mp hSuited).1
    simp only [acceptedOf?, hDecode, Ingest.cause?, Ingest.isTaken]
    cases hVerdict : (a.ingest now bytes).2.verdict with
    | dropped reason => exact Or.inl ⟨reason, rfl, rfl⟩
    | accepted => exact Or.inr ⟨rfl, p, rfl⟩
    | completed frame => exact Or.inr ⟨rfl, p, rfl⟩

/-- Every packet counts once more, as accepted or under a cause. -/
theorem length_acceptedOf? (a : Assembler) (now : Nat) (bytes : List UInt8) :
    (a.acceptedOf? (.packet now bytes)).toList.length +
      (a.ingest now bytes).2.cause?.toList.length = 1 := by
  rcases a.dropped_or_accepted now bytes with ⟨reason, hVerdict, hNone⟩ | ⟨hCause, p, hSome⟩
  · rw [hNone, Ingest.cause?, hVerdict]
    rfl
  · rw [hSome, hCause]
    rfl

/-! ### Where sweeps go -/

/-- The sweep under way, if it has any bytes. -/
def underway (a : Assembler) : Nat := if 0 < a.offset then 1 else 0

theorem length_givenUp (a : Assembler) (p : Packet) :
    (a.givenUp p).toList.length = a.underway := by
  unfold givenUp underway
  by_cases hEmpty : a.offset = 0
  · simp [hEmpty]
  · simp [hEmpty, Nat.pos_of_ne_zero hEmpty]

/-- A buffer with the points of any blocks at all is not empty. -/
theorem Holds.underway {sweep : List Packet} {buffer : FrameBuffer}
    (h : Holds row sweep buffer) (hPoints : 0 < row.points) (hNe : sweep ≠ [])
    (hBuffer : a.buffer = some buffer) : a.underway = 1 := by
  have hBlock : 0 < row.geometry.blockOutputSize := by
    rw [GeometryRow.blockOutputSize_geometry]
    exact Nat.mul_pos hPoints row.format.pointSize_pos
  have hLength : 0 < buffer.length := by
    rw [h.length]
    exact Nat.mul_pos (List.length_pos_of_ne_nil hNe) hBlock
  rw [Assembler.underway, offset, hBuffer, if_pos hLength]

/-- A block behind the sweep under way completes a frame or leaves a sweep under way. -/
theorem sweeps_write {sweep : List Packet} {buffer : FrameBuffer}
    (hGeometry : a.geometry = row.geometry) (hFormat : a.format = row.format)
    (hPoints : 0 < row.points) (hNumbered : Numbered (sweep ++ [p]))
    (hOpen : sweep.length < row.blocks.toNat) (hHolds : Holds row sweep buffer)
    (hSuits : p.Suits row.geometry row.format)
    (hPayload : p.payload.length = p.header.payloadSize.toNat) (now : Nat)
    (discarded : Option Discarded) :
    Ingest.isTaken ⟨discarded, (a.write buffer now p).2⟩ = true ∧
      (Ingest.frame? ⟨discarded, (a.write buffer now p).2⟩).toList.length +
        (a.write buffer now p).1.underway = 1 := by
  obtain ⟨filled, hFilled, -, hWrite⟩ :=
    write_behind hGeometry hFormat hNumbered hOpen hHolds hSuits hPayload now
  rw [hWrite]
  split_ifs
  · exact ⟨rfl, rfl⟩
  · exact ⟨rfl, (Nat.zero_add _).trans (hFilled.underway hPoints (by simp) rfl)⟩

/-- The packets among accepted ones that begin a sweep. -/
def openings (packets : List Packet) : Nat := packets.countP fun p => p.header.block == 1

/-- **What begins and what ends**: with the sweep under way before, an accepted first block makes
a frame, a sweep that is given up, or a sweep under way. -/
theorem Tracks.sweeps_place (h : Tracks row seen taken a) (hPoints : 0 < row.points)
    (hSuits : p.Suits row.geometry row.format)
    (hPayload : p.payload.length = p.header.payloadSize.toNat) (now : Nat) :
    openings (if (a.place now p).2.isTaken then [p] else []) + a.underway =
      (a.place now p).2.frame?.toList.length + (a.place now p).2.discarded.toList.length +
        (a.place now p).1.underway := by
  obtain ⟨sweep, -, -, hNumbered, hOpen, hExpected, hHolds⟩ := h.underway
  by_cases hFirst : p.header.block = 1
  · have hOne : Numbered ([] ++ [p]) := numbered_concat.mpr ⟨numbered_nil, by rw [hFirst]; rfl⟩
    obtain ⟨hTaken, hEnds⟩ := sweeps_write (a := a.givingUp p) h.geometry h.format hPoints hOne
      (Nat.zero_lt_of_lt hOpen) (holds_ofCapacity row) hSuits hPayload now (a.givenUp p)
    have hOpening : openings [p] = 1 := by simp [openings, hFirst]
    rw [← h.geometry] at hTaken hEnds
    rw [place_of_opening hFirst, if_pos hTaken, hOpening, length_givenUp, ← hEnds]
    exact Nat.add_right_comm _ _ _
  · have hLater : ∀ taken : Bool, openings (if taken then [p] else []) = 0 := by
      intro taken
      cases taken <;> simp [openings, hFirst]
    rw [hLater, Nat.zero_add]
    by_cases hNext : p.header.block = a.expected
    · have hBehind : Numbered (sweep ++ [p]) :=
        numbered_concat.mpr ⟨hNumbered, by rw [hNext, hExpected]⟩
      have hNe : sweep ≠ [] := by
        rintro rfl
        exact hFirst (by rw [hNext]; exact UInt16.toNat_inj.mp hExpected)
      obtain ⟨buffer, hBuffer, hHolds⟩ := hHolds hNe
      obtain ⟨-, hEnds⟩ := sweeps_write (a := a) h.geometry h.format hPoints hBehind hOpen hHolds
        hSuits hPayload now none
      rw [place_of_next hNext hFirst hBuffer, hHolds.underway hPoints hNe hBuffer]
      exact hEnds.symm
    · -- The buffer stays, and the sweep in it is still to be counted.
      rw [place_of_gap hNext hFirst]
      exact (Nat.zero_add _).symm

theorem Tracks.sweeps_ingest (h : Tracks row seen taken a) (hPoints : 0 < row.points) (now : Nat)
    (bytes : List UInt8) :
    openings (a.acceptedOf? (.packet now bytes)).toList + a.underway =
      (a.ingest now bytes).2.frame?.toList.length +
        (a.ingest now bytes).2.discarded.toList.length + (a.ingest now bytes).1.underway := by
  cases hSuited : Packet.suited? a.geometry a.format bytes with
  | none =>
    obtain ⟨reason, -, hIngest⟩ := ingest_of_unsuited hSuited now
    simp only [acceptedOf?, hIngest]
    rfl
  | some p =>
    have hTogether := hSuited
    rw [h.geometry, h.format] at hTogether
    obtain ⟨hDecode, hSuits⟩ := Packet.suited?_eq_some_iff.mp hTogether
    have hPlace := h.counted.sweeps_place hPoints hSuits
      (Packet.length_payload_of_decode hDecode) now
    have hAccepted : (a.acceptedOf? (.packet now bytes)).toList =
        if (a.counted.place now p).2.isTaken then [p] else [] := by
      rw [acceptedOf?, ingest_of_suited hSuited, hDecode]
      split_ifs <;> rfl
    rw [hAccepted, ingest_of_suited hSuited]
    exact hPlace

/-! ### Any inputs in the books -/

/-- The sweep that an input throws away without a word. -/
def thrownBy (a : Assembler) : Input → Nat
  | .packet _ _ => 0
  | .reset => a.underway

/-- The sweeps that resets throw away, of those that have any bytes. -/
def thrown (a : Assembler) : List Input → Nat
  | [] => 0
  | i :: is => a.thrownBy i + thrown (a.feed i) is

theorem thrown_concat {inputs : List Input} {i : Input} :
    a.thrown (inputs ++ [i]) = a.thrown inputs + (a.after inputs).thrownBy i := by
  induction inputs generalizing a with
  | nil => exact (Nat.zero_add _).symm
  | cons j inputs ih =>
    rw [List.cons_append, thrown, ih, thrown, Nat.add_assoc]
    rfl

theorem openings_append (ps qs : List Packet) :
    openings (ps ++ qs) = openings ps + openings qs := List.countP_append

/-- What the counters of an assembler come to. -/
structure Balanced (row : GeometryRow) (inputs : List Input) (a : Assembler) : Prop where
  packets : a.stats.packets =
    a.stats.dropped + ((new row.geometry row.format).accepted inputs).length
  frames : a.stats.frames = ((new row.geometry row.format).frames inputs).length
  sweeps : openings ((new row.geometry row.format).accepted inputs) =
    a.stats.frames + a.stats.discarded + (new row.geometry row.format).thrown inputs + a.underway

theorem balanced_after (hPoints : 0 < row.points) (hBlocks : 0 < row.blocks.toNat)
    (inputs : List Input) :
    Balanced row inputs ((new row.geometry row.format).after inputs) := by
  induction inputs using List.reverseRecOn with
  | nil => exact ⟨rfl, rfl, rfl⟩
  | append_singleton inputs i ih =>
    obtain ⟨hPackets, hFrames, hSweeps⟩ := ih
    cases i with
    | packet now bytes =>
      have hBooked := booked_ingest ((new row.geometry row.format).after inputs) now bytes
      have hOnce := length_acceptedOf? ((new row.geometry row.format).after inputs) now bytes
      have hEnds := (tracks_after hBlocks inputs).sweeps_ingest hPoints now bytes
      refine ⟨?_, ?_, ?_⟩
      · rw [after_concat, accepted_concat, List.length_append, feed, hBooked.packets,
          hBooked.dropped, counted, hPackets]
        simp only [AssemblerStats.dropped]
        omega
      · rw [after_concat, frames_concat, List.length_append, ← hFrames]
        exact hBooked.frames
      · rw [after_concat, accepted_concat, openings_append, thrown_concat, feed, hSweeps,
          hBooked.frames, hBooked.discarded, counted, thrownBy]
        dsimp only
        omega
    | reset =>
      rw [after_concat]
      refine ⟨?_, ?_, ?_⟩
      · rw [accepted_concat]
        simpa [acceptedOf?, feed, reset] using hPackets
      · rw [frames_concat]
        simpa [frameOf?, feed, reset] using hFrames
      · -- What the buffer loses is what the reset throws away.
        have hGone : (((new row.geometry row.format).after inputs).feed .reset).underway = 0 := rfl
        rw [accepted_concat, thrown_concat, thrownBy, hGone]
        simpa [acceptedOf?, feed, reset, ← Nat.add_assoc] using hSweeps

/-- **The counters balance**, for the geometry of a row with any points and blocks, whatever
packets and resets came before.  The next packet is counted, and it is dropped, which raises the
counter of its cause and no other, or accepted, which raises none.  So what is counted is dropped or
accepted, and the sum of the dropped packets has an end only where their count has one.  A sweep
that begins with an accepted first block becomes a frame, or is given up, or thrown away by a reset,
or is under way; and frames are numbered as they are counted. -/
theorem counters_balance (row : GeometryRow) (hPoints : 0 < row.points)
    (hBlocks : 0 < row.blocks.toNat) (inputs : List Input) :
    let start := new row.geometry row.format
    let a := start.after inputs
    (∀ now bytes,
      (a.ingest now bytes).1.stats.packets = a.stats.packets + 1 ∧
      ((∃ reason, (a.ingest now bytes).2.verdict = .dropped reason ∧
          (a.ingest now bytes).2.frame? = none ∧ a.acceptedOf? (.packet now bytes) = none ∧
          ∀ cause, (a.ingest now bytes).1.stats.count cause =
            a.stats.count cause + if reason.cause = cause then 1 else 0) ∨
        (∃ p, a.acceptedOf? (.packet now bytes) = some p) ∧
          ∀ cause, (a.ingest now bytes).1.stats.count cause = a.stats.count cause)) ∧
    a.stats.packets = a.stats.dropped + (start.accepted inputs).length ∧
    (a.stats.packets < UInt64.size → a.stats.dropped? = some a.stats.dropped) ∧
    (start.accepted inputs).countP (fun p => p.header.block == 1) =
      a.stats.frames + a.stats.discarded + start.thrown inputs + (if 0 < a.offset then 1 else 0) ∧
    a.stats.frames = (start.frames inputs).length ∧ a.stats.frames = a.sequence := by
  intro start a
  obtain ⟨hPackets, hFrames, hSweeps⟩ := balanced_after hPoints hBlocks inputs
  refine ⟨fun now bytes => ⟨?_, ?_⟩, hPackets, fun hFits => ?_, hSweeps, hFrames, ?_⟩
  · exact (a.booked_ingest now bytes).packets
  · have hCount := (a.booked_ingest now bytes).count
    rcases a.dropped_or_accepted now bytes with ⟨reason, hVerdict, hNone⟩ | ⟨hCause, hSome⟩
    · refine Or.inl ⟨reason, hVerdict, by rw [Ingest.frame?, hVerdict], hNone, fun cause => ?_⟩
      rw [hCount, Ingest.cause?, hVerdict]
      simp only [Option.some.injEq]
      rfl
    · refine Or.inr ⟨hSome, fun cause => ?_⟩
      rw [hCount, hCause, if_neg (by simp)]
      rfl
  · exact AssemblerStats.dropped?_of_lt
      (Nat.lt_of_le_of_lt (Nat.le.intro hPackets.symm) hFits)
  · rw [hFrames, sequence_after]
    exact (Nat.zero_add _).symm

/-- A sweep that is given up, one that a reset throws away, a block out of order, and a frame. -/
def restlessInputs : List Input :=
  [.packet 1 (pairBytes 4 1), .packet 2 (pairBytes 5 1), .reset, .packet 3 (pairBytes 5 2),
    .packet 4 (pairBytes 6 1), .packet 5 (pairBytes 6 2)]

theorem counters_balance_restless :
    0 < pairRow.points ∧ 0 < pairRow.blocks.toNat ∧
      ((new pairRow.geometry pairRow.format).accepted restlessInputs).countP
          (fun p => p.header.block == 1) = 1 + 1 + 1 + 0 ∧
      ((new pairRow.geometry pairRow.format).after restlessInputs).stats.dropped = 1 ∧
      ((new pairRow.geometry pairRow.format).after restlessInputs).stats.packets = 1 + 4 := by
  obtain ⟨-, hPackets, -, hSweeps, -⟩ :=
    counters_balance pairRow (by decide) (by decide) restlessInputs
  exact ⟨by decide, by decide, hSweeps.trans (by decide +kernel), by decide +kernel,
    hPackets.trans (by decide +kernel)⟩

end Assembler

end LidarSweep
