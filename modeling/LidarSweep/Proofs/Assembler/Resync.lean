import LidarSweep.Proofs.Assembler.Bounds
import LidarSweep.Proofs.Assembler.Frames
import Mathlib.Data.List.Forall2
import Mathlib.Data.Option.Basic

/-!
# A first block always begins anew

Two assemblers for one geometry and format may have come to any two states.  Once both take the
same first block, or are reset, they are in step (`InStep`): they wait for the same block with the
same buffer, and only their counters tell them apart.  From then on they stay in step and complete
the same frames, whatever comes and whenever (`InStep.steps`).

The block need not be taken for that.  Where a first block is refused, none was ever written, and
both wait for a first block as they did from the start.
-/

namespace LidarSweep

/-- The same frame, at another time and with a number that is `d` less. -/
structure Frame.Matches (d : Int) (frame frame' : Frame) : Prop where
  same : frame' = { frame with receiptNs := frame'.receiptNs, sequence := frame'.sequence }
  sequence : (frame.sequence : Int) = frame'.sequence + d

namespace Assembler

/-- Assemblers that only their counters tell apart, with `d` more frames on the left. -/
structure InStep (d : Int) (s t : Assembler) : Prop where
  geometry : s.geometry = t.geometry
  format : s.format = t.format
  expected : s.expected = t.expected
  buffer : s.buffer = t.buffer
  sequence : (s.sequence : Int) = t.sequence + d

variable {d : Int} {s t : Assembler} {buffer : FrameBuffer} {p : Packet} {now now' : Nat}

/-- What came of one input on either side. -/
abbrev StayInStep (d : Int) (x y : Option Frame × Assembler) : Prop :=
  Option.Rel (Frame.Matches d) x.1 y.1 ∧ InStep d x.2 y.2

theorem InStep.counted (h : InStep d s t) : InStep d s.counted t.counted :=
  ⟨h.geometry, h.format, h.expected, h.buffer, h.sequence⟩

theorem InStep.drop (h : InStep d s t) (reason reason' : Drop) :
    InStep d (s.drop reason) (t.drop reason') :=
  ⟨h.geometry, h.format, h.expected, h.buffer, h.sequence⟩

/-- Assemblers that wait for a first block, with what they had. -/
theorem InStep.waiting (h : InStep d s t) :
    InStep d { s with expected := 1 } { t with expected := 1 } :=
  ⟨h.geometry, h.format, rfl, h.buffer, h.sequence⟩

theorem InStep.offset_eq (h : InStep d s t) : s.offset = t.offset := by
  rw [offset, offset, h.buffer]

theorem not_failed_of_admits (hAdmits : s.geometry.Admits s.format buffer.remaining)
    (hPayload : p.payload.length = s.geometry.payloadSize) {kept : FrameBuffer} {e : Error}
    (hFailed : buffer.writeWith s.geometry.blockOutputSize
      (s.format.convertInto p.payload s.geometry.points) = (kept, .error e)) : False := by
  obtain ⟨filled, -, -, hWrite⟩ := write_of_admits hAdmits hPayload 0
  rw [write_of_failed hFailed] at hWrite
  split_ifs at hWrite <;> simp at hWrite

/-- A block that is written to the same buffer comes to the same.  Which block is expected counts
only where it is refused. -/
theorem write_inStep (hGeometry : s.geometry = t.geometry) (hFormat : s.format = t.format)
    (hSequence : (s.sequence : Int) = t.sequence + d)
    (hExpected : ¬ s.geometry.Admits s.format buffer.remaining → s.expected = t.expected)
    (hPayload : p.payload.length = s.geometry.payloadSize)
    (discarded discarded' : Option Discarded) :
    StayInStep d
      (Ingest.frame? ⟨discarded, (s.write buffer now p).2⟩, (s.write buffer now p).1)
      (Ingest.frame? ⟨discarded', (t.write buffer now' p).2⟩, (t.write buffer now' p).1) := by
  rcases hWrite : buffer.writeWith s.geometry.blockOutputSize
    (s.format.convertInto p.payload s.geometry.points) with ⟨filled, e | n⟩
  · have hRefused : ¬ s.geometry.Admits s.format buffer.remaining := fun hAdmits =>
      not_failed_of_admits hAdmits hPayload hWrite
    rw [write_of_failed hWrite, write_of_failed (by rw [← hGeometry, ← hFormat, hWrite])]
    exact ⟨.none, hGeometry, hFormat, hExpected hRefused, rfl, hSequence⟩
  · rw [write_of_written hWrite, write_of_written (by rw [← hGeometry, ← hFormat, hWrite])]
    by_cases hLast : s.geometry.blocks ≤ p.header.block
    · rw [if_pos hLast, if_pos (by rwa [← hGeometry])]
      refine ⟨.some ⟨by simp only [hFormat], hSequence⟩, hGeometry, hFormat, rfl, rfl, ?_⟩
      push_cast
      omega
    · rw [if_neg hLast, if_neg (by rwa [← hGeometry])]
      exact ⟨.none, hGeometry, hFormat, rfl, rfl, hSequence⟩

/-! ### One input -/

/-- What came of a packet, in the form of a step. -/
abbrev outcome (r : Assembler × Ingest) : Option Frame × Assembler := (r.2.frame?, r.1)

/-- A first block, whatever came before it. -/
theorem place_first_inStep (hGeometry : s.geometry = t.geometry) (hFormat : s.format = t.format)
    (hSequence : (s.sequence : Int) = t.sequence + d)
    (hExpected : ¬ s.geometry.Admits s.format s.geometry.frameSize → s.expected = t.expected)
    (hFirst : p.header.block = 1) (hPayload : p.payload.length = s.geometry.payloadSize) :
    StayInStep d (outcome (s.place now p)) (outcome (t.place now' p)) := by
  obtain ⟨stats, discarded, hLeft⟩ := place_of_first (a := s) hFirst now
  obtain ⟨stats', discarded', hRight⟩ := place_of_first (a := t) hFirst now'
  have hFrame : t.geometry.frameSize = s.geometry.frameSize := by rw [hGeometry]
  rw [hFrame] at hRight
  rw [hLeft, hRight]
  refine write_inStep (s := { s with stats }) (t := { t with stats := stats' }) hGeometry hFormat
    hSequence (fun hRefused => hExpected ?_) hPayload discarded discarded'
  rwa [FrameBuffer.remaining_ofCapacity] at hRefused

theorem InStep.place (h : InStep d s t) (hPayload : p.payload.length = s.geometry.payloadSize) :
    StayInStep d (outcome (s.place now p)) (outcome (t.place now' p)) := by
  by_cases hFirst : p.header.block = 1
  · exact place_first_inStep h.geometry h.format h.sequence (fun _ => h.expected) hFirst hPayload
  · by_cases hNext : p.header.block = s.expected
    · have hNext' : p.header.block = t.expected := hNext.trans h.expected
      cases hBuffer : s.buffer with
      | some buffer =>
        rw [place_of_next hNext hFirst hBuffer,
          place_of_next hNext' hFirst (h.buffer.symm.trans hBuffer)]
        exact write_inStep h.geometry h.format h.sequence (fun _ => h.expected) hPayload none none
      | none =>
        rw [place_of_orphan hNext hFirst hBuffer,
          place_of_orphan hNext' hFirst (h.buffer.symm.trans hBuffer)]
        exact ⟨.none, (h.drop _ _).waiting⟩
    · have hNext' : p.header.block ≠ t.expected := h.expected ▸ hNext
      rw [place_of_gap hNext hFirst, place_of_gap hNext' hFirst]
      exact ⟨.none, (h.drop _ _).waiting⟩

theorem InStep.ingest (h : InStep d s t) (bytes : List UInt8) :
    StayInStep d (outcome (s.ingest now bytes)) (outcome (t.ingest now' bytes)) := by
  have hOther : Packet.suited? t.geometry t.format bytes =
      Packet.suited? s.geometry s.format bytes := by rw [h.geometry, h.format]
  cases hSuited : Packet.suited? s.geometry s.format bytes with
  | none =>
    obtain ⟨reason, -, hLeft⟩ := ingest_of_unsuited hSuited now
    obtain ⟨reason', -, hRight⟩ := ingest_of_unsuited (hOther.trans hSuited) now'
    rw [hLeft, hRight]
    exact ⟨.none, h.counted.drop reason reason'⟩
  | some p =>
    rw [ingest_of_suited hSuited, ingest_of_suited (hOther.trans hSuited)]
    exact h.counted.place (Packet.length_payload_of_suited hSuited)

/-- The bytes that come in, or none for a reset. -/
def Input.bytes? : Input → Option (List UInt8)
  | .packet _ bytes => some bytes
  | .reset => none

theorem InStep.feed (h : InStep d s t) {i j : Input} (hSame : i.bytes? = j.bytes?) :
    StayInStep d (s.frameOf? i, s.feed i) (t.frameOf? j, t.feed j) := by
  cases i with
  | packet now bytes =>
    cases j with
    | packet now' bytes' =>
      obtain rfl := Option.some.inj hSame
      exact h.ingest bytes
    | reset => cases hSame
  | reset =>
    cases j with
    | packet now' bytes' => cases hSame
    | reset => exact ⟨.none, h.geometry, h.format, rfl, rfl, h.sequence⟩

/-- **In step once, in step for ever.** -/
theorem InStep.steps (h : InStep d s t) {is js : List Input}
    (hSame : is.map Input.bytes? = js.map Input.bytes?) :
    List.Forall₂ (StayInStep d) (s.steps is) (t.steps js) := by
  induction is generalizing s t js with
  | nil =>
    obtain rfl : js = [] := List.map_eq_nil_iff.mp hSame.symm
    exact .nil
  | cons i is ih =>
    obtain ⟨j, js, rfl, hFirst, hRest⟩ := List.map_eq_cons_iff.mp hSame.symm
    have hStep := h.feed hFirst.symm
    exact .cons hStep (ih hStep.2 hRest.symm)

/-! ### Beginning anew -/

/-- A reset, or a suited first block. -/
def Input.Opens (g : Geometry) (f : Format) : Input → Prop
  | .packet _ bytes => ∃ p, Packet.suited? g f bytes = some p ∧ p.header.block = 1
  | .reset => True

variable {g : Geometry} {f : Format}

theorem inStep_of_opens (hs : Bounded g f s) (ht : Bounded g f t)
    (hSequence : (s.sequence : Int) = t.sequence + d) {i j : Input} (hOpens : i.Opens g f)
    (hSame : i.bytes? = j.bytes?) :
    StayInStep d (s.frameOf? i, s.feed i) (t.frameOf? j, t.feed j) := by
  obtain rfl := hs.geometry
  obtain rfl := hs.format
  cases i with
  | packet now bytes =>
    cases j with
    | packet now' bytes' =>
      obtain rfl := Option.some.inj hSame
      obtain ⟨p, hSuited, hFirst⟩ := hOpens
      have hOther : Packet.suited? t.geometry t.format bytes = some p := by
        rw [ht.geometry, ht.format, hSuited]
      simp only [frameOf?, feed]
      rw [ingest_of_suited hSuited, ingest_of_suited hOther]
      -- Only a refused block leaves the expected one as it was, and then both wait for the first.
      refine place_first_inStep (s := s.counted) (t := t.counted) ht.geometry.symm ht.format.symm
        hSequence (fun hClosed => ?_) hFirst (Packet.length_payload_of_suited hSuited)
      exact (hs.untouched hClosed).1.trans (ht.untouched hClosed).1.symm
    | reset => cases hSame
  | reset =>
    cases j with
    | packet now' bytes' => cases hSame
    | reset => exact ⟨.none, ht.geometry.symm, ht.format.symm, rfl, rfl, hSequence⟩

/-- **A first block always begins anew**, and so does a reset.  After any two histories of packets
and resets, the same inputs from such a one on complete the same frames at the same places, whenever
they come in on either side: with the same format, points and header, and with numbers that differ
by as much as the counters did.  The same block is expected after every input, and as many bytes
are written. -/
theorem steps_of_opens (g : Geometry) (f : Format) (history history' : List Input) (i j : Input)
    (is js : List Input) (hOpens : i.Opens g f)
    (hSame : (i :: is).map Input.bytes? = (j :: js).map Input.bytes?) :
    let s := (new g f).after history
    let t := (new g f).after history'
    List.Forall₂ (fun x y : Option Frame × Assembler =>
        Option.Rel (Frame.Matches (s.sequence - t.sequence)) x.1 y.1 ∧
        x.2.expected = y.2.expected ∧ x.2.offset = y.2.offset)
      (s.steps (i :: is)) (t.steps (j :: js)) := by
  intro s t
  have hSequence : (s.sequence : Int) = t.sequence + (s.sequence - t.sequence) := by omega
  obtain ⟨hFirst, hRest⟩ := List.cons.inj hSame
  have hOpened := inStep_of_opens (bounded_after g f history) (bounded_after g f history')
    hSequence hOpens hFirst
  exact List.Forall₂.imp (fun x y hxy => ⟨hxy.1, hxy.2.expected, hxy.2.offset_eq⟩)
    (List.Forall₂.cons hOpened (hOpened.2.steps hRest))

/-- After a whole sweep, or in the middle of one. -/
def wholeHistory : List Input := [.packet 1 (pairBytes 4 1), .packet 2 (pairBytes 4 2)]

def brokenHistory : List Input := [.packet 1 (pairBytes 4 1)]

/-- The sweep that follows makes a frame after both, as the second one or the first. -/
theorem steps_of_opens_pair :
    (Input.packet 5 (pairBytes 9 1)).Opens pairRow.geometry pairRow.format ∧
      [Input.packet 5 (pairBytes 9 1), .packet 6 (pairBytes 9 2)].map Input.bytes? =
        [Input.packet 7 (pairBytes 9 1), .packet 8 (pairBytes 9 2)].map Input.bytes? ∧
      List.Forall₂ (fun x y : Option Frame × Assembler =>
          Option.Rel (Frame.Matches 1) x.1 y.1 ∧
          x.2.expected = y.2.expected ∧ x.2.offset = y.2.offset)
        (((new pairRow.geometry pairRow.format).after wholeHistory).steps
          [.packet 5 (pairBytes 9 1), .packet 6 (pairBytes 9 2)])
        (((new pairRow.geometry pairRow.format).after brokenHistory).steps
          [.packet 7 (pairBytes 9 1), .packet 8 (pairBytes 9 2)]) ∧
      (((new pairRow.geometry pairRow.format).after wholeHistory).steps
          [.packet 5 (pairBytes 9 1), .packet 6 (pairBytes 9 2)]).map
            (·.1.map fun frame => (frame.header.sweep, frame.sequence)) = [none, some (9, 1)] ∧
      (((new pairRow.geometry pairRow.format).after brokenHistory).steps
          [.packet 7 (pairBytes 9 1), .packet 8 (pairBytes 9 2)]).map
            (·.1.map fun frame => (frame.header.sweep, frame.sequence)) = [none, some (9, 0)] := by
  have hOpens : (Input.packet 5 (pairBytes 9 1)).Opens pairRow.geometry pairRow.format :=
    ⟨pairPacket 9 1, by decide, by decide⟩
  have hWhole : ((new pairRow.geometry pairRow.format).after wholeHistory).sequence = 1 := by
    decide +kernel
  have hBroken : ((new pairRow.geometry pairRow.format).after brokenHistory).sequence = 0 := by
    decide +kernel
  have hAhead : (1 : Int) = ((new pairRow.geometry pairRow.format).after wholeHistory).sequence -
      ((new pairRow.geometry pairRow.format).after brokenHistory).sequence := by
    rw [hWhole, hBroken]
    rfl
  refine ⟨hOpens, rfl, ?_, by decide +kernel, by decide +kernel⟩
  rw [hAhead]
  exact steps_of_opens pairRow.geometry pairRow.format wholeHistory brokenHistory _ _ _ _ hOpens rfl

end Assembler

end LidarSweep
