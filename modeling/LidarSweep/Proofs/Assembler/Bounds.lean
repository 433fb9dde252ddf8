import LidarSweep.Packet.Builder
import LidarSweep.Proofs.Assembler.Checked
import LidarSweep.Proofs.Assembler.Run

/-!
# What an assembler keeps to, whatever its geometry

A geometry need not suit its format, nor itself.  `Bounded g f a` is what holds all the same
of an assembler for it after any inputs: the expected block is one that a sweep can have, a sweep
under way has a buffer with the room of a frame, and if a first block cannot be written then none
ever was.  The last is why a packet that is refused changes nothing, although a first block takes
a new buffer before it is written: all that makes the first write fail is in the geometry and the
format, so there was no sweep to lose.
-/

namespace LidarSweep.Assembler

/-- The written bytes of the sweep under way. -/
def contents (a : Assembler) : List UInt8 :=
  match a.buffer with
  | some b => b.contents
  | none => []

theorem length_contents (a : Assembler) : a.contents.length = a.offset := by
  cases hBuffer : a.buffer with
  | none => simp [contents, offset, hBuffer]
  | some buffer => simp [contents, offset, hBuffer]

structure Bounded (g : Geometry) (f : Format) (a : Assembler) : Prop where
  geometry : a.geometry = g
  format : a.format = f
  expected_pos : 1 ≤ a.expected.toNat
  expected_le : a.expected.toNat ≤ max 1 g.blocks.toNat
  /-- A sweep is under way when a later block is expected -/
  underway : 1 < a.expected.toNat → ∃ buffer, a.buffer = some buffer
  capacity : ∀ buffer, a.buffer = some buffer → buffer.capacity = g.frameSize
  /-- Where no first block can be written, none was -/
  untouched : ¬ g.Admits f g.frameSize → a.expected = 1 ∧ a.contents = []

/-- No block finds itself without a sweep, and one that is refused leaves the sweep as it is. -/
structure Spares (a : Assembler) (verdict : Verdict) (b : Assembler) : Prop where
  orphan : ∀ block, verdict ≠ .dropped (.orphan block)
  refused : ∀ block e, verdict = .dropped (.overflow block e) →
    b.expected = a.expected ∧ b.contents = a.contents

variable {g : Geometry} {f : Format} {a : Assembler} {buffer : FrameBuffer} {p : Packet}

theorem bounded_new (g : Geometry) (f : Format) : Bounded g f (new g f) where
  geometry := rfl
  format := rfl
  expected_pos := Nat.le_refl 1
  expected_le := Nat.le_max_left _ _
  underway h := absurd h (Nat.lt_irrefl 1)
  capacity _ h := by cases h
  untouched _ := ⟨rfl, rfl⟩

/-- An assembler that waits for a first block. -/
theorem Bounded.waiting (h : Bounded g f a) {b : Assembler} (hGeometry : b.geometry = g)
    (hFormat : b.format = f) (hExpected : b.expected = 1)
    (hBuffer : b.buffer = a.buffer ∨ b.buffer = none) : Bounded g f b where
  geometry := hGeometry
  format := hFormat
  expected_pos := by rw [hExpected]; exact Nat.le_refl 1
  expected_le := by rw [hExpected]; exact Nat.le_max_left _ _
  underway hLater := by
    rw [hExpected] at hLater
    exact absurd hLater (Nat.lt_irrefl 1)
  capacity buffer hSome := by
    rcases hBuffer with hSame | hNone
    · exact h.capacity buffer (hSame ▸ hSome)
    · rw [hNone] at hSome
      cases hSome
  untouched hClosed := by
    refine ⟨hExpected, ?_⟩
    rcases hBuffer with hSame | hNone
    · rw [contents, hSame]
      exact (h.untouched hClosed).2
    · rw [contents, hNone]

theorem Bounded.offset_le (h : Bounded g f a) : a.offset ≤ g.frameSize := by
  cases hBuffer : a.buffer with
  | none => simp [offset, hBuffer]
  | some buffer =>
    rw [offset, hBuffer, ← h.capacity buffer hBuffer]
    exact buffer.length_le

/-- Counters have no part in it. -/
theorem Bounded.withStats (h : Bounded g f a) (stats : AssemblerStats) :
    Bounded g f { a with stats } :=
  ⟨h.geometry, h.format, h.expected_pos, h.expected_le, h.underway, h.capacity, h.untouched⟩

theorem Bounded.reset (h : Bounded g f a) : Bounded g f a.reset :=
  h.waiting h.geometry h.format rfl (Or.inr rfl)

/-! ### A suited packet -/

/-- The buffer that a block is written to. -/
inductive Target (g : Geometry) (a : Assembler) (p : Packet) : FrameBuffer → Prop where
  | first (h : p.header.block = 1) : Target g a p (.ofCapacity g.frameSize)
  | next {buffer : FrameBuffer} (h : p.header.block = a.expected) (hLater : p.header.block ≠ 1)
      (hBuffer : a.buffer = some buffer) : Target g a p buffer

theorem Target.withStats {stats : AssemblerStats} (h : Target g a p buffer) :
    Target g { a with stats } p buffer := by
  cases h with
  | first hFirst => exact .first hFirst
  | next hNext hLater hBuffer => exact .next hNext hLater hBuffer

/-- A suited packet opens a gap, or is written to a buffer; there always is one. -/
theorem Bounded.place_cases (h : Bounded g f a) (p : Packet) (now : Nat) :
    (p.header.block ≠ a.expected ∧ p.header.block ≠ 1) ∨
    ∃ buffer stats discarded, Target g a p buffer ∧
      a.place now p = ((write { a with stats } buffer now p).1,
        { discarded, verdict := (write { a with stats } buffer now p).2 }) := by
  by_cases hFirst : p.header.block = 1
  · obtain ⟨stats, discarded, hPlace⟩ := place_of_first (a := a) hFirst now
    obtain rfl := h.geometry
    exact Or.inr ⟨_, stats, discarded, .first hFirst, hPlace⟩
  · by_cases hNext : p.header.block = a.expected
    · have hLater : 1 < a.expected.toNat := by
        refine Nat.lt_of_le_of_ne h.expected_pos fun hOne => hFirst ?_
        rw [hNext]
        exact UInt16.toNat_inj.mp hOne.symm
      obtain ⟨buffer, hBuffer⟩ := h.underway hLater
      exact Or.inr ⟨buffer, a.stats, none, .next hNext hFirst hBuffer,
        place_of_next hNext hFirst hBuffer now⟩
    · exact Or.inl ⟨hNext, hFirst⟩

theorem Bounded.capacity_target (h : Bounded g f a) (hTarget : Target g a p buffer) :
    buffer.capacity = g.frameSize := by
  cases hTarget with
  | first => exact FrameBuffer.capacity_ofCapacity _
  | next _ _ hBuffer => exact h.capacity buffer hBuffer

/-- The room in any buffer is within a frame's. -/
theorem Bounded.remaining_le (h : Bounded g f a) (hTarget : Target g a p buffer) :
    buffer.remaining ≤ g.frameSize := by
  rw [← h.capacity_target hTarget]
  exact Nat.sub_le _ _

/-- **Where the first block is refused, no sweep is lost.**  A refused packet was meant for a
buffer with the contents of the sweep under way. -/
theorem Bounded.contents_of_refused (h : Bounded g f a) (hTarget : Target g a p buffer)
    (hRefused : ¬ g.Admits f buffer.remaining) : buffer.contents = a.contents := by
  cases hTarget with
  | first =>
    rw [FrameBuffer.remaining_ofCapacity] at hRefused
    rw [FrameBuffer.contents_ofCapacity, (h.untouched hRefused).2]
  | next _ _ hBuffer => rw [contents, hBuffer]

theorem Bounded.write (h : Bounded g f a) (hTarget : Target g a p buffer)
    (hPayload : p.payload.length = g.payloadSize) (now : Nat) :
    Bounded g f (a.write buffer now p).1 ∧
      Spares a (a.write buffer now p).2 (a.write buffer now p).1 := by
  have hCapacity := h.capacity_target hTarget
  obtain rfl := h.geometry
  obtain rfl := h.format
  by_cases hAdmits : a.geometry.Admits a.format buffer.remaining
  · -- A block that has room in a part of a frame has room in a whole one, so `untouched` is void.
    have hOpen : a.geometry.Admits a.format a.geometry.frameSize :=
      hAdmits.mono (h.remaining_le hTarget)
    obtain ⟨filled, -, hFilled, hWrite⟩ := write_of_admits hAdmits hPayload now
    rw [hWrite]
    by_cases hLast : a.geometry.blocks ≤ p.header.block
    · rw [if_pos hLast]
      exact ⟨h.waiting rfl rfl rfl (Or.inr rfl), by simp, by simp⟩
    · rw [if_neg hLast]
      have hBlock : p.header.block.toNat < a.geometry.blocks.toNat := by
        rw [UInt16.le_iff_toNat_le] at hLast
        omega
      have hNext := toNat_next hBlock
      refine ⟨⟨rfl, rfl, ?_, ?_, fun _ => ⟨filled, rfl⟩, ?_, fun hClosed => absurd hOpen hClosed⟩,
        by simp, by simp⟩
      · exact hNext ▸ Nat.le_add_left 1 _
      · exact hNext ▸ Nat.le_trans hBlock (Nat.le_max_right _ _)
      · rintro _ ⟨⟩
        rw [hFilled, hCapacity]
  · -- The buffer may be a new one, yet it holds what the old one held.
    have hKept := h.contents_of_refused hTarget hAdmits
    obtain ⟨kept, e, hContents, hRoom, hWrite⟩ := write_of_refused hAdmits hPayload now
    rw [hWrite]
    have hSame : ({ a with buffer := some kept }.drop (.overflow p.header.block e)).contents =
        a.contents := hContents.trans hKept
    refine ⟨⟨rfl, rfl, h.expected_pos, h.expected_le, fun _ => ⟨kept, rfl⟩, ?_, ?_⟩,
      by simp, fun _ _ _ => ⟨rfl, hSame⟩⟩
    · rintro _ ⟨⟩
      rw [hRoom, hCapacity]
    · exact fun hClosed => ⟨(h.untouched hClosed).1, hSame.trans (h.untouched hClosed).2⟩

theorem Bounded.place (h : Bounded g f a) (hPayload : p.payload.length = g.payloadSize)
    (now : Nat) :
    Bounded g f (a.place now p).1 ∧ Spares a (a.place now p).2.verdict (a.place now p).1 := by
  rcases h.place_cases p now with ⟨hNext, hFirst⟩ | ⟨buffer, stats, discarded, hTarget, hPlace⟩
  · rw [place_of_gap hNext hFirst]
    exact ⟨h.waiting h.geometry h.format rfl (Or.inl rfl), by simp, by simp⟩
  · rw [hPlace]
    obtain ⟨hBounded, hSpares⟩ := (h.withStats stats).write hTarget.withStats hPayload now
    exact ⟨hBounded, hSpares.orphan, hSpares.refused⟩

/-! ### Any packet -/

/-- **One packet.** -/
theorem Bounded.ingest (h : Bounded g f a) (now : Nat) (bytes : List UInt8) :
    Bounded g f (a.ingest now bytes).1 ∧
      Spares a (a.ingest now bytes).2.verdict (a.ingest now bytes).1 := by
  cases hSuited : Packet.suited? a.geometry a.format bytes with
  | none =>
    obtain ⟨reason, hApart, hIngest⟩ := ingest_of_unsuited hSuited now
    rw [hIngest]
    refine ⟨h.withStats _, ?_, ?_⟩
    · rintro block ⟨⟩
      exact hApart
    · rintro block e ⟨⟩
      exact absurd hApart id
  | some p =>
    have hPayload := Packet.length_payload_of_suited hSuited
    rw [h.geometry] at hPayload
    rw [ingest_of_suited hSuited now]
    obtain ⟨hBounded, hSpares⟩ := (h.withStats a.counted.stats).place hPayload now
    exact ⟨hBounded, hSpares.orphan, hSpares.refused⟩

/-- **Any inputs.** -/
theorem bounded_after (g : Geometry) (f : Format) (inputs : List Input) :
    Bounded g f ((new g f).after inputs) := by
  induction inputs using List.reverseRecOn with
  | nil => exact bounded_new g f
  | append_singleton inputs i ih =>
    rw [after_concat]
    cases i with
    | packet now bytes => exact (ih.ingest now bytes).1
    | reset => exact ih.reset

/-- **An assembler keeps to its bounds**, for a geometry that suits its format or not, after any
packets and resets.  The expected block is one that a sweep can have, a sweep under way has a
buffer, and no more is written than a frame holds.  The next packet is taken without a slice out of
range or a block number past the last one, never finds itself without a sweep, and leaves the sweep
under way as it is if it is refused. -/
theorem bounds_after (g : Geometry) (f : Format) (hSizes : g.SizesFit f) (inputs : List Input) :
    let a := (new g f).after inputs
    (1 ≤ a.expected.toNat ∧ a.expected.toNat ≤ max 1 g.blocks.toNat) ∧
    (1 < a.expected.toNat → ∃ buffer, a.buffer = some buffer) ∧
    a.offset ≤ g.frameSize ∧
    ∀ now bytes,
      a.ingest? now bytes = some (a.ingest now bytes) ∧
      (∀ block, (a.ingest now bytes).2.verdict ≠ .dropped (.orphan block)) ∧
      ∀ block e, (a.ingest now bytes).2.verdict = .dropped (.overflow block e) →
        (a.ingest now bytes).1.expected = a.expected ∧
        (a.ingest now bytes).1.offset = a.offset ∧
        (a.ingest now bytes).1.contents = a.contents := by
  intro a
  have h : Bounded g f a := bounded_after g f inputs
  refine ⟨⟨h.expected_pos, h.expected_le⟩, h.underway, h.offset_le, fun now bytes => ⟨?_, ?_, ?_⟩⟩
  · refine ingest?_eq (by rwa [h.geometry, h.format]) (fun buffer hBuffer => ?_) now bytes
    rw [h.capacity buffer hBuffer]
    exact hSizes.frame
  · exact (h.ingest now bytes).2.orphan
  · intro block e hVerdict
    obtain ⟨hExpected, hContents⟩ := (h.ingest now bytes).2.refused block e hVerdict
    refine ⟨hExpected, ?_, hContents⟩
    rw [← length_contents, hContents, length_contents]

/-- Sweeps of three blocks, in frames that have no room for one. -/
def tightGeometry : Geometry where
  pointSize := 4
  points := 1
  blocks := 3
  frameSize := 3
  scanSpeed := 600
  wireSize := 0
  preamble := 4

def tightBytes (sweep : UInt32) : List UInt8 :=
  (Builder.new 0x0101 .hz10 .calibration).encode sweep 1 [1, 2, 3, 4]

/-- A first block after another one, both refused. -/
theorem bounds_after_tight :
    tightGeometry.SizesFit .calibration ∧
      ∃ e, (((new tightGeometry .calibration).after [.packet 1 (tightBytes 7)]).ingest 2
          (tightBytes 8)).2.verdict = .dropped (.overflow 1 e) ∧
        (((new tightGeometry .calibration).after [.packet 1 (tightBytes 7)]).ingest 2
          (tightBytes 8)).1.expected = 1 ∧
        (((new tightGeometry .calibration).after [.packet 1 (tightBytes 7)]).ingest 2
          (tightBytes 8)).1.contents = [] := by
  have hSizes : tightGeometry.SizesFit .calibration :=
    ⟨Checked.lt_word (by decide), Checked.lt_word (by decide), Checked.lt_word (by decide),
      Checked.lt_word (by decide), Checked.lt_word (by decide)⟩
  obtain ⟨-, -, -, hNext⟩ := bounds_after tightGeometry .calibration hSizes
    [.packet 1 (tightBytes 7)]
  have hRefused : (((new tightGeometry .calibration).after [.packet 1 (tightBytes 7)]).ingest 2
      (tightBytes 8)).2.verdict =
        .dropped (.overflow 1 (.invalidPacket (.bufferOverflow 0 4 3))) := rfl
  have hBefore : ((new tightGeometry .calibration).after [.packet 1 (tightBytes 7)]).contents =
      [] := rfl
  obtain ⟨hExpected, -, hContents⟩ := (hNext 2 (tightBytes 8)).2.2 _ _ hRefused
  exact ⟨hSizes, _, hRefused, hExpected, hContents.trans hBefore⟩

end LidarSweep.Assembler
