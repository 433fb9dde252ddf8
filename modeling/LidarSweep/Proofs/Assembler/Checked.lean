import LidarSweep.Proofs.Assembler.Step
import LidarSweep.Proofs.Packet.Checked

/-!
# An assembler in steps that can fail

`Assembler.ingest?` takes a packet as a machine does: every slice must lie within its bytes, every
size and the next block's number within the words that hold them.  As long as the geometry's own
sizes do, nothing fails and it does what `Assembler.ingest` does (`ingest?_eq`).  Whether the sizes
suit each other, the format or the packet plays no part.
-/

namespace LidarSweep

open Bytes Checked

/-- The sizes that follow from a geometry and a format are a machine's numbers. -/
structure Geometry.SizesFit (g : Geometry) (format : Format) : Prop where
  payload : g.payloadSize < USize.size
  block : g.blockOutputSize < USize.size
  frame : g.frameSize < USize.size
  wires : format.payloadSize g.points < USize.size
  points : g.points * format.layout.pointSize < USize.size

/-! ### Filling a buffer -/

namespace FrameBuffer

/-- Lends a slice to a writer that can fail. -/
def writeWith? (b : FrameBuffer) (reserve : Nat)
    (writer : List UInt8 → Option (List UInt8 × Except Error Nat)) :
    Option (FrameBuffer × Except Error Nat) := do
  let remaining ← sub? b.capacity b.length
  if remaining < reserve then
    return (b, .error (.invalidPacket (.bufferOverflow b.length reserve b.capacity)))
  else
    let stop ← add? USize.size b.length reserve
    let lent ← slice? b.memory.toList b.length stop
    let outcome ← writer lent
    return b.writeWith reserve fun _ => outcome

theorem slice?_lent {b : FrameBuffer} {reserve : Nat} (h : reserve ≤ b.remaining) :
    slice? b.memory.toList b.length (b.length + reserve) = some (b.lent reserve) := by
  have hLength := b.length_le
  simp only [remaining, capacity] at h
  rw [slice?_of_le (Nat.le_add_right _ _) (by rw [Array.length_toList]; omega),
    Nat.add_sub_cancel_left]
  simp [lent, slice, List.extract_eq_take_drop]

theorem writeWith?_eq {b : FrameBuffer} {reserve : Nat} {writer : Writer}
    {writer' : List UInt8 → Option (List UInt8 × Except Error Nat)}
    (hCapacity : b.capacity < USize.size)
    (hWriter : ∀ out, out.length = reserve → writer' out = some (writer out)) :
    b.writeWith? reserve writer' = some (b.writeWith reserve writer) := by
  have hLength : b.length ≤ b.capacity := b.length_le
  have hRemaining : sub? b.capacity b.length = some b.remaining := sub?_of_le hLength
  rw [writeWith?, hRemaining, Option.bind_eq_bind, Option.bind_some]
  by_cases hFits : reserve ≤ b.remaining
  · have hStop : b.length + reserve < USize.size := by
      simp only [remaining] at hFits
      omega
    rw [if_neg (Nat.not_lt.mpr hFits), add?_of_lt hStop, Option.bind_some, slice?_lent hFits,
      Option.bind_eq_bind, Option.bind_some, hWriter _ (length_lent hFits), Option.bind_eq_bind,
      Option.bind_some]
    rw [writeWith_of_fits hFits, writeWith_of_fits hFits]
    rfl
  · rw [if_pos (Nat.lt_of_not_le hFits), writeWith_of_full hFits]
    rfl

end FrameBuffer

/-! ### One packet -/

namespace Assembler

def write? (a : Assembler) (buffer : FrameBuffer) (now : Nat) (p : Packet) :
    Option (Assembler × Verdict) := do
  let block := p.header.block
  let reserve ← a.geometry.blockOutputSize?
  let (buffer, outcome) ← buffer.writeWith? reserve
    (a.format.convertInto? p.payload a.geometry.points)
  match outcome with
  | .error e =>
    return ({ a with buffer := some buffer }.drop (.overflow block e),
      .dropped (.overflow block e))
  | .ok _ =>
    if block ≥ a.geometry.blocks then
      return ({ a with
          expected := 1, buffer := none, sequence := a.sequence + 1
          stats := { a.stats with frames := a.stats.frames + 1 } },
        .completed {
          format := a.format, data := buffer.contents, receiptNs := now
          sequence := a.sequence, header := p.header })
    else
      let next ← add? UInt16.size block.toNat 1
      return ({ a with expected := UInt16.ofNat next, buffer := some buffer }, .accepted)

def place? (a : Assembler) (now : Nat) (p : Packet) : Option (Assembler × Ingest) :=
  let block := p.header.block
  if block ≠ a.expected ∧ block ≠ 1 then
    let reason := .sequence block p.header.sweep a.expected
    some ({ a.drop reason with expected := 1 }, { verdict := .dropped reason })
  else if block = 1 then do
    let size := a.offset
    let discarded := if size = 0 then none else some { sweep := p.header.sweep, size }
    let stats := { a.stats with discarded := a.stats.discarded + discarded.toList.length }
    let (a, verdict) ← write? { a with stats } (.ofCapacity a.geometry.frameSize) now p
    return (a, { discarded, verdict })
  else
    match a.buffer with
    | some buffer => do
      let (a, verdict) ← write? a buffer now p
      return (a, { verdict })
    | none => some ({ a.drop (.orphan block) with expected := 1 },
        { verdict := .dropped (.orphan block) })

def ingest? (a : Assembler) (now : Nat) (bs : List UInt8) : Option (Assembler × Ingest) := do
  let a := a.counted
  match ← Packet.decode? bs with
  | .error e => return (a.drop (.malformed e), { verdict := .dropped (.malformed e) })
  | .ok p =>
    let _ ← a.geometry.payloadSize?
    match p.unsuited? a.geometry a.format with
    | some reason => return (a.drop reason, { verdict := .dropped reason })
    | none => a.place? now p

variable {a : Assembler} {p : Packet}

theorem write?_eq {buffer : FrameBuffer} (hSizes : a.geometry.SizesFit a.format)
    (hCapacity : buffer.capacity < USize.size) (hSmall : p.payload.length < 65536) (now : Nat) :
    a.write? buffer now p = some (a.write buffer now p) := by
  have hWritten : buffer.writeWith? a.geometry.blockOutputSize
      (a.format.convertInto? p.payload a.geometry.points) =
        some (buffer.writeWith a.geometry.blockOutputSize
          (a.format.convertInto p.payload a.geometry.points)) :=
    FrameBuffer.writeWith?_eq hCapacity fun out hOut =>
      Format.convertInto?_eq hSizes.wires hSizes.points (lt_word (by omega))
        (Nat.lt_trans hSmall (by decide)) (hOut ▸ hSizes.block)
  rw [write?, Geometry.blockOutputSize?_of_lt hSizes.block, Option.bind_eq_bind, Option.bind_some,
    hWritten, Option.bind_eq_bind, Option.bind_some]
  rcases hWrite : buffer.writeWith a.geometry.blockOutputSize
    (a.format.convertInto p.payload a.geometry.points) with ⟨filled, e | n⟩
  · rw [write_of_failed hWrite]
    rfl
  · rw [write_of_written hWrite]
    by_cases hLast : a.geometry.blocks ≤ p.header.block
    · simp only [ge_iff_le, if_pos hLast]
      rfl
    · have hNext : p.header.block.toNat + 1 < UInt16.size := by
        have hBlocks := a.geometry.blocks.toNat_lt
        rw [UInt16.le_iff_toNat_le] at hLast
        exact Nat.lt_of_le_of_lt (Nat.lt_of_not_le hLast) hBlocks
      have hBlock : UInt16.ofNat (p.header.block.toNat + 1) = p.header.block + 1 := by
        rw [UInt16.ofNat_add, UInt16.ofNat_toNat]
        rfl
      simp only [ge_iff_le, if_neg hLast, add?_of_lt hNext, Option.bind_some, hBlock]
      rfl

theorem place?_eq (hSizes : a.geometry.SizesFit a.format)
    (hCapacity : ∀ buffer, a.buffer = some buffer → buffer.capacity < USize.size)
    (hSmall : p.payload.length < 65536) (now : Nat) : a.place? now p = some (a.place now p) := by
  have hFrame : (FrameBuffer.ofCapacity a.geometry.frameSize).capacity < USize.size := by
    rw [FrameBuffer.capacity_ofCapacity]
    exact hSizes.frame
  by_cases hFirst : p.header.block = 1
  · have hWrite := fun stats => write?_eq (a := { a with stats }) hSizes hFrame hSmall now
    simp only [place?, place, hFirst, ne_eq, not_true_eq_false, and_false, if_false, if_true,
      hWrite, Option.bind_eq_bind, Option.bind_some]
    rfl
  · by_cases hNext : p.header.block = a.expected
    · simp only [place?]
      rw [if_neg fun h => h.1 hNext, if_neg hFirst]
      cases hBuffer : a.buffer with
      | some buffer =>
        simp only [write?_eq hSizes (hCapacity buffer hBuffer) hSmall now, Option.bind_eq_bind,
          Option.bind_some]
        rw [place_of_next hNext hFirst hBuffer]
        rfl
      | none => rw [place_of_orphan hNext hFirst hBuffer]
    · rw [place_of_gap hNext hFirst]
      exact if_pos ⟨hNext, hFirst⟩

/-- **A packet is taken without a slice out of range or a number too large.** -/
theorem ingest?_eq (hSizes : a.geometry.SizesFit a.format)
    (hCapacity : ∀ buffer, a.buffer = some buffer → buffer.capacity < USize.size) (now : Nat)
    (bytes : List UInt8) : a.ingest? now bytes = some (a.ingest now bytes) := by
  rw [ingest?, Packet.decode?_eq, Option.bind_eq_bind, Option.bind_some]
  simp only [ingest]
  cases hDecode : Packet.decode bytes with
  | error e => rfl
  | ok p =>
    have hSmall : p.payload.length < 65536 := by
      rw [Packet.length_payload_of_decode hDecode]
      exact p.header.payloadSize.toNat_lt
    have hSize : a.counted.geometry.payloadSize? = some a.geometry.payloadSize :=
      Geometry.payloadSize?_of_lt hSizes.payload
    have hPlace := place?_eq (a := a.counted) hSizes hCapacity hSmall now
    simp only [counted] at hSize hPlace
    simp only [counted, hSize]
    cases hReason : p.unsuited? a.geometry a.format with
    | some reason => rfl
    | none => exact hPlace

end Assembler

end LidarSweep
