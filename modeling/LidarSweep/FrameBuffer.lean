import LidarSweep.Error

/-!
# Frame buffers

A buffer has a fixed capacity and is filled from the front. A writer is lent the bytes after the
written ones, changes them as it likes, and fails or says how many to keep. What does not fit is
refused before the writer sees anything; what a failed writer left behind is not part of the
contents, yet a later writer may find it.
-/

namespace LidarSweep

structure FrameBuffer where
  memory : Array UInt8
  length : Nat
  length_le : length ≤ memory.size

namespace FrameBuffer

/-- Puts `bytes` into `memory` from position `start` on, as far as it reaches. -/
def overwrite (memory : Array UInt8) (start : Nat) : List UInt8 → Array UInt8
  | [] => memory
  | b :: bs => overwrite (memory.setIfInBounds start b) (start + 1) bs

@[simp] theorem size_overwrite (memory : Array UInt8) (start : Nat) (bs : List UInt8) :
    (overwrite memory start bs).size = memory.size := by
  induction bs generalizing memory start with
  | nil => rfl
  | cons b bs ih => simp [overwrite, ih]

theorem toList_overwrite {memory : Array UInt8} {start : Nat} {bs : List UInt8}
    (h : start + bs.length ≤ memory.size) :
    (overwrite memory start bs).toList =
      memory.toList.take start ++ bs ++ memory.toList.drop (start + bs.length) := by
  induction bs generalizing memory start with
  | nil => simp [overwrite]
  | cons b bs ih =>
    have hStart : start < memory.toList.length := by
      simp only [List.length_cons, Array.length_toList] at h ⊢
      omega
    rw [overwrite, ih (by simp only [List.length_cons, Array.size_setIfInBounds] at h ⊢; omega),
      Array.toList_setIfInBounds, List.take_add_one, List.take_set_of_le (Nat.le_refl start),
      List.drop_set_of_lt (by omega), List.getElem?_set_self hStart, List.length_cons,
      show start + 1 + bs.length = start + (bs.length + 1) by omega]
    simp

def ofCapacity (capacity : Nat) : FrameBuffer :=
  ⟨Array.replicate capacity 0, 0, Nat.zero_le _⟩

def capacity (b : FrameBuffer) : Nat := b.memory.size

def remaining (b : FrameBuffer) : Nat := b.capacity - b.length

def isEmpty (b : FrameBuffer) : Bool := b.length == 0

/-- The written bytes. -/
def contents (b : FrameBuffer) : List UInt8 := (b.memory.extract 0 b.length).toList

/-- The memory, cut off behind the written bytes. -/
def freeze (b : FrameBuffer) : List UInt8 := (b.memory.shrink b.length).toList

/-- Forgets the contents and keeps the memory. -/
def clear (b : FrameBuffer) : FrameBuffer := ⟨b.memory, 0, Nat.zero_le _⟩

/-- What is done to lent bytes: the bytes after it, and how many count or why it failed. -/
abbrev Writer := List UInt8 → List UInt8 × Except Error Nat

/-- What a writer that asks for `reserve` bytes is lent. -/
def lent (b : FrameBuffer) (reserve : Nat) : List UInt8 :=
  (b.memory.extract b.length (b.length + reserve)).toList

/-- Takes back the `reserve` bytes that were lent and keeps as many as the writer says, at most all
of them. -/
def keep (b : FrameBuffer) {reserve : Nat} (h : reserve ≤ b.remaining) :
    List UInt8 × Except Error Nat → FrameBuffer × Except Error Nat
  | (bytes, .error e) =>
    (⟨overwrite b.memory b.length (bytes.take reserve), b.length,
      by rw [size_overwrite]; exact b.length_le⟩, .error e)
  | (bytes, .ok written) =>
    (⟨overwrite b.memory b.length (bytes.take reserve), b.length + min written reserve, by
      have hLength := b.length_le
      rw [remaining, capacity] at h
      rw [size_overwrite]
      omega⟩, .ok (min written reserve))

/-- Lends `reserve` bytes to a writer, which may do more than write in `m`. -/
@[inline]
def writeWithM {m : Type → Type} [Monad m] (b : FrameBuffer) (reserve : Nat)
    (writer : List UInt8 → m (List UInt8 × Except Error Nat)) :
    m (FrameBuffer × Except Error Nat) :=
  if h : reserve ≤ b.remaining then do
    let written ← writer (b.lent reserve)
    return b.keep h written
  else
    return (b, .error (.invalidPacket (.bufferOverflow b.length reserve b.capacity)))

/-- Lends `reserve` bytes to a writer that does nothing but write. -/
def writeWith (b : FrameBuffer) (reserve : Nat) (writer : Writer) :
    FrameBuffer × Except Error Nat :=
  Id.run (b.writeWithM reserve fun lent => pure (writer lent))

theorem contents_eq_take (b : FrameBuffer) : b.contents = b.memory.toList.take b.length := by
  simp [contents]

theorem freeze_eq_contents (b : FrameBuffer) : b.freeze = b.contents := by
  rw [freeze, Array.toList_shrink, contents_eq_take]

@[simp] theorem length_contents (b : FrameBuffer) : b.contents.length = b.length := by
  rw [contents_eq_take, List.length_take, Array.length_toList, Nat.min_eq_left b.length_le]

@[simp] theorem contents_ofCapacity (capacity : Nat) : (ofCapacity capacity).contents = [] := by
  simp [contents_eq_take, ofCapacity]

@[simp] theorem capacity_ofCapacity (capacity : Nat) :
    (ofCapacity capacity).capacity = capacity := by
  simp [FrameBuffer.capacity, ofCapacity]

@[simp] theorem remaining_ofCapacity (capacity : Nat) :
    (ofCapacity capacity).remaining = capacity := by
  simp only [remaining, capacity_ofCapacity]
  rfl

section
variable {b : FrameBuffer} {reserve written : Nat} {writer : Writer} {bytes : List UInt8}

theorem length_lent (h : reserve ≤ b.remaining) : (b.lent reserve).length = reserve := by
  have hLength := b.length_le
  simp only [remaining, capacity] at h
  simp only [lent, Array.length_toList, Array.size_extract]
  omega

/-- The bytes that were lent lie behind the contents. -/
theorem take_overwrite (h : reserve ≤ b.remaining) (bytes : List UInt8) {taken : Nat}
    (hTaken : taken ≤ (bytes.take reserve).length) :
    (overwrite b.memory b.length (bytes.take reserve)).toList.take (b.length + taken) =
      b.contents ++ (bytes.take reserve).take taken := by
  have hLength := b.length_le
  have hBytes : (bytes.take reserve).length ≤ reserve := List.length_take_le _ _
  have hOld : (b.memory.toList.take b.length).length = b.length := by
    rw [List.length_take, Array.length_toList, Nat.min_eq_left hLength]
  rw [remaining, capacity] at h
  rw [contents_eq_take, toList_overwrite (by omega), List.append_assoc, List.take_append, hOld,
    List.take_of_length_le (by omega), Nat.add_sub_cancel_left,
    List.take_append_of_le_length hTaken]

theorem writeWith_of_fits (h : reserve ≤ b.remaining) (writer : Writer) :
    b.writeWith reserve writer = b.keep h (writer (b.lent reserve)) := by
  rw [writeWith, writeWithM, dif_pos h]
  rfl

/-- What does not fit is refused. -/
theorem writeWith_of_full (h : ¬ reserve ≤ b.remaining) (writer : Writer) :
    b.writeWith reserve writer =
      (b, .error (.invalidPacket (.bufferOverflow b.length reserve b.capacity))) := by
  rw [writeWith, writeWithM, dif_neg h]
  rfl

/-- A writer that leaves as many bytes as it was lent adds those it counts to the contents. -/
theorem writeWith_of_ok (hFits : reserve ≤ b.remaining)
    (hWriter : writer (b.lent reserve) = (bytes, .ok written)) (hBytes : bytes.length = reserve) :
    ∃ b', b.writeWith reserve writer = (b', .ok (min written reserve)) ∧
      b'.contents = b.contents ++ bytes.take written ∧ b'.capacity = b.capacity := by
  rw [writeWith_of_fits hFits, hWriter]
  refine ⟨_, rfl, ?_, size_overwrite _ _ _⟩
  have hTake : bytes.take reserve = bytes := List.take_of_length_le (Nat.le_of_eq hBytes)
  have hTaken : min written reserve ≤ (bytes.take reserve).length := by
    rw [hTake, hBytes]
    exact Nat.min_le_right _ _
  rw [contents_eq_take, take_overwrite hFits bytes hTaken, hTake, ← hBytes, ← List.take_eq_take_min]

/-- A writer that fails adds nothing to the contents. -/
theorem writeWith_of_error {e : Error} (hFits : reserve ≤ b.remaining)
    (hWriter : writer (b.lent reserve) = (bytes, .error e)) :
    ∃ b', b.writeWith reserve writer = (b', .error e) ∧ b'.contents = b.contents ∧
      b'.capacity = b.capacity := by
  rw [writeWith_of_fits hFits, hWriter]
  refine ⟨_, rfl, ?_, size_overwrite _ _ _⟩
  have hKept := take_overwrite hFits bytes (Nat.zero_le _)
  rw [List.take_zero, List.append_nil, Nat.add_zero] at hKept
  rw [contents_eq_take, hKept]

end

end FrameBuffer

end LidarSweep
