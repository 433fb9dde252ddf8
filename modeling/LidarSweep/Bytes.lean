/-!
# Byte lists and the numbers in them

A number takes a fixed count of bytes, most significant byte first (`big`) or last (`little`).
Writing `n` keeps `n` modulo the power of 256 that fits.
-/

namespace LidarSweep.Bytes

/-- The `n` bytes from position `start` on, fewer where the list ends. -/
def slice (bs : List UInt8) (start n : Nat) : List UInt8 := (bs.drop start).take n

theorem length_slice {bs : List UInt8} {start n : Nat} (h : start + n ≤ bs.length) :
    (slice bs start n).length = n := by
  simp [slice]
  omega

/-- The number written most significant byte first. -/
def big (bs : List UInt8) : Nat := bs.foldl (fun n b => 256 * n + b.toNat) 0

/-- The number written least significant byte first. -/
def little : List UInt8 → Nat
  | [] => 0
  | b :: bs => b.toNat + 256 * little bs

def ofLittle : Nat → Nat → List UInt8
  | 0, _ => []
  | width + 1, n => UInt8.ofNat n :: ofLittle width (n / 256)

def ofBig (width n : Nat) : List UInt8 := (ofLittle width n).reverse

@[simp] theorem length_ofLittle (width n : Nat) : (ofLittle width n).length = width := by
  induction width generalizing n with
  | zero => rfl
  | succ width ih => simp [ofLittle, ih]

@[simp] theorem length_ofBig (width n : Nat) : (ofBig width n).length = width := by
  simp [ofBig]

/-- Whole pieces of `n` bytes; what is left at the end is dropped. -/
def chunks (n : Nat) (bs : List UInt8) : List (List UInt8) :=
  if _h : 0 < n ∧ (bs.take n).length = n then bs.take n :: chunks n (bs.drop n) else []
termination_by bs.length
decreasing_by
  simp only [List.length_take, List.length_drop] at *
  omega

theorem length_of_mem_chunks {n : Nat} {bs piece : List UInt8} (h : piece ∈ chunks n bs) :
    piece.length = n := by
  fun_induction chunks n bs with
  | case1 bs hWhole ih =>
    rcases List.mem_cons.mp h with rfl | hRest
    · exact hWhole.2
    · exact ih hRest
  | case2 => simp at h

theorem length_chunks {n : Nat} (hn : 0 < n) (bs : List UInt8) :
    (chunks n bs).length = bs.length / n := by
  fun_induction chunks n bs with
  | case1 bs hWhole ih =>
    have hLe : n ≤ bs.length := by
      have := hWhole.2
      simp only [List.length_take] at this
      omega
    rw [List.length_cons, ih, List.length_drop, ← Nat.sub_add_cancel hLe, Nat.add_div_right _ hn,
      Nat.add_sub_cancel]
  | case2 bs hShort =>
    have hLt : bs.length < n := by
      simp only [List.length_take] at hShort
      omega
    rw [Nat.div_eq_of_lt hLt, List.length_nil]

theorem length_flatten_of_forall {pieces : List (List UInt8)} {n : Nat}
    (h : ∀ piece ∈ pieces, piece.length = n) : pieces.flatten.length = pieces.length * n := by
  induction pieces with
  | nil => simp
  | cons piece pieces ih =>
    rw [List.flatten_cons, List.length_append, h piece List.mem_cons_self,
      ih fun p hp => h p (List.mem_cons_of_mem _ hp), List.length_cons, Nat.succ_mul, Nat.add_comm]

/-- Changes every whole piece of `n` bytes; what is left at the end is kept. -/
def mapChunks (n : Nat) (f : List UInt8 → List UInt8) (bs : List UInt8) : List UInt8 :=
  (chunks n bs).flatMap f ++ bs.drop (n * (chunks n bs).length)

end LidarSweep.Bytes
