import LidarSweep.Bytes
import Mathlib.Data.List.Induction

/-!
# Numbers in bytes, read and written

Writing a number and reading it back gives the number, and reading bytes and writing what was read
gives the bytes, in both orders of significance.  Slices are followed through appended bytes, and
slices that lie side by side make one.  With both, `uint16_eq_iff` and its like turn "the number
here is `n`" into "the bytes here are those of `n`", which is how a layout of fields is compared
with what is written.
-/

namespace LidarSweep.Bytes

/-! ### Least significant byte first -/

/-- As many bytes as a number needs give the number back. -/
theorem little_ofLittle {width n : Nat} (h : n < Nat.pow 256 width) :
    little (ofLittle width n) = n := by
  induction width generalizing n with
  | zero =>
    have hZero : n = 0 := Nat.lt_one_iff.mp h
    rw [hZero]
    rfl
  | succ width ih =>
    have hRest : n / 256 < Nat.pow 256 width := Nat.div_lt_of_lt_mul (by
      rwa [Nat.mul_comm])
    have hFirst : (UInt8.ofNat n).toNat = n % 256 := UInt8.toNat_ofNat'
    rw [ofLittle, little, ih hRest, hFirst]
    exact Nat.mod_add_div n 256

theorem ofLittle_little (bs : List UInt8) : ofLittle bs.length (little bs) = bs := by
  induction bs with
  | nil => rfl
  | cons b bs ih =>
    have hByte := b.toNat_lt
    have hFirst : UInt8.ofNat (b.toNat + 256 * little bs) = b := by
      apply UInt8.toNat_inj.mp
      rw [UInt8.toNat_ofNat']
      omega
    have hRest : (b.toNat + 256 * little bs) / 256 = little bs := by omega
    rw [List.length_cons, little, ofLittle, hFirst, hRest, ih]

theorem little_lt (bs : List UInt8) : little bs < Nat.pow 256 bs.length := by
  induction bs with
  | nil => decide
  | cons b bs ih =>
    have hByte := b.toNat_lt
    have hPow : Nat.pow 256 (bs.length + 1) = Nat.pow 256 bs.length * 256 := rfl
    rw [little, List.length_cons, hPow]
    omega

/-! ### Most significant byte first -/

theorem big_eq_little (bs : List UInt8) : big bs = little bs.reverse := by
  induction bs using List.reverseRecOn with
  | nil => rfl
  | append_singleton bs b ih =>
    rw [List.reverse_concat, little, ← ih, big, List.foldl_append, Nat.add_comm]
    rfl

theorem big_ofBig {width n : Nat} (h : n < Nat.pow 256 width) : big (ofBig width n) = n := by
  rw [big_eq_little, ofBig, List.reverse_reverse, little_ofLittle h]

theorem ofBig_big (bs : List UInt8) : ofBig bs.length (big bs) = bs := by
  rw [ofBig, big_eq_little, ← List.length_reverse, ofLittle_little, List.reverse_reverse]

theorem big_lt (bs : List UInt8) : big bs < Nat.pow 256 bs.length := by
  rw [big_eq_little, ← List.length_reverse]
  exact little_lt _

/-- A number is read from exactly the bytes that it is written to. -/
theorem big_mod_eq_iff {bs : List UInt8} {n : Nat} (h : n < Nat.pow 256 bs.length) :
    big bs % Nat.pow 256 bs.length = n ↔ bs = ofBig bs.length n := by
  rw [Nat.mod_eq_of_lt (big_lt bs)]
  constructor
  · rintro rfl
    exact (ofBig_big bs).symm
  · intro hBytes
    rw [hBytes, big_ofBig h]

/-! ### Slices -/

/-- The bytes between two others. -/
theorem slice_append (before bs after : List UInt8) :
    slice (before ++ (bs ++ after)) before.length bs.length = bs := by
  simp [slice]

@[simp] theorem slice_zero (bs : List UInt8) (start : Nat) : slice bs start 0 = [] :=
  List.take_zero

theorem slice_length (bs : List UInt8) : slice bs 0 bs.length = bs := by
  simp [slice]

theorem ofLittle_slice {bs : List UInt8} {start n : Nat} (h : start + n ≤ bs.length) :
    ofLittle n (little (slice bs start n)) = slice bs start n := by
  have hSame := ofLittle_little (slice bs start n)
  rwa [length_slice h] at hSame

theorem little_slice_lt {bs : List UInt8} {start n : Nat} (h : start + n ≤ bs.length) :
    little (slice bs start n) < Nat.pow 256 n := by
  have hLess := little_lt (slice bs start n)
  rwa [length_slice h] at hLess

theorem slice_append_left {xs : List UInt8} {start n : Nat} (h : start + n ≤ xs.length)
    (ys : List UInt8) : slice (xs ++ ys) start n = slice xs start n := by
  rw [slice, slice, List.drop_append_of_le_length (by omega),
    List.take_append_of_le_length (by simp; omega)]

theorem slice_append_right {xs : List UInt8} {start : Nat} (h : xs.length ≤ start)
    (ys : List UInt8) (n : Nat) : slice (xs ++ ys) start n = slice ys (start - xs.length) n := by
  rw [slice, slice, List.drop_append, List.drop_of_length_le h, List.nil_append]

/-- The bytes in front of others. -/
theorem slice_front {xs : List UInt8} {n : Nat} (h : xs.length = n) (ys : List UInt8) :
    slice (xs ++ ys) 0 n = xs := by
  rw [← h, slice_append_left (by omega), slice_length]

theorem slice_cons_succ (b : UInt8) (bs : List UInt8) (start n : Nat) :
    slice (b :: bs) (start + 1) n = slice bs start n := rfl

theorem slice_cons_zero (b : UInt8) (bs : List UInt8) (n : Nat) :
    slice (b :: bs) 0 (n + 1) = b :: slice bs 0 n := rfl

/-- Slices side by side make one. -/
theorem slice_append_slice (bs : List UInt8) {start m next : Nat} (h : start + m = next)
    (n : Nat) : slice bs start m ++ slice bs next n = slice bs start (m + n) := by
  rw [← h, slice, slice, slice, List.take_add, List.drop_drop]

theorem slice_one {bs : List UInt8} {i : Nat} (h : i < bs.length) : slice bs i 1 = [bs[i]] := by
  rw [slice, List.drop_eq_getElem_cons h]
  rfl

theorem slice_drop (bs : List UInt8) (front start n : Nat) :
    slice (bs.drop front) start n = slice bs (front + start) n := by
  rw [slice, slice, List.drop_drop]

/-- The first pieces of bytes that hold them. -/
theorem take_chunks {n count : Nat} (hn : 0 < n) {bs : List UInt8} (h : count * n ≤ bs.length) :
    (chunks n bs).take count = (List.range count).map fun i => slice bs (i * n) n := by
  induction count generalizing bs with
  | zero => rfl
  | succ count ih =>
    rw [Nat.succ_mul] at h
    have hWhole : 0 < n ∧ (bs.take n).length = n := ⟨hn, List.length_take_of_le (by omega)⟩
    rw [chunks, dif_pos hWhole, List.take_succ_cons, ih (by rw [List.length_drop]; omega),
      List.range_succ_eq_map, List.map_cons, List.map_map, Nat.zero_mul]
    refine congrArg (slice bs 0 n :: ·) (List.map_congr_left fun i _ => ?_)
    rw [slice_drop, Function.comp_apply, Nat.succ_mul, Nat.add_comm]

/-- A slice of a slice. -/
theorem slice_slice (bs : List UInt8) (start : Nat) {n k m : Nat} (h : k + m ≤ n) :
    slice (slice bs start n) k m = slice bs (start + k) m := by
  rw [slice, slice, slice, List.drop_take, List.drop_drop, List.take_take,
    Nat.min_eq_left (by omega)]

/-- Pieces of one size that were put together are found again, whatever is left behind them. -/
theorem chunks_flatten_append {n : Nat} (hn : 0 < n) {pieces : List (List UInt8)}
    (h : ∀ piece ∈ pieces, piece.length = n) {rest : List UInt8} (hRest : rest.length < n) :
    chunks n (pieces.flatten ++ rest) = pieces := by
  induction pieces with
  | nil =>
    rw [List.flatten_nil, List.nil_append, chunks, dif_neg]
    rintro ⟨-, hWhole⟩
    rw [List.length_take] at hWhole
    omega
  | cons piece pieces ih =>
    have hPiece := h piece List.mem_cons_self
    have hFront : (piece ++ (pieces.flatten ++ rest)).take n = piece := by
      rw [← hPiece, List.take_left]
    have hOthers : (piece ++ (pieces.flatten ++ rest)).drop n = pieces.flatten ++ rest := by
      rw [← hPiece, List.drop_left]
    rw [List.flatten_cons, List.append_assoc, chunks, dif_pos ⟨hn, by rw [hFront, hPiece]⟩, hFront,
      hOthers, ih fun q hq => h q (List.mem_cons_of_mem _ hq)]

theorem chunks_flatten {n : Nat} (hn : 0 < n) {pieces : List (List UInt8)}
    (h : ∀ piece ∈ pieces, piece.length = n) : chunks n pieces.flatten = pieces := by
  have hWhole := chunks_flatten_append hn h (show ([] : List UInt8).length < n from hn)
  rwa [List.append_nil] at hWhole

/-- The number of the two bytes from `k` on, most significant first. -/
def word (bs : List UInt8) (k : Nat) : Nat := 256 * (bs.getD k 0).toNat + (bs.getD (k + 1) 0).toNat

theorem word_lt (bs : List UInt8) (k : Nat) : word bs k < 65536 := by
  have hFirst := (bs.getD k 0).toNat_lt
  have hSecond := (bs.getD (k + 1) 0).toNat_lt
  rw [word]
  omega

theorem big_slice_two {bs : List UInt8} {k : Nat} (h : k + 2 ≤ bs.length) :
    big (slice bs k 2) = word bs k := by
  have hFirst : bs[k] = bs.getD k 0 := List.getElem_eq_getD 0
  have hSecond : bs[k + 1] = bs.getD (k + 1) 0 := List.getElem_eq_getD 0
  rw [← slice_append_slice bs rfl 1, slice_one (by omega), slice_one (by omega), hFirst, hSecond,
    word]
  simp [big]

/-! ### Fields within bytes -/

section
variable {bs : List UInt8} {start : Nat}

theorem getElem_eq_iff (h : start < bs.length) (b : UInt8) :
    bs[start] = b ↔ slice bs start 1 = [b] := by
  rw [slice_one h, List.cons.injEq, and_iff_left rfl]

theorem vector_eq_iff {width : Nat} (h : width ≤ bs.length) (v : Vector UInt8 width) :
    (Vector.ofFn fun i : Fin width => bs[i.val]) = v ↔ slice bs 0 width = v.toList := by
  have hFirst : (Vector.ofFn fun i : Fin width => bs[i.val]).toList = slice bs 0 width := by
    apply List.ext_getElem
    · rw [Vector.length_toList, length_slice (by omega)]
    · intro i hLeft hRight
      simp [slice]
  rw [← hFirst, Vector.toList_inj]

theorem big_slice_eq_iff {width n : Nat} (h : start + width ≤ bs.length)
    (hRange : n < Nat.pow 256 width) :
    big (slice bs start width) % Nat.pow 256 width = n ↔ slice bs start width = ofBig width n := by
  have hLength := length_slice h
  have hRead : n < Nat.pow 256 (slice bs start width).length := by rwa [hLength]
  have hSpelt := big_mod_eq_iff hRead
  rwa [hLength] at hSpelt

theorem uint16_eq_iff (h : start + 2 ≤ bs.length) (n : UInt16) :
    UInt16.ofNat (big (slice bs start 2)) = n ↔ slice bs start 2 = ofBig 2 n.toNat := by
  rw [← UInt16.toNat_inj, UInt16.toNat_ofNat']
  exact big_slice_eq_iff h n.toNat_lt

theorem uint32_eq_iff (h : start + 4 ≤ bs.length) (n : UInt32) :
    UInt32.ofNat (big (slice bs start 4)) = n ↔ slice bs start 4 = ofBig 4 n.toNat := by
  rw [← UInt32.toNat_inj, UInt32.toNat_ofNat']
  exact big_slice_eq_iff h n.toNat_lt

theorem uint64_eq_iff (h : start + 8 ≤ bs.length) (n : UInt64) :
    UInt64.ofNat (big (slice bs start 8)) = n ↔ slice bs start 8 = ofBig 8 n.toNat := by
  rw [← UInt64.toNat_inj, UInt64.toNat_ofNat']
  exact big_slice_eq_iff h n.toNat_lt

theorem int16_eq_iff (h : start + 2 ≤ bs.length) (n : Int16) :
    (UInt16.ofNat (big (slice bs start 2))).toInt16 = n ↔
      slice bs start 2 = ofBig 2 n.toUInt16.toNat := by
  rw [← uint16_eq_iff h]
  constructor
  · rintro rfl
    exact (UInt16.toUInt16_toInt16 _).symm
  · intro hWord
    rw [hWord, Int16.toInt16_toUInt16]

end

end LidarSweep.Bytes
