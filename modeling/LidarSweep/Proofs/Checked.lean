import LidarSweep.Bytes
import LidarSweep.Geometry

/-!
# Steps that can fail

A machine's numbers have an end, its divisors must not be zero, and a slice must lie within its
bytes.  Each step here gives what the plain one gives, and nothing where a machine would stop.  A
calculation that is made of such steps and still gives what the plain one gives never stops.
-/

namespace LidarSweep.Checked

/-- A sum of numbers below `size`. -/
def add? (size a b : Nat) : Option Nat := if a + b < size then some (a + b) else none

def sub? (a b : Nat) : Option Nat := if b ≤ a then some (a - b) else none

/-- A product of numbers below `size`. -/
def mul? (size a b : Nat) : Option Nat := if a * b < size then some (a * b) else none

def div? (a b : Nat) : Option Nat := if b = 0 then none else some (a / b)

/-- A cast that keeps the whole number. -/
def cast? (size n : Nat) : Option Nat := if n < size then some n else none

/-- The bytes from `start` up to `stop`. -/
def slice? (bs : List UInt8) (start stop : Nat) : Option (List UInt8) :=
  if start ≤ stop ∧ stop ≤ bs.length then some (Bytes.slice bs start (stop - start)) else none

/-- The number in the `width` bytes from `start` on, most significant byte first. -/
def number? (bs : List UInt8) (start width : Nat) : Option Nat :=
  (slice? bs start (start + width)).map Bytes.big

/-- A copy into `n` bytes, which must come from as many. -/
def array? (n : Nat) (bs : List UInt8) : Option (Vector UInt8 n) :=
  if h : bs.length = n then some ⟨bs.toArray, h⟩ else none

/-- A copy over the bytes from `start` up to `stop`, which must come from as many. -/
def splice? (bs : List UInt8) (start stop : Nat) (piece : List UInt8) : Option (List UInt8) := do
  let old ← slice? bs start stop
  if piece.length = old.length then some (bs.take start ++ piece ++ bs.drop stop) else none

/-- Where piece `i` of `size` bytes begins and ends, behind `front` bytes. -/
def piece? (front size i : Nat) : Option (Nat × Nat) := do
  let start ← add? USize.size front (← mul? USize.size i size)
  let stop ← add? USize.size front (← mul? USize.size (i + 1) size)
  return (start, stop)

section
variable {size a b start stop : Nat} {bs : List UInt8}

theorem add?_of_lt (h : a + b < size) : add? size a b = some (a + b) := if_pos h

theorem sub?_of_le (h : b ≤ a) : sub? a b = some (a - b) := if_pos h

theorem mul?_of_lt (h : a * b < size) : mul? size a b = some (a * b) := if_pos h

theorem div?_of_pos (h : 0 < b) : div? a b = some (a / b) := if_neg (Nat.ne_of_gt h)

theorem cast?_of_lt {n : Nat} (h : n < size) : cast? size n = some n := if_pos h

theorem slice?_of_le (h : start ≤ stop) (hEnd : stop ≤ bs.length) :
    slice? bs start stop = some (Bytes.slice bs start (stop - start)) := if_pos ⟨h, hEnd⟩

theorem getElem?_of_lt {i : Nat} (h : i < bs.length) (b : UInt8) :
    bs[i]? = some (bs.getD i b) := by
  rw [List.getD_eq_getElem?_getD, List.getElem?_eq_getElem h, Option.getD_some]

theorem number?_of_le {width : Nat} (h : start + width ≤ bs.length) :
    number? bs start width = some (Bytes.big (Bytes.slice bs start width)) := by
  rw [number?, slice?_of_le (Nat.le_add_right _ _) h, Nat.add_sub_cancel_left, Option.map_some]

theorem array?_of_length {n : Nat} (h : bs.length = n) : array? n bs = some ⟨bs.toArray, h⟩ :=
  dif_pos h

theorem splice?_of_le {piece : List UInt8} (h : start ≤ stop) (hEnd : stop ≤ bs.length)
    (hPiece : piece.length = stop - start) :
    splice? bs start stop piece = some (bs.take start ++ piece ++ bs.drop stop) := by
  rw [splice?, slice?_of_le h hEnd, Option.bind_eq_bind, Option.bind_some,
    if_pos (by rw [hPiece, Bytes.length_slice (by omega)])]

/-- A piece is put behind those that are in place. -/
theorem splice?_behind {done piece : List UInt8} (hDone : done.length = start)
    (hPiece : piece.length = size) (h : start + size ≤ bs.length) :
    splice? (done ++ bs.drop start) start (start + size) piece =
      some (done ++ piece ++ bs.drop (start + size)) := by
  have hLength : (done ++ bs.drop start).length = bs.length := by
    rw [List.length_append, List.length_drop]
    omega
  have hFront : (done ++ bs.drop start).take start = done := by
    rw [← hDone, List.take_left]
  have hRest : (done ++ bs.drop start).drop (start + size) = bs.drop (start + size) := by
    rw [List.drop_append, List.drop_of_length_le (by omega), List.nil_append, List.drop_drop, hDone,
      Nat.add_sub_cancel_left]
  rw [splice?_of_le (Nat.le_add_right _ _) (by rwa [hLength]) (by omega), hFront, hRest]

theorem piece?_of_lt {front i : Nat} (h : front + (i + 1) * size < USize.size) :
    piece? front size i = some (front + i * size, front + (i + 1) * size) := by
  have hBefore : i * size ≤ (i + 1) * size := Nat.mul_le_mul_right size (Nat.le_succ i)
  simp only [piece?, Option.bind_eq_bind]
  rw [mul?_of_lt (by omega), Option.bind_some, add?_of_lt (by omega), Option.bind_some,
    mul?_of_lt (by omega), Option.bind_some, add?_of_lt h, Option.bind_some]
  rfl

end

/-- A list of steps that all succeed. -/
theorem mapM_of_forall {α β : Type} {f : α → Option β} {g : α → β} {xs : List α}
    (h : ∀ x ∈ xs, f x = some (g x)) : xs.mapM f = some (xs.map g) := by
  induction xs with
  | nil => rfl
  | cons x xs ih =>
    have hRest := ih fun y hy => h y (List.mem_cons_of_mem x hy)
    rw [List.mapM_cons, h x List.mem_cons_self, hRest]
    rfl

/-- Every machine word holds numbers up to here. -/
theorem lt_word {n : Nat} (h : n < 4294967296) : n < USize.size :=
  Nat.lt_of_lt_of_le h USize.le_size

end LidarSweep.Checked

namespace LidarSweep.Geometry

open Checked

def payloadSize? (g : Geometry) : Option Nat := do
  let wires ← mul? USize.size g.wireSize g.points
  add? USize.size g.preamble wires

theorem payloadSize?_of_lt {g : Geometry} (h : g.payloadSize < USize.size) :
    g.payloadSize? = some g.payloadSize := by
  have hWires : g.wireSize * g.points < USize.size := by
    simp only [payloadSize] at h
    omega
  rw [payloadSize?, mul?_of_lt hWires]
  exact add?_of_lt h

def blockOutputSize? (g : Geometry) : Option Nat := mul? USize.size g.pointSize g.points

theorem blockOutputSize?_of_lt {g : Geometry} (h : g.blockOutputSize < USize.size) :
    g.blockOutputSize? = some g.blockOutputSize := mul?_of_lt h

end LidarSweep.Geometry
