import LidarSweep.Error

/-!
# Reading a container

A reader of a container tells what stands at the front of the bytes that are left.  Whoever reads
takes as many bytes off as it says and asks again, until it finds nothing whole any more.
-/

namespace LidarSweep.Capture

/-- What a reader finds at the front of some bytes. -/
inductive Reading (Mode : Type) where
  /-- So many bytes, with a packet or without, and how to read on behind them -/
  | block (size : Nat) (packet : Option (List UInt8)) (mode : Mode)
  /-- The end, or something that is cut off -/
  | finished
  /-- Something that contradicts itself -/
  | broken (e : Error)

structure Reader where
  /-- What was learnt from the bytes that were read before -/
  Mode : Type
  start : List UInt8 → Except Error Mode
  next : Mode → List UInt8 → Reading Mode
  /-- What is found is there, and is not nothing. -/
  size_spec {mode mode' : Mode} {bs : List UInt8} {size : Nat} {packet : Option (List UInt8)} :
    next mode bs = .block size packet mode' → 0 < size ∧ size ≤ bs.length

namespace Reader

/-- What `f` makes of the packets in `bs`, in order. -/
def collect {α : Type} (r : Reader) (f : List UInt8 → Option α) (mode : r.Mode)
    (bs : List UInt8) : Except Error (List α) :=
  match _h : r.next mode bs with
  | .finished => .ok []
  | .broken e => .error e
  | .block size packet mode' =>
    (r.collect f mode' (bs.drop size)).map ((packet.bind f).toList ++ ·)
termination_by bs.length
decreasing_by
  have hSize := r.size_spec _h
  rw [List.length_drop]
  omega

section
variable {α : Type} {r : Reader} {f : List UInt8 → Option α} {mode mode' : r.Mode}
  {bs : List UInt8}

theorem collect_of_finished (h : r.next mode bs = .finished) : r.collect f mode bs = .ok [] := by
  rw [collect]
  split <;> simp_all

theorem collect_of_broken {e : Error} (h : r.next mode bs = .broken e) :
    r.collect f mode bs = .error e := by
  rw [collect]
  split <;> simp_all

theorem collect_of_block {size : Nat} {packet : Option (List UInt8)}
    (h : r.next mode bs = .block size packet mode') :
    r.collect f mode bs =
      (r.collect f mode' (bs.drop size)).map ((packet.bind f).toList ++ ·) := by
  rw [collect]
  split <;> simp_all

end

/-- What `f` makes of the packets of a whole container. -/
def gather {α : Type} (r : Reader) (f : List UInt8 → Option α) (bs : List UInt8) :
    Except Error (List α) :=
  (r.start bs).bind fun mode => r.collect f mode bs

end Reader

end LidarSweep.Capture
