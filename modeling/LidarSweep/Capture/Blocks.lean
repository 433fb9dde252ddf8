import LidarSweep.Capture.Legacy

/-!
# Captures in blocks

A capture is a sequence of blocks. Each states its length in front and again at the end; the first
block, and any later one of its kind, fixes the byte order. Packets stand in enhanced and in simple
packet blocks, padded to whole words; blocks of other kinds are passed over. A block that is cut
off ends the capture, one that contradicts itself spoils it.
-/

namespace LidarSweep

open Bytes

namespace BlockCapture

namespace Kind

def sectionHeader : Nat := 0x0a0d0d0a
def interface : Nat := 1
def simplePacket : Nat := 3
def nameResolution : Nat := 4
def statistics : Nat := 5
def enhancedPacket : Nat := 6
def secrets : Nat := 10

/-- The least length of a block, fixed fields included. -/
def minimum (kind : Nat) : Nat :=
  if kind = sectionHeader then 28
  else if kind = interface then 20
  else if kind = simplePacket then 16
  else if kind = statistics then 24
  else if kind = enhancedPacket then 32
  else if kind = secrets then 20
  else if kind = 0xbad ∨ kind = 0x40000bad ∨ kind = 0x80000001 then 16
  else 12

end Kind

/-- A length in whole words. -/
def padded (n : Nat) : Nat := (n + 3) / 4 * 4

/-- The names of a name resolution block end with an empty record; `none` if it is missing. -/
def names? : Nat → Bool → List UInt8 → Option Unit
  | 0, _, _ => none
  | fuel + 1, bigEndian, bs =>
    if bs.length < 4 then none
    else if slice bs 0 4 = [0, 0, 0, 0] then some ()
    else
      let size := padded (ordered bigEndian (slice bs 2 2))
      if bs.length < 4 + size then none else names? fuel bigEndian (bs.drop (4 + size))

/-- Bytes of data after the fixed fields, if they fit; `none` in front if they never could. -/
def sized? (bigEndian : Bool) (lengthAt fixed : Nat) (content : List UInt8) :
    Option (Option (List UInt8)) :=
  let size := ordered bigEndian (slice content lengthAt 4)
  if size ≥ 0xfffffffb then none
  else if content.length < fixed + padded size then some none
  else some (some (slice content fixed (padded size)))

/-- A block of `size` bytes, if the length at its end agrees. -/
def close (size : Nat) (bigEndian closed : Bool) (packet : Option (List UInt8)) :
    Capture.Reading Bool :=
  if closed then .block size packet bigEndian else .broken (.source .block)

/-- Checks a block of `size` bytes between its two lengths. -/
def inspect (kind size : Nat) (bigEndian closed : Bool) (content : List UInt8) :
    Capture.Reading Bool :=
  if kind = Kind.enhancedPacket then
    match sized? bigEndian 12 20 content with
    | none => .broken (.source .block)
    | some none => .finished
    | some (some data) => close size bigEndian closed (some data)
  else if kind = Kind.simplePacket then close size bigEndian closed (some (content.drop 4))
  else if kind = Kind.secrets then
    match sized? bigEndian 4 8 content with
    | none => .broken (.source .block)
    | some none => .finished
    | some (some _) => close size bigEndian closed none
  else if kind = Kind.nameResolution then
    match names? (content.length + 1) bigEndian content with
    | none => .finished
    | some () => close size bigEndian closed none
  else close size bigEndian closed none

/-- The block that opens `bs`, in a section of this byte order. -/
def next (bigEndian : Bool) (bs : List UInt8) : Capture.Reading Bool :=
  if bs.length < 4 then .finished
  else
    let kind := ordered bigEndian (slice bs 0 4)
    if kind = Kind.sectionHeader ∧ bs.length < 12 then .finished
    else
      let mark := little (slice bs 8 4)
      let order? : Option Bool :=
        if kind ≠ Kind.sectionHeader then some bigEndian
        else if mark = 0x1a2b3c4d then some false
        else if mark = 0x4d3c2b1a then some true
        else none
      match order? with
      | none => .broken (.source .block)
      | some bigEndian =>
        let size := ordered bigEndian (slice bs 4 4)
        if bs.length < Kind.minimum kind then .finished
        else if size < Kind.minimum kind then .broken (.source .block)
        else if bs.length < size then .finished
        else
          inspect kind size bigEndian (ordered bigEndian (slice bs (size - 4) 4) == size)
            (slice bs 8 (size - 12))

theorem Kind.minimum_pos (kind : Nat) : 0 < minimum kind := by
  unfold minimum
  repeat' split
  all_goals decide

section
variable {kind size size' : Nat} {bigEndian closed mode : Bool} {bs content : List UInt8}
  {packet data : Option (List UInt8)}

theorem size_of_close (h : close size bigEndian closed data = .block size' packet mode) :
    size' = size := by
  unfold close at h
  split at h <;> cases h
  rfl

theorem size_of_inspect
    (h : inspect kind size bigEndian closed content = .block size' packet mode) :
    size' = size := by
  unfold inspect at h
  repeat' split at h
  all_goals first | exact size_of_close h | cases h

theorem size_of_next (h : next bigEndian bs = .block size packet mode) :
    0 < size ∧ size ≤ bs.length := by
  simp only [next] at h
  split at h
  · cases h
  split at h
  · cases h
  split at h
  · cases h
  split at h
  · cases h
  split at h
  · cases h
  split at h
  · cases h
  next hMinimum hLong =>
    have hPos := Kind.minimum_pos (ordered bigEndian (slice bs 0 4))
    rw [size_of_inspect h]
    omega

end

def reader : Capture.Reader where
  Mode := Bool
  start bs :=
    match next false bs with
    | .block .. => .ok false
    | _ => .error (.source .sectionHeader)
  next := next
  size_spec := size_of_next

end BlockCapture

end LidarSweep
