import LidarSweep.Error
import LidarSweep.Log

/-!
# Why packets are dropped, and how often

Every packet offered to an assembler is counted. A dropped one is counted once more, by reason.
-/

namespace LidarSweep

/-- Why a packet adds nothing to a frame. -/
inductive Drop where
  /-- No whole packet -/
  | malformed (error : Error)
  /-- Another payload length than the geometry's -/
  | length (block : UInt16) (declared : UInt16) (expected : Nat)
  /-- Wrong bytes at the front or the end -/
  | magic (block : UInt16) (front tail : List UInt8)
  /-- Another stream's format -/
  | format (block : UInt16) (code : UInt8) (expected : Format)
  /-- Not the next block of the sweep, and no first one -/
  | sequence (block : UInt16) (sweep : UInt32) (expected : UInt16)
  /-- A later block while no sweep is under way -/
  | orphan (block : UInt16)
  /-- No room in the frame, or no conversion -/
  | overflow (block : UInt16) (error : Error)

def Drop.message : Drop → String
  | malformed error => s!"dropping packet: {error.message}"
  | length block declared expected =>
    s!"dropping block {block.toNat}: payload length {declared.toNat} does not match "
      ++ s!"expected {expected}"
  | magic block front tail =>
    s!"dropping block {block.toNat}: invalid magic (header {Hex.listOfBytes front}, "
      ++ s!"tail {Hex.listOfBytes tail})"
  | format block code expected =>
    s!"dropping block {block.toNat}: format code {Hex.code 2 code.toNat} does not match "
      ++ s!"{expected.label} ({Hex.code 2 expected.code.toNat})"
  | sequence block sweep expected =>
    s!"dropping block {block.toNat} of sweep {sweep.toNat}: expected block {expected.toNat}, "
      ++ "waiting for next sweep"
  | orphan block => s!"dropping block {block.toNat}: no sweep in progress"
  | overflow block error => s!"dropping block {block.toNat}: {error.message}"

structure AssemblerStats where
  /-- Packets offered -/
  packets : Nat := 0
  /-- Frames completed -/
  frames : Nat := 0
  malformed : Nat := 0
  length : Nat := 0
  magic : Nat := 0
  format : Nat := 0
  sequence : Nat := 0
  overflow : Nat := 0
  /-- Unfinished sweeps given up for a new one -/
  discarded : Nat := 0
  deriving DecidableEq, Repr, Inhabited

namespace AssemblerStats

/-- Packets dropped for any reason. -/
def dropped (s : AssemblerStats) : Nat :=
  s.malformed + s.length + s.magic + s.format + s.sequence + s.overflow

def countDrop (s : AssemblerStats) : Drop → AssemblerStats
  | .malformed _ => { s with malformed := s.malformed + 1 }
  | .length .. => { s with length := s.length + 1 }
  | .magic .. => { s with magic := s.magic + 1 }
  | .format .. => { s with format := s.format + 1 }
  | .sequence .. => { s with sequence := s.sequence + 1 }
  | .orphan _ => { s with sequence := s.sequence + 1 }
  | .overflow .. => { s with overflow := s.overflow + 1 }

end AssemblerStats

end LidarSweep
