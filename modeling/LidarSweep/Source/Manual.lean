import LidarSweep.Error

/-!
# Sources driven by hand

Packets are handed in one by one and go at once to whoever started the source. A refused start
leaves an earlier receiver in place. A stop can be made to fail; the source is idle all the same.
-/

namespace LidarSweep

/-- A source whose receivers are of type `ρ`. -/
structure ManualSource (ρ : Type) where
  receiver : Option ρ := none
  /-- Starts that were not refused -/
  starts : Nat := 0
  refusesStart : Bool := false
  /-- What a stop fails with -/
  stopFailure : Option Error := none

namespace ManualSource

variable {ρ : Type}

def isStarted (s : ManualSource ρ) : Bool := s.receiver.isSome

def start (s : ManualSource ρ) (receiver : ρ) : ManualSource ρ × Except Error Unit :=
  if s.refusesStart then (s, .error (.source .refusedToStart))
  else ({ s with receiver := some receiver, starts := s.starts + 1 }, .ok ())

def stop (s : ManualSource ρ) : ManualSource ρ × Except Error Unit :=
  ({ s with receiver := none },
    match s.stopFailure with
    | some e => .error e
    | none => .ok ())

/-- Hands in packets one after another. Gives each that was taken, with its receiver; receivers that
`stops` holds of stop the source. -/
def injectAll (s : ManualSource ρ) (stops : ρ → Bool) (packets : List (List UInt8)) :
    ManualSource ρ × List (ρ × List UInt8) :=
  match packets with
  | [] => (s, [])
  | p :: ps =>
    match s.receiver with
    | none => injectAll s stops ps
    | some r =>
      let (s, got) := injectAll (if stops r then s.stop.1 else s) stops ps
      (s, (r, p) :: got)

end ManualSource

end LidarSweep
