import LidarSweep.Text.Names

/-!
# Sweep rates

The four rates a device can be set to. Motor speed and frame period follow from the number of
sweeps a second.
-/

namespace LidarSweep

inductive ScanRate where
  | hz5
  | hz10
  | hz15
  | hz20
  deriving DecidableEq, Repr

namespace ScanRate

instance : Inhabited ScanRate := ⟨hz10⟩

def code : ScanRate → UInt8
  | hz5 => 1
  | hz10 => 2
  | hz15 => 3
  | hz20 => 4

def ofCode? : UInt8 → Option ScanRate
  | 1 => some hz5
  | 2 => some hz10
  | 3 => some hz15
  | 4 => some hz20
  | _ => none

theorem ofCode?_code (rate : ScanRate) : ofCode? rate.code = some rate := by
  cases rate <;> rfl

/-- Sweeps a second. -/
def hz : ScanRate → Nat
  | hz5 => 5
  | hz10 => 10
  | hz15 => 15
  | hz20 => 20

/-- Motor speed in revolutions a minute. -/
def rpm (rate : ScanRate) : UInt16 := UInt16.ofNat (rate.hz * 60)

/-- Time from one sweep to the next, in nanoseconds. -/
def periodNs (rate : ScanRate) : Nat := 1000000000 / rate.hz

/-- Time from one sweep to the next, in microseconds. -/
def periodUs (rate : ScanRate) : Nat := rate.periodNs / 1000

def label (rate : ScanRate) : String := s!"{rate.hz}Hz"

/-- The name in diagnostics. -/
def ident (rate : ScanRate) : String := s!"Hz{rate.hz}"

instance : Named ScanRate where
  values := [hz5, hz10, hz15, hz20]
  name rate := toString rate.hz

end ScanRate

end LidarSweep
