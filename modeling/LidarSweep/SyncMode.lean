import LidarSweep.Text.Names

/-!
# Synchronisation of several devices

A device runs freely, drives the others, follows another one, or waits for triggers. While it
waits for triggers its silence is no fault.
-/

namespace LidarSweep

inductive SyncMode where
  | freeRun
  /-- Drives the signal that the others follow -/
  | primary
  | secondary
  /-- Follows with a fixed delay -/
  | secondarySynced
  | softwareTriggering
  | hardwareTriggering
  deriving DecidableEq, Repr

namespace SyncMode

instance : Inhabited SyncMode := ⟨freeRun⟩

def code : SyncMode → UInt8
  | freeRun => 0
  | primary => 1
  | secondary => 2
  | secondarySynced => 3
  | softwareTriggering => 4
  | hardwareTriggering => 5

def ofCode? : UInt8 → Option SyncMode
  | 0 => some freeRun
  | 1 => some primary
  | 2 => some secondary
  | 3 => some secondarySynced
  | 4 => some softwareTriggering
  | 5 => some hardwareTriggering
  | _ => none

theorem ofCode?_code (mode : SyncMode) : ofCode? mode.code = some mode := by
  cases mode <;> rfl

/-- Frames come only on an outside trigger. -/
def isTriggered : SyncMode → Bool
  | softwareTriggering | hardwareTriggering => true
  | _ => false

def label : SyncMode → String
  | freeRun => "free-run"
  | primary => "primary"
  | secondary => "secondary"
  | secondarySynced => "secondary-synced"
  | softwareTriggering => "software-triggering"
  | hardwareTriggering => "hardware-triggering"

/-- The name in diagnostics. -/
def ident : SyncMode → String
  | freeRun => "FreeRun"
  | primary => "Primary"
  | secondary => "Secondary"
  | secondarySynced => "SecondarySynced"
  | softwareTriggering => "SoftwareTriggering"
  | hardwareTriggering => "HardwareTriggering"

instance : Named SyncMode where
  values := [freeRun, primary, secondary, secondarySynced, softwareTriggering,
    hardwareTriggering]
  name := label

end SyncMode

end LidarSweep
