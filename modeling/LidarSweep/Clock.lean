import LidarSweep.Error

/-!
# Frame times

The device time of a frame is the time since the stream began, taken from when the frame came in;
the device's own clock is not used. The global time adds an offset to the wall clock that the first
frame fixes, so both times advance together.
-/

namespace LidarSweep

/-- Measures from an origin, which the first frame sets if nothing else has. -/
structure ReceiptClock where
  originNs : Option Nat := none
  deriving DecidableEq, Repr

namespace ReceiptClock

def reset (_ : ReceiptClock) (now : Nat) : ReceiptClock := ⟨some now⟩

/-- Microseconds from the origin to a frame's receipt. -/
def stamp (clock : ReceiptClock) (receiptNs : Nat) : ReceiptClock × Except Error Nat :=
  let origin := clock.originNs.getD receiptNs
  (⟨some origin⟩,
    if receiptNs < origin then .error (.timestampAnomaly (.beforeStart receiptNs origin))
    else .ok ((receiptNs - origin) / 1000))

end ReceiptClock

/-- Shifts device times onto the wall clock. -/
structure HostClock where
  offsetUs : Option Nat := none
  deriving DecidableEq, Repr

namespace HostClock

def reset (_ : HostClock) : HostClock := ⟨none⟩

/-- The global time of a frame; `wallUs` is read only by the first one. -/
def stamp (clock : HostClock) (wallUs deviceUs : Nat) : HostClock × Nat :=
  let offset := clock.offsetUs.getD (wallUs - deviceUs)
  (⟨some offset⟩, deviceUs + offset)

end HostClock

end LidarSweep
