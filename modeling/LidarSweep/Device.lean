import LidarSweep.Error
import LidarSweep.SyncMode

/-!
# Devices

What the streams of one device share: its model, and the flags that a stream looks at before it
starts.
-/

namespace LidarSweep

structure Device where
  modelCode : UInt16
  model : Model
  firmwareUpdating : Bool := false
  errorMask : UInt32 := 0
  workMode : WorkMode := .normal
  syncMode : SyncMode := default
  deriving DecidableEq, Repr

namespace Device

/-- A device of a known model. -/
def make (modelCode : UInt16) (syncMode : SyncMode) : Except Error Device :=
  match Model.ofCode? modelCode with
  | some model => .ok { modelCode, model, syncMode }
  | none => .error (.configuration (.unknownModelCode modelCode))

/-- Whether a stream of this type may start now. -/
def allows (d : Device) (streamType : StreamType) : Except Error Unit :=
  if d.firmwareUpdating then .error (.deviceBusy "firmware update in progress")
  else if d.errorMask &&& streamType.errorBit ≠ 0 then
    .error (.deviceFault streamType d.errorMask)
  else .ok ()

/-- The device in diagnostics. -/
def describe (d : Device) : String :=
  s!"DeviceContext \x7b model_code: {Hex.code 4 d.modelCode.toNat}, model: {d.model.ident}, "
    ++ s!"firmware_updating: {d.firmwareUpdating}, error_mask: {d.errorMask.toNat}, "
    ++ s!"work_mode: {d.workMode.ident}, sync_mode: {d.syncMode.ident} \x7d"

end Device

end LidarSweep
