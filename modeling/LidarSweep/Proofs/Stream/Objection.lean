import LidarSweep.Proofs.Geometry.Cache
import LidarSweep.Stream.Start

/-!
# What stands against a start

The checks of a start stated side by side, in their order. The first that fails gives the error; the
stream is left alone, its geometry table too.
-/

namespace LidarSweep

/-- The first of the errors whose condition holds. -/
def firstOf : List (Bool × Error) → Option Error
  | [] => none
  | (holds, e) :: more => if holds then some e else firstOf more

/-- Whether a verdict is that of an objection, or is favourable where there is none. -/
def Decides : Option Error → Except Error Geometry → Prop
  | some e, .error e' => e' = e
  | none, .ok _ => True
  | _, _ => False

/-- A check comes before others. -/
theorem Decides.check {p : Prop} [Decidable p] {e : Error} {o : Option Error}
    {v : Except Error Geometry} (h : Decides o v) :
    Decides (if p then some e else o) (if p then .error e else v) := by
  split
  case isTrue => exact rfl
  case isFalse => exact h

namespace Stream

/-- What a start would have to look up. -/
def keyFor (s : Stream) (profile : Profile) : GeometryKey :=
  ⟨s.device.model, profile.rate, profile.format⟩

/-- What there can be against a start, in the order in which it is looked at, each with whether it
is so. -/
def objections (s : Stream) (profile : Profile) : List (Bool × Error) :=
  [(s.control.state ≠ .stopped ∧ s.control.state ≠ .error,
      .invalidState
        s!"cannot start {s.streamType.label} stream while {s.control.state.label}"),
   (profile.streamType ≠ s.streamType, .configuration (.wrongStreamType profile s.streamType)),
   (s.device.firmwareUpdating, .deviceBusy "firmware update in progress"),
   (s.device.errorMask &&& s.streamType.errorBit ≠ 0,
      .deviceFault s.streamType s.device.errorMask),
   (profile.format = .calibration ∧ s.device.workMode = .normal,
      .configuration .calibrationModeRequired),
   (profile.format ≠ .calibration ∧ s.device.workMode = .calibration,
      .configuration (.unavailableInCalibration profile.format)),
   (∀ row ∈ s.table.rows, row.key ≠ s.keyFor profile,
      .configuration (.unsupported s.device.model profile.rate profile.format))]

/-- The first thing that stands against a start. -/
def objection? (s : Stream) (profile : Profile) : Option Error := firstOf (s.objections profile)

variable {s : Stream} {profile : Profile} {e : Error}

/-- A start that is turned down leaves the table as it was. -/
theorem admission_snd (h : (s.admission profile).1 = .error e) :
    (s.admission profile).2 = s.table := by
  unfold admission at h ⊢
  split at h
  case isTrue hState => rw [if_pos hState]
  case isFalse hState =>
    rw [if_neg hState]
    split at h
    case isTrue hType => rw [if_pos hType]
    case isFalse hType =>
      rw [if_neg hType]
      cases hAllows : s.device.allows s.streamType with
      | error => rfl
      | ok =>
        rw [hAllows] at h
        exact GeometryTable.resolve_of_error h

/-- The checks of a start one behind another. -/
theorem admission_fst (s : Stream) (profile : Profile) :
    (s.admission profile).1 =
      if s.control.state ≠ .stopped ∧ s.control.state ≠ .error then
        .error (.invalidState
          s!"cannot start {s.streamType.label} stream while {s.control.state.label}")
      else if profile.streamType ≠ s.streamType then
        .error (.configuration (.wrongStreamType profile s.streamType))
      else if s.device.firmwareUpdating then .error (.deviceBusy "firmware update in progress")
      else if s.device.errorMask &&& s.streamType.errorBit ≠ 0 then
        .error (.deviceFault s.streamType s.device.errorMask)
      else (s.table.resolve (s.keyFor profile) s.device.workMode).1 := by
  have hStart : (!s.control.canStart) = true ↔
      s.control.state ≠ .stopped ∧ s.control.state ≠ .error := by
    simp [Control.canStart]
  unfold admission Device.allows
  simp only [hStart]
  split
  case isTrue => rfl
  case isFalse =>
    split
    case isTrue => rfl
    case isFalse =>
      by_cases hBusy : s.device.firmwareUpdating = true
      · rw [if_pos hBusy, if_pos hBusy]
      rw [if_neg hBusy, if_neg hBusy]
      by_cases hFault : s.device.errorMask &&& s.streamType.errorBit ≠ 0
      · rw [if_pos hFault, if_pos hFault]
      rw [if_neg hFault, if_neg hFault, keyFor]

/-- **The first objection decides.** -/
theorem decides_admission (h : s.table.IsFaithful) :
    Decides (s.objection? profile) (s.admission profile).1 := by
  rw [admission_fst, h.resolve_fst]
  simp only [objection?, objections, firstOf, decide_eq_true_eq]
  refine .check (.check (.check (.check (.check (.check ?_)))))
  cases hSearch : s.table.search (s.keyFor profile) with
  | none =>
    rw [if_pos (GeometryTable.search_eq_none_iff.mp hSearch)]
    exact rfl
  | some g =>
    rw [if_neg fun hNone => by
      cases hSearch.symm.trans (GeometryTable.search_eq_none_iff.mpr hNone)]
    exact trivial

/-- A start that something stands against is turned down with that, and changes nothing. -/
theorem admission_of_objection (h : s.table.IsFaithful)
    (hObjection : s.objection? profile = some e) :
    s.admission profile = (.error e, s.table) := by
  have hDecides : Decides (some e) (s.admission profile).1 := hObjection ▸ decides_admission h
  cases hVerdict : (s.admission profile).1 with
  | ok => rw [hVerdict] at hDecides; cases hDecides
  | error e' =>
    rw [hVerdict] at hDecides
    obtain rfl : e' = e := hDecides
    exact Prod.ext hVerdict (admission_snd hVerdict)

theorem admission_of_none (h : s.table.IsFaithful) (hNone : s.objection? profile = none) :
    ∃ g table, s.admission profile = (.ok g, table) := by
  have hDecides : Decides none (s.admission profile).1 := hNone ▸ decides_admission h
  cases hVerdict : (s.admission profile).1 with
  | ok g => exact ⟨g, _, Prod.ext hVerdict rfl⟩
  | error e' => rw [hVerdict] at hDecides; cases hDecides

end Stream

end LidarSweep
