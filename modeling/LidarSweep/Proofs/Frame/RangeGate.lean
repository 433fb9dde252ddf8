import LidarSweep.Proofs.Point.Reading
import LidarSweep.Stream.Pipeline

/-!
# What a range gate leaves of a frame

A gate looks at the whole points of a frame one by one.  A point out of range is replaced by its
`zeroed` form, all else stays as it is, byte for byte (`Gated`).  Whether a point was in range
before is all that counts: a zeroed point stays what it is under any gate, be a range of zero
rejected or not.  So gates can be applied again, and in any order, and no arithmetic on ranges
needs to be looked at, whatever numbers or non-numbers the bytes stand for.
-/

namespace LidarSweep

open Bytes

/-! ### Changing whole pieces -/

namespace Bytes

variable {n : Nat} {f g : List UInt8 → List UInt8}

/-- Whole pieces are where their size says. -/
theorem chunks_eq_map_slice (hn : 0 < n) (bs : List UInt8) :
    chunks n bs = (List.range (bs.length / n)).map fun i => slice bs (i * n) n := by
  rw [← take_chunks hn (Nat.div_mul_le_self _ _), ← length_chunks hn, List.take_length]

/-- What is left behind the whole pieces is too short for another one. -/
theorem length_drop_chunks_lt (hn : 0 < n) (bs : List UInt8) :
    (bs.drop (n * (chunks n bs).length)).length < n := by
  have hParts := Nat.div_add_mod bs.length n
  have hRest := Nat.mod_lt bs.length hn
  rw [List.length_drop, length_chunks hn]
  omega

theorem length_of_mem_map_chunks (h : ∀ piece, piece.length = n → (f piece).length = n)
    {bs piece : List UInt8} (hPiece : piece ∈ (chunks n bs).map f) : piece.length = n := by
  obtain ⟨old, hOld, rfl⟩ := List.mem_map.mp hPiece
  exact h old (length_of_mem_chunks hOld)

/-- Whole pieces take as much room after a change as before. -/
theorem length_flatten_map_chunks (h : ∀ piece, piece.length = n → (f piece).length = n)
    (bs : List UInt8) : ((chunks n bs).map f).flatten.length = n * (chunks n bs).length := by
  rw [length_flatten_of_forall fun _ => length_of_mem_map_chunks h, List.length_map, Nat.mul_comm]

theorem chunks_mapChunks (hn : 0 < n) (h : ∀ piece, piece.length = n → (f piece).length = n)
    (bs : List UInt8) : chunks n (mapChunks n f bs) = (chunks n bs).map f := by
  rw [mapChunks, List.flatMap_def]
  exact chunks_flatten_append hn (fun _ => length_of_mem_map_chunks h)
    (length_drop_chunks_lt hn bs)

theorem drop_mapChunks (h : ∀ piece, piece.length = n → (f piece).length = n) (bs : List UInt8) :
    (mapChunks n f bs).drop (n * (chunks n bs).length) = bs.drop (n * (chunks n bs).length) := by
  rw [mapChunks, List.flatMap_def, List.drop_left' (length_flatten_map_chunks h bs)]

theorem length_mapChunks (hn : 0 < n) (h : ∀ piece, piece.length = n → (f piece).length = n)
    (bs : List UInt8) : (mapChunks n f bs).length = bs.length := by
  have hWhole := Nat.mul_div_le bs.length n
  rw [mapChunks, List.flatMap_def, List.length_append, length_flatten_map_chunks h,
    List.length_drop, length_chunks hn]
  omega

theorem mapChunks_mapChunks (hn : 0 < n) (h : ∀ piece, piece.length = n → (f piece).length = n)
    (bs : List UInt8) : mapChunks n g (mapChunks n f bs) = mapChunks n (g ∘ f) bs := by
  rw [mapChunks, chunks_mapChunks hn h, List.length_map, drop_mapChunks h, List.flatMap_map]
  rfl

theorem mapChunks_congr (h : ∀ piece, piece.length = n → f piece = g piece) (bs : List UInt8) :
    mapChunks n f bs = mapChunks n g bs := by
  have hPieces : (chunks n bs).map f = (chunks n bs).map g :=
    List.map_congr_left fun piece hPiece => h piece (length_of_mem_chunks hPiece)
  rw [mapChunks, mapChunks, List.flatMap_def, List.flatMap_def, hPieces]

end Bytes

/-! ### Points out of range -/

namespace Format

/-- The range of a point, as it is read. Calibration samples have none. -/
def range? (format : Format) (piece : List UInt8) : Option Float32 :=
  match format with
  | .scan => some (ScanPoint.decode piece).distance
  | .point =>
    let p := CartesianPoint.decode piece
    some (p.x * p.x + p.y * p.y + p.z * p.z).sqrt
  | .spherePoint => some (SphericalPoint.decode piece).distance
  | .calibration => none

/-- Whether byte `k` of a point belongs to its range or its intensity. -/
def isRanged (format : Format) (k : Nat) : Bool :=
  match format with
  | .scan => 4 ≤ k && k < 9
  | .point => true
  | .spherePoint => k < 4 || k == 12
  | .calibration => false

/-- A point with zeros for range and intensity. -/
def zeroed (format : Format) (piece : List UInt8) : List UInt8 :=
  piece.mapIdx fun k b => if format.isRanged k then 0 else b

theorem length_zeroed (format : Format) (piece : List UInt8) :
    (format.zeroed piece).length = piece.length := List.length_mapIdx

theorem zeroed_zeroed (format : Format) (piece : List UInt8) :
    format.zeroed (format.zeroed piece) = format.zeroed piece := by
  rw [zeroed, zeroed, List.mapIdx_mapIdx]
  refine congrArg piece.mapIdx (funext fun k => funext fun b => ?_)
  rw [Function.comp_apply]
  split <;> rfl

theorem slice_zeroed_of_kept {format : Format} {piece : List UInt8} {start n : Nat}
    (h : ∀ k < n, format.isRanged (start + k) = false) :
    slice (format.zeroed piece) start n = slice piece start n := by
  apply List.ext_getElem
  · simp [slice, length_zeroed]
  · intro k hLeft hRight
    have hk : k < n := by
      simp only [slice, List.length_take] at hRight
      omega
    simp [slice, zeroed, h k hk]

theorem slice_zeroed_of_ranged {format : Format} {piece : List UInt8} {start n : Nat}
    (hFits : start + n ≤ piece.length) (h : ∀ k < n, format.isRanged (start + k) = true) :
    slice (format.zeroed piece) start n = List.replicate n 0 := by
  apply List.ext_getElem
  · rw [length_slice (by rwa [length_zeroed]), List.length_replicate]
  · intro k hLeft hRight
    have hk : k < n := by rwa [List.length_replicate] at hRight
    simp [slice, zeroed, h k hk]

theorem getD_zeroed {format : Format} {piece : List UInt8} {k : Nat} (hk : k < piece.length) :
    (format.zeroed piece).getD k 0 = if format.isRanged k then 0 else piece.getD k 0 := by
  simp [zeroed, hk]

end Format

namespace Single

variable {format : Format} {piece : List UInt8} {start : Nat}

theorem atOffset_zeroed_of_kept (h : ∀ k < 4, format.isRanged (start + k) = false) :
    atOffset (format.zeroed piece) start = atOffset piece start := by
  rw [atOffset, Format.slice_zeroed_of_kept h, atOffset]

theorem atOffset_zeroed_of_ranged (hFits : start + 4 ≤ piece.length)
    (h : ∀ k < 4, format.isRanged (start + k) = true) :
    atOffset (format.zeroed piece) start = 0 := by
  rw [atOffset, Format.slice_zeroed_of_ranged hFits h]
  rfl

end Single

/-- A zeroed point of a scan keeps its angle. -/
theorem ScanPoint.decode_zeroed {piece : List UInt8} (h : piece.length = 12) :
    decode (Format.scan.zeroed piece) = { decode piece with distance := 0, intensity := 0 } := by
  rw [decode, Single.atOffset_zeroed_of_kept (by decide),
    Single.atOffset_zeroed_of_ranged (by omega) (by decide), Format.getD_zeroed (by omega)]
  rfl

/-- Of a zeroed point nothing is left. -/
theorem CartesianPoint.decode_zeroed {piece : List UInt8} (h : piece.length = 16) :
    decode (Format.point.zeroed piece) = ⟨0, 0, 0, 0⟩ := by
  rw [decode, Single.atOffset_zeroed_of_ranged (by omega) (by decide),
    Single.atOffset_zeroed_of_ranged (by omega) (by decide),
    Single.atOffset_zeroed_of_ranged (by omega) (by decide), Format.getD_zeroed (by omega)]
  rfl

/-- A zeroed spherical point keeps its angles. -/
theorem SphericalPoint.decode_zeroed {piece : List UInt8} (h : piece.length = 16) :
    decode (Format.spherePoint.zeroed piece) =
      { decode piece with distance := 0, intensity := 0 } := by
  rw [decode, Single.atOffset_zeroed_of_ranged (by omega) (by decide),
    Single.atOffset_zeroed_of_kept (by decide), Single.atOffset_zeroed_of_kept (by decide),
    Format.getD_zeroed (by omega)]
  rfl

namespace RangeGate

variable {gate other : RangeGate} {format : Format} {piece : List UInt8}

/-- The range is below the least or above the greatest of the gate; no number is neither. -/
def Bars (gate : RangeGate) (range : Float32) : Prop :=
  range < gate.least ∨ gate.greatest < range

instance (gate : RangeGate) (range : Float32) : Decidable (gate.Bars range) :=
  inferInstanceAs (Decidable (_ ∨ _))

/-- Whether the point has a range that the gate bars. -/
def barsPoint (gate : RangeGate) (format : Format) (piece : List UInt8) : Bool :=
  (format.range? piece).any (gate.Bars ·)

theorem length_blank (h : piece.length = format.layout.pointSize) :
    (blank format piece).length = piece.length := by
  cases format <;> simp_all [blank, slice, Format.layout]

theorem blank_eq_zeroed (h : piece.length = format.layout.pointSize) :
    blank format piece = format.zeroed piece := by
  apply List.ext_getElem
  · rw [length_blank h, Format.length_zeroed]
  · intro k hk _
    rw [length_blank h, h] at hk
    cases format with
    | calibration => simp [blank, Format.zeroed, Format.isRanged]
    | point =>
      simp only [blank, Format.zeroed, Format.isRanged, List.getElem_replicate,
        List.getElem_mapIdx, if_true]
    | scan =>
      simp only [blank, Format.zeroed, Format.isRanged, List.getElem_append,
        List.getElem_replicate, List.getElem_mapIdx, List.getElem_take, List.getElem_drop]
      grind [Format.layout]
    | spherePoint =>
      simp only [blank, Format.zeroed, Format.isRanged, slice, List.getElem_append,
        List.getElem_replicate, List.getElem_mapIdx, List.getElem_take, List.getElem_drop]
      grind [Format.layout]

/-- A point that is barred is zeroed, and any other one is kept. -/
theorem applyPoint_eq (h : piece.length = format.layout.pointSize) :
    gate.applyPoint format piece =
      if gate.barsPoint format piece then format.zeroed piece else piece := by
  have hRejects : ∀ range, gate.rejects range = decide (gate.Bars range) := fun range =>
    (Bool.decide_or _ _).symm
  rw [applyPoint, blank_eq_zeroed h, hRejects]
  cases format with
  | calibration =>
    have hKept : Format.calibration.zeroed piece = piece := (blank_eq_zeroed h).symm
    rw [hKept, ite_self, ite_self]
  | point => rfl
  | scan => rfl
  | spherePoint => rfl

theorem length_applyPoint (gate : RangeGate) (h : piece.length = format.layout.pointSize) :
    (gate.applyPoint format piece).length = format.layout.pointSize := by
  rw [applyPoint_eq h]
  split
  · rw [Format.length_zeroed, h]
  · exact h

/-- A point is zeroed by two gates if one of them bars it as it was at first. -/
theorem applyPoint_applyPoint (h : piece.length = format.layout.pointSize) :
    other.applyPoint format (gate.applyPoint format piece) =
      if gate.barsPoint format piece ∨ other.barsPoint format piece then format.zeroed piece
      else piece := by
  rw [applyPoint_eq (length_applyPoint gate h), applyPoint_eq h]
  by_cases hGate : gate.barsPoint format piece = true
  · -- What the other gate says of a zeroed point does not matter.
    rw [if_pos hGate, if_pos (Or.inl hGate), Format.zeroed_zeroed, ite_self]
  · rw [if_neg hGate]
    by_cases hOther : other.barsPoint format piece = true
    · rw [if_pos hOther, if_pos (Or.inr hOther)]
    · rw [if_neg hOther, if_neg (not_or.mpr ⟨hGate, hOther⟩)]

/-! ### Frames -/

variable {frame : Frame}

theorem apply_of_calibration (h : frame.format = .calibration) (gate : RangeGate) :
    gate.apply frame = frame := by
  rw [apply, h]

theorem apply_of_points (h : frame.format ≠ .calibration) (gate : RangeGate) :
    gate.apply frame = frame.withData
      (mapChunks frame.format.layout.pointSize (gate.applyPoint frame.format) frame.data) := by
  unfold apply
  split
  · contradiction
  · rfl

theorem format_apply (gate : RangeGate) (frame : Frame) :
    (gate.apply frame).format = frame.format := by
  by_cases h : frame.format = .calibration
  · rw [apply_of_calibration h]
  · rw [apply_of_points h]
    rfl

/-- Two gates, one after the other. -/
theorem apply_apply (h : frame.format ≠ .calibration) (gate other : RangeGate) :
    other.apply (gate.apply frame) = frame.withData
      (mapChunks frame.format.layout.pointSize
        (fun piece =>
          if gate.barsPoint frame.format piece ∨ other.barsPoint frame.format piece then
            frame.format.zeroed piece
          else piece) frame.data) := by
  have hAfter : (gate.apply frame).format ≠ .calibration := by rwa [format_apply]
  rw [apply_of_points hAfter, format_apply, apply_of_points h]
  have hBoth := mapChunks_mapChunks frame.format.pointSize_pos
    (g := other.applyPoint frame.format) (fun _ => length_applyPoint gate) frame.data
  exact congrArg frame.withData
    (hBoth.trans (mapChunks_congr (fun _ hPiece => applyPoint_applyPoint hPiece) frame.data))

theorem apply_comm (gate other : RangeGate) (frame : Frame) :
    other.apply (gate.apply frame) = gate.apply (other.apply frame) := by
  by_cases h : frame.format = .calibration
  · simp only [apply_of_calibration h]
  · rw [apply_apply h, apply_apply h]
    simp only [or_comm]

theorem apply_idem (gate : RangeGate) (frame : Frame) :
    gate.apply (gate.apply frame) = gate.apply frame := by
  by_cases h : frame.format = .calibration
  · simp only [apply_of_calibration h]
  · rw [apply_apply h, apply_of_points h]
    refine congrArg frame.withData (mapChunks_congr (fun piece hPiece => ?_) _)
    rw [applyPoint_eq hPiece]
    simp only [or_self]

/-- The whole points of a frame that went through a gate. -/
theorem chunks_apply (h : frame.format ≠ .calibration) (gate : RangeGate) :
    chunks frame.format.layout.pointSize (gate.apply frame).data =
      (chunks frame.format.layout.pointSize frame.data).map (gate.applyPoint frame.format) := by
  rw [apply_of_points h]
  exact chunks_mapChunks frame.format.pointSize_pos (fun _ => length_applyPoint gate) _

theorem length_apply (gate : RangeGate) (frame : Frame) :
    (gate.apply frame).data.length = frame.data.length := by
  by_cases h : frame.format = .calibration
  · rw [apply_of_calibration h]
  · rw [apply_of_points h]
    exact length_mapChunks frame.format.pointSize_pos (fun _ => length_applyPoint gate) _

theorem slice_apply (gate : RangeGate) {i : Nat} (hi : i < frame.pointCount) :
    slice (gate.apply frame).data (i * frame.format.layout.pointSize)
        frame.format.layout.pointSize =
      gate.applyPoint frame.format
        (slice frame.data (i * frame.format.layout.pointSize) frame.format.layout.pointSize) := by
  by_cases h : frame.format = .calibration
  · rw [apply_of_calibration h, h]
    exact (ite_self _).symm
  · have hChunks := chunks_apply h gate
    rw [chunks_eq_map_slice frame.format.pointSize_pos,
      chunks_eq_map_slice frame.format.pointSize_pos, length_apply, List.map_map] at hChunks
    exact List.map_inj_left.mp hChunks i (List.mem_range.mpr hi)

theorem drop_apply (gate : RangeGate) (frame : Frame) :
    (gate.apply frame).data.drop (frame.format.layout.pointSize * frame.pointCount) =
      frame.data.drop (frame.format.layout.pointSize * frame.pointCount) := by
  by_cases h : frame.format = .calibration
  · rw [apply_of_calibration h]
  · rw [apply_of_points h, Frame.pointCount, ← length_chunks frame.format.pointSize_pos]
    exact drop_mapChunks (fun _ => length_applyPoint gate) _

/-- What a gate makes of a frame. -/
structure Gated (gate : RangeGate) (before after : Frame) : Prop where
  attributes : after = before.withData after.data
  length : after.data.length = before.data.length
  calibration : before.format = .calibration → after.data = before.data
  /-- A whole point is kept, byte for byte, or zeroed. -/
  points : ∀ i < before.pointCount,
    let size := before.format.layout.pointSize
    let piece := slice before.data (i * size) size
    slice after.data (i * size) size =
      if gate.barsPoint before.format piece then before.format.zeroed piece else piece
  /-- What is behind the last whole point is kept. -/
  rest : after.data.drop (before.format.layout.pointSize * before.pointCount) =
    before.data.drop (before.format.layout.pointSize * before.pointCount)
  /-- What is read of the points afterwards. -/
  reading : match before.format with
    | .scan => ScanPoint.readAll after.data = (ScanPoint.readAll before.data).map fun p =>
        if gate.Bars p.distance then { p with distance := 0, intensity := 0 } else p
    | .point => CartesianPoint.readAll after.data = (CartesianPoint.readAll before.data).map
        fun p => if gate.Bars (p.x * p.x + p.y * p.y + p.z * p.z).sqrt then ⟨0, 0, 0, 0⟩ else p
    | .spherePoint => SphericalPoint.readAll after.data = (SphericalPoint.readAll before.data).map
        fun p => if gate.Bars p.distance then { p with distance := 0, intensity := 0 } else p
    | .calibration => after.data = before.data

/-- The points that are read of a gated frame. -/
theorem map_decode_apply {α : Type} {size : Nat} (decode : List UInt8 → α) (range : α → Float32)
    (blanked : α → α) (hFormat : frame.format = format) (hPoints : format ≠ .calibration)
    (hSize : format.layout.pointSize = size)
    (hRange : ∀ piece, format.range? piece = some (range (decode piece)))
    (hZeroed : ∀ piece, piece.length = size → decode (format.zeroed piece) = blanked (decode piece))
    (gate : RangeGate) :
    (chunks size (gate.apply frame).data).map decode =
      ((chunks size frame.data).map decode).map fun p =>
        if gate.Bars (range p) then blanked p else p := by
  subst hFormat hSize
  rw [chunks_apply hPoints, List.map_map, List.map_map]
  refine List.map_congr_left fun piece hPiece => ?_
  have hWhole := length_of_mem_chunks hPiece
  rw [Function.comp_apply, Function.comp_apply, applyPoint_eq hWhole, barsPoint, hRange,
    Option.any_some, apply_ite decode, hZeroed piece hWhole]
  simp only [decide_eq_true_eq]

theorem gated_apply (gate : RangeGate) (frame : Frame) : gate.Gated frame (gate.apply frame) where
  attributes := by
    by_cases h : frame.format = .calibration
    · rw [apply_of_calibration h]
      rfl
    · rw [apply_of_points h]
      rfl
  length := length_apply gate frame
  calibration h := by rw [apply_of_calibration h]
  points i hi := by
    have hWhole : i * frame.format.layout.pointSize + frame.format.layout.pointSize ≤
        frame.data.length := by
      rw [← Nat.succ_mul]
      exact (Nat.le_div_iff_mul_le frame.format.pointSize_pos).mp hi
    exact (slice_apply gate hi).trans (applyPoint_eq (length_slice hWhole))
  rest := drop_apply gate frame
  reading := by
    split
    next h =>
      exact map_decode_apply ScanPoint.decode ScanPoint.distance
        (fun p => { p with distance := 0, intensity := 0 }) h nofun rfl (fun _ => rfl)
        (fun _ => ScanPoint.decode_zeroed) gate
    next h =>
      exact map_decode_apply CartesianPoint.decode
        (fun p => (p.x * p.x + p.y * p.y + p.z * p.z).sqrt) (fun _ => ⟨0, 0, 0, 0⟩) h nofun rfl
        (fun _ => rfl) (fun _ => CartesianPoint.decode_zeroed) gate
    next h =>
      exact map_decode_apply SphericalPoint.decode SphericalPoint.distance
        (fun p => { p with distance := 0, intensity := 0 }) h nofun rfl (fun _ => rfl)
        (fun _ => SphericalPoint.decode_zeroed) gate
    next h => rw [apply_of_calibration h]

/-- **Gates, in any order.**  A gate hands every frame on, and of the frame it changes whole points
only, those that are out of its range, and of these only range and intensity.  A gate that is
applied again changes nothing more, and of two gates either may come first, whatever the points
of the frame are. -/
theorem gates_commute (gate other : RangeGate) (frame : Frame) :
    (∀ call, gate.processor.act call frame = .ok (.keep (gate.apply frame))) ∧
      gate.Gated frame (gate.apply frame) ∧
      gate.apply (gate.apply frame) = gate.apply frame ∧
      other.apply (gate.apply frame) = gate.apply (other.apply frame) :=
  ⟨fun _ => rfl, gate.gated_apply frame, gate.apply_idem frame, gate.apply_comm other frame⟩

/-- Scan points at an angle of 1, one at no number and one at minus zero. -/
example :
    (RangeGate.mk 100 200).applyPoint .scan [0, 0, 128, 63, 0, 0, 192, 127, 9, 0, 0, 0] =
        [0, 0, 128, 63, 0, 0, 192, 127, 9, 0, 0, 0] ∧
      (RangeGate.mk 100 200).applyPoint .scan [0, 0, 128, 63, 0, 0, 0, 128, 9, 7, 7, 7] =
        [0, 0, 128, 63, 0, 0, 0, 0, 0, 7, 7, 7] := by
  decide

end RangeGate

end LidarSweep
