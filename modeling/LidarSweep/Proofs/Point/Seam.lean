import LidarSweep.Proofs.Packet.Checked
import LidarSweep.Proofs.Packet.Synthetic
import Mathlib.Data.Nat.ModEq

/-!
# A sweep split into blocks

A payload is a preamble and wire points one behind another, and its conversion is one piece for each
of them (`convertPoints_of_wires`).  Appended wire points make appended pieces
(`convertFrom_append`), so only the position of a wire point within its block could tell where a
sweep was split.

Points of several lines and samples do not depend on it.  The angle of a scan point does: a second
block must begin with the angle at which the first one leaves off, and as angles are added up in
whole millidegrees before the turns are taken out, they may differ by any number of whole turns
(`millidegrees_add`).  The start of a block is stated in hundredths of a degree, so not every place
in a scan is one to split it at.
-/

namespace LidarSweep

open Bytes

/-! ### Wire points one behind another -/

/-- Bytes of the right length are pieces of one size. -/
theorem Bytes.exists_pieces {size n : Nat} {bs : List UInt8} (h : bs.length = n * size) :
    ∃ pieces : List (List UInt8), pieces.length = n ∧ (∀ piece ∈ pieces, piece.length = size) ∧
      pieces.flatten = bs := by
  induction n generalizing bs with
  | zero =>
    rw [Nat.zero_mul, List.length_eq_zero_iff] at h
    exact ⟨[], rfl, by simp, h.symm⟩
  | succ n ih =>
    rw [Nat.succ_mul] at h
    have hFirst : (bs.take size).length = size := List.length_take_of_le (by omega)
    have hRest : (bs.drop size).length = n * size := by
      rw [List.length_drop]
      omega
    obtain ⟨pieces, hCount, hSizes, hFlatten⟩ := ih hRest
    refine ⟨bs.take size :: pieces, by rw [List.length_cons, hCount], ?_, ?_⟩
    · intro piece hPiece
      rcases List.mem_cons.mp hPiece with rfl | hLater
      · exact hFirst
      · exact hSizes piece hLater
    · rw [List.flatten_cons, hFlatten, List.take_append_drop]

namespace Format

variable {format : Format} {start step : UInt16}

/-- Wire points converted one after another, the first of them at position `first` of its block. -/
def convertFrom (format : Format) (start step : UInt16) (first : Nat)
    (wires : List (List UInt8)) : List UInt8 :=
  (wires.zipIdx first).flatMap fun entry => format.convertPoint start step entry.2 entry.1

theorem convertFrom_nil (start step : UInt16) (first : Nat) :
    format.convertFrom start step first [] = [] := by
  rw [convertFrom, List.zipIdx_nil, List.flatMap_nil]

theorem convertFrom_cons (start step : UInt16) (first : Nat) (wire : List UInt8)
    (wires : List (List UInt8)) :
    format.convertFrom start step first (wire :: wires) =
      format.convertPoint start step first wire ++
        format.convertFrom start step (first + 1) wires := by
  rw [convertFrom, List.zipIdx_cons, List.flatMap_cons]
  rfl

theorem convertFrom_append (start step : UInt16) (first : Nat) (wires more : List (List UInt8)) :
    format.convertFrom start step first (wires ++ more) =
      format.convertFrom start step first wires ++
        format.convertFrom start step (first + wires.length) more := by
  rw [convertFrom, List.zipIdx_append, List.flatMap_append]
  rfl

/-- Where a point `k` places further on is the point at its own place in another block, the other
block is converted to the same points. -/
theorem convertFrom_add {start' step' : UInt16} {k : Nat}
    (h : ∀ i wire, format.convertPoint start step (k + i) wire =
      format.convertPoint start' step' i wire) (first : Nat) (wires : List (List UInt8)) :
    format.convertFrom start step (k + first) wires =
      format.convertFrom start' step' first wires := by
  induction wires generalizing first with
  | nil => rw [convertFrom_nil, convertFrom_nil]
  | cons wire wires ih =>
    rw [convertFrom_cons, convertFrom_cons, h, Nat.add_assoc, ih]

/-- What is converted of a payload, with the preamble told apart from the wire points. -/
theorem convertPoints_of_wires {front : List UInt8} {wires : List (List UInt8)}
    (hFront : front.length = format.layout.preamble)
    (hWires : ∀ wire ∈ wires, wire.length = format.layout.wireSize) :
    format.convertPoints (front ++ wires.flatten) wires.length =
      format.convertFrom (UInt16.ofNat (big (slice (front ++ wires.flatten) 0 2)))
        (UInt16.ofNat (big (slice (front ++ wires.flatten) 2 2))) 0 wires := by
  have hSize : 0 < format.layout.wireSize := by cases format <;> decide
  rw [convertPoints, List.drop_left' hFront, chunks_flatten hSize hWires, List.take_length,
    convertFrom, List.flatMap_def]

/-! ### What a conversion writes -/

/-- `written` is what the first points of a payload are converted to: every `out` with room for it
has it in front afterwards, and is the same as before behind it. -/
structure Converts (format : Format) (payload : List UInt8) (points : Nat)
    (written : List UInt8) : Prop where
  length_written : written.length = points * format.layout.pointSize
  convertInto_eq : ∀ out : List UInt8, points * format.layout.pointSize ≤ out.length →
    format.convertInto payload points out =
      (written ++ out.drop (points * format.layout.pointSize),
        .ok (points * format.layout.pointSize))

theorem converts_convertPoints {payload : List UInt8} {points : Nat}
    (h : format.payloadSize points ≤ payload.length) :
    format.Converts payload points (format.convertPoints payload points) where
  length_written := length_convertPoints h
  convertInto_eq _ hOut := convertInto_of_le h hOut

/-! ### Where the place within a block does not matter -/

theorem convertPoint_of_ne_scan (h : format ≠ .scan) (start step start' step' : UInt16) (i j : Nat)
    (wire : List UInt8) :
    format.convertPoint start step i wire = format.convertPoint start' step' j wire := by
  cases format with
  | scan => exact absurd rfl h
  | _ => rfl

theorem preamble_of_ne_scan (h : format ≠ .scan) : format.layout.preamble = 0 := by
  cases format with
  | scan => exact absurd rfl h
  | _ => rfl

theorem convertPoints_append (h : format ≠ .scan) {p q : List UInt8} {n m : Nat}
    (hp : p.length = n * format.layout.wireSize) (hq : q.length = m * format.layout.wireSize) :
    format.convertPoints (p ++ q) (n + m) =
      format.convertPoints p n ++ format.convertPoints q m := by
  obtain ⟨wires, rfl, hWires, rfl⟩ := exists_pieces hp
  obtain ⟨more, rfl, hMore, rfl⟩ := exists_pieces hq
  have hAll : ∀ wire ∈ wires ++ more, wire.length = format.layout.wireSize := by
    intro wire hWire
    rcases List.mem_append.mp hWire with hFirst | hSecond
    · exact hWires wire hFirst
    · exact hMore wire hSecond
  -- Any start and step will do, so those of the payloads are replaced by zero.
  have hEach : ∀ ws : List (List UInt8), (∀ wire ∈ ws, wire.length = format.layout.wireSize) →
      format.convertPoints ws.flatten ws.length = format.convertFrom 0 0 0 ws := by
    intro ws hws
    have hFront : ([] : List UInt8).length = format.layout.preamble := (preamble_of_ne_scan h).symm
    have hPieces := convertPoints_of_wires hFront hws
    rw [List.nil_append] at hPieces
    rw [hPieces]
    exact convertFrom_add (k := 0) (fun i wire => convertPoint_of_ne_scan h _ _ _ _ _ _ wire) 0 ws
  have hLater : format.convertFrom 0 0 (0 + wires.length) more = format.convertFrom 0 0 0 more := by
    rw [Nat.add_comm]
    exact convertFrom_add (fun i wire => convertPoint_of_ne_scan h _ _ _ _ _ _ wire) 0 more
  rw [← List.flatten_append, ← List.length_append, hEach _ hAll, hEach _ hWires, hEach _ hMore,
    convertFrom_append, hLater]

end Format

/-! ### Where a scan goes on -/

theorem ScanSample.slice_start (start step : UInt16) (samples : List ScanSample) :
    slice (encodeAll start step samples) 0 2 = ofBig 2 start.toNat := by
  rw [encodeAll, List.append_assoc, slice_front (length_ofBig 2 _)]

theorem ScanSample.slice_step (start step : UInt16) (samples : List ScanSample) :
    slice (encodeAll start step samples) 2 2 = ofBig 2 step.toNat := by
  rw [encodeAll, List.append_assoc, slice_append_right (by rw [length_ofBig]), length_ofBig,
    slice_front (length_ofBig 2 _)]

/-- An angle `k` steps on is one of a block that starts there, give or take whole turns. -/
theorem millidegrees_add {start next step : UInt16} {k : Nat}
    (h : 10 * next.toNat ≡ 10 * start.toNat + k * step.toNat [MOD 360000]) (i : Nat) :
    millidegrees start step (k + i) = millidegrees next step i := by
  have hTurn : 10 * next.toNat + i * step.toNat ≡
      10 * start.toNat + k * step.toNat + i * step.toNat [MOD 360000] := h.add_right _
  rw [millidegrees, millidegrees, Nat.mul_comm start.toNat, Nat.mul_comm next.toNat, Nat.add_mul,
    ← Nat.add_assoc]
  exact hTurn.symm

theorem ScanPoint.ofWire_add {start next step : UInt16} {k : Nat}
    (h : 10 * next.toNat ≡ 10 * start.toNat + k * step.toNat [MOD 360000]) (i : Nat)
    (wire : List UInt8) : ofWire start step (k + i) wire = ofWire next step i wire := by
  rw [ofWire, ofWire, millidegrees_add h]

namespace Format

theorem convertPoint_scan_add {start next step : UInt16} {k : Nat}
    (h : 10 * next.toNat ≡ 10 * start.toNat + k * step.toNat [MOD 360000]) (i : Nat)
    (wire : List UInt8) :
    Format.scan.convertPoint start step (k + i) wire =
      Format.scan.convertPoint next step i wire := by
  rw [convertPoint, convertPoint, ScanPoint.ofWire_add h]

/-- An encoded scan is converted sample by sample, from its start on. -/
theorem convertPoints_encodeAll (start step : UInt16) (samples : List ScanSample) :
    Format.scan.convertPoints (ScanSample.encodeAll start step samples) samples.length =
      Format.scan.convertFrom start step 0 (samples.map ScanSample.encode) := by
  have hWires : ∀ wire ∈ samples.map ScanSample.encode,
      wire.length = Format.scan.layout.wireSize := by
    intro wire hWire
    obtain ⟨sample, -, rfl⟩ := List.mem_map.mp hWire
    simp [ScanSample.encode, layout]
  have hFront : (ofBig 2 start.toNat ++ ofBig 2 step.toNat).length =
      Format.scan.layout.preamble := by
    simp [layout]
  have hSamples : ScanSample.encodeAll start step samples =
      ofBig 2 start.toNat ++ ofBig 2 step.toNat ++ (samples.map ScanSample.encode).flatten := by
    rw [ScanSample.encodeAll, List.flatMap_def]
  have hCount : samples.length = (samples.map ScanSample.encode).length := by
    rw [List.length_map]
  have hStart := ScanSample.slice_start start step samples
  have hStep := ScanSample.slice_step start step samples
  rw [hSamples] at hStart hStep
  rw [hSamples, hCount, convertPoints_of_wires hFront hWires, hStart, hStep,
    big_ofBig start.toNat_lt, big_ofBig step.toNat_lt, UInt16.ofNat_toNat, UInt16.ofNat_toNat]

theorem convertPoints_encodeAll_append {start next step : UInt16} {s t : List ScanSample}
    (h : 10 * next.toNat ≡ 10 * start.toNat + s.length * step.toNat [MOD 360000]) :
    Format.scan.convertPoints (ScanSample.encodeAll start step (s ++ t)) (s.length + t.length) =
      Format.scan.convertPoints (ScanSample.encodeAll start step s) s.length ++
        Format.scan.convertPoints (ScanSample.encodeAll next step t) t.length := by
  have hLater : Format.scan.convertFrom start step (0 + s.length) (t.map ScanSample.encode) =
      Format.scan.convertFrom next step 0 (t.map ScanSample.encode) := by
    rw [Nat.add_comm]
    exact convertFrom_add (convertPoint_scan_add h) 0 _
  rw [← List.length_append, convertPoints_encodeAll, convertPoints_encodeAll,
    convertPoints_encodeAll, List.map_append, convertFrom_append, List.length_map, hLater]

theorem payloadSize_encodeAll (start step : UInt16) (samples : List ScanSample) :
    Format.scan.payloadSize samples.length ≤ (ScanSample.encodeAll start step samples).length := by
  rw [ScanSample.length_encodeAll]
  exact Nat.le_refl _

/-! ### The seam -/

/-- **Splitting a sweep into blocks does not change its points.**  Whole wire points of several
lines, or samples, are converted to the same bytes in one block or in two.  So are the samples of a
scan, if the second block starts where the first one stops, up to whole turns. -/
theorem converts_append :
    (∀ (format : Format) (p q : List UInt8) (n m : Nat), format ≠ .scan →
      p.length = n * format.layout.wireSize → q.length = m * format.layout.wireSize →
      ∃ first second, format.Converts p n first ∧ format.Converts q m second ∧
        format.Converts (p ++ q) (n + m) (first ++ second)) ∧
    (∀ (start step next : UInt16) (s t : List ScanSample),
      10 * next.toNat ≡ 10 * start.toNat + s.length * step.toNat [MOD 360000] →
      ∃ first second,
        Format.scan.Converts (ScanSample.encodeAll start step s) s.length first ∧
        Format.scan.Converts (ScanSample.encodeAll next step t) t.length second ∧
        Format.scan.Converts (ScanSample.encodeAll start step (s ++ t)) (s.length + t.length)
          (first ++ second)) := by
  constructor
  · intro format p q n m hFormat hp hq
    have hSize : ∀ k, format.payloadSize k = k * format.layout.wireSize := by
      intro k
      rw [payloadSize, preamble_of_ne_scan hFormat, Nat.zero_add]
    have hWhole : format.payloadSize (n + m) ≤ (p ++ q).length := by
      rw [hSize, Nat.add_mul, List.length_append, hp, hq]
    refine ⟨format.convertPoints p n, format.convertPoints q m, ?_, ?_, ?_⟩
    · apply converts_convertPoints
      rw [hSize, hp]
    · apply converts_convertPoints
      rw [hSize, hq]
    · rw [← convertPoints_append hFormat hp hq]
      exact converts_convertPoints hWhole
  · intro start step next s t hNext
    refine ⟨_, _, converts_convertPoints (payloadSize_encodeAll start step s),
      converts_convertPoints (payloadSize_encodeAll next step t), ?_⟩
    have hWhole := payloadSize_encodeAll start step (s ++ t)
    rw [List.length_append] at hWhole
    rw [← convertPoints_encodeAll_append hNext]
    exact converts_convertPoints hWhole

/-- Two samples, and two points from 359.99 degrees on in steps of 10 degrees, each split in the
middle; the second point of the scan is past a whole turn, at 9.99 degrees. -/
theorem converts_append_past_turn :
    (Format.calibration ≠ .scan ∧
      [1, 2, 3, 4].length = 1 * Format.calibration.layout.wireSize ∧
      [5, 6, 7, 8].length = 1 * Format.calibration.layout.wireSize ∧
      ∃ first second, Format.calibration.Converts [1, 2, 3, 4] 1 first ∧
        Format.calibration.Converts [5, 6, 7, 8] 1 second ∧
        Format.calibration.Converts [1, 2, 3, 4, 5, 6, 7, 8] 2 (first ++ second)) ∧
    10 * (999 : UInt16).toNat ≡
        10 * (35999 : UInt16).toNat + 1 * (10000 : UInt16).toNat [MOD 360000] ∧
      360000 < 10 * (35999 : UInt16).toNat + 1 * (10000 : UInt16).toNat ∧
      millidegrees 35999 10000 1 = 9990 ∧
      ∃ first second,
        Format.scan.Converts (ScanSample.encodeAll 35999 10000 [⟨4, 7⟩]) 1 first ∧
        Format.scan.Converts (ScanSample.encodeAll 999 10000 [⟨8, 9⟩]) 1 second ∧
        Format.scan.Converts (ScanSample.encodeAll 35999 10000 [⟨4, 7⟩, ⟨8, 9⟩]) 2
          (first ++ second) := by
  have hNext : 10 * (999 : UInt16).toNat ≡
      10 * (35999 : UInt16).toNat + 1 * (10000 : UInt16).toNat [MOD 360000] := by decide
  exact ⟨⟨by decide, rfl, rfl, converts_append.1 .calibration [1, 2, 3, 4] [5, 6, 7, 8] 1 1
      (by decide) rfl rfl⟩, hNext, by decide, by decide,
    converts_append.2 35999 10000 999 [⟨4, 7⟩] [⟨8, 9⟩] hNext⟩

end Format

end LidarSweep
