import LidarSweep.Geometry.Table
import Mathlib.Data.List.Forall2

/-!
# The cache of a geometry table

A table may answer out of its cache, but what it keeps there is what a search of its rows finds, and
stays so (`IsFaithful`).  The work mode is no part of what an entry is kept under, and need not be:
it is looked at before the cache is (`IsFaithful.resolve_fst`).  So no answer depends on what was
asked before, in whatever modes, and an answer can be told from the rows alone (`RowsSay`).
-/

namespace LidarSweep

/-- Calibration data is for calibration mode, and nothing else is. -/
def WorkMode.Suits (mode : WorkMode) (format : Format) : Prop :=
  format = .calibration ↔ mode = .calibration

/-- Calibration data and calibration mode go together. -/
theorem WorkMode.check_eq (mode : WorkMode) (format : Format) :
    mode.check format =
      if format = .calibration ∧ mode = .normal then
        .error (.configuration .calibrationModeRequired)
      else if format ≠ .calibration ∧ mode = .calibration then
        .error (.configuration (.unavailableInCalibration format))
      else .ok () := by
  cases format <;> cases mode <;> rfl

namespace GeometryTable

/-- What is kept is what a search would find. -/
def IsFaithful (table : GeometryTable) : Prop :=
  ∀ key g, table.cache.lookup key = some g → table.search key = some g

theorem isFaithful_ofRows (rows : List GeometryRow) : (ofRows rows).IsFaithful :=
  fun _ _ hKept => by cases hKept

/-- Nothing is found just where no row has the key. -/
theorem search_eq_none_iff {table : GeometryTable} {key : GeometryKey} :
    table.search key = none ↔ ∀ row ∈ table.rows, row.key ≠ key := by
  rw [search, Option.map_eq_none_iff, List.find?_eq_none]
  simp only [beq_iff_eq, ne_eq]

variable {table : GeometryTable} {key : GeometryKey} {mode : WorkMode}

/-- A table that does not resolve a combination remembers nothing of it. -/
theorem resolve_of_error {e : Error} (h : (table.resolve key mode).1 = .error e) :
    (table.resolve key mode).2 = table := by
  unfold resolve at h ⊢
  split at h
  · rfl
  · split at h
    · cases h
    · split at h
      · rfl
      · cases h

namespace IsFaithful

theorem resolve (h : table.IsFaithful) (key : GeometryKey) (mode : WorkMode) :
    (table.resolve key mode).2.IsFaithful := by
  unfold GeometryTable.resolve
  split
  case h_1 => exact h
  case h_2 =>
    split
    case h_1 => exact h
    case h_2 =>
      split
      case h_1 => exact h
      case h_2 g hFound =>
        intro key' g' hKept
        rw [List.lookup_cons] at hKept
        split at hKept
        case h_1 hSame =>
          cases hKept
          rw [beq_iff_eq.mp hSame]
          exact hFound
        case h_2 => exact h key' g' hKept

/-- A combination is resolved where the mode allows it and there is a row for it. -/
theorem resolve_fst (h : table.IsFaithful) (key : GeometryKey) (mode : WorkMode) :
    (table.resolve key mode).1 =
      if key.format = .calibration ∧ mode = .normal then
        .error (.configuration .calibrationModeRequired)
      else if key.format ≠ .calibration ∧ mode = .calibration then
        .error (.configuration (.unavailableInCalibration key.format))
      else
        match table.search key with
        | some g => .ok g
        | none => .error (.configuration (.unsupported key.model key.rate key.format)) := by
  rw [GeometryTable.resolve, WorkMode.check_eq]
  by_cases hRequired : key.format = .calibration ∧ mode = .normal
  · rw [if_pos hRequired, if_pos hRequired]
  rw [if_neg hRequired, if_neg hRequired]
  by_cases hAbsent : key.format ≠ .calibration ∧ mode = .calibration
  · rw [if_pos hAbsent, if_pos hAbsent]
  rw [if_neg hAbsent, if_neg hAbsent]
  dsimp only
  cases hCache : table.cache.lookup key with
  | some g => rw [h key g hCache]
  | none => cases table.search key <;> rfl

/-- Tables with the same rows resolve a combination alike, whatever they keep. -/
theorem resolve_congr {other : GeometryTable} (h : table.IsFaithful) (hOther : other.IsFaithful)
    (hRows : table.rows = other.rows) (key : GeometryKey) (mode : WorkMode) :
    (table.resolve key mode).1 = (other.resolve key mode).1 := by
  rw [h.resolve_fst, hOther.resolve_fst, search, search, hRows]

end IsFaithful

theorem rows_resolve (table : GeometryTable) (key : GeometryKey) (mode : WorkMode) :
    (table.resolve key mode).2.rows = table.rows := by
  unfold resolve
  split
  · rfl
  · split
    · rfl
    · split <;> rfl

/-! ### What the rows say -/

/-- What a list of rows answers to a combination in a work mode.  The mode is looked at first, and
then the rows in their order. -/
inductive RowsSay (rows : List GeometryRow) (key : GeometryKey) :
    WorkMode → Except Error Geometry → Prop where
  | calibrationModeRequired (hFormat : key.format = .calibration) :
      RowsSay rows key .normal (.error (.configuration .calibrationModeRequired))
  | unavailableInCalibration (hFormat : key.format ≠ .calibration) :
      RowsSay rows key .calibration
        (.error (.configuration (.unavailableInCalibration key.format)))
  | unsupported {mode : WorkMode} (hMode : mode.Suits key.format)
      (hNone : ∀ row ∈ rows, row.key ≠ key) :
      RowsSay rows key mode
        (.error (.configuration (.unsupported key.model key.rate key.format)))
  | found {mode : WorkMode} {before after : List GeometryRow} {row : GeometryRow}
      (hMode : mode.Suits key.format) (hRows : rows = before ++ row :: after)
      (hFirst : ∀ other ∈ before, other.key ≠ key) (hKey : row.key = key) :
      RowsSay rows key mode (.ok row.geometry)

/-- The first row with a key. -/
theorem exists_of_search {g : Geometry} (h : table.search key = some g) :
    ∃ before row after, table.rows = before ++ row :: after ∧
      (∀ other ∈ before, other.key ≠ key) ∧ row.key = key ∧ row.geometry = g := by
  obtain ⟨row, hFind, hGeometry⟩ := Option.map_eq_some_iff.mp h
  obtain ⟨hKey, before, after, hRows, hFirst⟩ := List.find?_eq_some_iff_append.mp hFind
  refine ⟨before, row, after, hRows, ?_, beq_iff_eq.mp hKey, hGeometry⟩
  intro other hOther hSame
  have hNot := hFirst other hOther
  rw [hSame, beq_self_eq_true] at hNot
  cases hNot

/-- **A faithful table answers as its rows say.** -/
theorem IsFaithful.rowsSay (h : table.IsFaithful) (key : GeometryKey) (mode : WorkMode) :
    RowsSay table.rows key mode (table.resolve key mode).1 := by
  rw [h.resolve_fst]
  by_cases hRequired : key.format = .calibration ∧ mode = .normal
  · obtain ⟨hFormat, rfl⟩ := hRequired
    rw [if_pos ⟨hFormat, rfl⟩]
    exact .calibrationModeRequired hFormat
  by_cases hAbsent : key.format ≠ .calibration ∧ mode = .calibration
  · obtain ⟨hFormat, rfl⟩ := hAbsent
    rw [if_neg hRequired, if_pos ⟨hFormat, rfl⟩]
    exact .unavailableInCalibration hFormat
  rw [if_neg hRequired, if_neg hAbsent]
  have hMode : mode.Suits key.format := by
    cases mode with
    | normal => exact ⟨fun hFormat => absurd ⟨hFormat, rfl⟩ hRequired, fun hMode => nomatch hMode⟩
    | calibration => exact ⟨fun _ => rfl, fun _ => by_contra fun hFormat => hAbsent ⟨hFormat, rfl⟩⟩
  cases hSearch : table.search key with
  | none => exact .unsupported hMode (search_eq_none_iff.mp hSearch)
  | some g =>
    obtain ⟨before, row, after, hRows, hFirst, hKey, rfl⟩ := exists_of_search hSearch
    exact .found hMode hRows hFirst hKey

/-- A combination that its mode has no place for is refused, and nothing is kept of it. -/
theorem IsFaithful.resolve_of_not_suits (h : table.IsFaithful) (hMode : ¬ mode.Suits key.format) :
    ∃ e, table.resolve key mode = (.error e, table) := by
  have hSay := h.rowsSay key mode
  cases hVerdict : (table.resolve key mode).1 with
  | error e => exact ⟨e, Prod.ext hVerdict (resolve_of_error hVerdict)⟩
  | ok g =>
    rw [hVerdict] at hSay
    cases hSay with
    | found hSuits => exact absurd hSuits hMode

/-! ### One call after another -/

structure Call where
  key : GeometryKey
  mode : WorkMode
  deriving DecidableEq, Repr

/-- The answers to calls one after another, and the table after them. -/
def resolveAll (table : GeometryTable) : List Call → List (Except Error Geometry) × GeometryTable
  | [] => ([], table)
  | call :: calls =>
    let (answer, table) := table.resolve call.key call.mode
    let (answers, table) := table.resolveAll calls
    (answer :: answers, table)

theorem IsFaithful.resolveAll (h : table.IsFaithful) (calls : List Call) :
    (table.resolveAll calls).2.IsFaithful := by
  induction calls generalizing table with
  | nil => exact h
  | cons call calls ih => exact ih (h.resolve call.key call.mode)

/-- An answer to a call and the answer of a table that was asked nothing before. -/
theorem IsFaithful.forall₂_resolveAll {P : Call → Except Error Geometry → Prop}
    (h : table.IsFaithful)
    (hFresh : ∀ call, P call ((ofRows table.rows).resolve call.key call.mode).1)
    (calls : List Call) : List.Forall₂ P calls (table.resolveAll calls).1 := by
  induction calls generalizing table with
  | nil => exact .nil
  | cons call calls ih =>
    have hSame := h.resolve_congr (isFaithful_ofRows table.rows) rfl call.key call.mode
    have hAnswer : P call (table.resolve call.key call.mode).1 := by
      rw [hSame]
      exact hFresh call
    have hLater : ∀ next, P next ((ofRows (table.resolve call.key call.mode).2.rows).resolve
        next.key next.mode).1 := by
      rw [rows_resolve]
      exact hFresh
    exact .cons hAnswer (ih (h.resolve call.key call.mode) hLater)

/-- What a geometry found for `format` promises: its sizes are those of the format and suit each
other. -/
structure Describes (g : Geometry) (format : Format) : Prop where
  frame_points : g.pointSize * g.points * g.blocks.toNat = g.frameSize
  frame_blocks : g.blockOutputSize * g.blocks.toNat = g.frameSize
  pointSize : g.pointSize = format.layout.pointSize
  wireSize : g.wireSize = format.layout.wireSize
  preamble : g.preamble = format.layout.preamble

theorem RowsSay.describes {rows : List GeometryRow} {g : Geometry}
    (h : RowsSay rows key mode (.ok g)) : Describes g key.format := by
  cases h with
  | found _ _ _ hKey =>
    rw [← hKey]
    exact ⟨rfl, rfl, rfl, rfl, rfl⟩

/-- **The cache does not show.**  Whatever is asked of a table and in whatever modes, each answer is
the one that a table of the same rows gives which was asked nothing before, it is what the rows say,
and a geometry has the sizes of its format.  A combination that its mode has no place for is refused
whatever was asked in another mode, and leaves nothing behind. -/
theorem resolveAll_transparent (rows : List GeometryRow) (calls : List Call) :
    List.Forall₂ (fun call answer =>
        answer = ((ofRows rows).resolve call.key call.mode).1 ∧
          RowsSay rows call.key call.mode answer ∧
          ∀ g, answer = .ok g → Describes g call.key.format)
      calls ((ofRows rows).resolveAll calls).1 ∧
    ∀ (key : GeometryKey) (mode : WorkMode), ¬ mode.Suits key.format →
      ∃ e, ((ofRows rows).resolveAll calls).2.resolve key mode =
        (.error e, ((ofRows rows).resolveAll calls).2) := by
  have hFaithful := isFaithful_ofRows rows
  constructor
  · apply hFaithful.forall₂_resolveAll
    intro call
    have hSay : RowsSay rows call.key call.mode ((ofRows rows).resolve call.key call.mode).1 :=
      hFaithful.rowsSay call.key call.mode
    refine ⟨rfl, hSay, ?_⟩
    intro g (hAnswer : ((ofRows rows).resolve call.key call.mode).1 = .ok g)
    rw [hAnswer] at hSay
    exact hSay.describes
  · intro key mode hMode
    exact (hFaithful.resolveAll calls).resolve_of_not_suits hMode

/-- Two rows for one combination. -/
def twins : List GeometryRow :=
  [⟨.multiLine, .hz10, .calibration, 256, 32⟩, ⟨.multiLine, .hz10, .calibration, 8, 2⟩]

/-- What is refused at first is found by the first of two rows, and again in the cache; then it is
still refused in the other mode. -/
theorem resolveAll_transparent_twins :
    let key : GeometryKey := ⟨.multiLine, .hz10, .calibration⟩
    let calls : List Call := [⟨key, .normal⟩, ⟨key, .calibration⟩, ⟨key, .calibration⟩]
    ∃ g : Geometry, g.frameSize = 32768 ∧
      ((ofRows twins).resolveAll calls).1 =
        [.error (.configuration .calibrationModeRequired), .ok g, .ok g] ∧
      Describes g key.format ∧ ¬ WorkMode.normal.Suits key.format ∧
      ∃ e, ((ofRows twins).resolveAll calls).2.resolve key .normal =
        (.error e, ((ofRows twins).resolveAll calls).2) := by
  intro key calls
  have hMode : ¬ WorkMode.normal.Suits key.format := fun hSuits => nomatch hSuits.mp rfl
  obtain ⟨hAnswers, hRefused⟩ := resolveAll_transparent twins calls
  obtain ⟨-, hLater⟩ := List.forall₂_cons.mp hAnswers
  obtain ⟨⟨-, -, hDescribes⟩, -⟩ := List.forall₂_cons.mp hLater
  exact ⟨_, rfl, rfl, hDescribes _ rfl, hMode, hRefused key .normal hMode⟩

end GeometryTable

end LidarSweep
