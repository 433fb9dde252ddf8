import LidarSweep.Error
import LidarSweep.Geometry

/-!
# The geometry table

The rows are searched once for each combination; what was found is kept in a cache. The work mode
is checked before either is looked at, since calibration data exists in calibration mode only and
nothing else exists there.
-/

namespace LidarSweep

/-- What a row is looked up by. -/
structure GeometryKey where
  model : Model
  rate : ScanRate
  format : Format
  deriving DecidableEq, Repr

def GeometryRow.key (row : GeometryRow) : GeometryKey := ⟨row.model, row.rate, row.format⟩

/-- Rows in their order, and the combinations resolved so far. -/
structure GeometryTable where
  rows : List GeometryRow
  cache : List (GeometryKey × Geometry)
  deriving Repr

/-- Calibration data goes with calibration mode, both ways. -/
def WorkMode.check (mode : WorkMode) (format : Format) : Except Error Unit :=
  match format, mode with
  | .calibration, .calibration => .ok ()
  | .calibration, .normal => .error (.configuration .calibrationModeRequired)
  | format, .calibration => .error (.configuration (.unavailableInCalibration format))
  | _, .normal => .ok ()

namespace GeometryTable

def ofRows (rows : List GeometryRow) : GeometryTable := ⟨rows, []⟩

def builtIn : GeometryTable := ofRows GeometryRow.builtIn

/-- The geometry of the first row with this key. -/
def search (table : GeometryTable) (key : GeometryKey) : Option Geometry :=
  (table.rows.find? fun row => row.key == key).map GeometryRow.geometry

/-- The geometry for a combination in a work mode, and the table that remembers it. -/
def resolve (table : GeometryTable) (key : GeometryKey) (mode : WorkMode) :
    Except Error Geometry × GeometryTable :=
  match mode.check key.format with
  | .error e => (.error e, table)
  | .ok () =>
    match table.cache.lookup key with
    | some g => (.ok g, table)
    | none =>
      match table.search key with
      | none =>
        (.error (.configuration (.unsupported key.model key.rate key.format)), table)
      | some g => (.ok g, { table with cache := (key, g) :: table.cache })

end GeometryTable

end LidarSweep
