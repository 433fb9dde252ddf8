import LidarSweep.Json.Printer
import LidarSweep.Json.Reader
import LidarSweep.Json.Record

/-!
# What records need of JSON

A record is read in two steps, from the text to a value and from the value to its fields, and it is
printed in one.
-/

namespace LidarSweep.Json

structure Codec where
  /-- The value that a whole document holds -/
  read? : String → Option Json
  /-- The record that a value gives, over the defaults -/
  decode : {α : Type} → List (RecordField α) → α → Json → Option α
  print : Json → String

def codec : Codec := ⟨Json.read?, RecordField.decode, Json.print⟩

end LidarSweep.Json
