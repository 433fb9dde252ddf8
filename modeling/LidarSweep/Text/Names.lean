/-!
# Choosing among named values

A `Named` type is a finite list of values, each with one written name. A name is looked up
exactly, or up to the case of ASCII letters.
-/

namespace LidarSweep

/-- Letters `A` to `Z` become small; every other character is kept. -/
def lowerAscii (s : String) : String :=
  String.ofList (s.toList.map Char.toLower)

class Named (α : Type) where
  values : List α
  name : α → String

namespace Named

variable {α : Type} [Named α]

/-- The first value written `text`. -/
def ofName? (text : String) (ignoreCase : Bool) : Option α :=
  (values : List α).find? fun v =>
    if ignoreCase then lowerAscii (name v) == lowerAscii text else name v == text

/-- What is said of a text that names no value. -/
def unknownName (text : String) : String := s!"invalid variant: {text}"

end Named

end LidarSweep
