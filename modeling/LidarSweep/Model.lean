/-!
# Hardware models

A device reports a model code. Codes fall into classes that share a packet protocol and a
geometry; a code outside the list has no class.
-/

namespace LidarSweep

inductive Model where
  /-- A rotating scanner with one line -/
  | singleLine
  /-- A scanner with several lines -/
  | multiLine
  deriving DecidableEq, Repr

namespace Model

/-- Every known model code with its class. -/
def codes : List (UInt16 × Model) :=
  [(0x0101, singleLine), (0x0102, singleLine),
   (0x0201, multiLine), (0x0202, multiLine), (0x0203, multiLine)]

def ofCode? (code : UInt16) : Option Model :=
  (codes.find? fun entry => entry.1 == code).map Prod.snd

def label : Model → String
  | singleLine => "single-line"
  | multiLine => "multi-line"

/-- The name in diagnostics. -/
def ident : Model → String
  | singleLine => "SingleLine"
  | multiLine => "MultiLine"

end Model

end LidarSweep
