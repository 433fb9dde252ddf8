/-!
# Log lines

What a part of the library has to say to its operator, in the order it was said.
-/

namespace LidarSweep

inductive Severity where
  | warning
  | error
  deriving DecidableEq, Repr

structure LogLine where
  severity : Severity
  text : String
  deriving DecidableEq, Repr

namespace LogLine

def warn (text : String) : LogLine := ⟨.warning, text⟩

def fail (text : String) : LogLine := ⟨.error, text⟩

def render (line : LogLine) : String :=
  match line.severity with
  | .warning => "WARN: " ++ line.text
  | .error => "ERROR: " ++ line.text

end LogLine

end LidarSweep
