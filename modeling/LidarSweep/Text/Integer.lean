/-!
# Reading integers

Digits of a base with an optional sign. Digits are taken from the left, and the first thing wrong
decides: a character that is no digit, or a number that no longer fits.
-/

namespace LidarSweep

inductive IntegerFault where
  | empty
  | invalidDigit
  | tooLarge
  deriving DecidableEq, Repr

namespace IntegerFault

def message : IntegerFault → String
  | empty => "cannot parse integer from empty string"
  | invalidDigit => "invalid digit found in string"
  | tooLarge => "number too large to fit in target type"

end IntegerFault

namespace Integer

/-- The value of a digit in a base up to 16. -/
def digit? (base : Nat) (c : Char) : Option Nat :=
  let value :=
    if '0' ≤ c ∧ c ≤ '9' then c.toNat - 48
    else if 'a' ≤ c ∧ c ≤ 'f' then c.toNat - 87
    else if 'A' ≤ c ∧ c ≤ 'F' then c.toNat - 55
    else 16
  if value < base then some value else none

def digits (base limit : Nat) (value : Nat) : List Char → Except IntegerFault Nat
  | [] => .ok value
  | c :: rest =>
    match digit? base c with
    | none => .error .invalidDigit
    | some d =>
      if base * value + d < limit then digits base limit (base * value + d) rest
      else .error .tooLarge

/-- A number below `limit`, with an optional plus. -/
def ofDigits (base limit : Nat) (s : List Char) : Except IntegerFault Nat :=
  match s with
  | [] => .error .empty
  | ['+'] => .error .invalidDigit
  | '+' :: rest => digits base limit 0 rest
  | _ => digits base limit 0 s

/-- A decimal number below `limit`. -/
def unsigned (limit : Nat) (s : String) : Except IntegerFault Nat := ofDigits 10 limit s.toList

/-- A decimal number below `limit` that may be written with a minus, then only as zero. -/
def nonNegative? (limit : Nat) (s : String) : Option Nat :=
  match s.toList with
  | '-' :: c :: rest =>
    match digits 10 1 0 (c :: rest) with
    | .ok n => some n
    | .error _ => none
  | _ =>
    match unsigned limit s with
    | .ok n => some n
    | .error _ => none

end Integer

end LidarSweep
