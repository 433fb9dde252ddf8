import LidarSweep.Single
import LidarSweep.Text.Names

/-!
# Reading single precision numbers

A decimal with an optional sign, point and power of ten, at least one digit before the power, or
one of the words for infinity and for no number. The value is the nearest single precision number.
-/

namespace LidarSweep.Single

/-- The digits at the front, and what follows them. -/
def spanDigits (s : List Char) : List Char × List Char := s.span fun c => '0' ≤ c && c ≤ '9'

def digitsValue (s : List Char) : Nat := s.foldl (fun n c => 10 * n + (c.toNat - 48)) 0

/-- A power of ten after its letter: optional sign, then digits. -/
def power? (s : List Char) : Option Int :=
  let (negative, s) : Bool × List Char :=
    match s with
    | '-' :: s => (true, s)
    | '+' :: s => (false, s)
    | _ => (false, s)
  let (digits, rest) := spanDigits s
  if digits = [] ∨ rest ≠ [] then none
  else some (if negative then -(digitsValue digits : Int) else digitsValue digits)

/-- `digits * 10 ^ exponent`; beyond the range of the type the power is not worked out. -/
def ofDecimal (digits : Nat) (exponent : Int) : Float32 :=
  let size : Int := (Nat.toDigits 10 digits).length + exponent
  if digits = 0 ∨ size < -60 then .ofBits 0
  else if size > 60 then infinity
  else
    match exponent with
    | .ofNat k => ofRatio (digits * Nat.pow 10 k) 1
    | .negSucc k => ofRatio digits (Nat.pow 10 (k + 1))

/-- A number without its sign. -/
def unsigned? (s : List Char) : Option Float32 :=
  let word := lowerAscii (String.ofList s)
  if word == "inf" || word == "infinity" then some infinity
  else if word == "nan" then some nan
  else
    let (whole, s) := spanDigits s
    let (fraction, s) :=
      match s with
      | '.' :: s => spanDigits s
      | _ => ([], s)
    if whole = [] ∧ fraction = [] then none
    else
      let value (power : Int) : Float32 :=
        ofDecimal (digitsValue (whole ++ fraction)) (power - fraction.length)
      match s with
      | [] => some (value 0)
      | c :: s => if c = 'e' ∨ c = 'E' then (power? s).map value else none

/-- The number that a text writes. -/
def ofText? (text : String) : Option Float32 :=
  match text.toList with
  | '-' :: s => (unsigned? s).map (withSign true)
  | '+' :: s => unsigned? s
  | s => unsigned? s

end LidarSweep.Single
