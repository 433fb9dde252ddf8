import LidarSweep.Single

/-!
# The shortest decimal of a single precision number

Every real closer to the number than to its neighbours rounds to it. Of the decimal grids
`10 ^ k` the coarsest one with a point in that interval is taken, and on it the point nearest to
the number.
-/

namespace LidarSweep.Single

/-- A decimal `digits * 10 ^ exponent`. -/
structure Decimal where
  digits : Nat
  exponent : Int
  deriving DecidableEq, Repr

/-- The reals that round to a number, in quarters of its last place: `low`, `value` and `high` over
`den`, the ends included iff `closed`. -/
structure Interval where
  low : Nat
  value : Nat
  high : Nat
  den : Nat
  closed : Bool

/-- Below a power of two the neighbour is half as far away. -/
def Magnitude.interval (m : Magnitude) : Interval :=
  let scale := Nat.pow 2 m.unit
  let below := if m.mantissa = 0x800000 ∧ 0 < m.unit then 1 else 2
  ⟨(4 * m.mantissa - below) * scale, 4 * m.mantissa * scale, (4 * m.mantissa + 2) * scale,
    4 * lastPlace, m.mantissa % 2 = 0⟩

/-- Whether `n * 10 ^ (above - below)` lies in the interval. -/
def Interval.holds (i : Interval) (n above below : Nat) : Bool :=
  let x := n * Nat.pow 10 above * i.den
  let low := i.low * Nat.pow 10 below
  let high := i.high * Nat.pow 10 below
  if i.closed then low ≤ x && x ≤ high else low < x && x < high

/-- The point of the grid `10 ^ (above - below)` nearest to the value, if it is in the interval. -/
def Interval.hit? (i : Interval) (above below : Nat) : Option Nat :=
  let num := i.value * Nat.pow 10 below
  let den := i.den * Nat.pow 10 above
  let floor := num / den
  let down := i.holds floor above below
  let up := i.holds (floor + 1) above below
  if down && up then some (if 2 * (num % den) < den then floor else floor + 1)
  else if down then some floor
  else if up then some (floor + 1)
  else none

/-- Tries the grids `10 ^ (k - 46)` from `k = count` down. -/
def Interval.coarsest (i : Interval) : Nat → Decimal
  | 0 => ⟨0, 0⟩
  | count + 1 =>
    match i.hit? (count - 46) (46 - count) with
    | some n => ⟨n, (count : Int) - 46⟩
    | none => i.coarsest count

def Magnitude.shortest (m : Magnitude) : Decimal :=
  if m.mantissa = 0 then ⟨0, 0⟩ else m.interval.coarsest 86

/-- The digits with a point where the exponent puts it, never an exponent. -/
def Decimal.positional (d : Decimal) : String :=
  let digits := Nat.toDigits 10 d.digits
  match d.exponent with
  | .ofNat k => String.ofList (digits ++ List.replicate k '0')
  | .negSucc k =>
    let places := k + 1
    let padded := List.replicate (places + 1 - digits.length) '0' ++ digits
    let whole := padded.length - places
    String.ofList (padded.take whole ++ '.' :: padded.drop whole)

/-- The number as text: shortest digits, positional. -/
def text (x : Float32) : String :=
  if x.isNaN then "NaN"
  else
    let sign := if isNegative x then "-" else ""
    match magnitude? x with
    | none => sign ++ "inf"
    | some m => sign ++ m.shortest.positional

end LidarSweep.Single
