/-!
# Single precision numbers as mantissa and exponent

A finite number is `mantissa * 2 ^ exponent` up to its sign, with 24 bits of mantissa at most and
no exponent below `-149`. `ofRatio` is the number nearest to a fraction, the even mantissa on a
tie.
-/

namespace LidarSweep.Single

/-- The absolute value `mantissa * 2 ^ (unit - 149)` of a finite number. -/
structure Magnitude where
  mantissa : Nat
  unit : Nat
  deriving DecidableEq, Repr

def isNegative (x : Float32) : Bool := x.toBits ≥ 0x80000000

/-- Nothing for infinities and NaN. -/
def magnitude? (x : Float32) : Option Magnitude :=
  let bits := x.toBits.toNat % 0x80000000
  let field := bits / 0x800000
  let fraction := bits % 0x800000
  if field = 255 then none
  else if field = 0 then some ⟨fraction, 0⟩
  else some ⟨0x800000 + fraction, field - 1⟩

def infinity : Float32 := .ofBits 0x7f800000

def nan : Float32 := .ofBits 0x7fc00000

/-- The greatest finite number. -/
def maximum : Float32 := .ofBits 0x7f7fffff

/-- The sign bit set or cleared. -/
def withSign (negative : Bool) (x : Float32) : Float32 :=
  .ofBits (UInt32.ofNat (x.toBits.toNat % 0x80000000 + if negative then 0x80000000 else 0))

/-- `num / den` rounded to an integer, ties to even. -/
def roundDiv (num den : Nat) : Nat :=
  let quotient := num / den
  let twice := 2 * (num % den)
  if twice < den then quotient
  else if twice = den then quotient + quotient % 2
  else quotient + 1

/-- One over the least positive number. -/
def lastPlace : Nat := Nat.pow 2 149

/-- The number nearest to `num / den`, infinity from the middle above the greatest number on. -/
def ofRatio (num den : Nat) : Float32 :=
  if num = 0 ∨ den = 0 then .ofBits 0
  else
    let scaled := num * lastPlace
    let unit := (scaled / den).log2 - 23
    let bits := unit * 0x800000 + roundDiv scaled (den * Nat.pow 2 unit)
    if bits ≥ 0x7f800000 then infinity else .ofBits (UInt32.ofNat bits)

/-- Multiplies a whole number below `2 ^ 24` by `2 ^ (unit - 149)`, which is exact. -/
def ofMagnitude (m : Magnitude) : Float32 :=
  ofRatio (m.mantissa * Nat.pow 2 m.unit) lastPlace

/-- The remainder of `x` on division by `y` toward zero, exact and with the sign of `x`. -/
def remainder (x y : Float32) : Float32 :=
  match magnitude? x, magnitude? y with
  | some a, some b =>
    if b.mantissa = 0 then nan
    else
      let unit := min a.unit b.unit
      let rest :=
        (a.mantissa * Nat.pow 2 (a.unit - unit)) % (b.mantissa * Nat.pow 2 (b.unit - unit))
      withSign (isNegative x) (ofMagnitude ⟨rest, unit⟩)
  | some _, none => if y.isNaN then nan else x
  | none, _ => nan

/-- The remainder brought into the range from zero to `y`. -/
def modulo (x y : Float32) : Float32 :=
  let r := remainder x y
  if r < .ofBits 0 then r + y.abs else r

end LidarSweep.Single
