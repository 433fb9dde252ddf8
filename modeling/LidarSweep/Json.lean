/-!
# JSON values

A value as its document spells it: members in order and with their repetitions, numbers digit by
digit. A string is a list of UTF-16 units, since an escape may name half of a surrogate pair.
-/

namespace LidarSweep

/-- Some decimal digits, at least one. -/
structure Digits where
  first : Fin 10
  rest : List (Fin 10)
  deriving DecidableEq, Repr

/-- The power of ten at the end of a number. -/
structure PowerOfTen where
  capital : Bool
  /-- The sign, if it is written, and whether it is a minus -/
  sign : Option Bool
  digits : Digits
  deriving DecidableEq, Repr

structure JsonNumber where
  negative : Bool
  whole : Nat
  fraction : Option Digits
  power : Option PowerOfTen
  deriving DecidableEq, Repr

/-- A string as UTF-16 units. -/
abbrev JsonString := List UInt16

namespace JsonString

/-- One unit for a code point up to `0xffff`, a surrogate pair above. -/
def ofCodePoint (n : Nat) : JsonString :=
  if n < 0x10000 then [UInt16.ofNat n]
  else
    let above := n - 0x10000
    [UInt16.ofNat (0xd800 + above / 0x400), UInt16.ofNat (0xdc00 + above % 0x400)]

def ofString (s : String) : JsonString := s.toList.flatMap fun c => ofCodePoint c.toNat

def isHigh (u : UInt16) : Bool := 0xd800 ≤ u && u ≤ 0xdbff

def isLow (u : UInt16) : Bool := 0xdc00 ≤ u && u ≤ 0xdfff

/-- Every surrogate stands in a pair. -/
def isText : JsonString → Bool
  | [] => true
  | [u] => !isHigh u && !isLow u
  | u :: v :: rest =>
    if isHigh u then isLow v && isText rest else !isLow u && isText (v :: rest)

end JsonString

inductive Json where
  | null
  | bool (b : Bool)
  | number (n : JsonNumber)
  | string (s : JsonString)
  | array (items : List Json)
  | object (members : List (JsonString × Json))

namespace Json

def ofNat (n : Nat) : Json := .number ⟨false, n, none, none⟩

/-- A whole number written without sign, fraction and power. -/
def nat? : Json → Option Nat
  | .number ⟨false, n, none, none⟩ => some n
  | _ => none

def bool? : Json → Option Bool
  | .bool b => some b
  | _ => none

end Json

end LidarSweep
