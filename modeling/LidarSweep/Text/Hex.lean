/-!
# Hexadecimal text

Numbers are padded with zeros on the left; a byte list is written as its bytes in order.
-/

namespace LidarSweep.Hex

/-- The digits of `n` in base 16, with at least `width` of them. -/
def padded (width n : Nat) : String :=
  let digits := Nat.toDigits 16 n
  String.ofList (List.replicate (width - digits.length) '0' ++ digits)

/-- A code as it stands in messages: `0x` and at least `width` digits. -/
def code (width n : Nat) : String := "0x" ++ padded width n

/-- Two digits a byte, nothing between them. -/
def ofBytes (bytes : List UInt8) : String :=
  String.join (bytes.map fun b => padded 2 b.toNat)

/-- Two digits a byte, as a bracketed list. -/
def listOfBytes (bytes : List UInt8) : String :=
  "[" ++ String.intercalate ", " (bytes.map fun b => padded 2 b.toNat) ++ "]"

end LidarSweep.Hex
