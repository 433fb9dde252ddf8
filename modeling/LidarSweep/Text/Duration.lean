/-!
# Durations in words

A duration is written in the largest unit that is not above it, from seconds down to nanoseconds,
with as many decimals as it needs.
-/

namespace LidarSweep.Duration

/-- The `width` digits of `part`, without the zeros at the end. -/
def decimals (part width : Nat) : List Char :=
  let digits := Nat.toDigits 10 part
  let padded := List.replicate (width - digits.length) '0' ++ digits
  (padded.reverse.dropWhile (· == '0')).reverse

/-- In a unit of `unit` nanoseconds, a one with `width` zeros. -/
def inUnit (ns unit width : Nat) (name : String) : String :=
  let part := ns % unit
  let fraction := if part = 0 then [] else '.' :: decimals part width
  toString (ns / unit) ++ String.ofList fraction ++ name

/-- A duration of `ns` nanoseconds. -/
def text (ns : Nat) : String :=
  if ns ≥ 1000000000 then inUnit ns 1000000000 9 "s"
  else if ns ≥ 1000000 then inUnit ns 1000000 6 "ms"
  else if ns ≥ 1000 then inUnit ns 1000 3 "µs"
  else inUnit ns 1 0 "ns"

end LidarSweep.Duration
