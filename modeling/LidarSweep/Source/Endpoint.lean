import LidarSweep.Text.Integer

/-!
# Addresses to listen on

An address is a host and a port with a colon between them. A host is `localhost`, an address of
four bytes in numbers and dots, or one of the two addresses in brackets that a host has of its own.
-/

namespace LidarSweep

inductive Host where
  /-- An address of four bytes, the first one highest -/
  | numbered (address : UInt32)
  /-- Every long address of this host -/
  | everyLong
  /-- The long address of a host for itself -/
  | ownLong
  deriving DecidableEq, Repr

structure Endpoint where
  host : Host
  port : UInt16
  deriving DecidableEq, Repr

namespace Endpoint

/-- A number with a base: octal behind `0`, hexadecimal behind `0x`. -/
def number? (text : List Char) : Option Nat :=
  let read (base : Nat) (ds : List Char) : Option Nat :=
    if ds.isEmpty ∨ ds.head? = some '+' then none
    else (Integer.ofDigits base UInt32.size ds).toOption
  match text with
  | '0' :: 'x' :: ds | '0' :: 'X' :: ds => read 16 ds
  | '0' :: d :: ds => read 8 (d :: ds)
  | ds => read 10 ds

/-- Numbers and dots: each number but the last is one byte, the last is all bytes that remain. -/
def ofNumbers? : List Nat → Option Nat
  | [a] => if a < 0x100000000 then some a else none
  | [a, b] => if a < 0x100 ∧ b < 0x1000000 then some (0x1000000 * a + b) else none
  | [a, b, c] =>
    if a < 0x100 ∧ b < 0x100 ∧ c < 0x10000 then some (0x1000000 * a + 0x10000 * b + c) else none
  | [a, b, c, d] =>
    if a < 0x100 ∧ b < 0x100 ∧ c < 0x100 ∧ d < 0x100 then
      some (0x1000000 * a + 0x10000 * b + 0x100 * c + d)
    else none
  | _ => none

/-- A host by name or number. -/
def host? (text : String) : Option Host :=
  if text == "[::]" then some .everyLong
  else if text == "[::1]" then some .ownLong
  else if text == "localhost" then some (.numbered 0x7f000001)
  else
    ((text.splitOn ".").mapM fun part => number? part.toList).bind fun ns =>
      (ofNumbers? ns).map fun n => .numbered (UInt32.ofNat n)

/-- The host stands before the last colon, the port behind it. -/
def ofText? (text : String) : Option Endpoint :=
  match (text.splitOn ":").reverse with
  | port :: h :: hs => do
    let host ← host? (":".intercalate (h :: hs).reverse)
    let port ← (Integer.unsigned UInt16.size port).toOption
    return { host, port := UInt16.ofNat port }
  | _ => none

/-- Whether every host can listen there: on all its addresses, at itself, in a group, or on what is
sent to everyone. -/
def isCommon (e : Endpoint) : Bool :=
  match e.host with
  | .numbered n => n == 0 || n >>> 24 == 127 || n >>> 28 == 14 || n == 0xffffffff
  | .everyLong | .ownLong => true

end Endpoint

end LidarSweep
