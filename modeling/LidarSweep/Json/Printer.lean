import LidarSweep.Json
import LidarSweep.Text.Hex

/-!
# Printing JSON

Every item and member stands on a line of its own, two blanks deeper than what holds it. Strings
keep printable ASCII and escape the rest.
-/

namespace LidarSweep.Json

def digitChar (d : Fin 10) : Char := Char.ofNat (48 + d.val)

def printDigits (ds : Digits) : List Char := (ds.first :: ds.rest).map digitChar

def printPower (p : PowerOfTen) : List Char :=
  (if p.capital then 'E' else 'e') :: (match p.sign with
    | some true => ['-']
    | some false => ['+']
    | none => []) ++ printDigits p.digits

def printNumber (n : JsonNumber) : List Char :=
  (if n.negative then ['-'] else [])
    ++ Nat.toDigits 10 n.whole
    ++ (match n.fraction with
      | some ds => '.' :: printDigits ds
      | none => [])
    ++ (match n.power with
      | some p => printPower p
      | none => [])

/-- A quote, a backslash, and whatever is no printable ASCII character are escaped. -/
def printUnit (u : UInt16) : List Char :=
  if u = 0x22 then ['\\', '"']
  else if u = 0x5c then ['\\', '\\']
  else if 0x20 ≤ u ∧ u ≤ 0x7e then [Char.ofNat u.toNat]
  else '\\' :: 'u' :: (Hex.padded 4 u.toNat).toList

def printString (s : JsonString) : List Char := '"' :: s.flatMap printUnit ++ ['"']

/-- A new line, indented. -/
def newLine (depth : Nat) : List Char := '\n' :: List.replicate (2 * depth) ' '

mutual

/-- A value inside `depth` others. -/
def printValue (depth : Nat) : Json → List Char
  | .null => ['n', 'u', 'l', 'l']
  | .bool true => ['t', 'r', 'u', 'e']
  | .bool false => ['f', 'a', 'l', 's', 'e']
  | .number n => printNumber n
  | .string s => printString s
  | .array [] => ['[', ']']
  | .array (item :: items) =>
    '[' :: newLine (depth + 1) ++ printValue (depth + 1) item ++ printItems (depth + 1) items
      ++ newLine depth ++ [']']
  | .object [] => ['\x7b', '\x7d']
  | .object ((name, value) :: members) =>
    '\x7b' :: newLine (depth + 1) ++ printString name ++ [':', ' ']
      ++ printValue (depth + 1) value ++ printMembers (depth + 1) members
      ++ newLine depth ++ ['\x7d']

/-- The items after the first. -/
def printItems (depth : Nat) : List Json → List Char
  | [] => []
  | item :: items => ',' :: newLine depth ++ printValue depth item ++ printItems depth items

/-- The members after the first. -/
def printMembers (depth : Nat) : List (JsonString × Json) → List Char
  | [] => []
  | (name, value) :: members =>
    ',' :: newLine depth ++ printString name ++ [':', ' '] ++ printValue depth value
      ++ printMembers depth members

end

def print (value : Json) : String := String.ofList (printValue 0 value)

end LidarSweep.Json
