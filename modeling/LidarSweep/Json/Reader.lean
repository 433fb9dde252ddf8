import LidarSweep.Json

/-!
# Reading JSON

Each reader takes the characters it needs off the front of a text and returns the rest; a text
that does not fit the grammar has no value. A document is one value with blanks around it.
-/

namespace LidarSweep.Json

abbrev Reader (α : Type) := List Char → Option (α × List Char)

def isBlank (c : Char) : Bool := c == ' ' || c == '\t' || c == '\n' || c == '\r'

def skipBlanks (s : List Char) : List Char := s.dropWhile isBlank

/-- Takes one given character. -/
def expect (c : Char) : List Char → Option (List Char)
  | [] => none
  | d :: s => if d = c then some s else none

/-- Takes a given word. -/
def expectWord : List Char → List Char → Option (List Char)
  | [], s => some s
  | c :: word, s => (expect c s).bind (expectWord word)

def digit? (c : Char) : Option (Fin 10) :=
  if '0' ≤ c ∧ c ≤ '9' then some (Fin.ofNat 10 (c.toNat - 48)) else none

/-- The digits at the front, as many as there are. -/
def takeDigits : List Char → List (Fin 10) × List Char
  | [] => ([], [])
  | c :: s =>
    match digit? c with
    | some d =>
      let (ds, rest) := takeDigits s
      (d :: ds, rest)
    | none => ([], c :: s)

def readDigits : Reader Digits := fun s =>
  match takeDigits s with
  | ([], _) => none
  | (first :: rest, s) => some (⟨first, rest⟩, s)

def Digits.value (ds : List (Fin 10)) : Nat := ds.foldl (fun n d => 10 * n + d.val) 0

/-- No digit follows a leading zero. -/
def readWhole : Reader Nat := fun s =>
  match takeDigits s with
  | ([], _) => none
  | (first :: rest, s) =>
    if first = 0 ∧ rest ≠ [] then none else some (Digits.value (first :: rest), s)

def readFraction : Reader (Option Digits)
  | '.' :: s => (readDigits s).map fun (ds, s) => (some ds, s)
  | s => some (none, s)

def readPower : Reader (Option PowerOfTen) := fun s =>
  match s with
  | c :: s' =>
    if c = 'e' ∨ c = 'E' then
      let (sign, s') : Option Bool × List Char :=
        match s' with
        | '+' :: s' => (some false, s')
        | '-' :: s' => (some true, s')
        | _ => (none, s')
      (readDigits s').map fun (digits, rest) => (some ⟨c == 'E', sign, digits⟩, rest)
    else some (none, s)
  | [] => some (none, [])

def readNumber : Reader JsonNumber := fun s =>
  let (negative, s) : Bool × List Char :=
    match s with
    | '-' :: s => (true, s)
    | _ => (false, s)
  (readWhole s).bind fun (whole, s) =>
    (readFraction s).bind fun (fraction, s) =>
      (readPower s).map fun (power, s) => (⟨negative, whole, fraction, power⟩, s)

def hexDigit? (c : Char) : Option Nat :=
  if '0' ≤ c ∧ c ≤ '9' then some (c.toNat - 48)
  else if 'a' ≤ c ∧ c ≤ 'f' then some (c.toNat - 87)
  else if 'A' ≤ c ∧ c ≤ 'F' then some (c.toNat - 55)
  else none

def readUnit : Reader UInt16
  | a :: b :: c :: d :: s =>
    match hexDigit? a, hexDigit? b, hexDigit? c, hexDigit? d with
    | some a, some b, some c, some d =>
      some (UInt16.ofNat (((a * 16 + b) * 16 + c) * 16 + d), s)
    | _, _, _, _ => none
  | _ => none

/-- What a letter after a backslash stands for. -/
def escape? : Char → Option Char
  | '"' => some '"'
  | '\\' => some '\\'
  | '/' => some '/'
  | 'b' => some '\x08'
  | 'f' => some '\x0c'
  | 'n' => some '\n'
  | 'r' => some '\r'
  | 't' => some '\t'
  | _ => none

/-- One character or escape of a string. -/
def readPiece : Reader JsonString
  | '\\' :: 'u' :: s => (readUnit s).map fun (u, s) => ([u], s)
  | '\\' :: c :: s => (escape? c).map fun c => (JsonString.ofCodePoint c.toNat, s)
  | c :: s =>
    if c.toNat < 0x20 ∨ c = '"' ∨ c = '\\' then none
    else some (JsonString.ofCodePoint c.toNat, s)
  | [] => none

/-- The pieces up to the closing quote, with fuel for one piece each. -/
def readPieces : Nat → Reader JsonString
  | _, '"' :: s => some ([], s)
  | 0, _ => none
  | fuel + 1, s =>
    (readPiece s).bind fun (piece, s) =>
      (readPieces fuel s).map fun (pieces, s) => (piece ++ pieces, s)

def readString : Reader JsonString
  | '"' :: s => readPieces s.length s
  | _ => none

/-- Parts with commas between them, at least one, up to the closing sign, with fuel for one part
each. -/
def readRow {α : Type} (close : Char) (part : Reader α) : Nat → Reader (List α)
  | 0, _ => none
  | fuel + 1, s =>
    (part s).bind fun (a, s) =>
      match skipBlanks s with
      | [] => none
      | c :: s =>
        if c = ',' then (readRow close part fuel s).map fun (row, s) => (a :: row, s)
        else if c = close then some ([a], s)
        else none

/-- Some parts or none, up to the closing sign. -/
def readEnclosed {α : Type} (close : Char) (part : Reader α) : Reader (List α) := fun s =>
  match skipBlanks s with
  | [] => none
  | c :: rest => if c = close then some ([], rest) else readRow close part s.length s

/-- A name, a colon and a value. -/
def readMember (value : Reader Json) : Reader (JsonString × Json) := fun s =>
  (readString (skipBlanks s)).bind fun (name, s) =>
    (expect ':' (skipBlanks s)).bind fun s => (value s).map fun (v, s) => ((name, v), s)

/-- One value, with blanks before it. What it holds is read with less fuel. -/
def readValue : Nat → Reader Json
  | 0, _ => none
  | fuel + 1, s =>
    match skipBlanks s with
    | 'n' :: s => (expectWord ['u', 'l', 'l'] s).map fun s => (.null, s)
    | 't' :: s => (expectWord ['r', 'u', 'e'] s).map fun s => (.bool true, s)
    | 'f' :: s => (expectWord ['a', 'l', 's', 'e'] s).map fun s => (.bool false, s)
    | '"' :: s => (readString ('"' :: s)).map fun (text, s) => (.string text, s)
    | '[' :: s =>
      (readEnclosed ']' (readValue fuel) s).map fun (items, s) => (.array items, s)
    | '\x7b' :: s =>
      (readEnclosed '\x7d' (readMember (readValue fuel)) s).map fun (members, s) =>
        (.object members, s)
    | s => (readNumber s).map fun (n, s) => (.number n, s)

/-- The value that a whole document holds. -/
def read? (document : String) : Option Json :=
  let s := document.toList
  (readValue s.length s).bind fun (value, rest) =>
    if skipBlanks rest = [] then some value else none

end LidarSweep.Json
