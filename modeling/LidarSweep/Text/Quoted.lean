import LidarSweep.Text.Hex

/-!
# Quoted texts

A text between double quotes, where quotes, backslashes and control characters stand behind a
backslash.
-/

namespace LidarSweep.Quoted

def escape (c : Char) : List Char :=
  match c with
  | '"' => ['\\', '"']
  | '\\' => ['\\', '\\']
  | '\n' => ['\\', 'n']
  | '\r' => ['\\', 'r']
  | '\t' => ['\\', 't']
  | '\x00' => ['\\', '0']
  | c =>
    if c.toNat < 0x20 ∨ 0x7f ≤ c.toNat ∧ c.toNat < 0xa0 then
      "\\u\x7b".toList ++ Nat.toDigits 16 c.toNat ++ "\x7d".toList
    else [c]

def text (s : String) : String := String.ofList ('"' :: s.toList.flatMap escape ++ ['"'])

end LidarSweep.Quoted
