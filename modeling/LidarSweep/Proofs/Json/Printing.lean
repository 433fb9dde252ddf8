import LidarSweep.Json.Printer
import LidarSweep.Proofs.Json.Grammar

/-!
# A printed value is read back

What is printed for a value is a text of the grammar that spells this value (`spells_printValue`),
so that reading it gives the value again (`read?_print`).
-/

namespace LidarSweep.Json

/-! ### Units of a string -/

theorem padded_succ {width : Nat} (hWidth : width ≠ 0) (n : Nat) :
    (Hex.padded (width + 1) n).toList =
      (Hex.padded width (n / 16)).toList ++ [Nat.digitChar (n % 16)] := by
  simp only [Hex.padded, String.toList_ofList]
  by_cases hSmall : n < 16
  · obtain ⟨width, rfl⟩ := Nat.exists_eq_add_one_of_ne_zero hWidth
    rw [Nat.div_eq_of_lt hSmall, Nat.mod_eq_of_lt hSmall, Nat.toDigits_of_lt_base hSmall,
      Nat.toDigits_of_lt_base (by decide), List.length_singleton, List.length_singleton,
      Nat.add_sub_cancel, Nat.add_sub_cancel, List.replicate_succ']
    rfl
  · rw [Nat.toDigits_of_base_le (by decide) (Nat.le_of_not_lt hSmall), List.length_append,
      List.length_singleton, Nat.add_sub_add_right, List.append_assoc]

theorem padded_one {n : Nat} (h : n < 16) :
    (Hex.padded 1 n).toList = [Nat.digitChar n] := by
  rw [Hex.padded, String.toList_ofList, Nat.toDigits_of_lt_base h]
  rfl

theorem padded_four {n : Nat} (h : n < 65536) :
    (Hex.padded 4 n).toList = [Nat.digitChar (n / 16 / 16 / 16), Nat.digitChar (n / 16 / 16 % 16),
      Nat.digitChar (n / 16 % 16), Nat.digitChar (n % 16)] := by
  rw [padded_succ (by decide), padded_succ (by decide), padded_succ (by decide),
    padded_one (by omega)]
  rfl

theorem hexDigit?_digitChar {i : Nat} (h : i < 16) : hexDigit? (Nat.digitChar i) = some i := by
  have hAll : ∀ i : Fin 16, hexDigit? (Nat.digitChar i.val) = some i.val := by decide
  exact hAll ⟨i, h⟩

theorem spellsPiece_code (u : UInt16) :
    SpellsPiece [u] ('\\' :: 'u' :: (Hex.padded 4 u.toNat).toList) := by
  have hSize : u.toNat < 65536 := u.toNat_lt
  have hCode := SpellsPiece.code (hexDigit?_digitChar (i := u.toNat / 16 / 16 / 16) (by omega))
    (hexDigit?_digitChar (i := u.toNat / 16 / 16 % 16) (by omega))
    (hexDigit?_digitChar (i := u.toNat / 16 % 16) (by omega))
    (hexDigit?_digitChar (i := u.toNat % 16) (by omega))
  have hValue : ((u.toNat / 16 / 16 / 16 * 16 + u.toNat / 16 / 16 % 16) * 16 +
      u.toNat / 16 % 16) * 16 + u.toNat % 16 = u.toNat := by omega
  rw [hValue, UInt16.ofNat_toNat] at hCode
  rw [padded_four hSize]
  exact hCode

theorem spellsPiece_plain {u : UInt16} (hQuote : u ≠ 0x22) (hEscape : u ≠ 0x5c)
    (hPrintable : 0x20 ≤ u ∧ u ≤ 0x7e) : SpellsPiece [u] [Char.ofNat u.toNat] := by
  have hFrom : 0x20 ≤ u.toNat := hPrintable.1
  have hTo : u.toNat ≤ 0x7e := hPrintable.2
  have hChar : (Char.ofNat u.toNat).toNat = u.toNat := by
    rw [Char.ofNat, dif_pos (.inl (by omega))]
    rfl
  have hUnit : JsonString.ofCodePoint (Char.ofNat u.toNat).toNat = [u] := by
    rw [hChar, JsonString.ofCodePoint, if_pos (by omega), UInt16.ofNat_toNat]
  rw [← hUnit]
  refine .plain (by omega) ?_ ?_
  · intro hText
    rw [hText] at hChar
    exact hQuote (UInt16.toNat_inj.mp hChar.symm)
  · intro hText
    rw [hText] at hChar
    exact hEscape (UInt16.toNat_inj.mp hChar.symm)

theorem spellsPiece_printUnit (u : UInt16) : SpellsPiece [u] (printUnit u) := by
  rw [printUnit]
  split
  · next hQuote =>
    rw [hQuote]
    exact .escaped (show escape? '"' = some '"' from rfl)
  · next hQuote =>
    split
    · next hEscape =>
      rw [hEscape]
      exact .escaped (show escape? '\\' = some '\\' from rfl)
    · next hEscape =>
      split
      · next hPrintable => exact spellsPiece_plain hQuote hEscape hPrintable
      · exact spellsPiece_code u

theorem spellsPieces_printUnits (text : JsonString) :
    SpellsPieces text (text.flatMap printUnit) := by
  induction text with
  | nil => exact .nil
  | cons u text ih => exact .cons (spellsPiece_printUnit u) ih

theorem spellsString_printString (text : JsonString) : SpellsString text (printString text) :=
  ⟨_, spellsPieces_printUnits text, rfl⟩

/-! ### Values -/

theorem isBlanks_nil : IsBlanks [] := fun _ h => nomatch h

theorem isBlanks_singleton {c : Char} (h : isBlank c = true) : IsBlanks [c] := by
  intro d hd
  rw [List.mem_singleton.mp hd]
  exact h

theorem isBlanks_newLine (depth : Nat) : IsBlanks (newLine depth) := by
  intro c hc
  obtain rfl | hc := List.mem_cons.mp hc
  · rfl
  · rw [List.eq_of_mem_replicate hc]
    rfl

mutual

theorem spells_printValue (depth : Nat) : ∀ v, Spells (.value v) (printValue depth v)
  | .null => .null
  | .bool true => .true
  | .bool false => .false
  | .number n => .number n
  | .string text => .string (spellsString_printString text)
  | .array [] => .noItems isBlanks_nil
  | .object [] => .noMembers isBlanks_nil
  | .array (item :: items) => by
    have hItems := spells_printItems (depth + 1) (isBlanks_newLine depth)
      (spells_printValue (depth + 1) item) items
    simpa [printValue] using Spells.array hItems
  | .object ((name, v) :: members) => by
    have hMembers := spells_printMembers (depth + 1) (isBlanks_newLine depth) name
      (spells_printValue (depth + 1) v) members
    simpa [printValue] using Spells.object hMembers

theorem spells_printItems (depth : Nat) {after s : List Char} (hAfter : IsBlanks after)
    {item : Json} (hItem : Spells (.value item) s) : ∀ items,
    Spells (.items (item :: items)) (newLine depth ++ (s ++ (printItems depth items ++ after)))
  | [] => .lastItem (.element (isBlanks_newLine depth) hItem hAfter)
  | next :: items => by
    have hNext := spells_printItems depth hAfter (spells_printValue depth next) items
    have hFirst := Spells.element (isBlanks_newLine depth) hItem isBlanks_nil
    simpa [printItems] using Spells.items hFirst hNext

theorem spells_printMembers (depth : Nat) {after s : List Char} (hAfter : IsBlanks after)
    (name : JsonString) {v : Json} (hValue : Spells (.value v) s) : ∀ members,
    Spells (.members ((name, v) :: members)) (newLine depth ++ (printString name ++
      (':' :: ' ' :: (s ++ (printMembers depth members ++ after)))))
  | [] => by
    have hElement := Spells.element (isBlanks_singleton (c := ' ') rfl) hValue hAfter
    simpa [printMembers] using Spells.lastMember (.member (isBlanks_newLine depth)
      (spellsString_printString name) isBlanks_nil hElement)
  | (next, w) :: members => by
    have hNext := spells_printMembers depth hAfter next (spells_printValue depth w) members
    have hElement := Spells.element (isBlanks_singleton (c := ' ') rfl) hValue isBlanks_nil
    have hFirst := Spells.member (isBlanks_newLine depth) (spellsString_printString name)
      isBlanks_nil hElement
    simpa [printMembers] using Spells.members hFirst hNext

end

theorem isDocument_print (v : Json) : IsDocument v.print v := by
  rw [IsDocument, print, String.toList_ofList]
  simpa using Spells.element isBlanks_nil (spells_printValue 0 v) isBlanks_nil

/-- **A printed value is read back.** -/
theorem read?_print (v : Json) : read? v.print = some v := (isDocument_print v).read?

end LidarSweep.Json
