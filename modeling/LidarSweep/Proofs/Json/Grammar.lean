import Mathlib.Data.List.DropRight
import LidarSweep.Proofs.Json.Number

/-!
# The grammar of JSON

`Spells` says which texts spell a value, with every freedom the grammar leaves: blanks between the
signs, members in any order and any number of times, and several ways to write a character of a
string.  A reader with enough fuel takes such a text off the front (`Spells.reads`), so that a whole
document has the value it spells (`IsDocument.read?`).
-/

namespace LidarSweep.Json

variable {fuel : Nat} {s t rest : List Char}

/-! ### Blanks -/

def IsBlanks (s : List Char) : Prop := ∀ c ∈ s, isBlank c = true

theorem skipBlanks_append (h : IsBlanks s) : skipBlanks (s ++ t) = skipBlanks t :=
  List.dropWhile_append_of_pos h

theorem skipBlanks_cons {c : Char} (h : isBlank c = false) : skipBlanks (c :: s) = c :: s :=
  List.dropWhile_cons_of_neg (by simp [h])

theorem EndsNumber.blanks_append (h : IsBlanks s) (hRest : EndsNumber rest) :
    EndsNumber (s ++ rest) := by
  cases s with
  | nil => exact hRest
  | cons c s =>
    intro c' s' hText
    rw [← (List.cons.inj hText).1]
    have hBlank := h c List.mem_cons_self
    simp only [isBlank, Bool.or_eq_true, beq_iff_eq, or_assoc] at hBlank
    obtain rfl | rfl | rfl | rfl := hBlank <;> decide

/-! ### Strings -/

/-- A text for a part of a string: a character, an escaped one, or the code of a unit. -/
inductive SpellsPiece : JsonString → List Char → Prop where
  | plain {c : Char} (hPrintable : 0x20 ≤ c.toNat) (hQuote : c ≠ '"') (hEscape : c ≠ '\\') :
      SpellsPiece (.ofCodePoint c.toNat) [c]
  | escaped {letter c : Char} (hLetter : escape? letter = some c) :
      SpellsPiece (.ofCodePoint c.toNat) ['\\', letter]
  | code {a b c d : Char} {i j k l : Nat} (ha : hexDigit? a = some i) (hb : hexDigit? b = some j)
      (hc : hexDigit? c = some k) (hd : hexDigit? d = some l) :
      SpellsPiece [UInt16.ofNat (((i * 16 + j) * 16 + k) * 16 + l)] ['\\', 'u', a, b, c, d]

/-- A text for a string, between its quotes. -/
inductive SpellsPieces : JsonString → List Char → Prop where
  | nil : SpellsPieces [] []
  | cons {piece text : JsonString} {s t : List Char} (hPiece : SpellsPiece piece s)
      (hText : SpellsPieces text t) : SpellsPieces (piece ++ text) (s ++ t)

def quoted (s : List Char) : List Char := '"' :: (s ++ ['"'])

/-- A text for a string. -/
def SpellsString (text : JsonString) (s : List Char) : Prop :=
  ∃ body, SpellsPieces text body ∧ s = quoted body

theorem SpellsPiece.exists_cons {piece : JsonString} (h : SpellsPiece piece s) :
    ∃ c t, s = c :: t ∧ c ≠ '"' := by
  cases h with
  | plain _ hQuote _ => exact ⟨_, _, rfl, hQuote⟩
  | escaped _ => exact ⟨_, _, rfl, by decide⟩
  | code _ _ _ _ => exact ⟨_, _, rfl, by decide⟩

theorem SpellsPiece.reads {piece : JsonString} (h : SpellsPiece piece s) :
    readPiece (s ++ rest) = some (piece, rest) := by
  cases h with
  | @plain c hPrintable hQuote hEscape =>
    have hPlain : ¬ (c.toNat < 0x20 ∨ c = '"' ∨ c = '\\') := by
      rintro (h | h | h)
      · omega
      · exact hQuote h
      · exact hEscape h
    rw [List.singleton_append, readPiece, if_neg hPlain]
    · exact fun _ hText _ => hEscape hText
    · exact fun _ _ hText _ => hEscape hText
  | @escaped letter c hLetter =>
    have hUnit : letter ≠ 'u' := by
      rintro rfl
      cases hLetter
    rw [List.cons_append, List.singleton_append, readPiece, hLetter, Option.map_some]
    exact hUnit
  | code ha hb hc hd =>
    simp only [List.cons_append, List.nil_append, readPiece, readUnit, ha, hb, hc, hd,
      Option.map_some]

theorem SpellsPieces.reads {text : JsonString} (h : SpellsPieces text s) (hFuel : s.length ≤ fuel) :
    readPieces fuel (s ++ '"' :: rest) = some (text, rest) := by
  induction h generalizing fuel with
  | nil => simp only [List.nil_append, readPieces]
  | @cons piece text s t hPiece hText ih =>
    obtain ⟨c, s', rfl, hQuote⟩ := hPiece.exists_cons
    rw [List.length_append, List.length_cons] at hFuel
    obtain ⟨fuel, rfl⟩ : ∃ n, fuel = n + 1 := ⟨fuel - 1, by omega⟩
    have hRest : readPieces fuel (t ++ '"' :: rest) = some (text, rest) := ih (by omega)
    rw [List.append_assoc, readPieces, hPiece.reads]
    · simp only [Option.bind_some, hRest, Option.map_some]
    · intro s hText
      exact hQuote (List.cons.inj hText).1

theorem SpellsString.reads {text : JsonString} (h : SpellsString text s) :
    readString (s ++ rest) = some (text, rest) := by
  obtain ⟨body, hBody, rfl⟩ := h
  rw [quoted, List.cons_append, List.append_assoc, List.singleton_append, readString]
  apply hBody.reads
  rw [List.length_append]
  omega

/-! ### Values -/

/-- What a text can spell. -/
inductive Part where
  | value (v : Json)
  /-- A value with blanks around it -/
  | element (v : Json)
  | items (vs : List Json)
  | member (name : JsonString) (v : Json)
  | members (ms : List (JsonString × Json))

inductive Spells : Part → List Char → Prop where
  | null : Spells (.value .null) ['n', 'u', 'l', 'l']
  | true : Spells (.value (.bool true)) ['t', 'r', 'u', 'e']
  | false : Spells (.value (.bool false)) ['f', 'a', 'l', 's', 'e']
  | number (n : JsonNumber) : Spells (.value (.number n)) (printNumber n)
  | string {text : JsonString} {s : List Char} (hText : SpellsString text s) :
      Spells (.value (.string text)) s
  | noItems {blanks : List Char} (hBlanks : IsBlanks blanks) :
      Spells (.value (.array [])) ('[' :: (blanks ++ [']']))
  | array {vs : List Json} {s : List Char} (hItems : Spells (.items vs) s) :
      Spells (.value (.array vs)) ('[' :: (s ++ [']']))
  | noMembers {blanks : List Char} (hBlanks : IsBlanks blanks) :
      Spells (.value (.object [])) ('\x7b' :: (blanks ++ ['\x7d']))
  | object {ms : List (JsonString × Json)} {s : List Char} (hMembers : Spells (.members ms) s) :
      Spells (.value (.object ms)) ('\x7b' :: (s ++ ['\x7d']))
  | element {before s after : List Char} {v : Json} (hBefore : IsBlanks before)
      (hValue : Spells (.value v) s) (hAfter : IsBlanks after) :
      Spells (.element v) (before ++ (s ++ after))
  | lastItem {v : Json} {s : List Char} (hItem : Spells (.element v) s) : Spells (.items [v]) s
  | items {v : Json} {vs : List Json} {s t : List Char} (hItem : Spells (.element v) s)
      (hItems : Spells (.items vs) t) : Spells (.items (v :: vs)) (s ++ ',' :: t)
  | member {before s after t : List Char} {name : JsonString} {v : Json}
      (hBefore : IsBlanks before) (hName : SpellsString name s) (hAfter : IsBlanks after)
      (hElement : Spells (.element v) t) :
      Spells (.member name v) (before ++ (s ++ (after ++ ':' :: t)))
  | lastMember {name : JsonString} {v : Json} {s : List Char}
      (hMember : Spells (.member name v) s) : Spells (.members [(name, v)]) s
  | members {name : JsonString} {v : Json} {ms : List (JsonString × Json)} {s t : List Char}
      (hMember : Spells (.member name v) s) (hMembers : Spells (.members ms) t) :
      Spells (.members ((name, v) :: ms)) (s ++ ',' :: t)

/-- The first sign after the blanks closes nothing. -/
def Opens (s : List Char) : Prop :=
  ∃ before c t, IsBlanks before ∧ s = before ++ c :: t ∧ isBlank c = false ∧ c ≠ ']' ∧ c ≠ '\x7d'

theorem Opens.of_cons {c : Char} (h : isBlank c = false ∧ c ≠ ']' ∧ c ≠ '\x7d') :
    Opens (c :: s) :=
  ⟨[], c, s, by simp [IsBlanks], rfl, h⟩

theorem Opens.append (h : Opens s) (t : List Char) : Opens (s ++ t) := by
  obtain ⟨before, c, s, hBefore, rfl, hc⟩ := h
  exact ⟨before, c, s ++ t, hBefore, by simp, hc⟩

theorem Opens.blanks_append {before : List Char} (hBefore : IsBlanks before) (h : Opens s) :
    Opens (before ++ s) := by
  obtain ⟨blanks, c, s, hBlanks, rfl, hc⟩ := h
  refine ⟨before ++ blanks, c, s, ?_, by simp, hc⟩
  intro d hd
  exact (List.mem_append.mp hd).elim (hBefore d) (hBlanks d)

theorem Opens.exists_skipBlanks (h : Opens s) :
    ∃ c t, skipBlanks s = c :: t ∧ c ≠ ']' ∧ c ≠ '\x7d' := by
  obtain ⟨before, c, t, hBefore, rfl, hBlank, hc⟩ := h
  exact ⟨c, t, by rw [skipBlanks_append hBefore, skipBlanks_cons hBlank], hc⟩

theorem Opens.exists_fuel (h : Opens s) (hFuel : s.length ≤ fuel) : ∃ n, fuel = n + 1 := by
  obtain ⟨before, c, t, -, rfl, -⟩ := h
  rw [List.length_append, List.length_cons] at hFuel
  exact Nat.exists_eq_add_one_of_ne_zero (by omega)

theorem SpellsString.opens {text : JsonString} (h : SpellsString text s) : Opens s := by
  obtain ⟨body, -, rfl⟩ := h
  exact .of_cons (by decide)

theorem opens_printNumber (n : JsonNumber) : Opens (printNumber n) := by
  have hDigit : ∀ d : Fin 10, isBlank (digitChar d) = false ∧ digitChar d ≠ ']' ∧
      digitChar d ≠ '\x7d' := by decide
  obtain ⟨c, s, hText, rfl | ⟨d, rfl⟩⟩ := exists_printNumber n
  · rw [hText]
    exact .of_cons (by decide)
  · rw [hText]
    exact .of_cons (hDigit d)

theorem Spells.opens {part : Part} (h : Spells part s) : Opens s := by
  induction h with
  | null | true | false | noItems | array | noMembers | object => exact .of_cons (by decide)
  | number n => exact opens_printNumber n
  | string hText => exact hText.opens
  | element hBefore _ _ ih => exact .blanks_append hBefore (ih.append _)
  | member hBefore hName => exact .blanks_append hBefore (hName.opens.append _)
  | lastItem _ ih | lastMember _ ih => exact ih
  | items _ _ ih | members _ _ ih => exact ih.append _

/-! ### Reading -/

/-- Blanks before a value change nothing. -/
theorem readValue_congr (fuel : Nat) (h : skipBlanks s = skipBlanks t) :
    readValue fuel s = readValue fuel t := by
  cases fuel with
  | zero => rfl
  | succ fuel => rw [readValue, readValue, h]

theorem readValue_number (n : JsonNumber) (h : EndsNumber rest) :
    readValue (fuel + 1) (printNumber n ++ rest) = some (.number n, rest) := by
  have hDigit : ∀ d : Fin 10, isBlank (digitChar d) = false ∧
      digitChar d ∉ ['n', 't', 'f', '"', '[', '\x7b'] := by decide
  obtain ⟨c, s, hText, hFirst⟩ := exists_printNumber n
  have hSign : isBlank c = false ∧ c ∉ ['n', 't', 'f', '"', '[', '\x7b'] := by
    obtain rfl | ⟨d, rfl⟩ := hFirst
    · decide
    · exact hDigit d
  have hNumber := readNumber_printNumber_append n h
  rw [hText, List.cons_append] at hNumber ⊢
  rw [readValue, skipBlanks_cons hSign.1]
  -- every other value starts with a sign of its own
  split
  case h_7 => simp only [hNumber, Option.map_some]
  all_goals
    rename_i hOther
    rw [(List.cons.inj hOther).1] at hSign
    exact absurd (by decide) hSign.2

theorem readValue_string {text : JsonString} (h : SpellsString text s) :
    readValue (fuel + 1) (s ++ rest) = some (.string text, rest) := by
  have hString : readString (s ++ rest) = some (text, rest) := h.reads
  obtain ⟨body, -, rfl⟩ := h
  rw [quoted, List.cons_append] at hString ⊢
  rw [readValue, skipBlanks_cons (by decide)]
  simp only [hString, Option.map_some]

theorem readValue_array (fuel : Nat) (s : List Char) :
    readValue (fuel + 1) ('[' :: s) =
      (readEnclosed ']' (readValue fuel) s).map fun (items, s) => (.array items, s) := by
  rw [readValue, skipBlanks_cons (by decide)]
  rfl

theorem readValue_object (fuel : Nat) (s : List Char) :
    readValue (fuel + 1) ('\x7b' :: s) =
      (readEnclosed '\x7d' (readMember (readValue fuel)) s).map
        fun (members, s) => (.object members, s) := by
  rw [readValue, skipBlanks_cons (by decide)]
  rfl

theorem SpellsString.skipBlanks_append {text : JsonString} (h : SpellsString text s)
    (rest : List Char) : skipBlanks (s ++ rest) = s ++ rest := by
  obtain ⟨body, -, rfl⟩ := h
  exact skipBlanks_cons (by decide)

/-! ### Rows

Items and members alike stand in rows, with commas between them. -/

/-- A sign that ends a part of a row. -/
structure Ends (c : Char) : Prop where
  solid : isBlank c = false
  number (s : List Char) : EndsNumber (c :: s)

theorem ends_of_mem {c : Char} (h : c ∈ [',', ']', '\x7d']) : Ends c where
  solid := by
    simp only [List.mem_cons, List.not_mem_nil, or_false] at h
    obtain rfl | rfl | rfl := h <;> decide
  number s := by
    intro c' s' hText
    rw [← (List.cons.inj hText).1]
    simp only [List.mem_cons, List.not_mem_nil, or_false] at h
    obtain rfl | rfl | rfl := h <;> decide

section
variable {α : Type} {part : Reader α} {close : Char} {a : α} {row : List α}

/-- The reader takes the text off the front.  The blanks behind it may stay. -/
def Takes (read : Reader α) (s : List Char) (a : α) : Prop :=
  ∀ rest, EndsNumber rest →
    ∃ after, read (s ++ rest) = some (a, after) ∧ skipBlanks after = skipBlanks rest

theorem Takes.exists_after (h : Takes part s a) {c : Char} (hEnds : Ends c) (rest : List Char) :
    ∃ after, part (s ++ c :: rest) = some (a, after) ∧ skipBlanks after = c :: rest := by
  obtain ⟨after, hRead, hSkip⟩ := h (c :: rest) (hEnds.number rest)
  exact ⟨after, hRead, hSkip.trans (skipBlanks_cons hEnds.solid)⟩

/-- The row is read up to its closing sign. -/
def TakesRow (close : Char) (part : Reader α) (s : List Char) (row : List α) : Prop :=
  ∀ fuel rest, s.length < fuel → readRow close part fuel (s ++ close :: rest) = some (row, rest)

theorem Takes.last (h : Takes part s a) (hEnds : Ends close) (hClose : close ≠ ',') :
    TakesRow close part s [a] := by
  intro fuel rest hFuel
  obtain ⟨fuel, rfl⟩ := Nat.exists_eq_add_one_of_ne_zero (by omega : fuel ≠ 0)
  obtain ⟨after, hRead, hSkip⟩ := h.exists_after hEnds rest
  rw [readRow, hRead]
  simp only [Option.bind_some, hSkip, if_neg hClose, if_true]

theorem TakesRow.cons (h : TakesRow close part t row) (hPart : Takes part s a) :
    TakesRow close part (s ++ ',' :: t) (a :: row) := by
  intro fuel rest hFuel
  rw [List.length_append, List.length_cons] at hFuel
  obtain ⟨fuel, rfl⟩ := Nat.exists_eq_add_one_of_ne_zero (by omega : fuel ≠ 0)
  have hComma : Ends ',' := ends_of_mem (by decide)
  obtain ⟨after, hRead, hSkip⟩ := hPart.exists_after hComma (t ++ close :: rest)
  rw [List.append_assoc, List.cons_append, readRow, hRead]
  simp only [Option.bind_some, hSkip, if_true, h fuel rest (by omega), Option.map_some]

/-- What stands between an opening sign and its closing one. -/
def TakesEnclosed (close : Char) (part : Reader α) (s : List Char) (row : List α) : Prop :=
  ∀ rest, readEnclosed close part (s ++ close :: rest) = some (row, rest)

theorem takesEnclosed_blanks {blanks : List Char} (hBlanks : IsBlanks blanks) (hEnds : Ends close) :
    TakesEnclosed close part blanks [] := by
  intro rest
  rw [readEnclosed, skipBlanks_append hBlanks, skipBlanks_cons hEnds.solid]
  simp only [if_true]

theorem TakesRow.enclosed (h : TakesRow close part s row) (hOpens : Opens s)
    (hClose : close = ']' ∨ close = '\x7d') : TakesEnclosed close part s row := by
  intro rest
  obtain ⟨c, t, hSkip, hBracket, hBrace⟩ := (hOpens.append (close :: rest)).exists_skipBlanks
  have hOther : c ≠ close := by
    obtain rfl | rfl := hClose
    · exact hBracket
    · exact hBrace
  rw [readEnclosed, hSkip]
  simp only [if_neg hOther]
  refine h _ rest ?_
  rw [List.length_append, List.length_cons]
  omega

end

/-! ### What is owed to a text

For a value and what it holds there is fuel for as many as the text has signs. -/

def ReadsValue (s : List Char) (v : Json) : Prop :=
  ∀ fuel rest, s.length ≤ fuel → EndsNumber rest → readValue fuel (s ++ rest) = some (v, rest)

/-- The reader owes something to a text, whatever fuel it has for it. -/
def WithFuel (s : List Char) (Owed : Nat → Prop) : Prop := ∀ fuel, s.length ≤ fuel → Owed fuel

def Part.IsRead (s : List Char) : Part → Prop
  | .value v => ReadsValue s v
  | .element v => WithFuel s fun fuel => Takes (readValue fuel) s v
  | .items vs => WithFuel s fun fuel => TakesRow ']' (readValue fuel) s vs
  | .member name v => WithFuel s fun fuel => Takes (readMember (readValue fuel)) s (name, v)
  | .members ms => WithFuel s fun fuel => TakesRow '\x7d' (readMember (readValue fuel)) s ms

section
variable {before after : List Char} {v : Json} {text name : JsonString}

theorem readsValue_number (n : JsonNumber) : ReadsValue (printNumber n) (.number n) := by
  intro fuel rest hFuel hRest
  obtain ⟨fuel, rfl⟩ := (opens_printNumber n).exists_fuel hFuel
  exact readValue_number n hRest

theorem SpellsString.readsValue (h : SpellsString text s) : ReadsValue s (.string text) := by
  intro fuel rest hFuel _
  obtain ⟨fuel, rfl⟩ := h.opens.exists_fuel hFuel
  exact readValue_string h

/-- An array or an object, by what it encloses. -/
theorem readsValue_enclosed {α : Type} {opening close : Char} {part : Nat → Reader α}
    {hold : List α → Json} {row : List α}
    (hValue : ∀ fuel s, readValue (fuel + 1) (opening :: s) =
      (readEnclosed close (part fuel) s).map fun (row, s) => (hold row, s))
    (h : WithFuel s fun fuel => TakesEnclosed close (part fuel) s row) :
    ReadsValue (opening :: (s ++ [close])) (hold row) := by
  intro fuel rest hFuel _
  rw [List.length_cons, List.length_append, List.length_singleton] at hFuel
  obtain ⟨fuel, rfl⟩ := Nat.exists_eq_add_one_of_ne_zero (by omega : fuel ≠ 0)
  rw [List.cons_append, List.append_assoc, List.singleton_append, hValue, h fuel (by omega) rest,
    Option.map_some]

theorem ReadsValue.element (h : ReadsValue s v) (hBefore : IsBlanks before)
    (hAfter : IsBlanks after) : (Part.element v).IsRead (before ++ (s ++ after)) := by
  intro fuel hFuel rest hRest
  simp only [List.length_append] at hFuel
  refine ⟨after ++ rest, ?_, skipBlanks_append hAfter⟩
  rw [List.append_assoc, List.append_assoc, readValue_congr fuel (skipBlanks_append hBefore)]
  exact h fuel (after ++ rest) (by omega) (hRest.blanks_append hAfter)

theorem Part.IsRead.member (h : (Part.element v).IsRead t) (hBefore : IsBlanks before)
    (hName : SpellsString name s) (hAfter : IsBlanks after) :
    (Part.member name v).IsRead (before ++ (s ++ (after ++ ':' :: t))) := by
  intro fuel hFuel rest hRest
  simp only [List.length_append, List.length_cons] at hFuel
  obtain ⟨left, hRead, hSkip⟩ := h fuel (by omega) rest hRest
  have hText : skipBlanks ((before ++ (s ++ (after ++ ':' :: t))) ++ rest) =
      s ++ (after ++ ':' :: (t ++ rest)) := by
    simp only [List.append_assoc, List.cons_append, skipBlanks_append hBefore,
      hName.skipBlanks_append]
  have hColon : expect ':' (skipBlanks (after ++ ':' :: (t ++ rest))) = some (t ++ rest) := by
    rw [skipBlanks_append hAfter, skipBlanks_cons (by decide)]
    rfl
  refine ⟨left, ?_, hSkip⟩
  rw [readMember, hText, hName.reads]
  simp only [Option.bind_some, hColon, hRead, Option.map_some]

end

/-- **A reader with enough fuel takes what a text spells off the front.** -/
theorem Spells.reads {part : Part} (h : Spells part s) : part.IsRead s := by
  have hBracket : Ends ']' := ends_of_mem (by decide)
  have hBrace : Ends '\x7d' := ends_of_mem (by decide)
  induction h with
  | null | true | false =>
    intro fuel rest hFuel _
    obtain ⟨fuel, rfl⟩ := Opens.exists_fuel (.of_cons (by decide)) hFuel
    rfl
  | number n => exact readsValue_number n
  | string hText => exact hText.readsValue
  | noItems hBlanks =>
    exact readsValue_enclosed readValue_array fun _ _ => takesEnclosed_blanks hBlanks hBracket
  | noMembers hBlanks =>
    exact readsValue_enclosed readValue_object fun _ _ => takesEnclosed_blanks hBlanks hBrace
  | array hItems ih =>
    exact readsValue_enclosed readValue_array fun fuel hFuel =>
      (ih fuel hFuel).enclosed hItems.opens (.inl rfl)
  | object hMembers ih =>
    exact readsValue_enclosed readValue_object fun fuel hFuel =>
      (ih fuel hFuel).enclosed hMembers.opens (.inr rfl)
  | element hBefore _ hAfter ih => exact ReadsValue.element ih hBefore hAfter
  | lastItem _ ih => exact fun fuel hFuel => (ih fuel hFuel).last hBracket (by decide)
  | lastMember _ ih => exact fun fuel hFuel => (ih fuel hFuel).last hBrace (by decide)
  | member hBefore hName hAfter _ ih => exact Part.IsRead.member ih hBefore hName hAfter
  | items _ _ ihItem ihItems | members _ _ ihItem ihItems =>
    intro fuel hFuel
    rw [List.length_append, List.length_cons] at hFuel
    exact (ihItems fuel (by omega)).cons (ihItem fuel (by omega))

/-- The text spells this value, with blanks around it. -/
def IsDocument (text : String) (v : Json) : Prop := Spells (.element v) text.toList

/-- **A document has the value it spells.** -/
theorem IsDocument.read? {text : String} {v : Json} (h : IsDocument text v) :
    read? text = some v := by
  obtain ⟨after, hValue, hSkip⟩ := h.reads text.toList.length (Nat.le_refl _) []
    (fun c s hText => nomatch hText)
  rw [List.append_nil] at hValue
  rw [Json.read?, hValue, Option.bind_some]
  simp only [hSkip]
  rfl

end LidarSweep.Json
