import LidarSweep.Json.Printer
import LidarSweep.Json.Reader

/-!
# Numbers in JSON, printed and read

A number has one spelling, which is printed and read back from the front of a text
(`readNumber_printNumber_append`).  A reader takes as many digits as there are, so what follows a
number must not go on like one (`EndsNumber`).
-/

namespace LidarSweep.Json

variable {rest : List Char}

/-! ### Digits -/

theorem digit?_digitChar : ∀ d : Fin 10, digit? (digitChar d) = some d := by decide

theorem digitChar_eq : ∀ d : Fin 10, Nat.digitChar d.val = digitChar d := by decide

theorem digitChar_ne : ∀ d : Fin 10, digitChar d ≠ '+' ∧ digitChar d ≠ '-' := by decide

/-- No digit comes first. -/
def EndsDigits (rest : List Char) : Prop := ∀ c s, rest = c :: s → digit? c = none

theorem takeDigits_append (ds : List (Fin 10)) (h : EndsDigits rest) :
    takeDigits (ds.map digitChar ++ rest) = (ds, rest) := by
  induction ds with
  | nil =>
    cases rest with
    | nil => rfl
    | cons c s =>
      have hOther := h c s rfl
      simp [takeDigits, hOther]
  | cons d ds ih => simp [takeDigits, digit?_digitChar, ih]

theorem readDigits_printDigits_append (ds : Digits) (h : EndsDigits rest) :
    readDigits (printDigits ds ++ rest) = some (ds, rest) := by
  rw [readDigits, printDigits, takeDigits_append _ h]

theorem Digits.value_concat (ds : List (Fin 10)) (d : Fin 10) :
    Digits.value (ds ++ [d]) = 10 * Digits.value ds + d.val := by
  rw [Digits.value, List.foldl_append]
  rfl

/-- The digits of a whole number: the first of several is no zero. -/
theorem exists_digits (n : Nat) :
    ∃ first rest, Nat.toDigits 10 n = (first :: rest).map digitChar ∧
      Digits.value (first :: rest) = n ∧ ¬ (first = 0 ∧ rest ≠ []) ∧ (first = 0 → n = 0) := by
  induction n using Nat.strongRecOn with
  | ind n ih =>
    by_cases hSmall : n < 10
    · refine ⟨⟨n, hSmall⟩, [], ?_, ?_, by simp, ?_⟩
      · rw [Nat.toDigits_of_lt_base hSmall]
        exact congrArg (· :: []) (digitChar_eq ⟨n, hSmall⟩)
      · simp [Digits.value]
      · intro hZero
        exact congrArg Fin.val hZero
    · have hLast : n % 10 < 10 := Nat.mod_lt n (by decide)
      obtain ⟨first, front, hDigits, hValue, -, hZero⟩ := ih (n / 10) (by omega)
      have hFirst : first ≠ 0 := fun h => by
        have := hZero h
        omega
      refine ⟨first, front ++ [⟨n % 10, hLast⟩], ?_, ?_, fun h => hFirst h.1,
        fun h => absurd h hFirst⟩
      · rw [Nat.toDigits_of_base_le (by decide) (Nat.le_of_not_lt hSmall), hDigits,
          ← List.cons_append, List.map_append]
        exact congrArg (_ ++ [·]) (digitChar_eq ⟨n % 10, hLast⟩)
      · rw [← List.cons_append, Digits.value_concat, hValue]
        exact Nat.div_add_mod n 10

theorem readWhole_toDigits_append (n : Nat) (h : EndsDigits rest) :
    readWhole (Nat.toDigits 10 n ++ rest) = some (n, rest) := by
  obtain ⟨first, front, hDigits, hValue, hPlain, -⟩ := exists_digits n
  rw [readWhole, hDigits, takeDigits_append _ h]
  simp only [if_neg hPlain, hValue]

/-! ### Numbers -/

/-- A number is over where this comes next. -/
def EndsNumber (rest : List Char) : Prop :=
  ∀ c s, rest = c :: s → digit? c = none ∧ c ≠ '.' ∧ c ≠ 'e' ∧ c ≠ 'E'

theorem EndsNumber.endsDigits (h : EndsNumber rest) : EndsDigits rest :=
  fun c s hRest => (h c s hRest).1

def printFraction : Option Digits → List Char
  | some ds => '.' :: printDigits ds
  | none => []

def printPower? : Option PowerOfTen → List Char
  | some p => printPower p
  | none => []

theorem readPower_append (power : Option PowerOfTen) (h : EndsNumber rest) :
    readPower (printPower? power ++ rest) = some (power, rest) := by
  cases power with
  | none =>
    cases rest with
    | nil => rfl
    | cons c s =>
      obtain ⟨-, -, hSmall, hCapital⟩ := h c s rfl
      simp [printPower?, readPower, hSmall, hCapital]
  | some p =>
    obtain ⟨capital, sign, digits⟩ := p
    have hDigits := readDigits_printDigits_append digits h.endsDigits
    have hLetter : (if capital then 'E' else 'e') = 'e' ∨ (if capital then 'E' else 'e') = 'E' := by
      cases capital <;> decide
    have hCapital : ((if capital then 'E' else 'e') == 'E') = capital := by
      cases capital <;> decide
    cases sign with
    | some minus =>
      cases minus <;>
        simp only [printPower?, printPower, List.cons_append, List.nil_append, readPower,
          if_pos hLetter, hDigits, hCapital, Option.map_some]
    | none =>
      have hFront : printDigits digits ++ rest =
          digitChar digits.first :: (digits.rest.map digitChar ++ rest) := rfl
      obtain ⟨hPlus, hMinus⟩ := digitChar_ne digits.first
      simp only [printPower?, printPower, List.cons_append, List.nil_append, readPower,
        if_pos hLetter, hCapital]
      -- no sign is written, and a digit is none
      generalize hText : printDigits digits ++ rest = text at hDigits hFront ⊢
      split
      · exact absurd (List.cons.inj hFront).1.symm hPlus
      · exact absurd (List.cons.inj hFront).1.symm hMinus
      · simp only [hDigits, Option.map_some]

theorem endsDigits_printPower? (power : Option PowerOfTen) (h : EndsNumber rest) :
    EndsDigits (printPower? power ++ rest) := by
  cases power with
  | none => exact h.endsDigits
  | some p =>
    intro c s hText
    rw [← (List.cons.inj hText).1]
    cases p.capital <;> decide

theorem readFraction_append (fraction : Option Digits) (power : Option PowerOfTen)
    (h : EndsNumber rest) :
    readFraction (printFraction fraction ++ (printPower? power ++ rest)) =
      some (fraction, printPower? power ++ rest) := by
  cases fraction with
  | some ds =>
    simp only [printFraction, List.cons_append, readFraction,
      readDigits_printDigits_append ds (endsDigits_printPower? power h), Option.map_some]
  | none =>
    rw [printFraction, List.nil_append, readFraction]
    intro s hText
    cases power with
    | none => exact (h '.' s hText).2.1 rfl
    | some p =>
      have hLetter := (List.cons.inj hText).1
      revert hLetter
      cases p.capital <;> decide

theorem endsDigits_printFraction (fraction : Option Digits) (power : Option PowerOfTen)
    (h : EndsNumber rest) :
    EndsDigits (printFraction fraction ++ (printPower? power ++ rest)) := by
  cases fraction with
  | none => exact endsDigits_printPower? power h
  | some ds =>
    intro c s hText
    rw [← (List.cons.inj hText).1]
    decide

theorem printNumber_eq (n : JsonNumber) :
    printNumber n = (if n.negative then ['-'] else []) ++ (Nat.toDigits 10 n.whole ++
      (printFraction n.fraction ++ printPower? n.power)) := by
  rw [printNumber, List.append_assoc, List.append_assoc]
  cases n.fraction <;> cases n.power <;> rfl

/-- A number starts with a minus or a digit. -/
theorem exists_printNumber (n : JsonNumber) :
    ∃ c s, printNumber n = c :: s ∧ (c = '-' ∨ ∃ d, c = digitChar d) := by
  rw [printNumber_eq]
  cases n.negative with
  | true => exact ⟨'-', _, rfl, .inl rfl⟩
  | false =>
    obtain ⟨first, front, hDigits, -⟩ := exists_digits n.whole
    rw [hDigits]
    exact ⟨digitChar first, _, rfl, .inr ⟨first, rfl⟩⟩

/-- **A number is read back from where it was printed.** -/
theorem readNumber_printNumber_append (n : JsonNumber) (h : EndsNumber rest) :
    readNumber (printNumber n ++ rest) = some (n, rest) := by
  obtain ⟨negative, whole, fraction, power⟩ := n
  have hWhole := readWhole_toDigits_append whole (endsDigits_printFraction fraction power h)
  have hFraction := readFraction_append fraction power h
  have hPower := readPower_append power h
  rw [printNumber_eq]
  simp only [List.append_assoc]
  cases negative with
  | true =>
    simp only [if_true, List.cons_append, List.nil_append, readNumber, hWhole, hFraction, hPower,
      Option.bind_some, Option.map_some]
  | false =>
    have hFront : ∃ d t, Nat.toDigits 10 whole ++
        (printFraction fraction ++ (printPower? power ++ rest)) = digitChar d :: t := by
      obtain ⟨first, front, hDigits, -⟩ := exists_digits whole
      rw [hDigits]
      exact ⟨first, _, rfl⟩
    obtain ⟨d, t, hFront⟩ := hFront
    simp only [Bool.false_eq_true, if_false, List.nil_append, readNumber]
    rw [hFront] at hWhole ⊢
    -- no minus is written, and a digit is none
    split
    · next hMinus => exact absurd (List.cons.inj hMinus).1 (digitChar_ne d).2
    · simp only [hWhole, hFraction, hPower, Option.bind_some, Option.map_some]

end LidarSweep.Json
