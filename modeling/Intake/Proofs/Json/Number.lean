import Intake.Proofs.Json.Skip

set_option autoImplicit false

/-!
Reading whole numbers. A number without fraction and exponent is exact as long as it fits into
sixty-four bits; any other is no whole number for a reader, and neither is a zero with a minus sign.
-/

namespace Intake.Json

open Intake.Text Intake.Number

/-- The whole number that a number is written as: it has no fraction and no exponent, and is no zero
with a minus sign. -/
def Numeral.integer? (n : Numeral) : Option Int :=
  match n.fraction, n.exponent with
  | none, none =>
    if n.negative then
      if Digits.value n.whole.chars = 0 then none else some (-(Digits.value n.whole.chars : Int))
    else some (Digits.value n.whole.chars)
  | _, _ => none

section Absorb

variable {digits rest : List Char}

theorem le_valueFrom (start : Nat) (digits : List Char) : start ≤ Digits.valueFrom start digits := by
  induction digits generalizing start with
  | nil => exact Nat.le_refl _
  | cons c more ih =>
    have step := ih (10 * start + Digits.digitValue c)
    show start ≤ Digits.valueFrom (10 * start + Digits.digitValue c) more
    omega

theorem absorb_of_lt {start : Nat} (all : ∀ c ∈ digits, Digits.isDigit c = true)
    (ended : ∀ c ∈ rest.head?, Digits.isDigit c = false)
    (below : Digits.valueFrom start digits < wordLimit) :
    absorb start (digits ++ rest) = (Digits.valueFrom start digits, digits.length, rest) := by
  induction digits generalizing start with
  | nil =>
    cases rest with
    | nil => rfl
    | cons c more => simp [absorb, ended c rfl, Digits.valueFrom]
  | cons c more ih =>
    obtain ⟨here, others⟩ := List.forall_mem_cons.mp all
    have fits : 10 * start + Digits.digitValue c < wordLimit :=
      Nat.lt_of_le_of_lt (le_valueFrom _ more) below
    have step : Digits.valueFrom (10 * start + Digits.digitValue c) more < wordLimit := below
    have behind := ih others step
    simp only [List.cons_append, absorb, here, fits, decide_true, Bool.and_true, if_true, behind]
    rfl

private theorem absorb_of_le {start : Nat} (all : ∀ c ∈ digits, Digits.isDigit c = true)
    (small : start < wordLimit) (above : wordLimit ≤ Digits.valueFrom start digits) :
    ∃ front back, digits = front ++ back ∧ back ≠ [] ∧
      (absorb start (digits ++ rest)).2.2 = back ++ rest := by
  induction digits generalizing start with
  | nil => exact absurd above (Nat.not_le_of_lt small)
  | cons c more ih =>
    obtain ⟨here, others⟩ := List.forall_mem_cons.mp all
    by_cases fits : 10 * start + Digits.digitValue c < wordLimit
    · obtain ⟨front, back, cut, nonempty, left⟩ := ih others fits above
      refine ⟨c :: front, back, by rw [cut, List.cons_append], nonempty, ?_⟩
      simpa only [List.cons_append, absorb, here, fits, decide_true, Bool.and_true, if_true] using left
    · refine ⟨[], c :: more, rfl, List.cons_ne_nil _ _, ?_⟩
      simp [absorb, fits]

end Absorb

/-- Nothing but a double is read. -/
def IsInexact (result : Except Stop (Read JsonNumber)) : Prop :=
  ∀ i rest, result ≠ .ok (.integer i, rest)

private theorem isInexact_error (stop : Stop) : IsInexact (.error stop) := by
  intro i rest
  simp

theorem isInexact_float (x : Float) (rest : List Char) : IsInexact (.ok (.float x, rest)) := by
  intro i rest
  simp

private theorem isInexact_ite {c : Prop} [Decidable c] {a b : Except Stop (Read JsonNumber)}
    (first : IsInexact a) (second : IsInexact b) : IsInexact (if c then a else b) := by
  split
  · exact first
  · exact second

private theorem isInexact_floatOfParts (negative : Bool) (significand : Nat) (exponent : Int)
    (rest : List Char) : IsInexact (floatOfParts negative significand exponent rest) := by
  intro i behind
  unfold floatOfParts
  split <;> simp

private theorem isInexact_exponentDigits (negative : Bool) (significand : Nat) (start : Int)
    (down : Bool)
    (text : List Char) : IsInexact (exponentDigits negative significand start down text) := by
  unfold exponentDigits
  simp only
  split
  · refine isInexact_ite ?_ (isInexact_floatOfParts _ _ _ _)
    exact isInexact_ite (isInexact_error _) (isInexact_float _ _)
  · exact isInexact_floatOfParts _ _ _ _

private theorem isInexact_exponentPart (negative : Bool) (significand : Nat) (start : Int)
    (text : List Char) : IsInexact (exponentPart negative significand start text) := by
  unfold exponentPart
  simp only
  split
  · exact isInexact_error _
  · exact isInexact_ite (isInexact_error _) (isInexact_exponentDigits _ _ _ _ _)

private theorem isInexact_fractionPart (negative : Bool) (significand : Nat) (start : Int)
    (text : List Char) : IsInexact (fractionPart negative significand start text) := by
  unfold fractionPart
  refine isInexact_ite (isInexact_error _) ?_
  split
  · exact isInexact_ite (isInexact_exponentPart _ _ _ _) (isInexact_floatOfParts _ _ _ _)
  · exact isInexact_floatOfParts _ _ _ _

section Numerals

variable {rest : List Char} (n : Numeral)

private theorem isInexact_numberTail_of_dropped (negative : Bool) (significand : Nat)
    {dropped : Nat} (some_ : dropped ≠ 0) (rest : List Char) :
    IsInexact (numberTail negative significand dropped rest) := by
  unfold numberTail
  simp only [some_, ne_eq, not_false_eq_true, if_true]
  split
  · refine isInexact_ite (isInexact_fractionPart _ _ _ _) ?_
    exact isInexact_ite (isInexact_exponentPart _ _ _ _) (isInexact_floatOfParts _ _ _ _)
  · exact isInexact_floatOfParts _ _ _ _

private theorem isInexact_numberTail_of_part (negative : Bool) (significand dropped : Nat)
    (part : n.fraction ≠ none ∨ n.exponent ≠ none) :
    IsInexact (numberTail negative significand dropped
      (n.fractionChars ++ (n.exponentChars ++ rest))) := by
  cases fraction : n.fraction with
  | some run =>
    rw [fractionChars_some fraction]
    exact isInexact_fractionPart _ _ _ _
  | none =>
    obtain ⟨e, exponent⟩ := Option.ne_none_iff_exists'.mp (part.resolve_left (· fraction))
    rw [fractionChars_none fraction, exponentChars_some exponent]
    have point : e.letter ≠ '.' := by
      rcases e.letter_eq with h | h <;> rw [h] <;> decide
    have letter : (e.letter = 'e' || e.letter = 'E') = true := by simpa using e.letter_eq
    simp only [List.nil_append, List.cons_append, numberTail, if_neg point, letter, if_true]
    exact isInexact_exponentPart _ _ _ _

theorem numberTail_boundary (negative : Bool) (significand dropped : Nat)
    (boundary : IsBoundary rest) :
    numberTail negative significand dropped rest =
      if dropped ≠ 0 then floatOfParts negative significand dropped rest
      else if !negative then .ok (.integer significand, rest)
      else if significand = 0 || Word.count 63 < significand then
        .ok (.float (-(Float.ofScientific significand false 0)), rest)
      else .ok (.integer (-(significand : Int)), rest) := by
  unfold numberTail
  cases rest with
  | nil => simp
  | cons c more =>
    obtain ⟨-, point, lower, upper⟩ := boundary.head (c := c) rfl
    simp [point, lower, upper]

theorem whole_of_zero {digits : List Char} (whole : n.whole.chars = '0' :: digits) :
    n.whole.chars = ['0'] := by
  refine n.leading.resolve_right fun other => other ?_
  rw [whole]
  rfl

theorem unsignedNumber_zero (negative : Bool) {more : List Char}
    (ended : ∀ c ∈ more.head?, Digits.isDigit c = false) :
    unsignedNumber negative ('0' :: more) = numberTail negative 0 0 more := by
  cases more with
  | nil => rfl
  | cons c more =>
    have last : Digits.isDigit c = false := ended c rfl
    have first : Digits.isDigit '0' = true := by decide
    simp only [unsignedNumber, first, last]
    rfl

theorem unsignedNumber_of_lt (negative : Bool) (boundary : IsBoundary rest)
    (fits : Digits.value n.whole.chars < wordLimit) :
    unsignedNumber negative (n.whole.chars ++ (n.fractionChars ++ (n.exponentChars ++ rest))) =
      numberTail negative (Digits.value n.whole.chars) 0
        (n.fractionChars ++ (n.exponentChars ++ rest)) := by
  have ended : ∀ c ∈ (n.fractionChars ++ (n.exponentChars ++ rest)).head?,
      Digits.isDigit c = false := fun c => head_fractionChars n boundary
  generalize n.fractionChars ++ (n.exponentChars ++ rest) = more at ended
  obtain ⟨d, digits, whole, digit⟩ := n.whole.exists_cons
  by_cases zero : d = '0'
  · rw [whole_of_zero n (zero ▸ whole), List.singleton_append]
    exact unsignedNumber_zero negative ended
  · have taken := absorb_of_lt n.whole.digits ended fits
    have after : more.dropWhile Digits.isDigit = more := @dropWhile_run [] (by simp) _ ended
    rw [whole, List.cons_append] at taken ⊢
    simp only [unsignedNumber, digit, zero, taken, after, Nat.sub_self]
    rfl

theorem isInexact_unsignedNumber (negative : Bool) (boundary : IsBoundary rest)
    (large : wordLimit ≤ Digits.value n.whole.chars) :
    IsInexact (unsignedNumber negative
      (n.whole.chars ++ (n.fractionChars ++ (n.exponentChars ++ rest)))) := by
  have ended : ∀ c ∈ (n.fractionChars ++ (n.exponentChars ++ rest)).head?,
      Digits.isDigit c = false := fun c => head_fractionChars n boundary
  generalize n.fractionChars ++ (n.exponentChars ++ rest) = more at ended
  obtain ⟨d, digits, whole, digit⟩ := n.whole.exists_cons
  have nonzero : d ≠ '0' := by
    rintro rfl
    rw [whole_of_zero n whole] at large
    exact absurd large (by decide)
  obtain ⟨front, back, cut, nonempty, left⟩ :=
    @absorb_of_le _ more _ n.whole.digits (by decide) large
  have behind : ∀ c ∈ back, Digits.isDigit c = true := by
    intro c there
    exact n.whole.digits c (by rw [cut]; exact List.mem_append_right front there)
  have positive := List.length_pos_of_ne_nil nonempty
  have after : (back ++ more).dropWhile Digits.isDigit = more := dropWhile_run behind ended
  rw [whole, List.cons_append] at left ⊢
  simp only [unsignedNumber, digit, nonzero, left, after]
  refine isInexact_numberTail_of_dropped _ _ ?_ _
  rw [List.length_append]
  omega

theorem signedNumber_eq (rest : List Char) : signedNumber (n.chars ++ rest) =
    unsignedNumber n.negative
      (n.whole.chars ++ (n.fractionChars ++ (n.exponentChars ++ rest))) := by
  obtain ⟨d, digits, whole, digit⟩ := n.whole.exists_cons
  have text : n.chars ++ rest =
      n.signChars ++ (n.whole.chars ++ (n.fractionChars ++ (n.exponentChars ++ rest))) := by
    simp [Numeral.chars]
  rw [text]
  cases sign : n.negative with
  | true =>
    have minus : n.signChars = ['-'] := by simp [Numeral.signChars, sign]
    rw [minus]
    rfl
  | false =>
    have plain : n.signChars = [] := by simp [Numeral.signChars, sign]
    rw [plain, whole, List.nil_append, List.cons_append, signedNumber]
    rintro more same
    exact absurd (List.cons.inj same).1 (ne_of_isDigit digit (by decide))

theorem integer?_of_part {n : Numeral} (part : n.fraction ≠ none ∨ n.exponent ≠ none) :
    n.integer? = none := by
  unfold Numeral.integer?
  split
  next fraction exponent => exact absurd part (by simp [fraction, exponent])
  next => rfl

/-- A number is read as the whole number that it is written as if this is in the range, and as no other
whole number. -/
theorem signedNumber_numeral (boundary : IsBoundary rest) :
    (∀ i, n.integer? = some i → -(Word.count 63 : Int) ≤ i → i < Word.count 63 →
      signedNumber (n.chars ++ rest) = .ok (.integer i, rest)) ∧
    ∀ i behind, signedNumber (n.chars ++ rest) = .ok (.integer i, behind) → n.integer? = some i := by
  rw [signedNumber_eq]
  have half : wordLimit = 2 * Word.count 63 := rfl
  rcases Nat.lt_or_ge (Digits.value n.whole.chars) wordLimit with fits | large
  · rw [unsignedNumber_of_lt n n.negative boundary fits]
    by_cases part : n.fraction ≠ none ∨ n.exponent ≠ none
    · have inexact : IsInexact (numberTail n.negative (Digits.value n.whole.chars) 0
          (n.fractionChars ++ (n.exponentChars ++ rest))) :=
        isInexact_numberTail_of_part n n.negative _ 0 part
      rw [integer?_of_part part]
      refine ⟨fun i impossible => by simp at impossible, ?_⟩
      exact fun i behind read => absurd read (inexact i behind)
    · push Not at part
      obtain ⟨fraction, exponent⟩ := part
      rw [fractionChars_none fraction, exponentChars_none exponent, List.nil_append,
        List.nil_append, numberTail_boundary _ _ _ boundary, if_neg (not_not.mpr rfl)]
      simp only [Numeral.integer?, fraction, exponent]
      cases n.negative with
      | false => simp
      | true =>
        by_cases zero : Digits.value n.whole.chars = 0
        · simp [zero]
        · by_cases beyond : Word.count 63 < Digits.value n.whole.chars
          · rw [if_pos rfl, if_neg zero]
            refine ⟨fun i written low _ => ?_, by simp [zero, beyond]⟩
            have value := Option.some.inj written
            omega
          · simp [zero, beyond]
  · have inexact := isInexact_unsignedNumber n n.negative boundary large
    refine ⟨?_, fun i behind read => absurd read (inexact i behind)⟩
    intro i written low high
    unfold Numeral.integer? at written
    split at written
    · split at written
      · split at written
        · simp at written
        · have value := Option.some.inj written
          omega
      · have value := Option.some.inj written
        omega
    · simp at written

end Numerals

end Intake.Json
