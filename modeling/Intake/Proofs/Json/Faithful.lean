import Intake.Proofs.Json.Settling
import Intake.Proofs.Number.Doubles
import Intake.Proofs.Number.FloatText

set_option autoImplicit false

/-!
Numbers that keep their value as amounts. A number with a fraction or an exponent is made from its
digits, as one number, and the power of ten that they count. If the digits are few enough that is the
double nearest to the number, and it is written as the number again; a whole number of sixty-four bits
is exact anyway.
-/

namespace Intake.Json

open Intake.Text Intake.Number

section Parts

variable {digits rest : List Char} {n : Numeral}

private theorem absorbExponent_of_lt {start : Nat} (all : ∀ c ∈ digits, Digits.isDigit c = true)
    (ended : ∀ c ∈ rest.head?, Digits.isDigit c = false)
    (below : Digits.valueFrom start digits < exponentLimit) :
    absorbExponent start (digits ++ rest) = (Digits.valueFrom start digits, rest) := by
  induction digits generalizing start with
  | nil =>
    cases rest with
    | nil => rfl
    | cons c more => simp [absorbExponent, ended c rfl, Digits.valueFrom]
  | cons c more ih =>
    obtain ⟨here, others⟩ := List.forall_mem_cons.mp all
    have fits : 10 * start + Digits.digitValue c < exponentLimit :=
      Nat.lt_of_le_of_lt (le_valueFrom _ more) below
    have later : Digits.valueFrom (10 * start + Digits.digitValue c) more < exponentLimit := below
    simp only [List.cons_append, absorbExponent, here, fits, decide_true, Bool.and_true, if_true,
      ih others later]
    rfl

private theorem exponentPart_of_lt (negative : Bool) (significand : Nat) (start : Int)
    (e : ExponentText)
    (small : Digits.value e.run.chars < exponentLimit) (boundary : IsBoundary rest) :
    exponentPart negative significand start (e.sign ++ (e.run.chars ++ rest)) =
      floatOfParts negative significand (start + e.value) rest := by
  have ended : ∀ c ∈ rest.head?, Digits.isDigit c = false := fun c front => (boundary.head front).1
  have taken : absorbExponent 0 (e.run.chars ++ rest) = (Digits.value e.run.chars, rest) :=
    absorbExponent_of_lt e.run.digits ended small
  have power : (if (e.sign = ['-'] : Bool) then start - (Digits.value e.run.chars : Int)
      else start + Digits.value e.run.chars) = start + e.value := by
    unfold ExponentText.value
    by_cases minus : e.sign = ['-']
    · simp [minus, sub_eq_add_neg]
    · simp [minus]
  rw [exponentPart_sign]
  simp only [exponentDigits, taken, power]
  cases rest with
  | nil => rfl
  | cons c more => simp [ended c rfl]

private theorem afterDigits (negative : Bool) (significand : Nat) (start : Int) (n : Numeral)
    (small : ∀ e ∈ n.exponent, Digits.value e.run.chars < exponentLimit)
    (boundary : IsBoundary rest) :
    (match n.exponentChars ++ rest with
      | c :: more =>
        if c = 'e' || c = 'E' then exponentPart negative significand start more
        else floatOfParts negative significand start (n.exponentChars ++ rest)
      | [] => floatOfParts negative significand start []) =
      floatOfParts negative significand (start + (n.exponent.map ExponentText.value).getD 0) rest := by
  cases exponent : n.exponent with
  | none =>
    rw [exponentChars_none exponent]
    cases rest with
    | nil => simp
    | cons c more =>
      obtain ⟨-, -, lower, upper⟩ := boundary.head (c := c) rfl
      simp [lower, upper]
  | some e =>
    have letter : (e.letter = 'e' || e.letter = 'E') = true := by simpa using e.letter_eq
    rw [exponentChars_some exponent]
    simp only [List.cons_append, letter, if_true, List.append_assoc,
      exponentPart_of_lt negative significand start e (small e exponent) boundary, Option.map_some,
      Option.getD_some]

private theorem value_whole_le (n : Numeral) : Digits.value n.whole.chars ≤ n.coefficient := by
  rw [Numeral.coefficient, Digits.value, Digits.value, Digits.valueFrom_append]
  exact le_valueFrom _ _

private theorem head_behind_fraction (n : Numeral) (boundary : IsBoundary rest) :
    ∀ c ∈ (n.exponentChars ++ rest).head?, Digits.isDigit c = false :=
  fun _ front => (head_exponentChars n boundary front).1

private theorem signedNumber_of_fraction {run : DigitRun} (fraction : n.fraction = some run)
    (fits : n.coefficient < wordLimit)
    (small : ∀ e ∈ n.exponent, Digits.value e.run.chars < exponentLimit)
    (boundary : IsBoundary rest) :
    signedNumber (n.chars ++ rest) = floatOfParts n.negative n.coefficient n.power rest := by
  have digits : n.fractionDigits = run.chars := by simp [Numeral.fractionDigits, fraction]
  have coefficient : n.coefficient = Digits.valueFrom (Digits.value n.whole.chars) run.chars := by
    rw [Numeral.coefficient, digits, Digits.value, Digits.valueFrom_append]
    rfl
  have power : n.power = 0 - (run.chars.length : Int) +
      (n.exponent.map ExponentText.value).getD 0 := by
    rw [Numeral.power, Numeral.places, digits]
    ring
  have whole := Nat.lt_of_le_of_lt (value_whole_le n) fits
  have ended := head_behind_fraction n boundary
  have taken := absorb_of_lt run.digits ended (coefficient ▸ fits)
  have after : (n.exponentChars ++ rest).dropWhile Digits.isDigit = n.exponentChars ++ rest :=
    @dropWhile_run [] (by simp) _ ended
  have some_ : run.chars.length ≠ 0 := (List.length_pos_of_ne_nil run.nonempty).ne'
  rw [signedNumber_eq, unsignedNumber_of_lt n n.negative boundary whole, fractionChars_some fraction,
    power, ← afterDigits n.negative n.coefficient _ n small boundary, coefficient]
  show fractionPart n.negative _ 0 (run.chars ++ (n.exponentChars ++ rest)) = _
  simp only [fractionPart, taken, after, some_, decide_false, Bool.false_and]
  rfl

private theorem signedNumber_of_exponent {e : ExponentText} (fraction : n.fraction = none)
    (exponent : n.exponent = some e) (fits : n.coefficient < wordLimit)
    (small : Digits.value e.run.chars < exponentLimit) (boundary : IsBoundary rest) :
    signedNumber (n.chars ++ rest) = floatOfParts n.negative n.coefficient n.power rest := by
  have digits : n.fractionDigits = [] := by simp [Numeral.fractionDigits, fraction]
  have coefficient : n.coefficient = Digits.value n.whole.chars := by
    rw [Numeral.coefficient, digits, List.append_nil]
  have power : n.power = 0 + e.value := by
    simp [Numeral.power, Numeral.places, digits, exponent]
  have whole := Nat.lt_of_le_of_lt (value_whole_le n) fits
  have letter : (e.letter = 'e' || e.letter = 'E') = true := by simpa using e.letter_eq
  have point : e.letter ≠ '.' := by
    rcases e.letter_eq with lower | upper
    · rw [lower]; decide
    · rw [upper]; decide
  rw [signedNumber_eq, unsignedNumber_of_lt n n.negative boundary whole, fractionChars_none fraction,
    exponentChars_some exponent, coefficient, power,
    ← exponentPart_of_lt n.negative _ 0 e small boundary]
  simp only [numberTail, List.nil_append, List.cons_append, List.append_assoc, if_neg point,
    letter, if_true]
  rfl

private theorem signedNumber_of_part (part : n.fraction ≠ none ∨ n.exponent ≠ none)
    (fits : n.coefficient < wordLimit)
    (small : ∀ e ∈ n.exponent, Digits.value e.run.chars < exponentLimit)
    (boundary : IsBoundary rest) :
    signedNumber (n.chars ++ rest) = floatOfParts n.negative n.coefficient n.power rest := by
  cases fraction : n.fraction with
  | some run => exact signedNumber_of_fraction fraction fits small boundary
  | none =>
    obtain ⟨e, exponent⟩ := Option.ne_none_iff_exists'.mp (part.resolve_left (· fraction))
    exact signedNumber_of_exponent fraction exponent fits (small e exponent) boundary

theorem signedNumber_of_whole (fraction : n.fraction = none) (exponent : n.exponent = none)
    (fits : Digits.value n.whole.chars < wordLimit) (boundary : IsBoundary rest) :
    signedNumber (n.chars ++ rest) =
      if !n.negative then .ok (.integer (Digits.value n.whole.chars), rest)
      else if Digits.value n.whole.chars = 0 || Word.count 63 < Digits.value n.whole.chars then
        .ok (.float (-(Float.ofScientific (Digits.value n.whole.chars) false 0)), rest)
      else .ok (.integer (-(Digits.value n.whole.chars : Int)), rest) := by
  rw [signedNumber_eq, unsignedNumber_of_lt n n.negative boundary fits, fractionChars_none fraction,
    exponentChars_none exponent, List.nil_append, List.nil_append, numberTail_boundary _ _ _ boundary,
    if_neg (not_not.mpr rfl)]

end Parts

/-- A number whose value does not depend on how doubles are rounded: a whole number in the range of
sixty-four bits, or one of at most fifteen digits apart from zeros at their end. -/
inductive Numeral.IsFaithful (n : Numeral) : Prop where
  | word {i : Int} (whole : n.integer? = some i) (low : -(Word.count 63 : Int) ≤ i)
      (high : i < Word.count 64)
  /-- The digits, as one number, and the power of ten that they count are doubles. -/
  | short {d k : Nat} (coefficient_eq : n.coefficient = d * 10 ^ k) (digits : d < 10 ^ 15)
      (exact_ : n.coefficient < Word.count 53) (low : -22 ≤ n.power) (high : n.power ≤ 22)
      (places_le : n.places ≤ Decimal.maxScale)

section Faithful

variable {n : Numeral} {rest : List Char}

theorem Numeral.of_integer {i : Int} (whole : n.integer? = some i) :
    n.fraction = none ∧ n.exponent = none ∧ Digits.value n.whole.chars = i.natAbs ∧
      (n.negative = true ↔ i < 0) := by
  unfold Numeral.integer? at whole
  split at whole
  next fraction exponent =>
    refine ⟨fraction, exponent, ?_⟩
    split at whole
    next negative =>
      split at whole
      next => cases whole
      next some_ =>
        obtain rfl := Option.some.inj whole
        exact ⟨by omega, by simp [negative]; omega⟩
    next positive =>
      obtain rfl := Option.some.inj whole
      exact ⟨by omega, by simp [positive]⟩
  next => cases whole

theorem signedNumber_of_integer {i : Int} (whole : n.integer? = some i)
    (low : -(Word.count 63 : Int) ≤ i) (high : i < Word.count 64) (boundary : IsBoundary rest) :
    signedNumber (n.chars ++ rest) = .ok (.integer i, rest) := by
  obtain ⟨fraction, exponent, value, sign⟩ := Numeral.of_integer whole
  have limit : Word.count 64 = wordLimit := rfl
  have half : Word.count 64 = 2 * Word.count 63 := rfl
  rw [signedNumber_of_whole fraction exponent (by omega) boundary, value]
  cases negative : n.negative with
  | false =>
    have same : (i.natAbs : Int) = i := by
      have := sign.not.mp (by simp [negative])
      omega
    rw [Bool.not_false, if_pos rfl, same]
  | true =>
    have below := sign.mp negative
    have inside : ¬Word.count 63 < i.natAbs := by omega
    have nonzero : ¬i.natAbs = 0 := by omega
    have same : -(i.natAbs : Int) = i := by omega
    simp only [Bool.not_true, nonzero, inside, decide_false, Bool.or_false, Bool.false_eq_true,
      if_false, same]

private theorem Numeral.of_whole (fraction : n.fraction = none) (exponent : n.exponent = none) :
    n.coefficient = Digits.value n.whole.chars ∧ n.places = 0 ∧ n.power = 0 := by
  have digits : n.fractionDigits = [] := by simp [Numeral.fractionDigits, fraction]
  simp [Numeral.coefficient, Numeral.power, Numeral.places, digits, exponent]

private theorem Numeral.amount_of_integer {i : Int} (whole : n.integer? = some i) :
    n.amount = i := by
  obtain ⟨fraction, exponent, value, sign⟩ := Numeral.of_integer whole
  obtain ⟨coefficient, -, power⟩ := Numeral.of_whole fraction exponent
  rw [Numeral.amount, coefficient, power, value]
  by_cases negative : n.negative = true
  · have below := sign.mp negative
    have abs : ((i.natAbs : Int) : ℚ) = -i := by
      rw [Int.ofNat_natAbs_of_nonpos below.le, Int.cast_neg]
    rw [Int.cast_natCast] at abs
    simp [negative, abs]
  · have above : 0 ≤ i := not_lt.mp (sign.not.mp negative)
    have abs : ((i.natAbs : Int) : ℚ) = i := by rw [Int.natAbs_of_nonneg above]
    rw [Int.cast_natCast] at abs
    simp [negative, abs]

namespace Numeral.IsFaithful

theorem fits (faithful : n.IsFaithful) : n.Fits := by
  cases faithful with
  | @word i whole low high =>
    obtain ⟨fraction, exponent, value, -⟩ := Numeral.of_integer whole
    obtain ⟨coefficient, places, power⟩ := Numeral.of_whole fraction exponent
    have half : (Word.count 63 : Int) < Decimal.mantissaLimit := by decide
    have word : (Word.count 64 : Int) < Decimal.mantissaLimit := by decide
    refine ⟨?_, by omega, by rw [power]; decide⟩
    rw [coefficient, value]
    omega
  | short coefficient_eq digits exact_ low high places_le =>
    have limit : Word.count 53 < Decimal.mantissaLimit := by decide
    have scale : (Decimal.maxScale : Int) = 28 := rfl
    exact ⟨exact_.trans limit, places_le, by omega⟩

private theorem value_integer {i : Int} (low : -(Word.count 63 : Int) ≤ i)
    (high : i < Word.count 64)
    {a : Decimal} (read : Decimal.read (JsonNumber.integer i).toChars = .ok a) : a.value = i := by
  have whole := integer?_numeralOf i
  have faithful : (numeralOf i).IsFaithful := .word whole low high
  rw [JsonNumber.toChars, ← chars_numeralOf] at read
  rw [Decimal.value_read faithful.fits read, Numeral.amount_of_integer whole]

private theorem value_scaled {negative : Bool} {c d k : Nat} {power : Int} (same : c = d * 10 ^ k)
    (digits : d < 10 ^ 15) (exact_ : c < 2 ^ 53) (low : -22 ≤ power) (high : power ≤ 22) {x : Float}
    (made : scaled c power = some x) {a : Decimal}
    (read : Decimal.read (JsonNumber.float (signed negative x)).toChars = .ok a) :
    a.value = (if negative then -1 else 1) * (c * 10 ^ power) := by
  rcases Nat.eq_zero_or_pos c with rfl | positive
  · rw [FloatText.value_read_write_zero (Binary64.parts_scaled_zero low high made negative) read]
    simp
  · obtain ⟨m, e, holds, rounds⟩ := Binary64.exists_scaled positive exact_ low high made
    have parts : Binary64.parts (signed negative x) = .finite negative m e := by
      cases negative with
      | false => exact holds.parts_eq
      | true => exact holds.neg.parts_eq
    obtain ⟨d', k', rfl, ends⟩ := Shortest.exists_mul_pow (Nat.pos_of_mul_pos_right (same ▸ positive))
    have split : (c * 10 ^ power : ℚ) = d' * 10 ^ (power + k' + k) := by
      rw [same, zpow_add₀ (by norm_num), zpow_add₀ (by norm_num), zpow_natCast, zpow_natCast]
      push_cast
      ring
    have short : d' < 10 ^ 15 := by
      have := Nat.le_mul_of_pos_right d' (Nat.pow_pos (n := k') (by decide : 0 < 10))
      omega
    rw [split] at rounds ⊢
    exact FloatText.value_read_write parts holds.normal.lower ends short (by omega) rounds read

private theorem exponent_lt (low : -22 ≤ n.power) (high : n.power ≤ 22)
    (places_le : n.places ≤ Decimal.maxScale) :
    ∀ e ∈ n.exponent, Digits.value e.run.chars < exponentLimit := by
  intro e there
  have limit : (100 : Int) < exponentLimit := by decide
  have scale : (Decimal.maxScale : Int) = 28 := rfl
  have power : n.power = e.value - n.places := by
    simp [Numeral.power, Option.mem_def.mp there]
  unfold ExponentText.value at power
  split at power <;> omega

private theorem exists_integer (faithful : n.IsFaithful) (fraction : n.fraction = none)
    (exponent : n.exponent = none) :
    (∃ i, n.integer? = some i ∧ -(Word.count 63 : Int) ≤ i ∧ i < Word.count 64) ∨
      (n.negative = true ∧ Digits.value n.whole.chars = 0) := by
  cases faithful with
  | word whole low high => exact .inl ⟨_, whole, low, high⟩
  | short coefficient_eq digits exact_ low high places_le =>
    obtain ⟨coefficient, -, -⟩ := Numeral.of_whole fraction exponent
    have narrow : Word.count 53 < Word.count 63 := by decide
    have wide : Word.count 63 < Word.count 64 := by decide
    rw [coefficient] at exact_
    cases sign : n.negative with
    | false =>
      exact .inl ⟨Digits.value n.whole.chars, by simp [Numeral.integer?, fraction, exponent, sign],
        by omega, by omega⟩
    | true =>
      by_cases zero : Digits.value n.whole.chars = 0
      · exact .inr ⟨rfl, zero⟩
      · exact .inl ⟨-(Digits.value n.whole.chars : Int),
          by simp [Numeral.integer?, fraction, exponent, sign, zero], by omega, by omega⟩

private theorem value_of_part (faithful : n.IsFaithful)
    (part : n.fraction ≠ none ∨ n.exponent ≠ none)
    {j : JsonNumber} {a : Decimal} (boundary : IsBoundary rest)
    (number : signedNumber (n.chars ++ rest) = .ok (j, rest))
    (read : Decimal.read j.toChars = .ok a) : a.value = n.amount := by
  cases faithful with
  | word whole low high => exact absurd (integer?_of_part part) (by simp [whole])
  | short coefficient_eq digits exact_ low high places_le =>
    have word : Word.count 53 < wordLimit := by decide
    rw [signedNumber_of_part part (exact_.trans word) (exponent_lt low high places_le) boundary,
      floatOfParts] at number
    split at number
    next x made =>
      obtain ⟨rfl, -⟩ := Prod.mk.inj (Except.ok.inj number)
      rw [value_scaled coefficient_eq digits exact_ low high made read, Numeral.amount]
    next => cases number

private theorem value_of_zero (fraction : n.fraction = none) (exponent : n.exponent = none)
    (sign : n.negative = true) (zero : Digits.value n.whole.chars = 0) {j : JsonNumber} {a : Decimal}
    (boundary : IsBoundary rest) (number : signedNumber (n.chars ++ rest) = .ok (j, rest))
    (read : Decimal.read j.toChars = .ok a) : a.value = n.amount := by
  have parts : Binary64.parts (-(Float.ofScientific 0 false 0)) = .finite true 0 (-1074) := by
    decide +kernel
  have fits : Digits.value n.whole.chars < wordLimit := by rw [zero]; decide
  obtain ⟨coefficient, -, -⟩ := Numeral.of_whole fraction exponent
  simp only [signedNumber_of_whole fraction exponent fits boundary, sign, zero, Bool.not_true,
    decide_true, Bool.true_or, if_true] at number
  obtain ⟨rfl, -⟩ := Prod.mk.inj (Except.ok.inj number)
  rw [FloatText.value_read_write_zero parts read, Numeral.amount, coefficient, zero]
  simp

theorem value_number (faithful : n.IsFaithful) {j : JsonNumber} {a : Decimal}
    (boundary : IsBoundary rest) (number : signedNumber (n.chars ++ rest) = .ok (j, rest))
    (read : Decimal.read j.toChars = .ok a) : a.value = n.amount := by
  by_cases part : n.fraction ≠ none ∨ n.exponent ≠ none
  · exact value_of_part faithful part boundary number read
  · push Not at part
    obtain ⟨fraction, exponent⟩ := part
    rcases exists_integer faithful fraction exponent with ⟨i, whole, low, high⟩ | ⟨sign, zero⟩
    · rw [signedNumber_of_integer whole low high boundary] at number
      obtain ⟨rfl, -⟩ := Prod.mk.inj (Except.ok.inj number)
      rw [Numeral.amount_of_integer whole]
      exact value_integer low high read
    · exact value_of_zero fraction exponent sign zero boundary number read

end Numeral.IsFaithful

end Faithful

end Intake.Json
