import Intake.Proofs.Json.Faithful

set_option autoImplicit false

/-!
Whole numbers that are printed again. A whole number has one notation, so it is printed as it was
written if it is held as a whole number. One that is held as a double is not: a double is printed with
a point, with an exponent, or in letters.
-/

namespace Intake

open Intake.Text Intake.Number

namespace Text.Digits

private theorem char_digitValue {c : Char} (digit : isDigit c = true) :
    char (digitValue c) = c := by
  simp only [isDigit, Bool.and_eq_true, decide_eq_true_iff] at digit
  obtain ⟨low, high⟩ := digit
  have lower : 48 ≤ c.toNat := low
  have upper : c.toNat ≤ 57 := high
  have same : 48 + digitValue c = c.toNat := by
    unfold digitValue
    omega
  rw [char, if_pos (by omega), same, Char.ofNat_toNat]

private theorem digitValue_lt {c : Char} (digit : isDigit c = true) : digitValue c < 10 := by
  simp only [isDigit, Bool.and_eq_true, decide_eq_true_iff] at digit
  have upper : c.toNat ≤ 57 := digit.2
  unfold digitValue
  omega

private theorem decimal_value {digits : List Char} (all : ∀ c ∈ digits, isDigit c = true)
    (some_ : digits ≠ []) (leading : digits = ['0'] ∨ digits.head? ≠ some '0') :
    decimal (value digits) = digits := by
  induction digits using List.reverseRecOn with
  | nil => exact absurd rfl some_
  | append_singleton front c ih =>
    obtain ⟨before, last⟩ := List.forall_mem_append.mp all
    have digit : isDigit c = true := last c List.mem_cons_self
    have small := digitValue_lt digit
    have denoted : value (front ++ [c]) = 10 * value front + digitValue c := valueFrom_append 0 front [c]
    by_cases single : front = []
    · subst single
      have alone : value [c] = digitValue c := Nat.zero_add _
      rw [List.nil_append, alone, decimal, if_pos small, char_digitValue digit]
    · have first : (front ++ [c]).head? = front.head? := List.head?_append_of_ne_nil front single
      have nonzero : front.head? ≠ some '0' := by
        rw [← first]
        refine leading.resolve_left ?_
        intro zero
        have length := congrArg List.length zero
        have positive := List.length_pos_of_ne_nil single
        simp only [List.length_append, List.length_singleton] at length
        omega
      have same := ih before single (.inr nonzero)
      have positive : value front ≠ 0 := by
        intro zero
        have lowest : decimal 0 = ['0'] := by
          rw [decimal, if_pos (by decide)]
          rfl
        rw [zero, lowest] at same
        rw [← same] at nonzero
        exact nonzero rfl
      have tens : (10 * value front + digitValue c) / 10 = value front := by omega
      have ones : (10 * value front + digitValue c) % 10 = digitValue c := by omega
      rw [denoted, decimal, if_neg (by omega), tens, ones, same, char_digitValue digit]

private theorem mem_integer {i : Int} {c : Char} (there : c ∈ integer i) :
    c = '-' ∨ isDigit c = true := by
  have digits := isDigit_of_mem_decimal i.natAbs c
  unfold integer at there
  split at there
  · exact (List.mem_cons.mp there).imp id digits
  · exact .inr (digits there)

end Text.Digits

namespace Number.FloatText

/-- A character that no whole number is written with. -/
def IsMark (c : Char) : Prop := c ≠ '-' ∧ Digits.isDigit c = false

private theorem point_mem_pointed (digits : List Char) (exponent : Int) :
    '.' ∈ pointed digits exponent true := by
  unfold pointed
  split
  · simp
  · dsimp only
    split
    · simp
    · simp

private theorem exists_mark_layout (s : Shortest.Scientific) :
    ∃ c ∈ Form.data.layout s, IsMark c := by
  unfold Form.layout
  simp only [Form.data]
  split
  · refine ⟨'e', ?_, by decide, by decide⟩
    simp [withExponent]
  · exact ⟨'.', point_mem_pointed _ _, by decide, by decide⟩

private theorem exists_mark_write (x : Float) : ∃ c ∈ Form.data.write x, IsMark c := by
  unfold Form.write
  split
  · exact ⟨'N', by decide, by decide, by decide⟩
  · refine ⟨'i', ?_, by decide, by decide⟩
    split <;> decide
  next negative significand exponent _ =>
    dsimp only
    split
    · exact ⟨'.', List.mem_append_right _ (point_mem_pointed _ _), by decide, by decide⟩
    · obtain ⟨c, there, mark⟩ := exists_mark_layout (Shortest.ofParts Form.data.tie significand exponent)
      exact ⟨c, List.mem_append_right _ there, mark⟩

theorem write_ne_integer (x : Float) (i : Int) : Form.data.write x ≠ Digits.integer i := by
  intro same
  obtain ⟨c, there, minus, digit⟩ := exists_mark_write x
  rw [same] at there
  rcases Digits.mem_integer there with sign | number
  · exact minus sign
  · rw [digit] at number
    cases number

end Number.FloatText

namespace Json

variable {n : Numeral} {i : Int} {rest : List Char}

/-- The whole numbers that are held as such. -/
def IsWord (i : Int) : Prop := -2 ^ 63 ≤ i ∧ i < 2 ^ 64

instance (i : Int) : Decidable (IsWord i) := inferInstanceAs (Decidable (_ ∧ _))

theorem Numeral.chars_of_integer (whole : n.integer? = some i) : n.chars = Digits.integer i := by
  obtain ⟨fraction, exponent, value, sign⟩ := Numeral.of_integer whole
  have digits : Digits.decimal i.natAbs = n.whole.chars := by
    rw [← value]
    exact Digits.decimal_value n.whole.digits n.whole.nonempty n.leading
  rw [Numeral.chars, fractionChars_none fraction, exponentChars_none exponent, List.append_nil,
    List.append_nil, Numeral.signChars, Digits.integer, digits]
  by_cases negative : n.negative = true
  · rw [if_pos negative, if_pos (sign.mp negative)]
    rfl
  · rw [if_neg negative, if_neg (mt sign.mpr negative)]
    rfl

theorem isInexact_of_integer (whole : n.integer? = some i) (outside : ¬IsWord i)
    (boundary : IsBoundary rest) : IsInexact (signedNumber (n.chars ++ rest)) := by
  obtain ⟨fraction, exponent, value, sign⟩ := Numeral.of_integer whole
  have limit : wordLimit = 2 ^ 64 := rfl
  have half : Word.count 63 = 2 ^ 63 := rfl
  unfold IsWord at outside
  by_cases large : wordLimit ≤ i.natAbs
  · rw [signedNumber_eq]
    exact isInexact_unsignedNumber n n.negative boundary (by omega)
  · have negative : n.negative = true := sign.mpr (by omega)
    have low : Word.count 63 < i.natAbs := by omega
    rw [signedNumber_of_whole fraction exponent (by omega) boundary, value, negative]
    simp only [low, Bool.not_true, Bool.false_eq_true, if_false, decide_true, Bool.or_true, if_true]
    exact isInexact_float _ _

theorem toChars_eq_iff (whole : n.integer? = some i) {j : JsonNumber}
    (read : signedNumber n.chars = .ok (j, [])) : j.toChars = n.chars ↔ IsWord i := by
  rw [Numeral.chars_of_integer whole]
  rw [← List.append_nil n.chars] at read
  constructor
  · intro printed
    by_contra outside
    cases j with
    | integer k => exact isInexact_of_integer whole outside isBoundary_nil _ _ read
    | float x => exact FloatText.write_ne_integer x i printed
  · rintro ⟨low, high⟩
    rw [signedNumber_of_integer whole low high isBoundary_nil] at read
    obtain ⟨rfl, -⟩ := Prod.mk.inj (Except.ok.inj read)
    rfl

end Json

end Intake
