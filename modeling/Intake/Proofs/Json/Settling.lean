import Intake.Proofs.Json.Number

set_option autoImplicit false

/-!
Reading numbers to the letter: what is read of a number, or the fault in it, does not depend on what
stands behind it.
-/

namespace Intake.Json

open Intake.Text Intake.Number

/-- A stop lies in a text, and concerns the next byte at most. -/
structure Stop.IsIn (stop : Stop) (text : List Char) : Prop where
  length_le : stop.rest.length ≤ text.length
  near : ∀ n ∈ stop.ahead, n ≤ 1

/-- A reader makes something of a text, or stops in it, whatever boundary stands behind it; `read` is
the reader as a function of that. -/
def Settles {α : Type} (text : List Char) (read : List Char → Except Stop (Read α)) : Prop :=
  ∃ result : Except Stop α, (∀ stop, result = .error stop → stop.IsIn text) ∧
    ∀ tail, IsBoundary tail → read tail = placed result tail

section Settling

variable {α : Type} {text : List Char} {read : List Char → Except Stop (Read α)}

private theorem Settles.of_le (settles : Settles text read) {longer : List Char}
    (le : text.length ≤ longer.length) : Settles longer read := by
  obtain ⟨result, inside, same⟩ := settles
  refine ⟨result, fun stop error => ?_, same⟩
  obtain ⟨length_le, near⟩ := inside stop error
  exact ⟨Nat.le_trans length_le le, near⟩

private theorem Settles.congr {other : List Char → Except Stop (Read α)}
    (settles : Settles text other)
    (same : ∀ tail, IsBoundary tail → read tail = other tail) : Settles text read := by
  obtain ⟨result, inside, placed⟩ := settles
  exact ⟨result, inside, fun tail boundary => (same tail boundary).trans (placed tail boundary)⟩

theorem settles_ok (text : List Char) (a : α) : Settles text fun tail => .ok (a, tail) :=
  ⟨.ok a, by simp, fun _ _ => rfl⟩

end Settling

section Digits

variable {digits rest : List Char}

private theorem absorb_append (start : Nat) (all : ∀ c ∈ digits, Digits.isDigit c = true)
    (ended : ∀ c ∈ rest.head?, Digits.isDigit c = false) :
    absorb start (digits ++ rest) =
      ((absorb start digits).1, (absorb start digits).2.1, (absorb start digits).2.2 ++ rest) := by
  induction digits generalizing start with
  | nil =>
    cases rest with
    | nil => rfl
    | cons c more => simp [absorb, ended c rfl]
  | cons c more ih =>
    obtain ⟨here, others⟩ := List.forall_mem_cons.mp all
    rw [List.cons_append, absorb, absorb]
    split
    · simp only [ih _ others]
    · rfl

private theorem absorb_suffix (start : Nat) (text : List Char) :
    (absorb start text).2.2 <:+ text := by
  induction text generalizing start with
  | nil => exact List.suffix_rfl
  | cons c more ih =>
    rw [absorb]
    split
    · exact (ih _).trans (List.suffix_cons c more)
    · exact List.suffix_rfl

private theorem absorb_length (start : Nat) (text : List Char) :
    (absorb start text).2.1 + (absorb start text).2.2.length = text.length := by
  induction text generalizing start with
  | nil => rfl
  | cons c more ih =>
    rw [absorb]
    split
    · have step := ih (10 * start + Digits.digitValue c)
      simp only [List.length_cons]
      omega
    · simp

private theorem absorbExponent_append (start : Nat) (all : ∀ c ∈ digits, Digits.isDigit c = true)
    (ended : ∀ c ∈ rest.head?, Digits.isDigit c = false) :
    absorbExponent start (digits ++ rest) =
      ((absorbExponent start digits).1, (absorbExponent start digits).2 ++ rest) := by
  induction digits generalizing start with
  | nil =>
    cases rest with
    | nil => rfl
    | cons c more => simp [absorbExponent, ended c rfl]
  | cons c more ih =>
    obtain ⟨here, others⟩ := List.forall_mem_cons.mp all
    rw [List.cons_append, absorbExponent, absorbExponent]
    split
    · exact ih _ others
    · rfl

private theorem absorbExponent_suffix (start : Nat) (text : List Char) :
    (absorbExponent start text).2 <:+ text := by
  induction text generalizing start with
  | nil => exact List.suffix_rfl
  | cons c more ih =>
    rw [absorbExponent]
    split
    · exact (ih _).trans (List.suffix_cons c more)
    · exact List.suffix_rfl

end Digits

private theorem settles_floatOfParts (text : List Char) (negative : Bool) (significand : Nat)
    (exponent : Int) : Settles text (floatOfParts negative significand exponent) := by
  cases parts : scaled significand exponent with
  | some x =>
    refine ⟨.ok (.float (signed negative x)), by simp, fun tail _ => ?_⟩
    simp only [floatOfParts, parts]
    rfl
  | none =>
    refine ⟨.error (.here .numberOutOfRange []), ?_, fun tail _ => ?_⟩
    · intro stop same
      rw [← Except.error.inj same]
      exact ⟨Nat.zero_le _, by simp [Stop.here]⟩
    · simp only [floatOfParts, parts]
      rfl

theorem exponentPart_sign (negative : Bool) (significand : Nat) (start : Int) (e : ExponentText)
    (tail : List Char) :
    exponentPart negative significand start (e.sign ++ (e.run.chars ++ tail)) =
      exponentDigits negative significand start (e.sign = ['-']) (e.run.chars ++ tail) := by
  obtain ⟨d, more, digits, digit⟩ := e.run.exists_cons
  have plus : d ≠ '+' := ne_of_isDigit digit (by decide)
  have minus : d ≠ '-' := ne_of_isDigit digit (by decide)
  rcases e.sign_eq with sign | sign | sign
  all_goals
    simp [exponentPart, sign, digits, plus, minus, digit]

private theorem settles_exponentDigits (negative : Bool) (significand : Nat) (start : Int)
    (down : Bool) (run : DigitRun) : Settles run.chars fun tail =>
      exponentDigits negative significand start down (run.chars ++ tail) := by
  have ended : ∀ {tail : List Char}, IsBoundary tail → ∀ c ∈ tail.head?, Digits.isDigit c = false :=
    fun boundary c front => (boundary.head front).1
  have suffix := absorbExponent_suffix 0 run.chars
  cases left : (absorbExponent 0 run.chars).2 with
  | nil =>
    obtain ⟨result, inside, read⟩ := settles_floatOfParts run.chars negative significand
      (if down then start - (absorbExponent 0 run.chars).1 else start + (absorbExponent 0 run.chars).1)
    refine ⟨result, inside, fun tail boundary => ?_⟩
    rw [← read tail boundary]
    simp only [exponentDigits, absorbExponent_append 0 run.digits (ended boundary), left]
    cases tail with
    | nil => rfl
    | cons c more => simp [ended boundary c rfl]
  | cons d more =>
    rw [left] at suffix
    have digit := run.digits d (suffix.mem List.mem_cons_self)
    have others : ∀ c ∈ d :: more, Digits.isDigit c = true := fun c there =>
      run.digits c (suffix.mem there)
    have shorter := suffix.length_le
    rw [List.length_cons] at shorter
    refine ⟨if significand ≠ 0 && !down then .error (.here .numberOutOfRange more)
      else .ok (.float (signed negative 0.0)), ?_, fun tail boundary => ?_⟩
    · intro stop same
      split at same
      · rw [← Except.error.inj same]
        exact ⟨Nat.le_of_succ_le shorter, by simp [Stop.here]⟩
      · simp at same
    · have after := dropWhile_run others (ended boundary)
      simp only [exponentDigits, absorbExponent_append 0 run.digits (ended boundary), left,
        List.cons_append, digit, if_true] at after ⊢
      rw [after]
      split <;> rfl

private theorem settles_exponentPart (negative : Bool) (significand : Nat) (start : Int)
    (e : ExponentText) : Settles (e.sign ++ e.run.chars) fun tail =>
      exponentPart negative significand start (e.sign ++ (e.run.chars ++ tail)) := by
  have digits := settles_exponentDigits negative significand start (e.sign = ['-']) e.run
  refine (digits.of_le ?_).congr fun tail _ => exponentPart_sign _ _ _ e tail
  rw [List.length_append]
  exact Nat.le_add_left _ _

private theorem settles_afterFraction (negative : Bool) (significand : Nat) (start : Int)
    (n : Numeral) : Settles n.exponentChars fun tail =>
      match n.exponentChars ++ tail with
      | c :: more =>
        if c = 'e' || c = 'E' then exponentPart negative significand start more
        else floatOfParts negative significand start (n.exponentChars ++ tail)
      | [] => floatOfParts negative significand start [] := by
  cases exponent : n.exponent with
  | none =>
    rw [exponentChars_none exponent]
    refine (settles_floatOfParts [] negative significand start).congr fun tail boundary => ?_
    cases tail with
    | nil => rfl
    | cons c more =>
      obtain ⟨-, -, lower, upper⟩ := boundary.head (c := c) rfl
      simp [lower, upper]
  | some e =>
    rw [exponentChars_some exponent]
    have letter : (e.letter = 'e' || e.letter = 'E') = true := by simpa using e.letter_eq
    have part := settles_exponentPart negative significand start e
    refine (part.of_le (Nat.le_succ _)).congr fun tail _ => ?_
    simp only [List.cons_append, List.append_assoc, letter, if_true]

private theorem settles_fractionPart (negative : Bool) (significand : Nat) (start : Int)
    (n : Numeral) (run : DigitRun) : Settles (run.chars ++ n.exponentChars) fun tail =>
      fractionPart negative significand start (run.chars ++ (n.exponentChars ++ tail)) := by
  have suffix := absorb_suffix significand run.chars
  have part := settles_afterFraction negative (absorb significand run.chars).1
    (start - (absorb significand run.chars).2.1) n
  refine (part.of_le (by rw [List.length_append]; exact Nat.le_add_left _ _)).congr ?_
  intro tail boundary
  have ended : ∀ c ∈ (n.exponentChars ++ tail).head?, Digits.isDigit c = false :=
    fun c front => (head_exponentChars n boundary front).1
  have left : ∀ c ∈ (absorb significand run.chars).2.2, Digits.isDigit c = true := fun c there =>
    run.digits c (suffix.mem there)
  have count := absorb_length significand run.chars
  have positive := List.length_pos_of_ne_nil run.nonempty
  have some_ : ((absorb significand run.chars).2.1 = 0 &&
      (n.exponentChars ++ tail).length =
        ((absorb significand run.chars).2.2 ++ (n.exponentChars ++ tail)).length) = false := by
    simp only [Bool.and_eq_false_iff, decide_eq_false_iff_not, List.length_append]
    omega
  simp only [fractionPart, absorb_append significand run.digits ended, dropWhile_run left ended,
    some_]
  cases n.exponentChars ++ tail <;> rfl

private theorem settles_numberTail (negative : Bool) (significand dropped : Nat) (n : Numeral) :
    Settles (n.fractionChars ++ n.exponentChars) fun tail =>
      numberTail negative significand dropped (n.fractionChars ++ (n.exponentChars ++ tail)) := by
  cases fraction : n.fraction with
  | some run =>
    rw [fractionChars_some fraction]
    have part := settles_fractionPart negative significand dropped n run
    exact (part.of_le (Nat.le_succ _)).congr fun tail _ => rfl
  | none =>
    rw [fractionChars_none fraction]
    cases exponent : n.exponent with
    | some e =>
      rw [exponentChars_some exponent]
      have point : e.letter ≠ '.' := by
        rcases e.letter_eq with h | h <;> rw [h] <;> decide
      have letter : (e.letter = 'e' || e.letter = 'E') = true := by simpa using e.letter_eq
      have part := settles_exponentPart negative significand dropped e
      refine (part.of_le (Nat.le_succ _)).congr fun tail _ => ?_
      simp only [numberTail, List.nil_append, List.cons_append, List.append_assoc, if_neg point,
        letter, if_true]
    | none =>
      rw [exponentChars_none exponent]
      have part : Settles [] fun tail =>
          if dropped ≠ 0 then floatOfParts negative significand dropped tail
          else if !negative then .ok (.integer significand, tail)
          else if significand = 0 || Word.count 63 < significand then
            .ok (.float (-(Float.ofScientific significand false 0)), tail)
          else .ok (.integer (-(significand : Int)), tail) := by
        by_cases some_ : dropped ≠ 0
        · simp only [if_pos some_]
          exact settles_floatOfParts [] negative significand dropped
        · simp only [if_neg some_]
          split
          · exact settles_ok [] _
          · split
            · exact settles_ok [] _
            · exact settles_ok [] _
      exact part.congr fun tail boundary => numberTail_boundary negative significand dropped boundary

private theorem settles_unsignedNumber (negative : Bool) (n : Numeral) :
    Settles n.chars fun tail => unsignedNumber negative
      (n.whole.chars ++ (n.fractionChars ++ (n.exponentChars ++ tail))) := by
  have shorter : (n.fractionChars ++ n.exponentChars).length ≤ n.chars.length := by
    simp only [Numeral.chars, List.length_append]
    omega
  have ended : ∀ {tail : List Char}, IsBoundary tail →
      ∀ c ∈ (n.fractionChars ++ (n.exponentChars ++ tail)).head?, Digits.isDigit c = false :=
    fun boundary c => head_fractionChars n boundary
  obtain ⟨d, digits, whole, digit⟩ := n.whole.exists_cons
  by_cases zero : d = '0'
  · have part := settles_numberTail negative 0 0 n
    refine (part.of_le shorter).congr fun tail boundary => ?_
    rw [whole_of_zero n (zero ▸ whole), List.singleton_append]
    exact unsignedNumber_zero negative (ended boundary)
  · have suffix := absorb_suffix 0 n.whole.chars
    have left : ∀ c ∈ (absorb 0 n.whole.chars).2.2, Digits.isDigit c = true := fun c there =>
      n.whole.digits c (suffix.mem there)
    have part := settles_numberTail negative (absorb 0 n.whole.chars).1
      (absorb 0 n.whole.chars).2.2.length n
    refine (part.of_le shorter).congr fun tail boundary => ?_
    have taken := absorb_append 0 n.whole.digits (ended boundary)
    have after := dropWhile_run left (ended boundary)
    generalize n.fractionChars ++ (n.exponentChars ++ tail) = more at taken after ⊢
    have dropped : ((absorb 0 n.whole.chars).2.2 ++ more).length - more.length =
        (absorb 0 n.whole.chars).2.2.length := by
      rw [List.length_append, Nat.add_sub_cancel]
    rw [whole, List.cons_append] at taken ⊢
    simp only [unsignedNumber, digit, zero, taken]
    rw [← whole, after, dropped]
    rfl

theorem settles_signedNumber (n : Numeral) :
    Settles n.chars fun tail => signedNumber (n.chars ++ tail) :=
  (settles_unsignedNumber n.negative n).congr fun tail _ => signedNumber_eq n tail

end Intake.Json
