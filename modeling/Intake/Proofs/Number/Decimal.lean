import Intake.Number.Decimal
import Intake.Proofs.Json.Number
import Mathlib.Algebra.Order.Field.Basic
import Mathlib.Algebra.Order.Field.Rat
import Mathlib.Tactic.FieldSimp
import Mathlib.Tactic.Ring

set_option autoImplicit false

/-!
What numbers denote, and reading them as amounts. An amount is read to the last digit if the digits fit
into its mantissa and no more than twenty-eight of them are behind the point; moving the point by an
exponent loses nothing either.
-/

namespace Intake.Json

open Intake.Text Intake.Number

def ExponentText.value (e : ExponentText) : Int :=
  if e.sign = ['-'] then -(Digits.value e.run.chars : Int) else Digits.value e.run.chars

namespace Numeral

def fractionDigits (n : Numeral) : List Char :=
  match n.fraction with
  | none => []
  | some run => run.chars

/-- All digits in front of the exponent, as one number. -/
def coefficient (n : Numeral) : Nat := Digits.value (n.whole.chars ++ n.fractionDigits)

def places (n : Numeral) : Nat := n.fractionDigits.length

def power (n : Numeral) : Int := (n.exponent.map ExponentText.value).getD 0 - n.places

def amount (n : Numeral) : ℚ := (if n.negative then -1 else 1) * (n.coefficient * 10 ^ n.power)

/-- All digits of a number can be kept. -/
structure Fits (n : Numeral) : Prop where
  coefficient_lt : n.coefficient < Decimal.mantissaLimit
  places_le : n.places ≤ Decimal.maxScale
  power_ge : -Decimal.maxScale ≤ n.power

end Numeral

end Intake.Json

namespace Intake.Number.Decimal

open Intake.Text Intake.Json

def value (d : Decimal) : ℚ :=
  (if d.negative then -1 else 1) * (d.mantissa * 10 ^ (-d.scale : Int))

@[simp] private theorem value_ofParts (negative : Bool) (mantissa scale : Nat) :
    (ofParts negative mantissa scale).value =
      (if negative then -1 else 1) * (mantissa * 10 ^ (-scale : Int)) := by
  unfold ofParts value
  by_cases zero : mantissa = 0
  · simp [zero]
  · simp [zero]

namespace Scan

variable {s : Scan} {c : Char} {digits rest text : List Char} {d : Decimal}

/-- The scan behind digits that all fit. -/
def taking (s : Scan) (digits : List Char) : Scan :=
  { s with
    digit := s.digit || !digits.isEmpty
    mantissa := Digits.valueFrom s.mantissa digits
    scale := if s.point then s.scale + digits.length else s.scale }

private theorem taking_cons (s : Scan) (c : Char) (digits : List Char) :
    s.taking (c :: digits) = (s.taking [c]).taking digits := by
  cases point : s.point <;> simp [taking, point, Digits.valueFrom]
  omega

private theorem run_digit (digit : Digits.isDigit c = true)
    (fits : 10 * s.mantissa + Digits.digitValue c < mantissaLimit)
    (room : s.point = true → rest = [] ∨ s.scale + 1 < maxScale) :
    run (c :: rest) s = run rest (s.taking [c]) := by
  rw [run, if_pos digit]
  simp only [if_pos fits]
  cases rest with
  | nil => simp [taking, Digits.valueFrom]
  | cons next more =>
    cases point : s.point with
    | false => simp [taking, Digits.valueFrom, point]
    | true =>
      have inside := (room point).resolve_left (by simp)
      simp [taking, Digits.valueFrom, point, Nat.not_le_of_lt inside]

private theorem run_digits (all : ∀ c ∈ digits, Digits.isDigit c = true)
    (fits : Digits.valueFrom s.mantissa digits < mantissaLimit)
    (room : s.point = true → rest = [] ∧ s.scale + digits.length ≤ maxScale) :
    run (digits ++ rest) s = run rest (s.taking digits) := by
  induction digits generalizing s with
  | nil => simp [taking, Digits.valueFrom]
  | cons c digits ih =>
    obtain ⟨here, others⟩ := List.forall_mem_cons.mp all
    have fits' : 10 * s.mantissa + Digits.digitValue c < mantissaLimit :=
      Nat.lt_of_le_of_lt (le_valueFrom _ digits) fits
    rw [List.cons_append, run_digit here fits', taking_cons s c digits]
    · have later : Digits.valueFrom (s.taking [c]).mantissa digits < mantissaLimit := fits
      refine ih others later fun point => ?_
      obtain ⟨nothing, enough⟩ := room point
      refine ⟨nothing, ?_⟩
      have point' : s.point = true := point
      simp only [taking, point', if_true, List.length_cons, List.length_nil] at enough ⊢
      omega
    · intro point
      obtain ⟨rfl, enough⟩ := room point
      rw [List.length_cons] at enough
      cases digits with
      | nil => exact .inl rfl
      | cons next more =>
        rw [List.length_cons] at enough
        exact .inr (by omega)

private theorem run_point (unseen : s.point = false) :
    run ('.' :: rest) s = run rest { s with point := true } := by
  have other : Digits.isDigit '.' = false := by decide
  rw [run, other]
  simp [unseen]

private theorem forall_of_firstMisplaced (none : firstMisplaced text = none) :
    ∀ c ∈ text, Digits.isDigit c = true ∨ c = '.' ∨ c = '_' := by
  intro c there
  have fine := List.find?_eq_none.mp none c there
  simp only [Bool.not_eq_true, Bool.not_eq_false', Bool.or_eq_true, decide_eq_true_iff] at fine
  exact fine.imp_right .inr

private theorem forall_of_roundAt (read : s.roundAt c rest = .ok d) :
    ∀ x ∈ c :: rest, Digits.isDigit x = true ∨ x = '.' ∨ x = '_' := by
  unfold roundAt at read
  split at read
  next => simp at read
  next known =>
    simp only [Bool.not_eq_true, Bool.not_eq_false', Bool.or_eq_true, decide_eq_true_iff] at known
    split at read
    next => simp at read
    next none =>
      refine List.forall_mem_cons.mpr ⟨?_, forall_of_firstMisplaced ?_⟩
      · tauto
      · cases found : firstMisplaced rest with
        | none => rfl
        | some bad => exact absurd found (none bad)

private theorem forall_of_run (read : run text s = .ok d) :
    ∀ c ∈ text, Digits.isDigit c = true ∨ c = '.' ∨ c = '_' := by
  fun_induction run text s with
  | case1 => simp
  | case2 => cases read
  | case3 c s digit grown fits taken next more full =>
    exact List.forall_mem_cons.mpr ⟨.inl digit, forall_of_roundAt read⟩
  | case4 c s digit grown fits taken next more room ih =>
    exact List.forall_mem_cons.mpr ⟨.inl digit, ih read⟩
  | case5 c s digit grown fits taken ih =>
    exact List.forall_mem_cons.mpr ⟨.inl digit, ih read⟩
  | case6 c rest s digit grown large point => exact forall_of_roundAt read
  | case7 => cases read
  | case8 c rest s other point ih =>
    rw [Bool.and_eq_true, decide_eq_true_iff] at point
    exact List.forall_mem_cons.mpr ⟨.inr (.inl point.1), ih read⟩
  | case9 c rest s other point separator ih =>
    rw [Bool.and_eq_true, decide_eq_true_iff] at separator
    exact List.forall_mem_cons.mpr ⟨.inr (.inr separator.1), ih read⟩
  | case10 => cases read

end Scan

section Numerals

variable {n : Numeral} {d : Decimal}

def significandChars (n : Numeral) : List Char := n.whole.chars ++ n.fractionChars

private theorem run_significand (n : Numeral) (fits : n.coefficient < mantissaLimit)
    (short : n.places ≤ maxScale) :
    Scan.run (significandChars n) { negative := n.negative } =
      .ok (ofParts n.negative n.coefficient n.places) := by
  obtain ⟨first, others, whole, -⟩ := n.whole.exists_cons
  have seen : n.whole.chars.isEmpty = false := by rw [whole]; rfl
  unfold Numeral.coefficient Numeral.places at *
  rw [Digits.value, Digits.valueFrom_append] at fits ⊢
  have fits' : Digits.valueFrom 0 n.whole.chars < mantissaLimit :=
    Nat.lt_of_le_of_lt (le_valueFrom _ _) fits
  unfold significandChars
  rw [Scan.run_digits n.whole.digits fits' (by simp)]
  cases fraction : n.fraction with
  | none =>
    simp [fractionChars_none fraction, Numeral.fractionDigits, fraction, Scan.taking, Scan.run, seen,
      Digits.valueFrom]
  | some run =>
    have digits : n.fractionDigits = run.chars := by simp [Numeral.fractionDigits, fraction]
    rw [digits] at fits short ⊢
    rw [fractionChars_some fraction, Scan.run_point rfl, ← List.append_nil run.chars,
      Scan.run_digits run.digits fits fun _ => ⟨rfl, by simpa [Scan.taking] using short⟩]
    simp [Scan.taking, Scan.run, seen]

private theorem readPositional_significand (n : Numeral) (rest : List Char) :
    readPositional (n.signChars ++ (significandChars n ++ rest)) =
      Scan.run (significandChars n ++ rest) { negative := n.negative } := by
  obtain ⟨first, others, whole, digit⟩ := n.whole.exists_cons
  cases sign : n.negative with
  | true =>
    have minus : n.signChars = ['-'] := by simp [Numeral.signChars, sign]
    rw [minus]
    rfl
  | false =>
    have plain : n.signChars = [] := by simp [Numeral.signChars, sign]
    rw [plain, significandChars, whole, List.nil_append, List.cons_append, List.cons_append,
      readPositional]
    · simp
    · rintro more same
      exact absurd (List.cons.inj same).1 (ne_of_isDigit digit (by decide))
    · rintro more same
      exact absurd (List.cons.inj same).1 (ne_of_isDigit digit (by decide))

private theorem chars_eq_significand (n : Numeral) :
    n.chars = n.signChars ++ (significandChars n ++ n.exponentChars) := by
  simp [Numeral.chars, significandChars]

def isMark (c : Char) : Bool := c = 'e' || c = 'E'

private theorem not_isMark (n : Numeral) :
    ∀ c ∈ n.signChars ++ significandChars n, (!isMark c) = true := by
  have digits : ∀ {c : Char}, Digits.isDigit c = true → (!isMark c) = true := by
    intro c digit
    have lower : c ≠ 'e' := ne_of_isDigit digit (by decide)
    have upper : c ≠ 'E' := ne_of_isDigit digit (by decide)
    simp [isMark, lower, upper]
  refine List.forall_mem_append.mpr ⟨?_, List.forall_mem_append.mpr ⟨?_, ?_⟩⟩
  · unfold Numeral.signChars
    split <;> simp [isMark]
  · exact fun c there => digits (n.whole.digits c there)
  · cases fraction : n.fraction with
    | none => simp [fractionChars_none fraction]
    | some run =>
      rw [fractionChars_some fraction]
      exact List.forall_mem_cons.mpr ⟨by decide, fun c there => digits (run.digits c there)⟩

private theorem readExponent_run (run : DigitRun) {k : Nat}
    (read : readExponent run.chars = .ok k) : k = Digits.value run.chars := by
  obtain ⟨first, others, whole, digit⟩ := run.exists_cons
  have all : run.chars.all Digits.isDigit = true := List.all_eq_true.mpr run.digits
  have some_ : run.chars.isEmpty = false := by rw [whole]; rfl
  have known : Digits.natural? run.chars = some (Digits.value run.chars) := by
    simp [Digits.natural?, all, some_]
  have plain : ∀ more, run.chars ≠ '+' :: more := by
    intro more same
    rw [whole] at same
    exact absurd (List.cons.inj same).1 (ne_of_isDigit digit (by decide))
  unfold readExponent at read
  simp only at read
  split at read
  next found =>
    rw [known] at found
    obtain rfl := Option.some.inj found
    split at read
    · exact (Except.ok.inj read).symm
    · cases read
  next => cases read

private theorem readExponent_plus (run : DigitRun) :
    readExponent ('+' :: run.chars) = readExponent run.chars := by
  obtain ⟨first, others, whole, digit⟩ := run.exists_cons
  have plain : first ≠ '+' := ne_of_isDigit digit (by decide)
  rw [whole]
  unfold readExponent
  simp [plain]

private theorem value_shiftDown {d' : Decimal} {places : Nat} (room : d.scale + places ≤ maxScale)
    (made : d.shiftDown places = .ok d') : d'.value = d.value * 10 ^ (-places : Int) := by
  unfold shiftDown at made
  rw [if_neg (by omega)] at made
  have kept : d.rescale (maxScale - places) = d := by
    rw [rescale, if_pos (by omega)]
  have scale : min d.scale (maxScale - places) = d.scale := by omega
  rw [kept, scale] at made
  obtain rfl := Except.ok.inj made
  unfold value
  push_cast
  rw [neg_add, zpow_add₀ (by norm_num)]
  ring

private theorem value_shiftUp {d' : Decimal} {places : Nat} (made : d.shiftUp places = .ok d') :
    d'.value = d.value * 10 ^ (places : Int) := by
  unfold shiftUp at made
  split at made
  next inside =>
    obtain rfl := Except.ok.inj made
    unfold value
    simp only
    rw [Nat.cast_sub inside, neg_sub, sub_eq_add_neg, zpow_add₀ (by norm_num)]
    ring
  next outside =>
    split at made
    next => simp at made
    next =>
      simp only at made
      split at made
      next =>
        obtain rfl := Except.ok.inj made
        rw [value_ofParts, value]
        obtain ⟨k, rfl⟩ := Nat.exists_eq_add_of_le (Nat.le_of_not_le outside)
        rw [Nat.add_sub_cancel_left]
        push_cast
        rw [zpow_add₀ (by norm_num), zpow_neg, zpow_natCast, zpow_natCast]
        show _ * ((d.mantissa : ℚ) * (10 ^ k : Nat) * _) = _
        push_cast
        field_simp
      next => simp at made

private theorem readPositional_ne_ok {e : ExponentText} (present : n.exponent = some e) :
    readPositional n.chars ≠ .ok d := by
  intro read
  rw [chars_eq_significand, readPositional_significand] at read
  have there : e.letter ∈ significandChars n ++ n.exponentChars := by
    rw [exponentChars_some present]
    exact List.mem_append_right _ List.mem_cons_self
  have fine := Scan.forall_of_run read e.letter there
  rcases e.letter_eq with letter | letter <;> rw [letter] at fine <;>
    exact absurd fine (by decide)

def moved (base : Decimal) : List Char → Except Fault Decimal
  | '-' :: digits => (readExponent digits).bind base.shiftDown
  | digits => (readExponent digits).bind base.shiftUp

private theorem exists_of_bind_eq_ok {ε α β : Type} {x : Except ε α} {f : α → Except ε β} {b : β}
    (made : x.bind f = .ok b) : ∃ a, x = .ok a ∧ f a = .ok b := by
  cases x with
  | error e => cases made
  | ok a => exact ⟨a, rfl, made⟩

private theorem readScientific_of {text exponent : List Char} {letter : Char} {base : Decimal}
    (back : text.dropWhile (!isMark ·) = letter :: exponent)
    (front : readPositional (text.takeWhile (!isMark ·)) = .ok base) :
    readScientific text = moved base exponent := by
  have behind : text.dropWhile (fun c => !(c = 'e' || c = 'E')) = letter :: exponent := back
  have before : readPositional (text.takeWhile fun c => !(c = 'e' || c = 'E')) = .ok base := front
  simp only [readScientific, behind, before]
  rfl

private theorem readScientific_numeral {e : ExponentText} (present : n.exponent = some e)
    (fits : n.coefficient < mantissaLimit) (short : n.places ≤ maxScale)
    (read : readScientific n.chars = .ok d) :
    (∃ k : Nat, e.value = -(k : Int) ∧
      (ofParts n.negative n.coefficient n.places).shiftDown k = .ok d) ∨
    ∃ k : Nat, e.value = k ∧ (ofParts n.negative n.coefficient n.places).shiftUp k = .ok d := by
  have text : n.chars =
      (n.signChars ++ significandChars n) ++ e.letter :: (e.sign ++ e.run.chars) := by
    rw [chars_eq_significand, exponentChars_some present, List.append_assoc]
  have mark : (!isMark e.letter) = false := by
    rcases e.letter_eq with letter | letter <;> rw [letter] <;> rfl
  have front : n.chars.takeWhile (!isMark ·) = n.signChars ++ significandChars n := by
    rw [text, List.takeWhile_append_of_pos (not_isMark n), List.takeWhile_cons, mark]
    simp
  have back : n.chars.dropWhile (!isMark ·) = e.letter :: (e.sign ++ e.run.chars) := by
    rw [text, List.dropWhile_append_of_pos (not_isMark n), List.dropWhile_cons, mark]
    simp
  have base : readPositional (n.chars.takeWhile (!isMark ·)) =
      .ok (ofParts n.negative n.coefficient n.places) := by
    have alone := readPositional_significand n []
    rw [List.append_nil] at alone
    rw [front, alone, run_significand n fits short]
  rw [readScientific_of back base] at read
  rcases e.sign_eq with sign | sign | sign
  · obtain ⟨first, others, whole, digit⟩ := e.run.exists_cons
    have positive : first ≠ '-' := ne_of_isDigit digit (by decide)
    rw [sign, List.nil_append, whole, moved, ← whole] at read
    · obtain ⟨k, known, made⟩ := exists_of_bind_eq_ok read
      exact .inr ⟨k, by simp [ExponentText.value, sign, readExponent_run e.run known], made⟩
    · exact fun digits same => positive (List.cons.inj same).1
  · rw [sign, List.singleton_append, moved, readExponent_plus] at read
    · obtain ⟨k, known, made⟩ := exists_of_bind_eq_ok read
      exact .inr ⟨k, by simp [ExponentText.value, sign, readExponent_run e.run known], made⟩
    · exact fun digits same => absurd (List.cons.inj same).1 (by decide)
  · rw [sign, List.singleton_append, moved] at read
    obtain ⟨k, known, made⟩ := exists_of_bind_eq_ok read
    exact .inl ⟨k, by simp [ExponentText.value, sign, readExponent_run e.run known], made⟩

theorem value_read (fits : n.Fits) (read : Decimal.read n.chars = .ok d) :
    d.value = n.amount := by
  obtain ⟨fits, short, least⟩ := fits
  unfold Decimal.read at read
  cases exponent : n.exponent with
  | none =>
    have plain : readPositional n.chars = .ok (ofParts n.negative n.coefficient n.places) := by
      rw [chars_eq_significand, exponentChars_none exponent, readPositional_significand,
        List.append_nil, run_significand n fits short]
    rw [plain] at read
    obtain rfl := Except.ok.inj read
    simp [Numeral.amount, Numeral.power, exponent]
  | some e =>
    split at read
    next other same => exact absurd same (readPositional_ne_ok exponent)
    next =>
      have power : n.power = e.value - n.places := by simp [Numeral.power, exponent]
      rw [power] at least
      rcases readScientific_numeral exponent fits short read with ⟨k, down, made⟩ | ⟨k, up, made⟩
      · have room : (ofParts n.negative n.coefficient n.places).scale + k ≤ maxScale := by
          show n.places + k ≤ maxScale
          omega
        rw [value_shiftDown room made, value_ofParts, Numeral.amount, power, down, sub_eq_add_neg,
          zpow_add₀ (by norm_num)]
        ring
      · rw [value_shiftUp made, value_ofParts, Numeral.amount, power, up, sub_eq_add_neg,
          zpow_add₀ (by norm_num)]
        ring

end Numerals

end Intake.Number.Decimal
