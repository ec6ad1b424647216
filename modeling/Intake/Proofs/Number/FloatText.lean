import Intake.Number.FloatText
import Intake.Proofs.Json.Printing
import Intake.Proofs.Number.Decimal
import Intake.Proofs.Number.Shortest

set_option autoImplicit false

/-!
Doubles as they are written, read as amounts. Wherever the point is put, and with an exponent too, the
digits of a short decimal denote that decimal; so a double near one is read as it.
-/

namespace Intake.Number.FloatText

open Intake.Text Intake.Json

theorem value_zeros_append (k : Nat) (digits : List Char) :
    Digits.value (List.replicate k '0' ++ digits) = Digits.value digits := by
  induction k with
  | zero => rfl
  | succ k ih => exact ih

/-- A text is a number that denotes `± d · 10 ^ q`, none of whose digits is lost. -/
def Denotes (text : List Char) (negative : Bool) (d : Nat) (q : Int) : Prop :=
  ∃ p : Numeral, p.chars = (if negative then ['-'] else []) ++ text ∧
    p.amount = (if negative then -1 else 1) * (d * 10 ^ q) ∧ p.Fits

variable {negative : Bool} {d : Nat} {q : Int}

private theorem denotes_of {text : List Char} (p : Numeral) (sign : p.negative = negative)
    (chars : p.chars = (if negative then ['-'] else []) ++ text) (coefficient : p.coefficient = d)
    (power : p.power = q) (fits : d < Decimal.mantissaLimit) (short : p.places ≤ Decimal.maxScale)
    (least : -28 ≤ q) : Denotes text negative d q := by
  refine ⟨p, chars, ?_, ?_⟩
  · rw [Numeral.amount, sign, coefficient, power]
  · refine ⟨?_, short, ?_⟩
    · rwa [coefficient]
    · rwa [power]

private theorem Denotes.congr {text : List Char} {c : Nat} {r : Int}
    (denotes : Denotes text negative c r)
    (same : (c * 10 ^ r : ℚ) = d * 10 ^ q) : Denotes text negative d q := by
  obtain ⟨p, chars, amount, fits⟩ := denotes
  exact ⟨p, chars, by rw [amount, same], fits⟩

private theorem denotes_positional {whole fraction : List Char}
    (digits : ∀ c ∈ whole ++ fraction, Digits.isDigit c = true) (some_ : whole ≠ [])
    (behind : fraction ≠ []) (leading : whole = ['0'] ∨ whole.head? ≠ some '0')
    (same : (Digits.value (whole ++ fraction) * 10 ^ (-fraction.length : Int) : ℚ) = d * 10 ^ q)
    (fits : Digits.value (whole ++ fraction) < Decimal.mantissaLimit)
    (short : fraction.length ≤ Decimal.maxScale) :
    Denotes (whole ++ '.' :: fraction) negative d q := by
  obtain ⟨first, second⟩ := List.forall_mem_append.mp digits
  have least : (-28 : Int) ≤ -fraction.length := by
    rw [Decimal.maxScale] at short
    omega
  refine (denotes_of ⟨negative, ⟨whole, first, some_⟩, some ⟨fraction, second, behind⟩, none,
    leading⟩ rfl ?_ rfl (Int.zero_sub _) fits short least).congr same
  simp [Numeral.chars, Numeral.signChars, Numeral.fractionChars, Numeral.exponentChars]

private theorem valueFrom_zeros (start k : Nat) :
    Digits.valueFrom start (List.replicate k '0') = start * 10 ^ k := by
  induction k generalizing start with
  | zero => simp [Digits.valueFrom]
  | succ k ih =>
    show Digits.valueFrom (10 * start + Digits.digitValue '0') (List.replicate k '0') = _
    have none : Digits.digitValue '0' = 0 := rfl
    rw [ih, none, Nat.pow_succ]
    ring

private theorem head?_decimal (positive : 0 < d) : (Digits.decimal d).head? ≠ some '0' := by
  refine (Digits.decimal_leading d).resolve_left fun zero => ?_
  have value := Digits.value_decimal d
  rw [zero] at value
  have none : Digits.value ['0'] = 0 := rfl
  omega

theorem isDigit_zeros (k : Nat) : ∀ c ∈ List.replicate k '0', Digits.isDigit c = true := by
  intro c there
  rw [List.eq_of_mem_replicate there]
  decide

theorem length_decimal_le {k : Nat} (positive : 0 < d) (short : d < 10 ^ k) :
    (Digits.decimal d).length ≤ k := by
  have lower := (Digits.length_decimal positive).1
  by_contra long
  have far : 10 ^ k ≤ 10 ^ ((Digits.decimal d).length - 1) :=
    Nat.pow_le_pow_right (by decide) (by omega)
  omega

private theorem lt_mantissaLimit {k : Nat} (small : d < 10 ^ k) (short : k ≤ 28) :
    d < Decimal.mantissaLimit := by
  have far : 10 ^ k ≤ 10 ^ 28 := Nat.pow_le_pow_right (by decide) short
  have limit : 10 ^ 28 < Decimal.mantissaLimit := by decide
  omega

section Pointed

variable {k : Nat}

private theorem denotes_zeros_in_front (positive : 0 < d) (short : d < 10 ^ 15)
    (place : q + ((Digits.decimal d).length - 1 : Nat) = -k) (some_ : 0 < k) (near : k ≤ 5) :
    Denotes (['0'] ++ '.' :: (List.replicate (k - 1) '0' ++ Digits.decimal d)) negative d q := by
  have length := length_decimal_le positive short
  have count := Digits.length_decimal_pos d
  have whole : Digits.value (['0'] ++ (List.replicate (k - 1) '0' ++ Digits.decimal d)) = d := by
    rw [← List.append_assoc, ← List.replicate_one, List.replicate_append_replicate,
      value_zeros_append, Digits.value_decimal]
  refine denotes_positional ?_ (by simp) (by simp [Digits.decimal_ne_nil]) (.inl rfl) ?_ ?_ ?_
  · exact List.forall_mem_append.mpr ⟨isDigit_zeros 1, List.forall_mem_append.mpr
      ⟨isDigit_zeros (k - 1), Digits.isDigit_of_mem_decimal d⟩⟩
  · rw [whole]
    congr 2
    simp only [List.length_append, List.length_replicate]
    omega
  · rw [whole]
    exact lt_mantissaLimit short (by decide)
  · simp only [List.length_append, List.length_replicate, Decimal.maxScale]
    omega

private theorem denotes_zeros_behind (positive : 0 < d)
    (place : q + ((Digits.decimal d).length - 1 : Nat) = k)
    (within : (Digits.decimal d).length ≤ k + 1) (near : k ≤ 15) :
    Denotes (Digits.decimal d ++ List.replicate (k + 1 - (Digits.decimal d).length) '0' ++
      '.' :: ['0']) negative d q := by
  have count := Digits.length_decimal_pos d
  have upper := (Digits.length_decimal positive).2
  have whole : Digits.value (Digits.decimal d ++
      List.replicate (k + 1 - (Digits.decimal d).length) '0' ++ ['0']) =
        d * 10 ^ (k + 1 - (Digits.decimal d).length) * 10 := by
    rw [Digits.value, Digits.valueFrom_append, Digits.valueFrom_append, valueFrom_zeros]
    show Digits.valueFrom (Digits.value _ * _) (List.replicate 1 '0') = _
    rw [valueFrom_zeros, Digits.value_decimal, pow_one]
  refine denotes_positional ?_ (by simp [Digits.decimal_ne_nil]) (by simp) ?_ ?_ ?_ (by decide)
  · exact List.forall_mem_append.mpr ⟨List.forall_mem_append.mpr
      ⟨Digits.isDigit_of_mem_decimal d, isDigit_zeros _⟩, isDigit_zeros 1⟩
  · right
    rw [List.head?_append_of_ne_nil _ (Digits.decimal_ne_nil d)]
    exact head?_decimal positive
  · have power : q = (k + 1 - (Digits.decimal d).length : Nat) := by omega
    rw [whole, power]
    push_cast
    simp
  · have split : 10 ^ (k + 2) = 10 ^ (Digits.decimal d).length *
        10 ^ (k + 1 - (Digits.decimal d).length) * 10 := by
      rw [← Nat.pow_add, ← Nat.pow_succ]
      congr 1
      omega
    have small : d * 10 ^ (k + 1 - (Digits.decimal d).length) * 10 < 10 ^ (k + 2) := by
      rw [split]
      gcongr
    rw [whole]
    exact lt_mantissaLimit small (by omega)

private theorem denotes_point_inside (positive : 0 < d) (short : d < 10 ^ 15)
    (place : q + ((Digits.decimal d).length - 1 : Nat) = k)
    (beyond : k + 1 < (Digits.decimal d).length) :
    Denotes ((Digits.decimal d).take (k + 1) ++ '.' :: (Digits.decimal d).drop (k + 1))
      negative d q := by
  have length := length_decimal_le positive short
  have all : (Digits.decimal d).take (k + 1) ++ (Digits.decimal d).drop (k + 1) =
      Digits.decimal d := List.take_append_drop _ _
  have behind : (Digits.decimal d).drop (k + 1) ≠ [] := by simpa using beyond
  refine denotes_positional ?_ ?_ behind ?_ ?_ ?_ ?_
  · rw [all]
    exact Digits.isDigit_of_mem_decimal d
  · simp [Digits.decimal_ne_nil]
  · right
    rw [List.head?_take, if_neg (by omega)]
    exact head?_decimal positive
  · rw [all, Digits.value_decimal]
    congr 2
    rw [List.length_drop]
    omega
  · rw [all, Digits.value_decimal]
    exact lt_mantissaLimit short (by decide)
  · rw [List.length_drop, Decimal.maxScale]
    omega

private theorem denotes_pointed (positive : 0 < d) (short : d < 10 ^ 15)
    (low : -5 ≤ q + ((Digits.decimal d).length - 1 : Nat))
    (high : q + ((Digits.decimal d).length - 1 : Nat) ≤ 15) :
    Denotes (pointed (Digits.decimal d) (q + ((Digits.decimal d).length - 1 : Nat)) true)
      negative d q := by
  unfold pointed
  split
  next small =>
    obtain ⟨k, place⟩ := Int.exists_eq_neg_ofNat (Int.le_of_lt small)
    have denotes : Denotes (['0'] ++ '.' :: (List.replicate (k - 1) '0' ++ Digits.decimal d))
        negative d q := denotes_zeros_in_front positive short place (by omega) (by omega)
    rwa [place, Int.natAbs_neg, Int.natAbs_natCast, List.append_assoc]
  next large =>
    obtain ⟨k, place⟩ := Int.eq_ofNat_of_zero_le (Int.not_lt.mp large)
    rw [place, Int.toNat_natCast]
    simp only
    split
    next nothing =>
      have within : (Digits.decimal d).length ≤ k + 1 := List.drop_eq_nil_iff.mp nothing
      rw [List.take_of_length_le within, if_pos trivial]
      exact denotes_zeros_behind positive place within (by omega)
    next fraction other =>
      have beyond : k + 1 < (Digits.decimal d).length := by
        by_contra within
        exact other (List.drop_eq_nil_iff.mpr (by omega))
      have none : k + 1 - (Digits.decimal d).length = 0 := by omega
      rw [none, List.replicate_zero, List.append_nil]
      exact denotes_point_inside positive short place beyond

end Pointed

def runOf (n : Nat) : DigitRun :=
  ⟨Digits.decimal n, Digits.isDigit_of_mem_decimal n, Digits.decimal_ne_nil n⟩

def exponentOf (exponent : Int) : ExponentText where
  letter := 'e'
  sign := if exponent < 0 then ['-'] else ['+']
  run := runOf exponent.natAbs
  letter_eq := .inl rfl
  sign_eq := by split <;> simp

private theorem value_exponentOf (exponent : Int) : (exponentOf exponent).value = exponent := by
  have digits : Digits.value (exponentOf exponent).run.chars = exponent.natAbs :=
    Digits.value_decimal _
  have sign : (exponentOf exponent).sign = if exponent < 0 then ['-'] else ['+'] := rfl
  rw [ExponentText.value, digits, sign]
  by_cases down : exponent < 0
  · rw [if_pos down, if_pos rfl]
    omega
  · rw [if_neg down, if_neg (by decide)]
    omega

private theorem denotes_withExponent (positive : 0 < d) (short : d < 10 ^ 15) (least : -28 ≤ q) :
    Denotes (withExponent (Digits.decimal d) (q + ((Digits.decimal d).length - 1 : Nat)) true)
      negative d q := by
  have length := length_decimal_le positive short
  have digits := Digits.isDigit_of_mem_decimal d
  have head := head?_decimal positive
  have value := Digits.value_decimal d
  obtain ⟨c, fraction, all⟩ := List.exists_cons_of_ne_nil (Digits.decimal_ne_nil d)
  rw [all] at length digits head value ⊢
  rw [List.length_cons] at length ⊢
  rw [Nat.add_sub_cancel]
  obtain ⟨first, others⟩ := List.forall_mem_cons.mp digits
  have leading : [c] = ['0'] ∨ [c].head? ≠ some '0' := .inr head
  have coefficient : Digits.value ([c] ++ fraction) = d := value
  have power : ((exponentOf (q + fraction.length)).value - fraction.length : Int) = q := by
    rw [value_exponentOf, add_sub_cancel_right]
  cases fraction with
  | nil =>
    refine denotes_of ⟨negative, ⟨[c], by simpa using first, by simp⟩, none,
      some (exponentOf (q + [].length)), leading⟩ rfl ?_ coefficient power
      (lt_mantissaLimit short (by decide)) (Nat.zero_le _) least
    simp [Numeral.chars, Numeral.signChars, Numeral.fractionChars, Numeral.exponentChars,
      withExponent, exponentOf, runOf]
  | cons next more =>
    refine denotes_of ⟨negative, ⟨[c], by simpa using first, by simp⟩,
      some ⟨next :: more, others, by simp⟩, some (exponentOf (q + (next :: more).length)), leading⟩
      rfl ?_ coefficient power (lt_mantissaLimit short (by decide)) ?_ least
    · simp [Numeral.chars, Numeral.signChars, Numeral.fractionChars, Numeral.exponentChars,
        withExponent, exponentOf, runOf]
    · show (next :: more).length ≤ 28
      omega

private theorem denotes_layout (positive : 0 < d) (short : d < 10 ^ 15) (least : -28 ≤ q) :
    Denotes (Form.data.layout ⟨Digits.decimal d, q + ((Digits.decimal d).length - 1 : Nat)⟩)
      negative d q := by
  unfold Form.layout Form.data
  simp only
  split
  next => exact denotes_withExponent positive short least
  next inside =>
    rw [Bool.or_eq_true, decide_eq_true_iff, decide_eq_true_iff, not_or, not_lt, not_lt] at inside
    exact denotes_pointed positive short inside.1 inside.2

private theorem Denotes.value_read {text : List Char} {a : Decimal}
    (denotes : Denotes text negative d q)
    (read : Decimal.read ((if negative then ['-'] else []) ++ text) = .ok a) :
    a.value = (if negative then -1 else 1) * (d * 10 ^ q) := by
  obtain ⟨p, chars, amount, fits⟩ := denotes
  rw [← chars] at read
  rw [Decimal.value_read fits read, amount]

section Doubles

variable {x : Float} {a : Decimal} {m : Nat} {e : Int}

theorem value_read_write (parts : Binary64.parts x = .finite negative m e) (lower : 2 ^ 52 ≤ m)
    (ends : d % 10 ≠ 0) (short : d < 10 ^ 15) (least : -28 ≤ q)
    (rounds : Binary64.RoundsTo (d * 10 ^ q) m e)
    (read : Decimal.read (Form.data.write x) = .ok a) :
    a.value = (if negative then -1 else 1) * (d * 10 ^ q) := by
  have some_ : m ≠ 0 := by omega
  simp only [Form.write, parts, if_neg some_,
    Shortest.ofParts_of_roundsTo _ lower ends short rounds] at read
  exact (denotes_layout (by omega) short least).value_read read

theorem value_read_write_zero (parts : Binary64.parts x = .finite negative 0 e)
    (read : Decimal.read (Form.data.write x) = .ok a) : a.value = 0 := by
  have digits : ∀ c ∈ ['0'] ++ ['0'], Digits.isDigit c = true := isDigit_zeros 2
  have nothing : Digits.value (['0'] ++ ['0']) = 0 := rfl
  have denotes : Denotes (['0'] ++ '.' :: ['0']) negative 0 0 := by
    refine denotes_positional digits (by simp) (by simp) (.inl rfl) ?_ (by decide) (by decide)
    rw [nothing]
    simp
  simp only [Form.write, parts, if_pos] at read
  rw [denotes.value_read read]
  simp

end Doubles

end Intake.Number.FloatText
