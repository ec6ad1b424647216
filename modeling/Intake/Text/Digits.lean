set_option autoImplicit false

/-!
Positional notation: the digits of a number, fixed-width digits, and the number that digits denote.
Reading the digits of a number gives the number back (`value_decimal`); as text a number is written
as usual (`text_eq_toString`, `integerText_eq_toString`).
-/

namespace Intake.Text.Digits

/-- The character of a digit below sixteen; letters are lower case. -/
def char (d : Nat) : Char := if d < 10 then Char.ofNat (48 + d) else Char.ofNat (87 + d)

/-- The digits of a number, most significant first; zero has one digit. -/
def decimal (n : Nat) : List Char :=
  if n < 10 then [char n] else decimal (n / 10) ++ [char (n % 10)]

/-- Hexadecimal digits in lower case, without leading zeros. -/
def hexadecimal (n : Nat) : List Char :=
  if n < 16 then [char n] else hexadecimal (n / 16) ++ [char (n % 16)]

/-- The digits of an integer behind its sign; a number that is not negative has no sign. -/
def integer (n : Int) : List Char :=
  if n < 0 then '-' :: decimal n.natAbs else decimal n.natAbs

def padLeft (width : Nat) (digits : List Char) : List Char :=
  List.replicate (width - digits.length) '0' ++ digits

def padded (width n : Nat) : List Char := padLeft width (decimal n)

def isDigit (c : Char) : Bool := '0' ≤ c && c ≤ '9'

def digitValue (c : Char) : Nat := c.toNat - 48

def valueFrom (start : Nat) (digits : List Char) : Nat :=
  digits.foldl (fun n c => 10 * n + digitValue c) start

def value (digits : List Char) : Nat := valueFrom 0 digits

def hexValue? (c : Char) : Option Nat :=
  if '0' ≤ c && c ≤ '9' then some (c.toNat - 48)
  else if 'a' ≤ c && c ≤ 'f' then some (c.toNat - 87)
  else if 'A' ≤ c && c ≤ 'F' then some (c.toNat - 55)
  else none

def natural? (text : List Char) : Option Nat :=
  if text.isEmpty || !text.all isDigit then none else some (value text)

def text (n : Nat) : String := String.ofList (decimal n)

def integerText (n : Int) : String := String.ofList (integer n)

private theorem char_toNat {d : Nat} (h : d < 10) : (char d).toNat = 48 + d := by
  have all : ∀ k : Fin 10, (char k.val).toNat = 48 + k.val := by decide
  exact all ⟨d, h⟩

private theorem digitValue_char {d : Nat} (h : d < 10) : digitValue (char d) = d := by
  simp [digitValue, char_toNat h]

theorem valueFrom_append (start : Nat) (a b : List Char) :
    valueFrom start (a ++ b) = valueFrom (valueFrom start a) b := by
  simp [valueFrom]

theorem value_decimal (n : Nat) : value (decimal n) = n := by
  induction n using decimal.induct with
  | case1 n h => rw [decimal, if_pos h]; simp [value, valueFrom, digitValue_char h]
  | case2 n h ih =>
    rw [decimal, if_neg h, value, valueFrom_append]
    rw [value] at ih
    rw [ih]
    simp [valueFrom, digitValue_char (Nat.mod_lt n (by decide : 0 < 10))]
    omega

private theorem char_eq_digitChar {d : Nat} (h : d < 10) : char d = Nat.digitChar d := by
  have all : ∀ k : Fin 10, char k.val = Nat.digitChar k.val := by decide
  exact all ⟨d, h⟩

theorem decimal_eq_toDigits (n : Nat) : decimal n = Nat.toDigits 10 n := by
  induction n using decimal.induct with
  | case1 n h => rw [decimal, if_pos h, Nat.toDigits_of_lt_base h, char_eq_digitChar h]
  | case2 n h ih =>
    have last := char_eq_digitChar (Nat.mod_lt n (by decide : 0 < 10))
    have unfolded : Nat.toDigits 10 n = Nat.toDigits 10 (n / 10) ++ [(n % 10).digitChar] := by
      rw [Nat.toDigits_eq_if (by decide), if_neg h]
    rw [decimal, if_neg h, ih, last, unfolded]

theorem text_eq_toString (n : Nat) : text n = toString n := by
  rw [text, decimal_eq_toDigits]
  rfl

theorem integerText_eq_toString (n : Int) : integerText n = toString n := by
  cases n with
  | ofNat n => exact text_eq_toString n
  | negSucc n =>
    rw [integerText, integer, if_pos (Int.negSucc_lt_zero n), Int.natAbs_negSucc]
    calc String.ofList ('-' :: decimal (n + 1))
        = "-" ++ text (n + 1) := by rw [← String.toList_inj, text, String.toList_append]; simp
      _ = "-" ++ toString (n + 1) := by rw [text_eq_toString]
      _ = toString (Int.negSucc n) := rfl

end Intake.Text.Digits
