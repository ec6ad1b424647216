import Intake.Number.Word
import Intake.Text.Digits

set_option autoImplicit false

/-!
Whole numbers of sixty-four bits with a sign, read from text.
-/

namespace Intake.Number.Integer64

open Intake.Text

inductive Fault where
  | empty
  | invalidDigit
  | tooLarge
  | tooSmall
  deriving DecidableEq, Repr, Inhabited

def Fault.message : Fault → String
  | .empty => "cannot parse integer from empty string"
  | .invalidDigit => "invalid digit found in string"
  | .tooLarge => "number too large to fit in target type"
  | .tooSmall => "number too small to fit in target type"

/-- Takes in digits while the number stays within a limit; the first character that is wrong in
either way decides the fault. -/
def magnitude (limit : Nat) (overflow : Fault) : Nat → List Char → Except Fault Nat
  | n, [] => .ok n
  | n, c :: rest =>
    if !Digits.isDigit c then .error .invalidDigit
    else if limit < 10 * n + Digits.digitValue c then .error overflow
    else magnitude limit overflow (10 * n + Digits.digitValue c) rest

def read : List Char → Except Fault Int
  | [] => .error .empty
  | ['-'] | ['+'] => .error .invalidDigit
  | '-' :: digits => (magnitude (Word.count 63) .tooSmall 0 digits).map fun n => -(n : Int)
  | '+' :: digits => (magnitude (Word.count 63 - 1) .tooLarge 0 digits).map fun n => (n : Int)
  | digits => (magnitude (Word.count 63 - 1) .tooLarge 0 digits).map fun n => (n : Int)

end Intake.Number.Integer64
