import Intake.Number.Word

set_option autoImplicit false

/-!
Double-precision numbers seen from outside: sign, whole significand and power of two, the exact
quotient and product that follow from them, and the order in which a comparison with an undefined
number is settled by the other operand.
-/

namespace Intake.Number.Binary64

/-- A double taken apart. A finite one is `significand · 2 ^ exponent`. -/
inductive Parts where
  | undefined
  | infinite (negative : Bool)
  | finite (negative : Bool) (significand : Nat) (exponent : Int)
  deriving DecidableEq, Repr

def parts (x : Float) : Parts :=
  let bits := x.toBits.toNat
  let fraction := bits % Word.count 52
  let field : Nat := bits / Word.count 52 % 2048
  let negative := bits / Word.count 63 == 1
  if field = 2047 then if fraction = 0 then .infinite negative else .undefined
  else if field = 0 then .finite negative fraction (-1074)
  else .finite negative (fraction + Word.count 52) ((field : Int) - 1075)

/-- The smaller of two numbers; an undefined one gives way to the other. -/
def least (x y : Float) : Float :=
  if x.isNaN then y else if y.isNaN then x else if x ≤ y then x else y

/-- The larger of two numbers; an undefined one gives way to the other. -/
def greatest (x y : Float) : Float :=
  if x.isNaN then y else if y.isNaN then x else if y ≤ x then x else y

/-- The power of ten nearest to the exact one. -/
def powerOfTen (k : Nat) : Float := Float.ofScientific 1 false k

/-- The steps of `power`: `acc` collects the factors of the odd exponents, `x` is squared. -/
def powerFrom (acc x : Float) (n : Nat) : Float :=
  if h : n = 0 then acc
  else
    let acc := if n % 2 = 1 then acc * x else acc
    if n / 2 = 0 then acc else powerFrom acc (x * x) (n / 2)
  termination_by n
  decreasing_by omega

/-- A power by repeated squaring, each product rounded. -/
def power (x : Float) (n : Nat) : Float := powerFrom 1.0 x n

/-- A quotient rounded to the nearest whole number, a half going to the even neighbour. -/
def roundHalfEven (numerator denominator : Nat) : Nat :=
  let q := numerator / denominator
  let r := numerator % denominator
  if 2 * r < denominator then q
  else if denominator < 2 * r then q + 1
  else if q % 2 = 0 then q else q + 1

end Intake.Number.Binary64
