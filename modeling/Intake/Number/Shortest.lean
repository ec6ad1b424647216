import Intake.Number.Binary64
import Intake.Number.Word
import Intake.Text.Digits

set_option autoImplicit false

/-!
The fewest decimal digits that read back as a given double, and of those the nearest to it.
-/

namespace Intake.Number.Shortest

open Intake.Text

inductive Tie where
  | toEven
  | up
  deriving DecidableEq, Repr

/-- Digits `d₁ d₂ …` and an exponent for `d₁.d₂… · 10 ^ exponent`. -/
structure Scientific where
  digits : List Char
  exponent : Int
  deriving DecidableEq, Repr

/-- The interval of numbers that round to one double, over a common unit: the double, its lower and
upper end, and whether the ends belong to it. -/
structure Interval where
  value : Nat
  low : Nat
  high : Nat
  closed : Bool

/-- The interval around `significand · 2 ^ exponent`, in quarters of the last place. Below a power
of two the neighbours are half as far apart. -/
def Interval.around (significand : Nat) (exponent : Int) : Interval where
  value := 4 * significand
  low := if significand = Word.count 52 ∧ exponent ≠ -1074 then 4 * significand - 1
    else 4 * significand - 2
  high := 4 * significand + 2
  closed := significand % 2 = 0

def Interval.contains (i : Interval) (scale x : Nat) : Bool :=
  if i.closed then i.low * scale ≤ x && x ≤ i.high * scale
  else i.low * scale < x && x < i.high * scale

/-- The multiples of `10 ^ place` that lie in the interval next to its value, as the number of
units and the unit's weight; the nearer of two. `unit` is the exponent of two of the interval. -/
def onGrid (tie : Tie) (i : Interval) (unit place : Int) : Option Nat :=
  let scale := Nat.pow 2 unit.toNat * Nat.pow 10 (-place).toNat
  let weight := Nat.pow 10 place.toNat * Nat.pow 2 (-unit).toNat
  let below := i.value * scale / weight
  let rest := i.value * scale % weight
  let lower := i.contains scale (below * weight)
  let upper := i.contains scale ((below + 1) * weight)
  if lower && upper then
    if 2 * rest < weight then some below
    else if weight < 2 * rest then some (below + 1)
    else match tie with
      | .toEven => if below % 2 = 0 then some below else some (below + 1)
      | .up => some (below + 1)
  else if lower then some below
  else if upper then some (below + 1)
  else none

/-- The exponent of the leading decimal digit of `numerator / denominator`. -/
def leadingExponent (numerator denominator : Nat) : Int :=
  let n := (Digits.decimal numerator).length
  let d := (Digits.decimal denominator).length
  let guess : Int := n - d
  let fits := denominator * Nat.pow 10 guess.toNat ≤ numerator * Nat.pow 10 (-guess).toNat
  if fits then guess else guess - 1

/-- Digits without the zeros at their end; the first digit stays. -/
def trim (digits : List Char) : List Char :=
  match (digits.reverse.dropWhile (· = '0')).reverse with
  | [] => ['0']
  | kept => kept

/-- Tries grids of `count`, `count + 1`, … digits, at most `fuel` of them. -/
def search (tie : Tie) (i : Interval) (unit leading : Int) : (fuel count : Nat) → Scientific
  | 0, _ => ⟨['0'], 0⟩
  | fuel + 1, count =>
    let place := leading - (count - 1 : Nat)
    match onGrid tie i unit place with
    | some n =>
      let digits := Digits.decimal n
      ⟨trim digits, place + (digits.length - 1 : Nat)⟩
    | none => search tie i unit leading fuel (count + 1)

/-- The shortest digits of a positive number `significand · 2 ^ exponent`. Seventeen digits always
suffice. -/
def ofParts (tie : Tie) (significand : Nat) (exponent : Int) : Scientific :=
  let i := Interval.around significand exponent
  let unit := exponent - 2
  let leading := leadingExponent (i.value * Nat.pow 2 unit.toNat) (Nat.pow 2 (-unit).toNat)
  search tie i unit leading 17 1

end Intake.Number.Shortest
