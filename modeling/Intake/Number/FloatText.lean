import Intake.Number.Shortest

set_option autoImplicit false

/-!
How doubles are written. All forms show the shortest digits that read back; a form decides where
positional notation ends, how an exponent looks, and whether a whole number keeps a fraction.
-/

namespace Intake.Number.FloatText

open Intake.Text

/-- The decisions of one way to write doubles. Numbers whose leading exponent lies outside
`lowest … highest` are written with an exponent; without bounds none is. -/
structure Form where
  tie : Shortest.Tie
  bounds : Option (Int × Int)
  keepsFraction : Bool
  marksPositiveExponent : Bool

/-- Numbers in data: positional from `0.00001` up to sixteen digits, a whole number keeps `.0`, a
positive exponent its sign. -/
def Form.data : Form := ⟨.toEven, some (-5, 15), true, true⟩

/-- Numbers in diagnostics: positional from `0.0001` up to sixteen digits, a whole number keeps
`.0`. -/
def Form.diagnostic : Form := ⟨.up, some (-4, 15), true, false⟩

/-- Numbers as parameters of a statement: never an exponent, a whole number without a point. -/
def Form.positional : Form := ⟨.up, none, false, false⟩

/-- Digits with the point behind the leading `whole` of them, zeros filled in. -/
def pointed (digits : List Char) (exponent : Int) (keepsFraction : Bool) : List Char :=
  if exponent < 0 then
    ['0', '.'] ++ List.replicate (exponent.natAbs - 1) '0' ++ digits
  else
    let whole := exponent.toNat + 1
    let front := digits.take whole ++ List.replicate (whole - digits.length) '0'
    match digits.drop whole with
    | [] => front ++ (if keepsFraction then ['.', '0'] else [])
    | fraction => front ++ '.' :: fraction

def withExponent (digits : List Char) (exponent : Int) (marksPositive : Bool) : List Char :=
  let significand := match digits with
    | [] => []
    | d :: [] => [d]
    | d :: fraction => d :: '.' :: fraction
  let sign := if exponent < 0 then ['-'] else if marksPositive then ['+'] else []
  significand ++ 'e' :: (sign ++ Digits.decimal exponent.natAbs)

def Form.layout (form : Form) (s : Shortest.Scientific) : List Char :=
  match form.bounds with
  | none => pointed s.digits s.exponent form.keepsFraction
  | some (lowest, highest) =>
    if s.exponent < lowest || highest < s.exponent then
      withExponent s.digits s.exponent form.marksPositiveExponent
    else pointed s.digits s.exponent form.keepsFraction

def Form.write (form : Form) (x : Float) : List Char :=
  match Binary64.parts x with
  | .undefined => "NaN".toList
  | .infinite negative => if negative then "-inf".toList else "inf".toList
  | .finite negative significand exponent =>
    let sign := if negative then ['-'] else []
    if significand = 0 then sign ++ pointed ['0'] 0 form.keepsFraction
    else sign ++ form.layout (Shortest.ofParts form.tie significand exponent)

end Intake.Number.FloatText
