import Intake.Number.Word
import Intake.Text.Digits

set_option autoImplicit false

/-!
Decimal amounts: a whole number below `2 ^ 96` over a power of ten up to twenty-eight. Reading keeps
every digit that fits; the first fractional digit that does not fit rounds the amount, a half going
away from zero.
-/

namespace Intake.Number

open Intake.Text

/-- `± mantissa / 10 ^ scale`. -/
structure Decimal where
  negative : Bool
  mantissa : Nat
  scale : Nat
  deriving DecidableEq, Repr, Inhabited

namespace Decimal

/-- Mantissas stay below this. -/
def mantissaLimit : Nat := Word.count 96

def maxScale : Nat := 28

inductive Fault where
  | empty
  | noDigits
  | twoPoints
  | leadingSeparator
  | unknownCharacter
  | tooManyDigits
  | roundsTooHigh
  | scaleTooLarge (scale : Nat)
  | tooLarge
  | malformed
  deriving DecidableEq, Repr, Inhabited

def Fault.message : Fault → String
  | .empty => "Invalid decimal: empty"
  | .noDigits => "Invalid decimal: no digits found"
  | .twoPoints => "Invalid decimal: two decimal points"
  | .leadingSeparator => "Invalid decimal: must start lead with a number"
  | .unknownCharacter => "Invalid decimal: unknown character"
  | .tooManyDigits => "Invalid decimal: overflow from too many digits"
  | .roundsTooHigh => "Invalid decimal: overflow from mantissa after rounding"
  | .scaleTooLarge scale =>
    s!"Scale exceeds the maximum precision allowed: {scale} > {maxScale}"
  | .tooLarge => "Number exceeds maximum value that can be represented."
  | .malformed => "Failed to parse"

/-- An amount from its parts; zero has no sign. -/
def ofParts (negative : Bool) (mantissa scale : Nat) : Decimal :=
  ⟨negative && mantissa != 0, mantissa, scale⟩

def ofInt (n : Int) : Decimal := ofParts (n < 0) n.natAbs 0

/-- How far an amount has been read: its sign, whether a point and a digit have been seen, and the
digits so far. -/
structure Scan where
  negative : Bool
  point : Bool := false
  digit : Bool := false
  mantissa : Nat := 0
  scale : Nat := 0

def misplaced (c : Char) : Fault :=
  if c = '.' then .twoPoints else if c = '_' then .leadingSeparator else .unknownCharacter

def firstMisplaced (text : List Char) : Option Char :=
  text.find? fun c => !(Digits.isDigit c || c = '_')

/-- Ends an amount at the first character `c` that no longer fits, rounding by it; of what follows
only the kind of the characters counts. -/
def Scan.roundAt (s : Scan) (c : Char) (rest : List Char) : Except Fault Decimal :=
  if !(Digits.isDigit c || c = '_' || c = '.') then .error (misplaced c)
  else if let some bad := firstMisplaced rest then .error (misplaced bad)
  else if Digits.isDigit c && 5 ≤ Digits.digitValue c then
    if s.mantissa + 1 < mantissaLimit then .ok (ofParts s.negative (s.mantissa + 1) s.scale)
    else if s.scale = 0 then .error .roundsTooHigh
    else .ok (ofParts s.negative ((s.mantissa + 5) / 10) (s.scale - 1))
  else .ok (ofParts s.negative s.mantissa s.scale)

def Scan.run : List Char → Scan → Except Fault Decimal
  | [], s => if s.digit then .ok (ofParts s.negative s.mantissa s.scale) else .error .noDigits
  | c :: rest, s =>
    if Digits.isDigit c then
      let grown := 10 * s.mantissa + Digits.digitValue c
      if grown < mantissaLimit then
        let s := { s with digit := true, mantissa := grown,
                          scale := if s.point then s.scale + 1 else s.scale }
        match rest with
        | next :: more =>
          if s.point && maxScale ≤ s.scale then s.roundAt next more else Scan.run rest s
        | [] => Scan.run rest s
      else if s.point then s.roundAt c rest
      else .error .tooManyDigits
    else if c = '.' && !s.point then Scan.run rest { s with point := true }
    else if c = '_' && s.digit then Scan.run rest s
    else .error (misplaced c)

def readPositional : List Char → Except Fault Decimal
  | [] => .error .empty
  | '-' :: rest => Scan.run rest { negative := true }
  | '+' :: rest => Scan.run rest { negative := false }
  | text => Scan.run text { negative := false }

/-- An exponent: digits that denote a number below `2 ^ 32`, a plus sign allowed. -/
def readExponent (text : List Char) : Except Fault Nat :=
  let digits := match text with
    | '+' :: rest => rest
    | _ => text
  match Digits.natural? digits with
  | some n => if n < Word.count 32 then .ok n else .error .malformed
  | none => .error .malformed

/-- Drops fractional digits beyond `scale`, rounding by the first one dropped. -/
def rescale (d : Decimal) (scale : Nat) : Decimal :=
  if d.scale ≤ scale then d
  else
    let shift := d.scale - scale
    let kept := d.mantissa / Nat.pow 10 shift
    let first := d.mantissa / Nat.pow 10 (shift - 1) % 10
    ⟨d.negative, if 5 ≤ first then kept + 1 else kept, scale⟩

def shiftDown (d : Decimal) (places : Nat) : Except Fault Decimal :=
  if maxScale < places then .error (.scaleTooLarge places)
  else
    .ok { (d.rescale (maxScale - places)) with scale := min d.scale (maxScale - places) + places }

/-- Multiplies by a power of ten: the point moves while there are fractional digits, then the
number grows. -/
def shiftUp (d : Decimal) (places : Nat) : Except Fault Decimal :=
  if places ≤ d.scale then .ok { d with scale := d.scale - places }
  else if maxScale < places then .error (.scaleTooLarge places)
  else
    let mantissa := d.mantissa * Nat.pow 10 (places - d.scale)
    if mantissa < mantissaLimit then .ok (ofParts d.negative mantissa 0) else .error .tooLarge

def readScientific (text : List Char) : Except Fault Decimal :=
  let isMark := fun c : Char => c = 'e' || c = 'E'
  match text.dropWhile (!isMark ·) with
  | [] => .error .malformed
  | _ :: exponent => do
    let base ← readPositional (text.takeWhile (!isMark ·))
    match exponent with
    | '-' :: digits => base.shiftDown (← readExponent digits)
    | digits => base.shiftUp (← readExponent digits)

/-- Reads an amount in either notation; the fault is that of the second attempt. -/
def read (text : List Char) : Except Fault Decimal :=
  match readPositional text with
  | .ok d => .ok d
  | .error _ => readScientific text

def toChars (d : Decimal) : List Char :=
  let digits := Digits.padded (d.scale + 1) d.mantissa
  let whole := digits.length - d.scale
  let sign := if d.negative then ['-'] else []
  let fraction := if d.scale = 0 then [] else '.' :: digits.drop whole
  sign ++ digits.take whole ++ fraction

def text (d : Decimal) : String := String.ofList d.toChars

end Decimal

end Intake.Number
