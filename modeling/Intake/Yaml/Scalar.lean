import Intake.Json.Basic
import Intake.Number.Word
import Intake.Yaml.Node

set_option autoImplicit false

/-!
What the text of a scalar stands for when a value of a certain kind is asked for, and when none is.
-/

namespace Intake.Yaml

open Intake.Text Intake.Number

def isNull (text : List Char) : Bool :=
  ["null", "Null", "NULL", "~"].any (·.toList = text)

def bool? (text : List Char) : Option Bool :=
  if ["true", "True", "TRUE"].any (·.toList = text) then some true
  else if ["false", "False", "FALSE"].any (·.toList = text) then some false
  else none

def withoutPlus : List Char → List Char
  | '+' :: rest => rest
  | text => text

def withoutSign : List Char → List Char
  | '+' :: rest => rest
  | '-' :: rest => rest
  | text => text

def isPaddedDigits (text : List Char) : Bool :=
  match withoutSign text with
  | '0' :: c :: rest => (c :: rest).all Digits.isDigit
  | _ => false

def inBase? (base : Nat) (digits : List Char) : Option Nat :=
  if digits.isEmpty then none
  else digits.foldlM (fun n c => do
    let d ← Digits.hexValue? c
    if d < base then return base * n + d else none) 0

def below? (limit : Nat) (text : List Char) : Option Nat :=
  let fits := fun n : Nat => if n < limit then some n else none
  match withoutPlus text with
  | '0' :: 'x' :: digits => (inBase? 16 digits).bind fits
  | '0' :: 'o' :: digits => (inBase? 8 digits).bind fits
  | '0' :: 'b' :: digits => (inBase? 2 digits).bind fits
  | digits => if isPaddedDigits text then none else (Digits.natural? digits).bind fits

def negative? (limit : Nat) (text : List Char) : Option Int :=
  let fits := fun n : Nat => if n ≤ limit then some (-(n : Int)) else none
  match text with
  | '-' :: '0' :: 'x' :: digits => (inBase? 16 digits).bind fits
  | '-' :: '0' :: 'o' :: digits => (inBase? 8 digits).bind fits
  | '-' :: '0' :: 'b' :: digits => (inBase? 2 digits).bind fits
  | '-' :: digits => if isPaddedDigits text then none else (Digits.natural? digits).bind fits
  | _ => none

def int? (text : List Char) : Option Int :=
  match below? (Word.count 64) text with
  | some n => some n
  | none => negative? (Word.count 63) text

/-- A whole number that needs more than sixty-four bits and at most a hundred and twenty-eight. -/
def isHuge (text : List Char) : Bool :=
  (int? text).isNone
    && ((below? (Word.count 128) text).isSome || (negative? (Word.count 127) text).isSome)

/-- Digits and a power of ten as a double; far beyond its range the digits no longer matter. -/
def decimalFloat (negative : Bool) (digits : List Char) (exponent : Int) : Float :=
  let n := Digits.value digits
  let size := exponent + (Digits.decimal n).length
  let x :=
    if n = 0 then 0.0
    else if 400 < size then 1.0 / 0.0
    else if size < -400 then 0.0
    else Float.ofScientific n (exponent < 0) exponent.natAbs
  if negative then -x else x

def exponent? (text : List Char) : Option Int :=
  match text with
  | '-' :: digits => (Digits.natural? digits).map fun n => -(n : Int)
  | _ => (Digits.natural? (withoutPlus text)).map fun n => (n : Int)

def unsignedFloat? (negative : Bool) (text : List Char) : Option Float :=
  let whole := text.takeWhile Digits.isDigit
  let rest := text.dropWhile Digits.isDigit
  let (fraction, rest) := match rest with
    | '.' :: more => (more.takeWhile Digits.isDigit, more.dropWhile Digits.isDigit)
    | _ => ([], rest)
  if whole.isEmpty && fraction.isEmpty then none
  else
    let at10 := fun e : Int => decimalFloat negative (whole ++ fraction) (e - fraction.length)
    match rest with
    | [] => some (at10 0)
    | c :: more => if c = 'e' || c = 'E' then (exponent? more).map at10 else none

/-- A double: a decimal number that is not too large, or one of the words for infinity and for an
undefined number. -/
def float? (text : List Char) : Option Float :=
  let word := fun names : List String => names.any (·.toList = text)
  if word [".inf", ".Inf", ".INF", "+.inf", "+.Inf", "+.INF"] then some (1.0 / 0.0)
  else if word ["-.inf", "-.Inf", "-.INF"] then some (-1.0 / 0.0)
  else if word [".nan", ".NaN", ".NAN"] then some (0.0 / 0.0)
  else
    let x := match text with
      | '-' :: rest => unsignedFloat? true rest
      | _ => unsignedFloat? false (withoutPlus text)
    x.bind fun x => if x.isFinite then some x else none

/-- What a plain text stands for when no kind of value is asked for. A whole number too large for
sixty-four bits is refused. -/
def untypedPlain (text : String) : Option Json :=
  let chars := text.toList
  if chars.isEmpty || isNull chars then some .null
  else if let some b := bool? chars then some (.bool b)
  else if let some n := int? chars then some (.int n)
  else if isHuge chars then none
  else if isPaddedDigits chars then some (.string text)
  else match float? chars with
    | some x => some (.number (.float x))
    | none => some (.string text)

/-- What a scalar stands for when no kind of value is asked for: the standard's tags demand their
type, a tag of the document's own is refused. -/
def untyped (tag : Option String) (style : Style) (text : String) : Option Json :=
  if isLocal tag then none
  else match tag with
    | none => if style = .plain then untypedPlain text else some (.string text)
    | some t =>
      if t = boolTag then (bool? text.toList).map .bool
      else if t = intTag then (int? text.toList).map .int
      else if t = floatTag then (float? text.toList).map fun x => .number (.float x)
      else if t = nullTag then if isNull text.toList then some .null else none
      else some (.string text)

/-- A scalar that may be read as a number: it is plain, or a literal block with the tag of the
type. -/
def mayBe (expected : String) (tag : Option String) (style : Style) : Bool :=
  style = .plain || (style = .literal && tag = some expected)

def keyText : Json → String
  | .string s => s
  | .number n => String.ofList n.toChars
  | .bool b => toString b
  | _ => ""

mutual

/-- What a node stands for when no kind of value is asked for; a tag of the document's own is
refused. -/
def Node.untyped? : Node → Option Json
  | .scalar tag style text => untyped tag style text
  | .sequence tag items => if isLocal tag then none else (untypedItems items).map .array
  | .mapping tag entries => if isLocal tag then none else (untypedEntries entries).map .object
  | .alias _ => none

def untypedItems : List Node → Option (List Json)
  | [] => some []
  | item :: items => do return (← item.untyped?) :: (← untypedItems items)

def untypedEntries : List (Node × Node) → Option (List (String × Json))
  | [] => some []
  | (key, value) :: entries => do
    return (keyText (← key.untyped?), ← value.untyped?) :: (← untypedEntries entries)

end

end Intake.Yaml
