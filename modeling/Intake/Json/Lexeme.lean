import Intake.Json.Fault
import Intake.Number.Word

set_option autoImplicit false

/-!
The pieces of the JSON notation that hold no other values: white space, words, texts and numbers.
A number of at most sixty-four bits is exact; any other is a double, made from the digits that fit
and a power of ten.
-/

namespace Intake.Json

open Intake.Text Intake.Number

def isSpace (c : Char) : Bool := c = ' ' || c = '\n' || c = '\t' || c = '\r'

def skipSpace (text : List Char) : List Char := text.dropWhile isSpace

def word : List Char → List Char → Except Stop (List Char)
  | [], rest => .ok rest
  | _ :: _, [] => .error (.here .endInValue [])
  | expected :: more, c :: rest =>
    if c = expected then word more rest else .error (.next .expectedWord (c :: rest))

def fourHex (a b c d : Char) : Option Nat := do
  return (((← Digits.hexValue? a) * 16 + (← Digits.hexValue? b)) * 16 + (← Digits.hexValue? c)) * 16
    + (← Digits.hexValue? d)

/-- The bytes in front of a text that a hexadecimal escape takes; the text behind them only if they
are digits. -/
def hexEscape (text : List Char) : Except Stop (Nat × List Char) :=
  match text with
  | a :: b :: c :: d :: rest =>
    match fourHex a b c d with
    | some n => .ok (n, rest)
    | none => .error ⟨.malformed .invalidEscape, text, some 4⟩
  | _ =>
    if text.foldl (fun size c => size + c.utf8Size) 0 < 4 then .error (.here .endInString [])
    else .error ⟨.malformed .invalidEscape, text, some 4⟩

/-- The character of a hexadecimal escape; a character beyond sixteen bits takes two of them. -/
def unicodeEscape (text : List Char) : Except Stop (Read Char) := do
  let (n, rest) ← hexEscape text
  if 0xDC00 ≤ n && n ≤ 0xDFFF then .error (.here .loneSurrogate rest)
  else if n < 0xD800 || 0xDBFF < n then return (Char.ofNat n, rest)
  else match rest with
    | [] => .error (.here .endInString [])
    | '\\' :: 'u' :: rest => do
      let (m, rest) ← hexEscape rest
      if 0xDC00 ≤ m && m ≤ 0xDFFF then
        return (Char.ofNat (0x10000 + (n - 0xD800) * 1024 + (m - 0xDC00)), rest)
      else .error (.here .loneSurrogate rest)
    | '\\' :: rest =>
      match rest with
      | [] => .error (.here .endInString [])
      | _ => .error (.next .endOfEscape rest)
    | _ => .error (.next .endOfEscape rest)

def shortEscape : Char → Option Char
  | '"' => some '"'
  | '\\' => some '\\'
  | '/' => some '/'
  | 'b' => some '\x08'
  | 'f' => some '\x0c'
  | 'n' => some '\n'
  | 'r' => some '\r'
  | 't' => some '\t'
  | _ => none

def escape : List Char → Except Stop (Read Char)
  | [] => .error (.here .endInString [])
  | 'u' :: rest => unicodeEscape rest
  | c :: rest =>
    match shortEscape c with
    | some meant => .ok (meant, rest)
    | none => .error (.next .invalidEscape (c :: rest))

/-- Characters up to the closing quote; `fuel` exceeds the length of the text. -/
def stringChars : (fuel : Nat) → List Char → Except Stop (Read (List Char))
  | _, [] => .error (.here .endInString [])
  | 0, text => .error (.here .endInString text)
  | fuel + 1, c :: rest =>
    if c = '"' then .ok ([], rest)
    else if c = '\\' then do
      let (meant, rest) ← escape rest
      let (more, rest) ← stringChars fuel rest
      return (meant :: more, rest)
    else if c.toNat < 0x20 then .error (.next .controlCharacter (c :: rest))
    else do
      let (more, rest) ← stringChars fuel rest
      return (c :: more, rest)

def stringBody (rest : List Char) : Except Stop (Read String) :=
  (stringChars (rest.length + 1) rest).map fun r => (String.ofList r.1, r.2)

/-- Whole numbers without a sign stay below this. -/
def wordLimit : Nat := Number.Word.count 64

/-- Takes digits into a significand while it stays below the limit: the significand, how many digits
were taken, and the text behind them. -/
def absorb (significand : Nat) : List Char → Nat × Nat × List Char
  | [] => (significand, 0, [])
  | c :: rest =>
    if Digits.isDigit c && 10 * significand + Digits.digitValue c < wordLimit then
      let r := absorb (10 * significand + Digits.digitValue c) rest
      (r.1, r.2.1 + 1, r.2.2)
    else (significand, 0, c :: rest)

/-- Divides by powers of ten, the largest that a double holds first. -/
def scaleDown : (fuel : Nat) → (x : Float) → (places : Nat) → Float
  | 0, x, _ => x
  | fuel + 1, x, places =>
    if places ≤ 308 then x / Binary64.powerOfTen places
    else if x == 0.0 then x
    else scaleDown fuel (x / Binary64.powerOfTen 308) (places - 308)

/-- A significand scaled by a power of ten, in double arithmetic; `none` if the result is too
large. -/
def scaled (significand : Nat) (exponent : Int) : Option Float :=
  let x := Float.ofScientific significand false 0
  if exponent < 0 then some (scaleDown 4 x exponent.natAbs)
  else if 308 < exponent then if significand = 0 then some x else none
  else
    let y := x * Binary64.powerOfTen exponent.toNat
    if y.isInf then none else some y

def signed (negative : Bool) (x : Float) : Float := if negative then -x else x

def floatOfParts (negative : Bool) (significand : Nat) (exponent : Int) (rest : List Char) :
    Except Stop (Read JsonNumber) :=
  match scaled significand exponent with
  | some x => .ok (.float (signed negative x), rest)
  | none => .error (.here .numberOutOfRange rest)

/-- Exponents stay below this. -/
def exponentLimit : Nat := Number.Word.count 31

def absorbExponent (exponent : Nat) : List Char → Nat × List Char
  | [] => (exponent, [])
  | c :: rest =>
    if Digits.isDigit c && 10 * exponent + Digits.digitValue c < exponentLimit then
      absorbExponent (10 * exponent + Digits.digitValue c) rest
    else (exponent, c :: rest)

def exponentDigits (negative : Bool) (significand : Nat) (start : Int) (down : Bool)
    (text : List Char) : Except Stop (Read JsonNumber) :=
  let (exponent, rest) := absorbExponent 0 text
  match rest with
  | d :: more =>
    if Digits.isDigit d then
      if significand ≠ 0 && !down then .error (.here .numberOutOfRange more)
      else .ok (.float (signed negative 0.0), rest.dropWhile Digits.isDigit)
    else floatOfParts negative significand (if down then start - exponent else start + exponent)
      rest
  | [] => floatOfParts negative significand (if down then start - exponent else start + exponent) []

def exponentPart (negative : Bool) (significand : Nat) (start : Int) (text : List Char) :
    Except Stop (Read JsonNumber) :=
  let (down, text) := match text with
    | '-' :: rest => (true, rest)
    | '+' :: rest => (false, rest)
    | _ => (false, text)
  match text with
  | [] => .error (.here .endInValue [])
  | c :: _ =>
    if !Digits.isDigit c then .error (.next .invalidNumber text)
    else exponentDigits negative significand start down text

def fractionPart (negative : Bool) (significand : Nat) (start : Int) (text : List Char) :
    Except Stop (Read JsonNumber) :=
  let (significand, taken, rest) := absorb significand text
  let after := rest.dropWhile Digits.isDigit
  if taken = 0 && after.length = rest.length then
    .error (match rest with
      | [] => .here .endInValue []
      | _ => .next .invalidNumber rest)
  else
    match after with
    | c :: more =>
      if c = 'e' || c = 'E' then exponentPart negative significand (start - taken) more
      else floatOfParts negative significand (start - taken) after
    | [] => floatOfParts negative significand (start - taken) []

def numberTail (negative : Bool) (significand : Nat) (dropped : Nat) (rest : List Char) :
    Except Stop (Read JsonNumber) :=
  let whole : Except Stop (Read JsonNumber) :=
    if dropped ≠ 0 then floatOfParts negative significand dropped rest
    else if !negative then .ok (.integer significand, rest)
    else if significand = 0 || Number.Word.count 63 < significand then
      .ok (.float (-(Float.ofScientific significand false 0)), rest)
    else .ok (.integer (-(significand : Int)), rest)
  match rest with
  | c :: more =>
    if c = '.' then fractionPart negative significand dropped more
    else if c = 'e' || c = 'E' then exponentPart negative significand dropped more
    else whole
  | [] => whole

def unsignedNumber (negative : Bool) (text : List Char) : Except Stop (Read JsonNumber) :=
  match text with
  | [] => .error (.here .endInValue [])
  | c :: rest =>
    if !Digits.isDigit c then .error (.next .invalidNumber text)
    else if c = '0' then
      match rest with
      | d :: _ =>
        if Digits.isDigit d then .error (.next .invalidNumber rest)
        else numberTail negative 0 0 rest
      | [] => numberTail negative 0 0 rest
    else
      let (significand, _, rest) := absorb 0 text
      let after := rest.dropWhile Digits.isDigit
      numberTail negative significand (rest.length - after.length) after

def signedNumber : List Char → Except Stop (Read JsonNumber)
  | '-' :: rest => unsignedNumber true rest
  | text => unsignedNumber false text

end Intake.Json
