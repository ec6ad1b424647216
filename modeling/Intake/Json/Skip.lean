import Intake.Json.Lexeme

set_option autoImplicit false

/-!
Passing over a value that nobody asked for. Its notation is checked loosely: escapes need not denote
characters, numbers may have any size, and containers any depth.
-/

namespace Intake.Json

open Intake.Text

def skipEscape : List Char → Except Stop (List Char)
  | [] => .error (.here .endInString [])
  | 'u' :: rest => (hexEscape rest).map (·.2)
  | c :: rest =>
    if (shortEscape c).isSome then .ok rest else .error (.next .invalidEscape (c :: rest))

/-- The text behind the closing quote; `fuel` exceeds the length of the text. -/
def skipString : (fuel : Nat) → List Char → Except Stop (List Char)
  | _, [] => .error (.here .endInString [])
  | 0, text => .error (.here .endInString text)
  | fuel + 1, c :: rest =>
    if c = '"' then .ok rest
    else if c = '\\' then do skipString fuel (← skipEscape rest)
    else if c.toNat < 0x20 then .error (.here .controlCharacter (c :: rest))
    else skipString fuel rest

def skipDigits (text : List Char) : Except Stop (List Char) :=
  let rest := text.dropWhile Digits.isDigit
  if rest.length = text.length then .error (.next .invalidNumber text) else .ok rest

def skipExponent (text : List Char) : Except Stop (List Char) :=
  match text with
  | c :: rest =>
    if c = 'e' || c = 'E' then
      match rest with
      | d :: more => skipDigits (if d = '+' || d = '-' then more else rest)
      | [] => skipDigits []
    else .ok text
  | [] => .ok []

def skipNumber (text : List Char) : Except Stop (List Char) := do
  let rest ← match text with
    | '0' :: rest =>
      match rest with
      | d :: _ => if Digits.isDigit d then .error (.next .invalidNumber rest) else .ok rest
      | [] => .ok []
    | _ => skipDigits text
  match rest with
  | '.' :: fraction => skipExponent (← skipDigits fraction)
  | _ => skipExponent rest

inductive Open where
  | array
  | object
  deriving DecidableEq, Repr

def Open.close : Open → Char
  | .array => ']'
  | .object => '\x7d'

def Open.endFault : Open → Malformed
  | .array => .endInList
  | .object => .endInObject

def Open.neither : Open → Malformed
  | .array => .expectedListEnd
  | .object => .expectedObjectEnd

/-- The text of the next value in a container: behind key and colon in an object. -/
def skipKey (o : Open) (text : List Char) : Except Stop (List Char) :=
  match o with
  | .array => .ok text
  | .object => do
    let rest ← match skipSpace text with
      | [] => .error (.here .endInObject [])
      | c :: rest =>
        if c = '"' then skipString (rest.length + 1) rest
        else .error (.next .keyNotString (c :: rest))
    match skipSpace rest with
    | [] => .error (.here .endInObject [])
    | c :: rest => if c = ':' then .ok rest else .error (.next .expectedColon (c :: rest))

/-- Looks for the end of the open containers or for the next value in the innermost: the containers
still open and the text. `comma` is set behind a value. -/
def skipBetween : (fuel : Nat) → (comma : Bool) → List Open → List Char →
    Except Stop (List Open × List Char)
  | 0, _, opened, text => .ok (opened, text)
  | _, _, [], text => .ok ([], text)
  | fuel + 1, comma, o :: outer, text =>
    match skipSpace text with
    | [] => .error (.here o.endFault [])
    | c :: rest =>
      if comma && c = ',' then (skipKey o rest).map (o :: outer, ·)
      else if c = o.close then skipBetween fuel true outer rest
      else if comma then .error (.next o.neither (c :: rest))
      else (skipKey o (c :: rest)).map (o :: outer, ·)

/-- Passes over a value inside the open containers, and what follows it in them. -/
def skipFrom : (fuel : Nat) → List Open → List Char → Except Stop (List Char)
  | 0, _, text => .ok text
  | fuel + 1, opened, text => do
    let between := fun (comma : Bool) (opened : List Open) (rest : List Char) => do
      let (opened, rest) ← skipBetween (rest.length + 1) comma opened rest
      if opened.isEmpty then return rest else skipFrom fuel opened rest
    let text := skipSpace text
    match text with
    | [] => .error (.here .endInValue [])
    | 'n' :: rest => between true opened (← word ['u', 'l', 'l'] rest)
    | 't' :: rest => between true opened (← word ['r', 'u', 'e'] rest)
    | 'f' :: rest => between true opened (← word ['a', 'l', 's', 'e'] rest)
    | '"' :: rest => between true opened (← skipString (rest.length + 1) rest)
    | '-' :: rest => between true opened (← skipNumber rest)
    | '[' :: rest => between false (.array :: opened) rest
    | '\x7b' :: rest => between false (.object :: opened) rest
    | c :: _ =>
      if Digits.isDigit c then between true opened (← skipNumber text)
      else .error (.next .expectedValue text)

def skipValue (text : List Char) : Except Stop (List Char) := skipFrom (text.length + 1) [] text

end Intake.Json
