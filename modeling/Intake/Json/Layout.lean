import Intake.Json.Lexeme

set_option autoImplicit false

/-!
The brackets and commas of arrays and objects. A container whose content cannot be read still looks
for its end, because a mismatch without a place belongs to where that search leaves off.
-/

namespace Intake.Json

/-- The text of the next item of an array, or nothing at the end of the array. -/
def nextItem (first : Bool) (text : List Char) : Except Stop (Option (List Char)) :=
  match skipSpace text with
  | [] => .error (.here .endInList [])
  | c :: rest =>
    if c = ']' then .ok none
    else if first then .ok (some (c :: rest))
    else if c = ',' then
      match skipSpace rest with
      | [] => .error (.here .endInValue [])
      | d :: more =>
        if d = ']' then .error (.next .trailingComma (d :: more)) else .ok (some (d :: more))
    else .error (.next .expectedListEnd (c :: rest))

/-- The next key of an object, or nothing at the end of the object. -/
def nextKey (first : Bool) (text : List Char) : Except Stop (Option (Read String)) :=
  match skipSpace text with
  | [] => .error (.here .endInObject [])
  | c :: rest =>
    if c = '\x7d' then .ok none
    else if first then
      if c = '"' then (stringBody rest).map some else .error (.next .keyNotString (c :: rest))
    else if c = ',' then
      match skipSpace rest with
      | [] => .error (.here .endInValue [])
      | d :: more =>
        if d = '"' then (stringBody more).map some
        else if d = '\x7d' then .error (.next .trailingComma (d :: more))
        else .error (.next .keyNotString (d :: more))
    else .error (.next .expectedObjectEnd (c :: rest))

def colon (text : List Char) : Except Stop (List Char) :=
  match skipSpace text with
  | [] => .error (.here .endInObject [])
  | c :: rest => if c = ':' then .ok rest else .error (.next .expectedColon (c :: rest))

def endArray (text : List Char) : Except Stop (List Char) :=
  match skipSpace text with
  | [] => .error (.here .endInList [])
  | c :: rest =>
    if c = ']' then .ok rest
    else if c = ',' then
      match skipSpace rest with
      | d :: more =>
        .error (.next (if d = ']' then .trailingComma else .trailingCharacters) (d :: more))
      | [] => .error (.here .trailingCharacters [])
    else .error (.next .trailingCharacters (c :: rest))

def endObject (text : List Char) : Except Stop (List Char) :=
  match skipSpace text with
  | [] => .error (.here .endInObject [])
  | c :: rest =>
    if c = '\x7d' then .ok rest
    else .error (.next (if c = ',' then .trailingComma else .trailingCharacters) (c :: rest))

/-- Ends a container after its content; content that could not be read gets its place. -/
def closed {α : Type} (close : List Char → Except Stop (List Char))
    (content : Except Stop (Read α)) : Except Stop (Read α) :=
  match content with
  | .ok (value, rest) => (close rest).map (value, ·)
  | .error stop =>
    match close stop.rest with
    | .ok rest => .error (stop.settle rest)
    | .error other => .error (stop.settle other.rest)

/-- Reads items up to the end of an array; `fuel` exceeds the length of the text. -/
def items {α : Type} (item : List Char → Except Stop (Read α)) :
    (fuel : Nat) → (first : Bool) → List Char → Except Stop (Read (List α))
  | 0, _, text => .error (.here .endInList text)
  | fuel + 1, first, text => do
    match ← nextItem first text with
    | none => return ([], text)
    | some text =>
      let (value, rest) ← item text
      let (more, rest) ← items item fuel false rest
      return (value :: more, rest)

/-- Reads members up to the end of an object; `fuel` exceeds the length of the text. -/
def members {α : Type} (value : List Char → Except Stop (Read α)) :
    (fuel : Nat) → (first : Bool) → List Char → Except Stop (Read (List (String × α)))
  | 0, _, text => .error (.here .endInObject text)
  | fuel + 1, first, text => do
    match ← nextKey first text with
    | none => return ([], text)
    | some (key, rest) =>
      let (member, rest) ← value (← colon rest)
      let (more, rest) ← members value fuel false rest
      return ((key, member) :: more, rest)

end Intake.Json
