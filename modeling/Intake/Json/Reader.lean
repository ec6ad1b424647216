import Intake.Json.Layout

set_option autoImplicit false

/-!
Reading a document of any content. At most 127 containers may be open at once.
-/

namespace Intake.Json

/-- How many containers may be open at once. -/
def maxLevels : Nat := 127

/-- A value that begins with a letter, a quote or a digit; `none` if the text does not begin with
one. -/
def readScalar (text : List Char) : Option (Except Stop (Read Json)) :=
  match text with
  | 'n' :: rest => some ((word ['u', 'l', 'l'] rest).map (.null, ·))
  | 't' :: rest => some ((word ['r', 'u', 'e'] rest).map (.bool true, ·))
  | 'f' :: rest => some ((word ['a', 'l', 's', 'e'] rest).map (.bool false, ·))
  | '"' :: rest => some ((stringBody rest).map fun r => (.string r.1, r.2))
  | c :: _ =>
    if c = '-' || Text.Digits.isDigit c then
      some ((signedNumber text).map fun r => (.number r.1, r.2))
    else none
  | [] => none

def readValue : (levels : Nat) → List Char → Except Stop (Read Json)
  | levels, text =>
    let text := skipSpace text
    match readScalar text with
    | some result => result
    | none =>
      match text with
      | [] => .error (.here .endInValue [])
      | c :: rest =>
        if c = '[' then
          match levels with
          | 0 => .error (.next .tooDeep text)
          | levels + 1 =>
            (closed endArray (items (readValue levels) (rest.length + 1) true rest)).map
              fun r => (.array r.1, r.2)
        else if c = '\x7b' then
          match levels with
          | 0 => .error (.next .tooDeep text)
          | levels + 1 =>
            (closed endObject (members (readValue levels) (rest.length + 1) true rest)).map
              fun r => (.object r.1, r.2)
        else .error (.next .expectedValue text)

def whole {α : Type} (reader : List Char → Except Stop (Read α)) (text : List Char) :
    Except Fault α :=
  match reader text with
  | .error stop => .error (stop.fault text)
  | .ok (value, rest) =>
    match skipSpace rest with
    | [] => .ok value
    | more => .error ((Stop.next .trailingCharacters more).fault text)

def parse (text : String) : Except Fault Json := whole (readValue maxLevels) text.toList

end Intake.Json
