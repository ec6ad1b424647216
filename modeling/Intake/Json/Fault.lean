import Intake.Json.Basic
import Intake.Text.Quoted

set_option autoImplicit false

/-!
Why a document cannot be read, and where. A fault of the notation is placed where it is met. A
value of the wrong kind is first noticed without a place; the container in which it stands settles
the place after looking for its own end.
-/

namespace Intake.Json

open Intake.Text

inductive Malformed where
  | endInList
  | endInObject
  | endInString
  | endInValue
  | expectedColon
  | expectedListEnd
  | expectedObjectEnd
  | expectedWord
  | expectedValue
  | invalidEscape
  | invalidNumber
  | numberOutOfRange
  | controlCharacter
  | keyNotString
  | loneSurrogate
  | trailingComma
  | trailingCharacters
  | endOfEscape
  | tooDeep
  deriving DecidableEq, Repr, Inhabited

def Malformed.message : Malformed → String
  | .endInList => "EOF while parsing a list"
  | .endInObject => "EOF while parsing an object"
  | .endInString => "EOF while parsing a string"
  | .endInValue => "EOF while parsing a value"
  | .expectedColon => "expected `:`"
  | .expectedListEnd => "expected `,` or `]`"
  | .expectedObjectEnd => "expected `,` or `\x7d`"
  | .expectedWord => "expected ident"
  | .expectedValue => "expected value"
  | .invalidEscape => "invalid escape"
  | .invalidNumber => "invalid number"
  | .numberOutOfRange => "number out of range"
  | .controlCharacter => "control character (\\u0000-\\u001F) found while parsing a string"
  | .keyNotString => "key must be a string"
  | .loneSurrogate => "lone leading surrogate in hex escape"
  | .trailingComma => "trailing comma"
  | .trailingCharacters => "trailing characters"
  | .endOfEscape => "unexpected end of hex escape"
  | .tooDeep => "recursion limit exceeded"

inductive Found where
  | null
  | bool (b : Bool)
  | number (n : JsonNumber)
  | string (s : String)
  | sequence
  | map
  | unitVariant
  deriving Inhabited

def Found.message : Found → String
  | .null => "null"
  | .bool b => s!"boolean `{b}`"
  | .number (.integer n) => s!"integer `{Digits.integerText n}`"
  | .number (.float x) => s!"floating point `{String.ofList (JsonNumber.float x).toChars}`"
  | .string s => "string " ++ Quoted.quote s
  | .sequence => "sequence"
  | .map => "map"
  | .unitVariant => "unit variant"

def found : Json → Found
  | .null => .null
  | .bool b => .bool b
  | .number n => .number n
  | .string s => .string s
  | .array _ => .sequence
  | .object _ => .map

/-- A well-formed value that does not have the expected shape. -/
inductive Mismatch where
  | invalidType (found : Found) (expected : String)
  | invalidValue (found : Found) (expected : String)
  | invalidLength (count : Nat) (expected : String)
  | unknownVariant (name : String) (known : List String)
  | unknownField (name : String) (known : List String)
  | missingField (name : String)
  | duplicateField (name : String)
  | rule (text : String)
  deriving Inhabited

def alternatives : List String → String
  | [a] => s!"`{a}`"
  | [a, b] => s!"`{a}` or `{b}`"
  | names => "one of " ++ ", ".intercalate (names.map fun name => s!"`{name}`")

def Mismatch.message : Mismatch → String
  | .invalidType found expected => s!"invalid type: {found.message}, expected {expected}"
  | .invalidValue found expected => s!"invalid value: {found.message}, expected {expected}"
  | .invalidLength count expected => s!"invalid length {count}, expected {expected}"
  | .unknownVariant name known => s!"unknown variant `{name}`, expected {alternatives known}"
  | .unknownField name known => s!"unknown field `{name}`, expected {alternatives known}"
  | .missingField name => s!"missing field `{name}`"
  | .duplicateField name => s!"duplicate field `{name}`"
  | .rule text => text

inductive Cause where
  | malformed (m : Malformed)
  | mismatch (m : Mismatch)
  deriving Inhabited

def Cause.message : Cause → String
  | .malformed m => m.message
  | .mismatch m => m.message

/-- Reading stopped in front of `rest`. The fault lies that many bytes into the rest; it has no
place of its own while there is no such number. -/
structure Stop where
  cause : Cause
  rest : List Char
  ahead : Option Nat
  deriving Inhabited

def Stop.here (m : Malformed) (rest : List Char) : Stop := ⟨.malformed m, rest, some 0⟩

def Stop.next (m : Malformed) (rest : List Char) : Stop := ⟨.malformed m, rest, some 1⟩

/-- A mismatch whose place is still to be settled. -/
def Stop.pending (m : Mismatch) (rest : List Char) : Stop := ⟨.mismatch m, rest, none⟩

/-- Places a fault that has no place yet. -/
def Stop.settle (stop : Stop) (rest : List Char) : Stop :=
  match stop.ahead with
  | some _ => stop
  | none => ⟨stop.cause, rest, some 0⟩

/-- A place in a text: lines count from one, columns are the bytes before it on its line. -/
structure Position where
  line : Nat
  column : Nat
  deriving DecidableEq, Repr, Inhabited

def Position.step (p : Position) (c : Char) : Position :=
  if c = '\n' then ⟨p.line + 1, 0⟩ else ⟨p.line, p.column + c.utf8Size⟩

def Position.advance (p : Position) : (bytes : Nat) → List Char → Position
  | 0, _ => p
  | _, [] => p
  | bytes + 1, c :: rest =>
    if c.utf8Size ≤ bytes + 1 then (p.step c).advance (bytes + 1 - c.utf8Size) rest
    else ⟨p.line, p.column + (bytes + 1)⟩
  termination_by _ rest => rest.length

structure Fault where
  cause : Cause
  position : Option Position
  deriving Inhabited

def Fault.message (fault : Fault) : String :=
  match fault.position with
  | none => fault.cause.message
  | some p => s!"{fault.cause.message} at line {p.line} column {p.column}"

def Stop.fault (text : List Char) (stop : Stop) : Fault :=
  ⟨stop.cause, stop.ahead.map fun bytes =>
    ((text.take (text.length - stop.rest.length)).foldl Position.step ⟨1, 0⟩).advance bytes
      stop.rest⟩

abbrev Read (α : Type) := α × List Char

end Intake.Json
