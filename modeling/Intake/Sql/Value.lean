import Intake.Decoder
import Intake.Json.Printer
import Intake.Number.Decimal
import Intake.Time.Pattern

set_option autoImplicit false

/-!
Parameters of statements. Every parameter travels as text; a JSON form with the name of the type
around the value describes parameters elsewhere.
-/

namespace Intake.Sql

open Intake.Json Intake.Text Intake.Number Intake.Time

inductive Value where
  | null
  | bool (b : Bool)
  | int64 (n : Int)
  | float64 (x : Float)
  | decimal (d : Decimal)
  | string (s : String)
  | dateTime (t : DateTime)
  deriving Inhabited

namespace Value

def asString? : Value → Option String
  | .string s => some s
  | _ => none

def text? : Value → Option String
  | .null => none
  | .bool b => some (toString b)
  | .int64 n => some (Digits.integerText n)
  | .float64 x => some (String.ofList (FloatText.Form.positional.write x))
  | .decimal d => some d.text
  | .string s => some s
  | .dateTime t => some t.spacedText

def shown : Value → String
  | .null => "Null"
  | .bool b => s!"Bool({b})"
  | .int64 n => s!"Int64({Digits.integerText n})"
  | .float64 x => "Float64(" ++ String.ofList (FloatText.Form.diagnostic.write x) ++ ")"
  | .decimal d => s!"Decimal({d.text})"
  | .string s => "String(" ++ Quoted.quote s ++ ")"
  | .dateTime t => s!"DateTime({t.text})"

def toJson : Value → Json
  | .null => .string "Null"
  | .bool b => .object [("Bool", .bool b)]
  | .int64 n => .object [("Int64", .int n)]
  | .float64 x => .object [("Float64", .float x)]
  | .decimal d => .object [("Decimal", .string d.text)]
  | .string s => .object [("String", .string s)]
  | .dateTime t => .object [("DateTime", .string t.text)]

/-- Amounts, written as text or as a number. A number with a fraction or an exponent counts with the
digits it is written with when no exponent is used. -/
def decimalDecoder : Decoder Decimal :=
  let expected := "a Decimal type representing a fixed-point number"
  Decoder.anyScalar expected
    (fun
      | .string s =>
        some (match Decimal.read s.toList with
          | .ok d => .ok d
          | .error _ => .error (.invalidValue (.string s) expected))
      | .number (.integer n) => some (.ok (Decimal.ofInt n))
      | .number (.float x) =>
        some (match Decimal.readPositional (FloatText.Form.positional.write x) with
          | .ok d => .ok d
          | .error _ => .error (.invalidValue (.number (.float x)) expected))
      | _ => none)
    fun _ _ text => (Decimal.read text).toOption

def dateTimeDecoder : Decoder DateTime :=
  .parsed "a formatted date and time string" fun text =>
    match Pattern.read Pattern.isoDateTime text.toList with
    | .ok t => .ok t
    | .error fault => .error (.rule fault.message)

def variants : List String := ["Null", "Bool", "Int64", "Float64", "Decimal", "String", "DateTime"]

/-- How the value behind a name is read; `none` if there is no such name. -/
def payload? (name : String) : Option (Decoder Value) :=
  match name with
  | "Null" => some (.scalar "unit" (fun | .null => some (.ok .null) | _ => none) fun _ _ _ => none)
  | "Bool" => some (.map .bool .bool)
  | "Int64" => some (.map .int64 .int64)
  | "Float64" => some (.map .float64 .float)
  | "Decimal" => some (.map .decimal decimalDecoder)
  | "String" => some (.map .string .string)
  | "DateTime" => some (.map .dateTime dateTimeDecoder)
  | _ => none

/-- A name without a value: only null has none. -/
def ofName (name : String) : Except Mismatch Value :=
  if name = "Null" then .ok .null
  else if variants.contains name then .error (.invalidType .unitVariant "newtype variant")
  else .error (.unknownVariant name variants)

def readPair (levels : Nat) (text : List Char) : Except Stop (Read Value) :=
  match skipSpace text with
  | '"' :: rest => do
    let (name, rest) ← stringBody rest
    match payload? name with
    | none => .error ((Stop.pending (.unknownVariant name variants) rest).settle rest)
    | some d => do
      let (value, rest) ← d.ofText levels (← colon rest)
      match skipSpace rest with
      | [] => .error (.here .endInObject [])
      | c :: more =>
        if c = '\x7d' then return (value, more) else .error (.here .expectedValue (c :: more))
  | rest => .error (Decoder.mistyped "variant identifier" rest)

def decoder : Decoder Value where
  ofText levels text :=
    match skipSpace text with
    | '\x7b' :: rest =>
      match levels with
      | 0 => .error (.next .tooDeep ('\x7b' :: rest))
      | levels + 1 => readPair levels rest
    | '"' :: rest => do
      let (name, rest) ← stringBody rest
      match ofName name with
      | .ok value => return (value, rest)
      | .error (.unknownVariant name known) =>
        .error ((Stop.pending (.unknownVariant name known) rest).settle rest)
      | .error m => .error (.pending m rest)
    | [] => .error (.here .endInValue [])
    | rest => .error (.next .expectedValue rest)
  ofTree
    | .string name => ofName name
    | .object [(name, value)] =>
      match payload? name with
      | some d => d.ofTree value
      | none => .error (.unknownVariant name variants)
    | .object _ => .error (.invalidValue .map "map with a single key")
    | value => .error (.invalidType (found value) "string or map")
  ofNode _ := none

end Value

end Intake.Sql
