import Intake.Dictionary
import Intake.Number.FloatText

set_option autoImplicit false

/-!
JSON values. Whole numbers in the range of sixty-four bits are kept exactly, all others as doubles;
the members of an object stand in the order of the document. `tidy` is the form that forgets that
order.
-/

namespace Intake

open Intake.Text Intake.Number

inductive JsonNumber where
  | integer (n : Int)
  | float (x : Float)
  deriving Inhabited

inductive Json where
  | null
  | bool (b : Bool)
  | number (n : JsonNumber)
  | string (s : String)
  | array (items : List Json)
  | object (members : List (String × Json))
  deriving Inhabited

def JsonNumber.toChars : JsonNumber → List Char
  | .integer n => Digits.integer n
  | .float x => FloatText.Form.data.write x

namespace Json

def int (n : Int) : Json := .number (.integer n)

def nat (n : Nat) : Json := .number (.integer n)

/-- A double; one that is not finite has no notation and becomes null. -/
def float (x : Float) : Json := if x.isFinite then .number (.float x) else .null

def option {α : Type} (toJson : α → Json) : Option α → Json
  | none => .null
  | some a => toJson a

def list {α : Type} (toJson : α → Json) (items : List α) : Json := .array (items.map toJson)

def dictionary {α : Type} (toJson : α → Json) (d : Dictionary α) : Json :=
  .object (d.entries.map fun e => (e.1, toJson e.2))

def texts (d : Dictionary String) : Json := dictionary .string d

/-- The value of a member; the last of several with the same name. -/
def member? (members : List (String × Json)) (name : String) : Option Json :=
  (members.reverse.find? (·.1 = name)).map (·.2)

def kind : Json → String
  | .null => "null"
  | .bool _ => "boolean"
  | .number _ => "number"
  | .string _ => "string"
  | .array _ => "array"
  | .object _ => "object"

mutual

/-- Members in ascending order, of two with the same name the later one, everywhere in a value. -/
def tidy : Json → Json
  | .array items => .array (tidyItems items)
  | .object members => .object (tidyMembers members).entries
  | value => value

def tidyItems : List Json → List Json
  | [] => []
  | item :: items => tidy item :: tidyItems items

/-- The members of an object in tidy form: a member counts only if none of that name follows. -/
def tidyMembers : List (String × Json) → Dictionary Json
  | [] => Dictionary.empty
  | (name, value) :: members =>
    let later := tidyMembers members
    if (later.get? name).isSome then later else later.insert name (tidy value)

end

end Json

end Intake
