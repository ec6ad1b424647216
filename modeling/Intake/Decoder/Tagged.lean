import Intake.Decoder

set_option autoImplicit false

/-!
Decoders of alternatives that are told apart by one member of a record, the tag. The record is read
as a whole before the members of the alternative are looked for, so the tag may stand anywhere.
-/

namespace Intake.Decoder

open Intake.Json Intake.Yaml

def elements (count : Nat) : String :=
  s!"{Text.Digits.text count} element" ++ (if count = 1 then "" else "s") ++ " in sequence"

/-- An alternative: how it is made of the members besides the tag, or of the items behind it. -/
structure Variant (α : Type) where
  ofMembers : List (String × Json) → Except Mismatch α
  ofItems : List Json → Except Mismatch α
  /-- The name of the member that a key stands for. -/
  member? : Json → Option String

namespace Variant

variable {α : Type}

/-- A value without members of its own; any member may stand beside the tag. -/
def unit (value : α) : Variant α where
  ofMembers _ := .ok value
  ofItems values :=
    if values.isEmpty then .ok value else .error (.invalidLength values.length (elements 0))
  member? _ := some ""

/-- A value that is made of members; a number as a key stands for the member in that place. -/
def record {ν σ : Type} (form : Form) (fields : Fields ν σ) (make : ν → α) : Variant α where
  ofMembers members := (membersOfTree form fields fields.blank members).map make
  ofItems values := do
    let (value, left) ← fields.ofItems form.elements 0 values
    if left.isEmpty then return make value
    else .error (.invalidLength values.length (elements fields.names.length))
  member?
    | .string name => some name
    | .number (.integer n) => if n < 0 then none else some ((fields.names[n.toNat]?).getD "")
    | _ => none

end Variant

structure Tagged (α : Type) where
  expected : String
  tag : String
  variants : List (String × Variant α)

namespace Tagged

variable {α : Type}

def variant (t : Tagged α) (name : String) : Except Mismatch (Variant α) :=
  match t.variants.lookup name with
  | some v => .ok v
  | none => .error (.unknownVariant name (t.variants.map (·.1)))

inductive Content where
  | members (members : List (String × Json))
  | items (values : List Json)

def ofContent (content : Content) (v : Variant α) : Except Mismatch α :=
  match content with
  | .members members => v.ofMembers members
  | .items values => v.ofItems values

def tagOfText (t : Tagged α) (text : List Char) : Except Stop (Read (Variant α)) :=
  scalarOfText "variant identifier"
    (fun | .string name => some (t.variant name) | _ => none) text

/-- Reads the members of an object that has been opened; `fuel` exceeds the length of the text. -/
def membersOfText (t : Tagged α) (levels : Nat) : (fuel : Nat) → (first : Bool) →
    Option (Variant α) → List (String × Json) → List Char →
    Except Stop (Read (Variant α × Content))
  | 0, _, _, _, text => .error (.here .endInObject text)
  | fuel + 1, first, found, members, text => do
    match ← nextKey first text with
    | none =>
      match found with
      | some v => return ((v, .members members), text)
      | none => .error (.pending (.missingField t.tag) (skipSpace text))
    | some (key, rest) =>
      if key ≠ t.tag then
        let (value, rest) ← readValue levels (← colon rest)
        membersOfText t levels fuel false found (members ++ [(key, value)]) rest
      else if found.isSome then .error (.pending (.duplicateField t.tag) rest)
      else
        let (v, rest) ← t.tagOfText (← colon rest)
        membersOfText t levels fuel false (some v) members rest

/-- Reads the items of an array that has been opened: the tag and its content. -/
def itemsOfText (t : Tagged α) (levels : Nat) (text : List Char) :
    Except Stop (Read (Variant α × Content)) := do
  match ← nextItem true text with
  | none => .error (.pending (.missingField t.tag) (skipSpace text))
  | some text =>
    let (v, rest) ← t.tagOfText text
    let (values, rest) ← items (readValue levels) (rest.length + 1) false rest
    return ((v, .items values), rest)

def ofTree (t : Tagged α) : Json → Except Mismatch α
  | .object members =>
    match members.filter (·.1 = t.tag) with
    | [(_, .string name)] => do (← t.variant name).ofMembers (members.filter (·.1 ≠ t.tag))
    | [(_, value)] => .error (.invalidType (found value) "variant identifier")
    | [] => .error (.missingField t.tag)
    | _ => .error (.duplicateField t.tag)
  | .array (.string name :: values) => do (← t.variant name).ofItems values
  | .array (value :: _) => .error (.invalidType (found value) "variant identifier")
  | .array [] => .error (.missingField t.tag)
  | value => .error (.invalidType (found value) t.expected)

def ofEntries (t : Tagged α) (entries : List (Node × Node)) : Option α := do
  let isTag := fun e : Node × Node =>
    match e.1.untyped? with
    | some (.string name) => name = t.tag
    | _ => false
  let members ← (entries.filter (!isTag ·)).mapM fun e => do
    return (← e.1.untyped?, ← e.2.untyped?)
  match entries.filter isTag with
  | [(_, node)] =>
    let v ← (t.variant (← string.ofNode node)).toOption
    let named ← members.mapM fun m => do return (← v.member? m.1, m.2)
    (v.ofMembers named).toOption
  | _ => none

def ofNode (t : Tagged α) : Node → Option α
  | .mapping tag entries => if isLocal tag then none else t.ofEntries entries
  | .sequence tag (node :: nodes) => do
    if isLocal tag then none
    else
      let v ← (t.variant (← string.ofNode node)).toOption
      (v.ofItems (← untypedItems nodes)).toOption
  | _ => none

end Tagged

def tagged {α : Type} (t : Tagged α) : Decoder α where
  ofText levels text := do
    let ((v, content), rest) ← match skipSpace text with
      | '[' :: rest =>
        inArray levels ('[' :: rest) rest fun levels rest => t.itemsOfText levels rest
      | '\x7b' :: rest =>
        inObject levels ('\x7b' :: rest) rest fun levels rest =>
          t.membersOfText levels (rest.length + 1) true none [] rest
      | rest => .error (mistyped t.expected rest)
    match Tagged.ofContent content v with
    | .ok a => return (a, rest)
    | .error m => .error (.pending m rest)
  ofTree := t.ofTree
  ofNode := t.ofNode

end Intake.Decoder
