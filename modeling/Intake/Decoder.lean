import Intake.Json.Reader
import Intake.Json.Skip
import Intake.Number.Word
import Intake.Yaml.Scalar

set_option autoImplicit false

/-!
Decoders: how a value of a certain shape is read from JSON text, taken from a JSON value, and taken
from a YAML node. Text answers with a place when something is wrong, a value without one, and a node
only with failure. Records are read from their members in any order, in JSON also from a list of
all of them.
-/

namespace Intake

open Intake.Json Intake.Yaml

abbrev TextReader := StateT (List Char) (Except Stop)

abbrev TreeReader := ReaderT Json (Except Mismatch)

abbrev NodeReader := ReaderT Node Option

/-- How a value is read. `ofText` is given the number of containers that may still be opened;
`absent` is the value of a member that is not there. -/
structure Decoder (α : Type) where
  ofText : Nat → TextReader α
  ofTree : TreeReader α
  ofNode : NodeReader α
  absent : Option α := none

namespace Decoder

variable {α β : Type}

/-- A value of another kind in front of the text: it is read to say what it is, but a container is
only named. -/
def mistyped (expected : String) (text : List Char) : Stop :=
  let wrong := fun (found : Found) (rest : List Char) =>
    (Stop.pending (.invalidType found expected) rest).settle rest
  match readScalar text with
  | some (.ok (value, rest)) => wrong (found value) rest
  | some (.error stop) => stop
  | none =>
    match text with
    | '[' :: _ => wrong .sequence text
    | '\x7b' :: _ => wrong .map text
    | [] => .here .endInValue []
    | _ => .next .expectedValue text

def scalarOfText (expected : String) (accept : Json → Option (Except Mismatch α)) :
    TextReader α := fun text =>
  let text := skipSpace text
  match readScalar text with
  | none => .error (mistyped expected text)
  | some (.error stop) => .error stop
  | some (.ok (value, rest)) =>
    match accept value with
    | some (.ok a) => .ok (a, rest)
    | some (.error m) => .error ((Stop.pending m rest).settle rest)
    | none => .error (mistyped expected text)

def scalarOfTree (expected : String) (accept : Json → Option (Except Mismatch α)) :
    TreeReader α := fun value =>
  match accept value with
  | some result => result
  | none => .error (.invalidType (found value) expected)

/-- A decoder of scalars: what it accepts of JSON, and what of the text of a node. -/
def scalar (expected : String) (accept : Json → Option (Except Mismatch α))
    (acceptNode : Option String → Style → List Char → Option α) : Decoder α where
  ofText _ := scalarOfText expected accept
  ofTree := scalarOfTree expected accept
  ofNode
    | .scalar tag style text => acceptNode tag style text.toList
    | _ => none

def string : Decoder String :=
  scalar "a string" (fun | .string s => some (.ok s) | _ => none)
    fun _ _ text => some (String.ofList text)

def bool : Decoder Bool :=
  scalar "a boolean" (fun | .bool b => some (.ok b) | _ => none)
    fun tag style text => if mayBe boolTag tag style then bool? text else none

def int (name : String) (low high : Int) : Decoder Int :=
  let inside := fun n : Int => low ≤ n && n ≤ high
  scalar name
    (fun
      | .number (.integer n) =>
        some (if inside n then .ok n else .error (.invalidValue (.number (.integer n)) name))
      | _ => none)
    fun tag style text =>
      if mayBe intTag tag style then (int? text).bind fun n => if inside n then some n else none
      else none

/-- Doubles; whole numbers count. -/
def float : Decoder Float :=
  scalar "f64"
    (fun
      | .number (.integer n) =>
        some (.ok (signed (n < 0) (Float.ofScientific n.natAbs false 0)))
      | .number (.float x) => some (.ok x)
      | _ => none)
    fun tag style text => if mayBe floatTag tag style then float? text else none

def map (f : α → β) (d : Decoder α) : Decoder β where
  ofText levels := f <$> d.ofText levels
  ofTree := f <$> d.ofTree
  ofNode := f <$> d.ofNode
  absent := d.absent.map f

/-- Natural numbers of a width in bits, under the name of their type. In a node a minus sign is
refused even in front of zero. -/
def nat (name : String) (bits : Nat) : Decoder Nat :=
  { (int name 0 (Number.Word.count bits - 1 : Nat)).map Int.toNat with
    ofNode := fun
      | .scalar tag style text =>
        if mayBe intTag tag style then below? (Number.Word.count bits) text.toList else none
      | _ => none }

def int64 : Decoder Int :=
  int "i64" (-(Number.Word.count 63 : Nat)) (Number.Word.count 63 - 1 : Nat)

def json : Decoder Json where
  ofText levels := readValue levels
  ofTree value := .ok value
  ofNode
    | .scalar tag style text => untyped tag style text
    | _ => none

/-- Texts that must follow a rule of their own. -/
def parsed (expected : String) (rule : String → Except Mismatch α) : Decoder α :=
  scalar expected (fun | .string s => some (rule s) | _ => none)
    fun _ _ text => (rule (String.ofList text)).toOption

/-- A value or null; a member that is not there counts as null. -/
def option (d : Decoder α) : Decoder (Option α) where
  ofText levels text :=
    match skipSpace text with
    | 'n' :: rest => (word ['u', 'l', 'l'] rest).map (none, ·)
    | rest => (some <$> d.ofText levels) rest
  ofTree
    | .null => .ok none
    | value => (d.ofTree value).map some
  ofNode node :=
    match node with
    | .scalar tag style text =>
      let nothing :=
        style = .plain && (match tag with
          | some t => t = nullTag && isNull text.toList
          | none => text.isEmpty || isNull text.toList)
      if nothing then some none
      else if style = .plain && tag = some nullTag then none
      else (d.ofNode node).map some
    | _ => (d.ofNode node).map some
  absent := some none

def inArray (levels : Nat) (text rest : List Char)
    (content : Nat → List Char → Except Stop (Read α)) : Except Stop (Read α) :=
  match levels with
  | 0 => .error (.next .tooDeep text)
  | levels + 1 => closed endArray (content levels rest)

def inObject (levels : Nat) (text rest : List Char)
    (content : Nat → List Char → Except Stop (Read α)) : Except Stop (Read α) :=
  match levels with
  | 0 => .error (.next .tooDeep text)
  | levels + 1 => closed endObject (content levels rest)

/-- A scalar that is read without asking for its kind: a container in its place is opened before it
is refused. -/
def anyScalar (expected : String) (accept : Json → Option (Except Mismatch α))
    (acceptNode : Option String → Style → List Char → Option α) : Decoder α :=
  let refused := fun (found : Found) (_ : Nat) (rest : List Char) =>
    (Except.error (.pending (.invalidType found expected) rest) : Except Stop (Read α))
  { scalar expected accept acceptNode with
    ofText := fun levels text =>
      match skipSpace text with
      | '[' :: rest => inArray levels ('[' :: rest) rest (refused .sequence)
      | '\x7b' :: rest => inObject levels ('\x7b' :: rest) rest (refused .map)
      | text => scalarOfText expected accept text }

/-- Values that may have one of several shapes, told apart only by their content. -/
def untagged (name : String) (accept : Json → Option α) : Decoder α :=
  let mismatch : Mismatch := .rule ("data did not match any variant of untagged enum " ++ name)
  { ofText := fun levels text => do
      let (value, rest) ← readValue levels text
      match accept value with
      | some a => return (a, rest)
      | none => .error (.pending mismatch rest)
    ofTree := fun value =>
      match accept value with
      | some a => .ok a
      | none => .error mismatch
    ofNode := fun node => do accept (← json.ofNode node) }

def list (d : Decoder α) : Decoder (List α) where
  ofText levels text :=
    match skipSpace text with
    | '[' :: rest =>
      inArray levels ('[' :: rest) rest fun levels rest =>
        items (d.ofText levels) (rest.length + 1) true rest
    | rest => .error (mistyped "a sequence" rest)
  ofTree
    | .array values => values.mapM d.ofTree
    | value => .error (.invalidType (found value) "a sequence")
  ofNode
    | .sequence _ nodes => nodes.mapM d.ofNode
    | .scalar _ .plain "" => some []
    | _ => none

def dictionary (d : Decoder α) : Decoder (Dictionary α) where
  ofText levels text :=
    match skipSpace text with
    | '\x7b' :: rest =>
      (inObject levels ('\x7b' :: rest) rest fun levels rest =>
        members (d.ofText levels) (rest.length + 1) true rest).map
          fun r => (Dictionary.ofList r.1, r.2)
    | rest => .error (mistyped "a map" rest)
  ofTree
    | .object values => (values.mapM fun (e : String × Json) =>
        (d.ofTree e.2).map fun value => (e.1, value)).map Dictionary.ofList
    | value => .error (.invalidType (found value) "a map")
  ofNode
    | .mapping _ entries => (entries.mapM fun (e : Node × Node) => do
        return (← string.ofNode e.1, ← d.ofNode e.2)).map Dictionary.ofList
    | .scalar _ .plain "" => some Dictionary.empty
    | _ => none

/-- The members of a record and, as second parameter, which of them have been read. A member with a
fallback may be left out in every notation. -/
inductive Fields : Type → Type → Type 1 where
  | nil : Fields Unit Unit
  | cons {α β σ : Type} (name : String) (decoder : Decoder α) (fallback : Option α)
      (rest : Fields β σ) : Fields (α × β) (Option α × σ)

/-- What a record makes of a member's name: not its own, already read, or a way to read it. -/
inductive Member (F : Type → Type) (σ : Type) where
  | unknown
  | repeated
  | fresh (read : F σ)

namespace Fields

def blank : {ν σ : Type} → Fields ν σ → σ
  | _, _, .nil => ()
  | _, _, .cons _ _ _ rest => (none, rest.blank)

def names : {ν σ : Type} → Fields ν σ → List String
  | _, _, .nil => []
  | _, _, .cons name _ _ rest => name :: rest.names

/-- Finds the member of a name; `run` says from where it is read. -/
def member {F : Type → Type} [Functor F] (run : {α : Type} → Decoder α → F α) :
    {ν σ : Type} → Fields ν σ → String → σ → Member F σ
  | _, _, .nil, _, _ => .unknown
  | _, _, .cons name d _ rest, key, (slot, slots) =>
    if key = name then
      match slot with
      | some _ => .repeated
      | none => .fresh ((fun a => (some a, slots)) <$> run d)
    else
      match rest.member run key slots with
      | .unknown => .unknown
      | .repeated => .repeated
      | .fresh read => .fresh ((fun s => (slot, s)) <$> read)

/-- The members after all has been read; the first that is missing is named. -/
def complete : {ν σ : Type} → Fields ν σ → σ → Except Mismatch ν
  | _, _, .nil, _ => .ok ()
  | _, _, .cons name d fallback rest, (slot, slots) => do
    let value ← match slot <|> fallback <|> d.absent with
      | some a => .ok a
      | none => .error (.missingField name)
    return (value, ← rest.complete slots)

def ofArrayText (levels : Nat) (expected : String) : {ν σ : Type} → Fields ν σ → (index : Nat) →
    (first : Bool) → List Char → Except Stop (Read ν)
  | _, _, .nil, _, _, text => .ok ((), text)
  | _, _, .cons _ d fallback rest, index, first, text => do
    match ← nextItem first text with
    | some text =>
      let (value, text) ← d.ofText levels text
      let (more, text) ← rest.ofArrayText levels expected (index + 1) false text
      return ((value, more), text)
    | none =>
      match fallback with
      | some value =>
        let (more, text) ← rest.ofArrayText levels expected (index + 1) first text
        return ((value, more), text)
      | none => .error (.pending (.invalidLength index expected) (skipSpace text))

/-- Takes the members in declared order from the items of a list, and what is left of it. -/
def ofItems (expected : String) : {ν σ : Type} → Fields ν σ → (index : Nat) → List Json →
    Except Mismatch (ν × List Json)
  | _, _, .nil, _, values => .ok ((), values)
  | _, _, .cons _ d fallback rest, index, values => do
    match values, fallback with
    | value :: values, _ =>
      let a ← d.ofTree value
      let (more, left) ← rest.ofItems expected (index + 1) values
      return ((a, more), left)
    | [], some a =>
      let (more, left) ← rest.ofItems expected (index + 1) []
      return ((a, more), left)
    | [], none => .error (.invalidLength index expected)

end Fields

/-- What a record is called in messages, and whether it refuses members it does not know. -/
structure Form where
  expected : String
  elements : String
  isClosed : Bool := false

def Form.named (name : String) (count : Nat) : Form where
  expected := "struct " ++ name
  elements := s!"struct {name} with {count} element" ++ (if count = 1 then "" else "s")

/-- Reads the members of an object that has been opened; `fuel` exceeds the length of the text. -/
def membersOfText {ν σ : Type} (form : Form) (fields : Fields ν σ) (levels : Nat) :
    (fuel : Nat) → (first : Bool) → σ → List Char → Except Stop (Read ν)
  | 0, _, _, text => .error (.here .endInObject text)
  | fuel + 1, first, slots, text => do
    match ← nextKey first text with
    | none =>
      match fields.complete slots with
      | .ok value => return (value, text)
      | .error m => .error (.pending m (skipSpace text))
    | some (key, rest) =>
      match fields.member (fun d => d.ofText levels) key slots with
      | .repeated => .error (.pending (.duplicateField key) rest)
      | .fresh read =>
        let (slots, rest) ← read (← colon rest)
        membersOfText form fields levels fuel false slots rest
      | .unknown =>
        if form.isClosed then .error (.pending (.unknownField key fields.names) rest)
        else membersOfText form fields levels fuel false slots (← skipValue (← colon rest))

def membersOfTree {ν σ : Type} (form : Form) (fields : Fields ν σ) :
    σ → List (String × Json) → Except Mismatch ν
  | slots, [] => fields.complete slots
  | slots, (key, value) :: rest =>
    match fields.member (F := TreeReader) (fun d => d.ofTree) key slots with
    | .repeated => .error (.duplicateField key)
    | .fresh read => do membersOfTree form fields (← read value) rest
    | .unknown =>
      if form.isClosed then .error (.unknownField key fields.names)
      else membersOfTree form fields slots rest

def membersOfNode {ν σ : Type} (form : Form) (fields : Fields ν σ) :
    σ → List (Node × Node) → Option ν
  | slots, [] => (fields.complete slots).toOption
  | slots, (keyNode, value) :: rest => do
    let key ← string.ofNode keyNode
    match fields.member (F := NodeReader) (fun d => d.ofNode) key slots with
    | .repeated => none
    | .fresh read => membersOfNode form fields (← read value) rest
    | .unknown => if form.isClosed then none else membersOfNode form fields slots rest

def record {ν σ : Type} (form : Form) (fields : Fields ν σ) (make : ν → Except Mismatch α) :
    Decoder α where
  ofText levels text :=
    let built := fun (read : Except Stop (Read ν)) => do
      let (value, rest) ← read
      match make value with
      | .ok a => return (a, rest)
      | .error m => .error (.pending m (skipSpace rest))
    match skipSpace text with
    | '[' :: rest =>
      inArray levels ('[' :: rest) rest fun levels rest =>
        built (fields.ofArrayText levels form.elements 0 true rest)
    | '\x7b' :: rest =>
      inObject levels ('\x7b' :: rest) rest fun levels rest =>
        built (membersOfText form fields levels (rest.length + 1) true fields.blank rest)
    | rest => .error (mistyped form.expected rest)
  ofTree
    | .array values => do
      let (value, left) ← fields.ofItems form.elements 0 values
      let a ← make value
      if left.isEmpty then return a
      else .error (.invalidLength values.length "fewer elements in array")
    | .object values => do make (← membersOfTree form fields fields.blank values)
    | value => .error (.invalidType (found value) form.expected)
  ofNode
    | .mapping _ entries => do
      (make (← membersOfNode form fields fields.blank entries)).toOption
    | .scalar _ .plain "" => do (make (← (fields.complete fields.blank).toOption)).toOption
    | _ => none

def parse (d : Decoder α) (text : String) : Except Fault α :=
  whole (d.ofText maxLevels) text.toList

end Decoder

end Intake
