import Intake.Cloud.Collapse
import Intake.Cloud.Verdict
import Intake.Text.Digits

set_option autoImplicit false

/-!
Tables of items behind a line, as a store. Every attribute is sent as a text; of the puts that come
back unprocessed the texts and the numbers are kept.
-/

namespace Intake.Cloud

open Intake.Bulk Intake.Text

structure BatchWrite where
  table : String
  puts : List PutRequest
  deriving DecidableEq, Inhabited

namespace BatchWrite

def itemToJson (item : Item) : Json := .dictionary (fun s => .object [("S", .string s)]) item

def toJson (b : BatchWrite) : Json :=
  .object [("RequestItems", .object [(b.table, .list
    (fun r => .object [("PutRequest", .object [("Item", itemToJson r.item)])]) b.puts)])]

end BatchWrite

namespace ItemTable

def isDigit64 (c : Char) : Bool :=
  Digits.isDigit c || ('A' ≤ c && c ≤ 'Z') || ('a' ≤ c && c ≤ 'z') || c = '+' || c = '/'

/-- Bytes are written in groups of four characters, of which the last may be padded. -/
def isBytes (text : List Char) : Bool :=
  let padding := (text.dropWhile isDigit64).length
  text.length % 4 = 0 && padding ≤ 2 && (text.dropWhile isDigit64).all (· = '=')

def isText : Json → Bool
  | .string _ => true
  | _ => false

def isBytesText : Json → Bool
  | .string s => isBytes s.toList
  | _ => false

def isListOf (test : Json → Bool) : Json → Bool
  | .array items => items.all test
  | _ => false

/-- The members of an attribute that say what it is. -/
def isTelling : String × Json → Bool
  | (_, .null) => false
  | (name, _) => name ≠ "__type"

mutual

def isAttribute : Json → Bool
  | .object members => (members.filter isTelling).length = 1 && areMembers members
  | _ => false

def areMembers : List (String × Json) → Bool
  | [] => true
  | (name, value) :: rest => isMember name value && areMembers rest

/-- A value fits the name of its kind; kinds that are not known fit. -/
def isMember (name : String) (value : Json) : Bool :=
  match value with
  | .null => true
  | .string s =>
    if name = "B" then isBytes s.toList
    else !(["SS", "NS", "BS", "M", "L", "NULL", "BOOL"].contains name)
  | .bool _ => !(["S", "N", "B", "SS", "NS", "BS", "M", "L"].contains name)
  | .number _ => !(["S", "N", "B", "SS", "NS", "BS", "M", "L", "NULL", "BOOL"].contains name)
  | .array items =>
    if name = "L" then areAttributes items
    else if name = "SS" || name = "NS" then items.all isText
    else if name = "BS" then items.all isBytesText
    else !(["S", "N", "B", "M", "NULL", "BOOL"].contains name)
  | .object members =>
    if name = "M" then areNamed members
    else !(["S", "N", "B", "SS", "NS", "BS", "L", "NULL", "BOOL"].contains name)

def areAttributes : List Json → Bool
  | [] => true
  | value :: rest => isAttribute value && areAttributes rest

def areNamed : List (String × Json) → Bool
  | [] => true
  | (_, value) :: rest => isAttribute value && areNamed rest

end

def attributeText? : Json → Option String
  | .object members =>
    match members.filter isTelling with
    | [(name, .string s)] => if name = "S" || name = "N" then some s else none
    | _ => none
  | _ => none

/-- The attributes under a name of a request, if they can be read; left out there are none. -/
def attributes? (name : String) (request : List (String × Json)) :
    Option (List (String × Json)) :=
  match Json.member? request name with
  | none | some .null => some []
  | some (.object attributes) => if areNamed attributes then some attributes else none
  | _ => none

/-- The put of a write that came back, if it is one; `none` if it cannot be read. -/
def put? : Json → Option (Option PutRequest)
  | .object write => do
    match Json.member? write "DeleteRequest" with
    | none | some .null => pure ()
    | some (.object request) => let _ ← attributes? "Key" request
    | _ => none
    match Json.member? write "PutRequest" with
    | none | some .null => return none
    | some (.object request) =>
      let texts := (← attributes? "Item" request).filterMap fun e =>
        (attributeText? e.2).map fun text => (e.1, text)
      return some ⟨.ofList texts⟩
    | _ => none
  | _ => none

def puts? : Json → Option (List PutRequest)
  | .array writes => (writes.mapM put?).map fun puts => puts.filterMap id
  | _ => none

def isOptional (test : Json → Bool) : Option Json → Bool
  | none | some .null => true
  | some value => test value

def isObject : Json → Bool
  | .object _ => true
  | _ => false

def reply? : Json → Option Reply
  | .object members =>
    if isOptional (isListOf isObject) (Json.member? members "ConsumedCapacity")
        && isOptional isObject (Json.member? members "ItemCollectionMetrics") then
      match Json.member? members "UnprocessedItems" with
      | none | some .null => some Reply.complete
      | some (.object tables) =>
        (tables.mapM fun t => (puts? t.2).map fun puts => (t.1, puts)).map Dictionary.ofList
      | _ => none
    else none
  | _ => none

/-- The codes of refusals that ask for patience. -/
def throttlingCodes : List String :=
  ["ProvisionedThroughputExceededException", "RequestLimitExceeded"]

def answer (delivery : Delivery) : Except StoreFault Reply :=
  match Verdict.ofDelivery "message" reply? delivery with
  | .done reply => .ok reply
  | .refused (some code) =>
    .error ⟨if throttlingCodes.contains code then .throttled else .service, code⟩
  | .refused none => .error ⟨.service, "the answer is not understood"⟩
  | .lost => .error ⟨.transport, "there is no answer"⟩

def service {σ : Type} (site : Site) (line : Line σ BatchWrite) : Store σ where
  write state table requests :=
    if site.isKnown then
      let (delivery, state) := line.send state ⟨table, requests⟩
      (answer delivery, state)
    else (.error ⟨.transport, "no address is known"⟩, state)

/-- The tables behind a line as a store that never sends a key twice in a batch. -/
def store {σ : Type} (site : Site) (line : Line σ BatchWrite) : Store σ :=
  collapsing (service site line)

end ItemTable

end Intake.Cloud
