import Intake.Decoder
import Intake.Item

set_option autoImplicit false

/-!
The key-value store as its writer sees it: a call submits items for a table and either fails or
names the items it has not stored.
-/

namespace Intake.Bulk

open Intake.Text

structure PutRequest where
  item : Item
  deriving DecidableEq, Inhabited

namespace PutRequest

def ofKey (key : String) : PutRequest := ⟨Dictionary.empty.insert keyAttribute key⟩

def key? (r : PutRequest) : Option String := r.item.key?

def decoder : Decoder PutRequest :=
  .record (.named "PutRequest" 1) (.cons "item" (.dictionary .string) none .nil)
    fun (item, _) => .ok ⟨item⟩

def toJson (r : PutRequest) : Json := .object [("item", .texts r.item)]

def shown (r : PutRequest) : String :=
  Quoted.record "PutRequest" [("item", Quoted.dictionary r.item.entries)]

end PutRequest

inductive StoreFaultKind where
  | throttled
  | transport
  | service
  deriving DecidableEq, Repr, Inhabited

structure StoreFault where
  kind : StoreFaultKind
  detail : String
  deriving DecidableEq, Repr, Inhabited

def StoreFaultKind.text : StoreFaultKind → String
  | .throttled => "throttled"
  | .transport => "transport"
  | .service => "service"

def StoreFault.message (f : StoreFault) : String :=
  match f.kind with
  | .throttled => s!"throttled: {f.detail}"
  | .transport => s!"transport error: {f.detail}"
  | .service => s!"service error: {f.detail}"

/-- The requests that a call did not carry out, by table. -/
abbrev Reply := Dictionary (List PutRequest)

namespace Reply

def complete : Reply := Dictionary.empty

def ofUnprocessed (table : String) (requests : List PutRequest) : Reply :=
  if requests.isEmpty then complete else complete.insert table requests

def unprocessed (reply : Reply) (table : String) : List PutRequest := (reply.get? table).getD []

end Reply

/-- What a call to a store answers, and what becomes of its state. -/
structure Store (σ : Type) where
  write : σ → String → List PutRequest → Except StoreFault Reply × σ

end Intake.Bulk
