import Intake.Json.Reader
import Intake.Text.Utf8

set_option autoImplicit false

/-!
Requests to services over a line, and what comes back: an answer with a status, or nothing.
-/

namespace Intake.Cloud

open Intake.Text

structure Answer where
  status : Nat := 200
  /-- The kind of error that the head of the answer names. -/
  errorKind : Option String := none
  body : List UInt8 := []
  isCut : Bool := false
  deriving DecidableEq, Repr, Inhabited

namespace Answer

def isSuccess (a : Answer) : Bool := 200 ≤ a.status && a.status < 300

def text? (a : Answer) : Option (List Char) := (Utf8.decode a.body).toOption

/-- The body as a document; an empty one is an empty object. -/
def json? (a : Answer) : Option Json :=
  if a.body.isEmpty then some (.object [])
  else do (Json.parse (String.ofList (← a.text?))).toOption

end Answer

inductive Delivery where
  | answered (answer : Answer)
  /-- The request cannot be delivered, or no answer comes. -/
  | lost
  deriving DecidableEq, Repr, Inhabited

structure Line (σ ρ : Type) where
  send : σ → ρ → Delivery × σ

structure Site where
  region : Option String
  /-- An address that is used in place of the one of the region. -/
  endpoint : Option String := none
  deriving DecidableEq, Repr, Inhabited

namespace Site

/-- A text that can be the address of a service: a scheme, and something behind it. -/
def isAddress (text : String) : Bool :=
  ["http://", "https://"].any fun scheme => text.startsWith scheme && text ≠ scheme

/-- Requests can be sent only if the region is known and the endpoint, if there is one, is an
address. -/
def isKnown (s : Site) : Bool := s.region.isSome && s.endpoint.all isAddress

end Site

/-- A line whose answers are laid down, after which every request is carried out; it remembers what
was sent. -/
structure ScriptedLine (ρ : Type) where
  deliveries : List Delivery := []
  sent : List ρ := []
  deriving Inhabited

namespace ScriptedLine

variable {ρ : Type}

def usualAnswer : Delivery := .answered { body := Utf8.encode "{}".toList }

def send (s : ScriptedLine ρ) (request : ρ) : Delivery × ScriptedLine ρ :=
  (s.deliveries.headD usualAnswer, ⟨s.deliveries.tail, s.sent ++ [request]⟩)

def line : Line (ScriptedLine ρ) ρ := ⟨send⟩

end ScriptedLine

end Intake.Cloud
