import Intake.Cloud.ItemTable
import Intake.Relational.Source

set_option autoImplicit false

/-!
Secrets behind a line. Only secrets that are texts can be used.
-/

namespace Intake.Cloud

open Intake.Relational

structure SecretRequest where
  secretId : String
  deriving DecidableEq, Repr, Inhabited

def SecretRequest.toJson (r : SecretRequest) : Json := .object [("SecretId", .string r.secretId)]

namespace SecretStore

open ItemTable in
def memberTests : List (String × (Json → Bool)) :=
  [("ARN", isText), ("Name", isText), ("VersionId", isText), ("SecretBinary", isBytesText),
    ("SecretString", isText), ("VersionStages", isListOf isText),
    ("CreatedDate", fun | .number _ => true | _ => false)]

/-- The text of the secret that an answer brings, if it is a text. -/
def text? : Json → Option (Option String)
  | .object members =>
    if memberTests.all fun t => ItemTable.isOptional t.2 (Json.member? members t.1) then
      match Json.member? members "SecretString" with
      | some (.string text) => some (some text)
      | _ => some none
    else none
  | _ => none

def answer (secretId : String) (delivery : Delivery) : Except SourceFault String :=
  match Verdict.ofDelivery "Message" text? delivery with
  | .done (some text) => .ok text
  | .done none => .error (.invalidPayload s!"{secretId} has no string value")
  | .refused (some "ResourceNotFoundException") =>
    .error (.notFound s!"{secretId}: there is no such secret")
  | .refused (some code) => .error (.service s!"{secretId}: {code}")
  | .refused none => .error (.service s!"{secretId}: the answer is not understood")
  | .lost => .error (.service s!"{secretId}: there is no answer")

def get {σ : Type} (site : Site) (line : Line σ SecretRequest) (secretId : String) (state : σ) :
    Except SourceFault String × σ :=
  if site.isKnown then
    let (delivery, state) := line.send state ⟨secretId⟩
    (answer secretId delivery, state)
  else (.error (.service s!"{secretId}: no address is known"), state)

end SecretStore

end Intake.Cloud
