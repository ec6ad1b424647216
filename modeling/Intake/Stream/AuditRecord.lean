import Intake.Item
import Intake.Json.Printer
import Intake.Log
import Intake.Stream.Envelope
import Intake.Time.Calendar

set_option autoImplicit false

/-!
Audit records: what is kept of a message. A message without an identifier, or whose content is not
an object, is rejected; any other detail that is missing gets a default.
-/

namespace Intake.Stream

open Intake.Text Intake.Time

structure AuditRecord where
  logId : String
  transactionType : String
  actorId : String
  targetId : String
  timestamp : String
  deriving DecidableEq, Repr, Inhabited

def unknown : String := "UNKNOWN"

def AuditRecord.toItem (r : AuditRecord) : Item :=
  .ofList [(keyAttribute, r.logId), ("transaction_type", r.transactionType),
    ("actor_id", r.actorId), ("target_id", r.targetId), ("timestamp", r.timestamp)]

inductive RejectionCause where
  | missingId
  | notJson (fault : Json.Fault)
  | notObject (kind : String)
  deriving Inhabited

/-- A message that is no record. -/
structure Rejection where
  position : Position
  cause : RejectionCause
  deriving Inhabited

def Rejection.message (r : Rejection) : String :=
  match r.cause with
  | .missingId => s!"missing message_id at {r.position.text}"
  | .notJson fault => s!"invalid payload at {r.position.text}: {fault.message}"
  | .notObject kind => s!"invalid payload at {r.position.text}: expected JSON object, got {kind}"

def Rejection.warning (r : Rejection) : LogEvent :=
  ⟨.warn, "Skipping message",
    [("partition", Quoted.option Digits.integerText r.position.partition),
      ("offset", Quoted.option Digits.integerText r.position.offset), ("reason", r.message)]⟩

/-- A detail as text: texts as they are, other values in compact notation; null is no detail. -/
def detail? (members : List (String × Json)) (name : String) : Option String :=
  match Json.member? members name with
  | none => none
  | some .null => none
  | some (.string s) => some s
  | some value => some value.tidy.text

namespace AuditRecord

/-- The record that the members of a message describe; `received` is the time of a message that
names none. -/
def ofMembers? (received : String) (members : List (String × Json)) : Option AuditRecord :=
  match Json.member? members "message_id" with
  | some (.string id) =>
    if id = "" then none
    else some {
      logId := id
      transactionType := (detail? members "transaction_type").getD unknown
      actorId := (detail? members "actor_id").getD unknown
      targetId := (detail? members "target_id").getD unknown
      timestamp := (detail? members "timestamp").getD received }
  | _ => none

/-- The record of a message; `received` is the time of a message that names none. -/
def ofEnvelope (received : String) (e : Envelope) : Except Rejection AuditRecord :=
  match Json.parse e.value with
  | .error fault => .error ⟨e.position, .notJson fault⟩
  | .ok (.object members) =>
    match ofMembers? received members with
    | some record => .ok record
    | none => .error ⟨e.position, .missingId⟩
  | .ok other => .error ⟨e.position, .notObject other.kind⟩

def ofEnvelopeAt (now : Instant) (e : Envelope) : Except Rejection AuditRecord :=
  ofEnvelope now.unixText e

def toJson (r : AuditRecord) : Json :=
  .object [("log_id", .string r.logId), ("transaction_type", .string r.transactionType),
    ("actor_id", .string r.actorId), ("target_id", .string r.targetId),
    ("timestamp", .string r.timestamp)]

end AuditRecord

structure Normalized where
  records : List AuditRecord
  rejected : List Rejection
  deriving Inhabited

def normalize (received : String) (envelopes : List Envelope) : Normalized :=
  envelopes.foldr (fun e rest =>
    match AuditRecord.ofEnvelope received e with
    | .ok record => { rest with records := record :: rest.records }
    | .error rejection => { rest with rejected := rejection :: rest.rejected }) ⟨[], []⟩

def Normalized.log (n : Normalized) : List LogEvent := n.rejected.map Rejection.warning

end Intake.Stream
