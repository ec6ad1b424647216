import Intake.Json.Printer
import Intake.Relational.RowWriter
import Intake.Relational.Source

set_option autoImplicit false

/-!
From a notification about a file to the table. The file is decoded completely before a secret is
asked for, and the secret is read before a session is opened, so that nothing is written for a file
or a login that is not sound.
-/

namespace Intake.Relational

open Intake.Sql Intake.Text Intake.ObjectFile

structure ErrorResponse where
  statusCode : Nat
  body : String
  deriving DecidableEq, Repr, Inhabited

namespace ErrorResponse

def internal (body : String) : ErrorResponse := ⟨500, body⟩

def toJson (r : ErrorResponse) : Json :=
  .object [("statusCode", .nat r.statusCode), ("body", .string r.body)]

def decoder : Decoder ErrorResponse :=
  .record (.named "ErrorResponse" 2)
    (.cons "statusCode" (.nat "u16" 16) none (.cons "body" .string none .nil))
    fun (statusCode, body, _) => .ok ⟨statusCode, body⟩

end ErrorResponse

inductive PipelineFault where
  | event (fault : EventFault)
  | objectFetch (fault : SourceFault)
  | decode (fault : DecodeFault)
  | secret (fault : SourceFault)
  | database (fault : WriteFault)
  deriving DecidableEq, Inhabited

namespace PipelineFault

def message : PipelineFault → String
  | .event fault => s!"invalid event: {fault.message}"
  | .objectFetch fault => s!"object fetch failed: {fault.message}"
  | .decode fault => s!"transactions file rejected: {fault.message}"
  | .secret fault => s!"credentials unavailable: {fault.message}"
  | .database fault => fault.message

def body : PipelineFault → String
  | .objectFetch fault => s!"Error reading file from S3: {fault.message}"
  | .database fault => s!"Database error: {fault.message}"
  | fault => s!"Unexpected error: {fault.message}"

def response (fault : PipelineFault) : ErrorResponse := .internal fault.body

end PipelineFault

/-- Where rows go; the host and the login come from a secret. -/
structure Target where
  secretId : String
  database : String
  port : Nat := 5432
  timeoutMilliseconds : Nat := 10000
  deriving DecidableEq, Repr, Inhabited

def Target.config (t : Target) (login : Credentials) : ConnectionConfig where
  host := login.host
  port := t.port
  database := t.database
  user := login.username
  password := login.password
  timeoutMilliseconds := t.timeoutMilliseconds

structure Pipeline (σ : Type) where
  sources : Sources
  writer : RowWriter σ
  target : Target

namespace Pipeline

variable {σ : Type}

def loading (l : Location) : LogEvent :=
  ⟨.info, "Loading transactions file", [("bucket", l.bucket), ("key", l.key)]⟩

def loaded (l : Location) (rows : Nat) (o : RowsOutcome) : LogEvent :=
  ⟨.info, "Transactions file loaded",
    [("key", l.key), ("rows", Digits.text rows), ("inserted", Digits.text o.inserted),
      ("skipped", Digits.text o.skipped.length)]⟩

def failed (fault : PipelineFault) : LogEvent :=
  ⟨.error, "Relational load failed", [("error", fault.message)]⟩

/-- What has been found out before a session is opened: the rows and how to reach the table. -/
structure Plan where
  location : Location
  rows : List Transaction
  config : ConnectionConfig

/-- Reads the file and then the secret, and lists what was asked for on the way. -/
def plan (p : Pipeline σ) (n : Notification) : Except PipelineFault Plan × List Effect :=
  match n.location with
  | .error fault => (.error (.event fault), [])
  | .ok location =>
    let fetched := [Effect.logged (loading location), .fetched location]
    match p.sources.object location with
    | .error fault => (.error (.objectFetch fault), fetched)
    | .ok bytes =>
      match Transaction.decodeFile bytes with
      | .error fault => (.error (.decode fault), fetched)
      | .ok rows =>
        let resolved := fetched ++ [.resolved p.target.secretId]
        match p.sources.secret p.target.secretId with
        | .error fault => (.error (.secret fault), resolved)
        | .ok secret =>
          match Credentials.ofSecret secret with
          | .error fault => (.error (.secret fault), resolved)
          | .ok login => (.ok ⟨location, rows, p.target.config login⟩, resolved)

/-- Handles a notification, and says what became of the rows. -/
def process (p : Pipeline σ) (n : Notification) (state : σ) :
    Run σ (Except PipelineFault RowsOutcome) :=
  match p.plan n with
  | (.error fault, effects) => ⟨.error fault, effects, state⟩
  | (.ok plan, effects) =>
    ((p.writer.write plan.config plan.rows state).after effects).andThen fun written state =>
      match written with
      | .error fault => ⟨.error (.database fault), [], state⟩
      | .ok outcome =>
        ⟨.ok outcome, [.logged (loaded plan.location plan.rows.length outcome)], state⟩

/-- Handles a notification; there is a response only if that fails. -/
def handle (p : Pipeline σ) (n : Notification) (state : σ) : Run σ (Option ErrorResponse) :=
  (p.process n state).andThen fun result state =>
    match result with
    | .ok _ => ⟨none, [], state⟩
    | .error fault => ⟨some fault.response, [.logged (failed fault)], state⟩

end Pipeline

end Intake.Relational
