import Intake.Sql.Fault
import Intake.Sql.Value
import Intake.Text.Quoted
import Intake.Time.Span

set_option autoImplicit false

/-!
Sessions with a database: how one is opened, the calls that are made on it, and what a database
makes of them.
-/

namespace Intake.Sql

open Intake.Text Intake.Time

structure ConnectionConfig where
  host : String
  port : Nat := 5432
  database : String
  user : String := ""
  password : String := ""
  timeoutMilliseconds : Nat := 10000
  applicationName : Option String := some "ledgerflow"
  deriving DecidableEq, Repr, Inhabited

namespace ConnectionConfig

def timeout (c : ConnectionConfig) : Span := .ofMilliseconds c.timeoutMilliseconds

def shown (c : ConnectionConfig) : String :=
  Quoted.record "ConnectionConfig"
    [("host", Quoted.quote c.host), ("port", Digits.text c.port),
      ("database", Quoted.quote c.database), ("user", Quoted.quote c.user),
      ("password", Quoted.quote "***"),
      ("connect_timeout_ms", Digits.text c.timeoutMilliseconds),
      ("application_name", Quoted.option Quoted.quote c.applicationName)]

end ConnectionConfig

inductive DatabaseKind where
  | server
  | memory
  deriving DecidableEq, Repr, Inhabited

def DatabaseKind.text : DatabaseKind → String
  | .server => "PostgreSQL"
  | .memory => "Memory"

inductive Call where
  | connect (config : ConnectionConfig)
  | begin
  | execute (statement : String) (params : List Value)
  | commit
  | rollback
  | close
  deriving Inhabited

/-- A database: why it refuses a call if it does, and what becomes of its state. -/
structure Database (σ : Type) where
  kind : DatabaseKind
  answer : σ → Call → Option Fault × σ

inductive StepResult where
  | done
  | affected (rows : Nat)
  | validity (usable : Bool)
  | refused (fault : Fault)
  | unknown
  deriving DecidableEq, Inhabited

def StepResult.ofFault (success : StepResult) : Option Fault → StepResult
  | none => success
  | some fault => .refused fault

inductive CallKind where
  | connect
  | begin
  | execute
  | commit
  | rollback
  | close
  deriving DecidableEq, Repr, Inhabited

def Call.kind : Call → CallKind
  | .connect _ => .connect
  | .begin => .begin
  | .execute _ _ => .execute
  | .commit => .commit
  | .rollback => .rollback
  | .close => .close

structure Interruption where
  kind : CallKind
  /-- How many calls of that kind come before it. -/
  after : Nat
  fault : Fault
  deriving DecidableEq, Inhabited

/-- A database some of whose calls are refused; it remembers the kinds of all calls. -/
def Database.interrupted {σ : Type} (db : Database σ) (plan : List Interruption) :
    Database (σ × List CallKind) where
  kind := db.kind
  answer state call :=
    let (inner, seen) := state
    let planned := plan.find? fun i => i.kind = call.kind && i.after = seen.count call.kind
    let seen := seen ++ [call.kind]
    match planned with
    | some i => (some i.fault, inner, seen)
    | none =>
      let (fault, inner) := db.answer inner call
      (fault, inner, seen)

end Intake.Sql
