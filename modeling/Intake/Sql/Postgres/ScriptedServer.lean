import Intake.Sql.Postgres.Client

set_option autoImplicit false

/-!
A server that answers by a script and remembers what it has seen.
-/

namespace Intake.Sql.Postgres

open Intake.Text

inductive StartStep where
  | accept
  | askPassword
  /-- Something is asked for that no client offers. -/
  | askOther
  | refuse (error : ServerError)
  | drop
  deriving DecidableEq, Repr, Inhabited

inductive ScriptStep where
  | reply (reply : Reply)
  /-- The preparation of a statement is refused; a request in its place succeeds. -/
  | refusePreparation (error : ServerError)
  deriving DecidableEq, Repr, Inhabited

inductive Sighting where
  | startup (parameters : List (String × String))
  | password (text : String)
  | request (request : Request)
  | preparation (statement : String)
  deriving DecidableEq, Repr, Inhabited

structure ScriptedServer where
  startups : List StartStep := []
  script : List ScriptStep := []
  isDown : Bool := false
  seen : List Sighting := []
  deriving Inhabited

namespace ScriptedServer

def usualTag : String := "INSERT 0 1"

def see (s : ScriptedServer) (sightings : List Sighting) : ScriptedServer :=
  { s with seen := s.seen ++ sightings }

def parameters (config : ConnectionConfig) : List (String × String) :=
  [("client_encoding", "UTF8"), ("user", config.user), ("database", config.database)]
    ++ (config.applicationName.map fun name => ("application_name", name)).toList

def start (s : ScriptedServer) (config : ConnectionConfig) : Opening × ScriptedServer :=
  if s.isDown then (.failed, s)
  else
    let step := s.startups.headD .accept
    let s := { s with startups := s.startups.tail }
    let parameters := parameters config
    if parameters.any fun p => p.2.contains '\x00' then (.failed, s)
    else
      let s := s.see [.startup parameters]
      match step with
      | .accept => (.opened, s)
      | .askPassword => (.opened, s.see [.password config.password])
      | .refuse error => (.refused error, s)
      | .askOther | .drop => (.failed, s)

/-- The number of placeholders of a statement, counted from the first until one is missing; `fuel`
exceeds the number. -/
def placeholders (statement : String) (fuel next : Nat) : Nat :=
  match fuel with
  | 0 => 0
  | fuel + 1 =>
    if (statement.splitOn ("$" ++ Digits.text next)).length ≤ 1 then 0
    else 1 + placeholders statement fuel (next + 1)

def prepare (s : ScriptedServer) (statement : String) : Except ServerError Nat × ScriptedServer :=
  match s.script with
  | .refusePreparation error :: script =>
    (.error error, { s with script }.see [.preparation statement])
  | _ => (.ok (placeholders statement (statement.length + 1) 1), s)

def answer (s : ScriptedServer) (request : Request) : Reply × ScriptedServer :=
  let seen := s.see [.request request]
  match s.script with
  | .reply reply :: script => (reply, { seen with script })
  | .refusePreparation _ :: script => (.done usualTag, { seen with script })
  | [] => (.done usualTag, seen)

def server : Server ScriptedServer := ⟨start, prepare, answer⟩

end ScriptedServer

end Intake.Sql.Postgres
