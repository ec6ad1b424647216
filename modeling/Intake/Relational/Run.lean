import Intake.Log
import Intake.ObjectFile.Notification
import Intake.Sql.Session

set_option autoImplicit false

/-!
What happens while a file is loaded into a table: calls to the places around, in their order, and
log events between them.
-/

namespace Intake.Relational

open Intake.Sql

inductive Effect where
  | fetched (location : ObjectFile.Location)
  | resolved (secretId : String)
  /-- A call to the database, and its fault if it is refused. -/
  | called (call : Call) (fault : Option Fault)
  | logged (event : LogEvent)
  deriving Inhabited

namespace Effect

def log (effects : List Effect) : List LogEvent :=
  effects.filterMap fun | .logged event => some event | _ => none

def calls (effects : List Effect) : List Call :=
  effects.filterMap fun | .called call _ => some call | _ => none

def fetches (effects : List Effect) : List ObjectFile.Location :=
  effects.filterMap fun | .fetched location => some location | _ => none

/-- How sessions are asked to be opened. -/
def connections (effects : List Effect) : List ConnectionConfig :=
  (calls effects).filterMap fun | .connect config => some config | _ => none

end Effect

structure Run (σ α : Type) where
  value : α
  effects : List Effect
  state : σ

namespace Run

variable {σ α β : Type}

def andThen (r : Run σ α) (next : α → σ → Run σ β) : Run σ β :=
  let n := next r.value r.state
  { n with effects := r.effects ++ n.effects }

def after (effects : List Effect) (r : Run σ α) : Run σ α :=
  { r with effects := effects ++ r.effects }

end Run

end Intake.Relational
