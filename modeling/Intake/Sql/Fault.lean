set_option autoImplicit false

/-!
What can go wrong with a database session, and which faults end the session.
-/

namespace Intake.Sql

inductive Category where
  | connection
  | query
  | transaction
  | constraint
  | authentication
  | configuration
  deriving DecidableEq, Repr, Inhabited

def Category.text : Category → String
  | .connection => "connection"
  | .query => "query"
  | .transaction => "transaction"
  | .constraint => "constraint"
  | .authentication => "authentication"
  | .configuration => "configuration"

def Category.endsSession : Category → Bool
  | .connection | .authentication | .configuration => true
  | .query | .transaction | .constraint => false

inductive Fault where
  /-- The session could not be opened, or was lost; `source` is the fault below it. -/
  | connection (message : String) (source : Option String)
  | query (message : String)
  | transaction (message : String)
  /-- A statement would break a constraint of the data. -/
  | constraint (name : String) (message : String)
  | authentication (message : String)
  | configuration (message : String)
  deriving DecidableEq, Repr, Inhabited

namespace Fault

def category : Fault → Category
  | .connection _ _ => .connection
  | .query _ => .query
  | .transaction _ => .transaction
  | .constraint _ _ => .constraint
  | .authentication _ => .authentication
  | .configuration _ => .configuration

def message : Fault → String
  | .connection message _ => s!"connection error: {message}"
  | .query message => s!"query error: {message}"
  | .transaction message => s!"transaction error: {message}"
  | .constraint name message => s!"constraint violation: {name} - {message}"
  | .authentication message => s!"authentication failed: {message}"
  | .configuration message => s!"configuration error: {message}"

def source : Fault → Option String
  | .connection _ source => source
  | _ => none

def isConstraint (f : Fault) : Bool := f.category = .constraint

def endsSession (f : Fault) : Bool := f.category.endsSession

end Fault

end Intake.Sql
