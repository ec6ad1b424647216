import Intake.Sql.Postgres.Client

set_option autoImplicit false

/-!
What the replies of a server amount to. A statement is carried out, or refused with a code, or the line
is closed. The code alone tells whether the fault is a broken constraint and whether it ends the session,
whichever statement it answers.
-/

namespace Intake.Sql.Postgres

/-- What a statement comes to. -/
inductive Verdict where
  | done
  /-- The server has refused the statement, with a code. -/
  | refused (code : String)
  | closed
  /-- What came back is no reply, or the statement cannot be sent. -/
  | unusable
  deriving DecidableEq, Inhabited

namespace Verdict

def breaksConstraint : Verdict → Bool
  | .refused code => code.startsWith "23"
  | _ => false

/-- The line is closed, or the code is of the class of lost or of unauthorized sessions. -/
def endsSession : Verdict → Bool
  | .refused code => code.startsWith "08" || code.startsWith "28"
  | .closed => true
  | _ => false

/-- A fault tells what a verdict does. -/
structure Tells (v : Verdict) (fault : Option Fault) : Prop where
  none_iff : fault = none ↔ v = .done
  isConstraint_eq : ∀ cause ∈ fault, cause.isConstraint = v.breaksConstraint
  endsSession_eq : ∀ cause ∈ fault, cause.endsSession = v.endsSession

end Verdict

variable {other : String → Fault}

namespace Reply

def verdict : Reply → Verdict
  | .done _ => .done
  | .refused error _ => .refused error.code
  | .garbled => .unusable
  | .closed => .closed

end Reply

namespace Client

variable {σ : Type} (server : Server σ) (c : Client σ)

/-- What a statement with parameters comes to: it is prepared first. -/
def executeVerdict (statement : String) (params : List Value) : Verdict :=
  if !c.isOpen then .closed
  else if statement.contains '\x00' then .unusable
  else
    let (prepared, state) := server.prepare c.server statement
    match prepared with
    | .error refusal => .refused refusal.code
    | .ok count =>
      if count ≠ params.length then .unusable
      else (send server (.execute statement (params.map (·.text?))) ⟨state, true⟩).1.verdict

/-- What a statement of a session comes to; opening and closing a session are none. -/
def verdict : Call → Verdict
  | .begin => (c.send server (.query "BEGIN")).1.verdict
  | .execute statement params => c.executeVerdict server statement params
  | .commit => (c.send server (.query "COMMIT")).1.verdict
  | .rollback => (c.send server (.query "ROLLBACK")).1.verdict
  | .connect _ | .close => .done

end Client

end Intake.Sql.Postgres
