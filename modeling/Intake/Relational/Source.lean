import Intake.Decoder
import Intake.ObjectFile.Notification

set_option autoImplicit false

/-!
Where files and secrets come from, and the login that a secret holds.
-/

namespace Intake.Relational

open Intake.Text

inductive SourceFault where
  | notFound (name : String)
  | accessDenied (name : String)
  | service (detail : String)
  | invalidPayload (detail : String)
  deriving DecidableEq, Repr, Inhabited

def SourceFault.message : SourceFault → String
  | .notFound name => s!"not found: {name}"
  | .accessDenied name => s!"access denied: {name}"
  | .service detail => s!"service error: {detail}"
  | .invalidPayload detail => s!"invalid payload: {detail}"

structure Sources where
  object : ObjectFile.Location → Except SourceFault (List UInt8)
  secret : String → Except SourceFault String

structure Credentials where
  host : String
  username : String
  password : String
  deriving DecidableEq, Repr, Inhabited

namespace Credentials

def decoder : Decoder Credentials :=
  .record (.named "RawCredentials" 3)
    (.cons "host" .string none (.cons "username" .string none (.cons "password" .string none .nil)))
    fun (host, username, password, _) => .ok ⟨host, username, password⟩

def ofSecret (secret : String) : Except SourceFault Credentials :=
  match decoder.parse secret with
  | .ok credentials => .ok credentials
  | .error fault => .error (.invalidPayload s!"database secret: {fault.message}")

/-- The login as diagnostics show it: the password never appears. -/
def shown (c : Credentials) : String :=
  Quoted.record "DbCredentials"
    [("host", Quoted.quote c.host), ("username", Quoted.quote c.username),
      ("password", Quoted.quote "***")]

end Credentials

end Intake.Relational
