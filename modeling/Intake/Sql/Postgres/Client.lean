import Intake.Number.Word
import Intake.Sql.Session

set_option autoImplicit false

/-!
A session with a PostgreSQL server. The code of a server's error decides what kind of fault it is;
a line that has gone stays gone.
-/

namespace Intake.Sql.Postgres

open Intake.Text

/-- An error that a server reports; the first two characters of the code are its class. -/
structure ServerError where
  code : String
  message : String
  constraint : Option String := none
  deriving DecidableEq, Repr, Inhabited

/-- The error as a fault; classes without a meaning of their own are faults of the kind that the
statement has. -/
def ServerError.fault (e : ServerError) (other : String → Fault) : Fault :=
  if e.code.startsWith "23" then .constraint (e.constraint.getD e.code) e.message
  else if e.code.startsWith "28" then .authentication e.message
  else if e.code.startsWith "08" then .connection e.message none
  else other e.message

def lineClosed : Fault := .connection "connection is closed" none

inductive Reply where
  /-- The statement has been carried out; the tag ends in the number of rows. -/
  | done (tag : String)
  /-- The statement is refused, and then the server may close the line. -/
  | refused (error : ServerError) (closes : Bool)
  | garbled
  | closed
  deriving DecidableEq, Repr, Inhabited

namespace Reply

def closes : Reply → Bool
  | .done _ => false
  | .refused _ closes => closes
  | .garbled | .closed => true

/-- The tag of a statement that has been carried out, or else the fault. -/
def tag (other : String → Fault) : Reply → Except Fault String
  | .done tag => .ok tag
  | .refused error _ => .error (error.fault other)
  | .garbled => .error (other "error parsing response from server")
  | .closed => .error lineClosed

def fault? (other : String → Fault) (r : Reply) : Option Fault :=
  match r.tag other with
  | .ok _ => none
  | .error fault => some fault

def rowsOfTag (tag : String) : Nat :=
  let last := (tag.toList.reverse.takeWhile (· ≠ ' ')).reverse
  let digits := match last with
    | '+' :: digits => digits
    | digits => digits
  match Digits.natural? digits with
  | some n => if n < Number.Word.count 64 then n else 0
  | none => 0

def rows (r : Reply) : Except Fault Nat := (r.tag .query).map rowsOfTag

end Reply

/-- A statement as a server gets it: alone, or prepared with parameters as texts. -/
inductive Request where
  | query (statement : String)
  | execute (statement : String) (params : List (Option String))
  deriving DecidableEq, Repr, Inhabited

inductive Opening where
  | opened
  | refused (error : ServerError)
  | failed
  deriving DecidableEq, Repr, Inhabited

/-- A server: what it makes of the opening of a session, of a statement to be prepared (how many
parameters it has), and of a request. -/
structure Server (σ : Type) where
  start : σ → ConnectionConfig → Opening × σ
  prepare : σ → String → Except ServerError Nat × σ
  answer : σ → Request → Reply × σ

structure Client (σ : Type) where
  server : σ
  isOpen : Bool
  deriving Inhabited

namespace Client

variable {σ : Type}

def openingFault? (config : ConnectionConfig) : Opening → Option Fault
  | .opened => none
  | .refused error =>
    if error.code.startsWith "28" then some (.authentication "db error")
    else some (.connection s!"failed to connect to {config.host}:{Digits.text config.port}" none)
  | .failed =>
    some (.connection s!"failed to connect to {config.host}:{Digits.text config.port}" none)

def connect (server : Server σ) (config : ConnectionConfig) (c : Client σ) :
    Option Fault × Client σ :=
  let (opening, state) := server.start c.server config
  (openingFault? config opening, ⟨state, opening = .opened⟩)

def send (server : Server σ) (request : Request) (c : Client σ) : Reply × Client σ :=
  if !c.isOpen then (.closed, c)
  else
    let (reply, state) := server.answer c.server request
    (reply, ⟨state, !reply.closes⟩)

def control (server : Server σ) (statement : String) (c : Client σ) : Option Fault × Client σ :=
  let (reply, c) := c.send server (.query statement)
  (reply.fault? .transaction, c)

/-- Prepares a statement, and sends it with its parameters if their number is right. -/
def execute (server : Server σ) (statement : String) (params : List Value) (c : Client σ) :
    Except Fault Nat × Client σ :=
  if !c.isOpen then (.error lineClosed, c)
  else if statement.contains '\x00' then (.error (.query "error encoding message to server"), c)
  else
    let (prepared, state) := server.prepare c.server statement
    match prepared with
    | .error refusal => (.error (refusal.fault .query), ⟨state, true⟩)
    | .ok count =>
      if count ≠ params.length then
        let given := Digits.text params.length
        (.error (.query s!"expected {Digits.text count} parameters but got {given}"),
          ⟨state, true⟩)
      else
        let (reply, c) := send server (.execute statement (params.map (·.text?))) ⟨state, true⟩
        (reply.rows, c)

def close (c : Client σ) : Client σ := { c with isOpen := false }

/-- Asks the server for a sign of life. -/
def isValid (server : Server σ) (c : Client σ) : Bool × Client σ :=
  let (reply, c) := c.send server (.query "SELECT 1")
  ((reply.fault? .query).isNone, c)

def answer (server : Server σ) (c : Client σ) : Call → Option Fault × Client σ
  | .connect config => c.connect server config
  | .begin => c.control server "BEGIN"
  | .execute statement params =>
    match c.execute server statement params with
    | (.error fault, c) => (some fault, c)
    | (.ok _, c) => (none, c)
  | .commit => c.control server "COMMIT"
  | .rollback => c.control server "ROLLBACK"
  | .close => (none, c.close)

end Client

def Server.database {σ : Type} (server : Server σ) : Database (Client σ) :=
  ⟨.server, Client.answer server⟩

end Intake.Sql.Postgres
