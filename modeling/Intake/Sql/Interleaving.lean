import Intake.Sql.MemoryDatabase

set_option autoImplicit false

/-!
Several sessions with one database in memory, and several open transactions, taking steps in any
order. Sessions and transactions have names, which may be given again.
-/

namespace Intake.Sql.Interleaving

open Intake.Text

inductive Step where
  | connect (session : String)
  | begin (session transaction : String)
  /-- Inserts a row that is visible at once. -/
  | insert (session statement : String) (row : Row)
  | stage (transaction statement : String) (row : Row)
  | commit (transaction : String)
  | rollback (transaction : String)
  | close (session : String)
  | isValid (session : String)
  deriving Inhabited

/-- A session that has been opened; it counts as open until it is closed. -/
structure OpenSession where
  /-- How many sessions were opened up to this one. -/
  number : Nat
  closed : Bool := false
  deriving DecidableEq, Repr, Inhabited

/-- A transaction that is neither committed nor rolled back. -/
structure OpenTransaction where
  /-- The number of the session that began it. -/
  session : Nat
  staged : List Row := []
  deriving Inhabited

end Interleaving

open Interleaving in
/-- The database with its sessions and open transactions. -/
structure Interleaving where
  database : MemoryDatabase
  sessions : Dictionary OpenSession := .empty
  transactions : Dictionary OpenTransaction := .empty
  deriving Inhabited

namespace Interleaving

def onSession (s : Interleaving) (name : String)
    (step : OpenSession → StepResult × Interleaving) : StepResult × Interleaving :=
  match s.sessions.get? name with
  | none => (.unknown, s)
  | some session => step session

def onTransaction (s : Interleaving) (name : String)
    (step : OpenTransaction → StepResult × Interleaving) : StepResult × Interleaving :=
  match s.transactions.get? name with
  | none => (.unknown, s)
  | some transaction => step transaction

def perform (s : Interleaving) : Step → StepResult × Interleaving
  | .connect name =>
    match s.database.connect with
    | (some fault, database) => (.refused fault, { s with database })
    | (none, database) =>
      (.done, { s with
        database
        sessions := s.sessions.insert name { number := database.connects } })
  | .begin name transaction =>
    s.onSession name fun session =>
      match s.database.refusal? session.closed with
      | some fault => (.refused fault, s)
      | none =>
        (.done, { s with
          transactions := s.transactions.insert transaction { session := session.number } })
  | .insert name statement row =>
    s.onSession name fun session =>
      let (fault, database) := s.database.insert session.closed statement row
      (.ofFault (.affected 1) fault, { s with database })
  | .stage name statement row =>
    s.onTransaction name fun transaction =>
      let (fault, staged, database) := s.database.stage transaction.staged statement row
      (.ofFault (.affected 1) fault, { s with
        database
        transactions := s.transactions.insert name { transaction with staged } })
  | .commit name =>
    s.onTransaction name fun transaction =>
      let (fault, database) := s.database.commit transaction.staged
      (.ofFault .done fault, { s with database, transactions := s.transactions.erase name })
  | .rollback name =>
    s.onTransaction name fun _ =>
      let (fault, database) := s.database.rollback
      (.ofFault .done fault, { s with database, transactions := s.transactions.erase name })
  | .close name =>
    s.onSession name fun session =>
      (.done, { s with
        database := s.database.close session.closed
        sessions := s.sessions.insert name { session with closed := true } })
  | .isValid name => s.onSession name fun session => (.validity (!session.closed), s)

/-- Takes steps one after the other: what comes of each, and the state that it leaves. -/
def run (s : Interleaving) : List Step → List (StepResult × Interleaving)
  | [] => []
  | step :: steps =>
    let next := s.perform step
    next :: run next.2 steps

end Interleaving

end Intake.Sql
