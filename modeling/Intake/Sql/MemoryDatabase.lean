import Intake.Dictionary
import Intake.Sql.Session

set_option autoImplicit false

/-!
A database in memory: one table whose first parameter is a unique key. Rows of a transaction are
staged and become visible when it commits.
-/

namespace Intake.Sql

open Intake.Text

abbrev Row := List Value

def Row.key? (row : Row) : Option String :=
  row.head?.map fun v => v.asString?.getD v.shown

/-- The state of the database, which all its sessions share. -/
structure MemoryDatabase where
  rows : List Row := []
  statements : List String := []
  failingKeys : List String := []
  /-- The session ends when a row with one of these keys is inserted. -/
  droppingKeys : List String := []
  lost : Bool := false
  connectFailure : Option String := none
  connects : Nat := 0
  closes : Nat := 0
  commits : Nat := 0
  rollbacks : Nat := 0
  deriving Inhabited

namespace MemoryDatabase

def sessionLost : Fault := .connection "server closed the connection unexpectedly" none

def sessionClosed : Fault := .connection "connection is closed" none

def keys (db : MemoryDatabase) : List String := db.rows.filterMap Row.key?

def connect (db : MemoryDatabase) : Option Fault × MemoryDatabase :=
  match db.connectFailure with
  | some message => (some (.connection message none), db)
  | none => (none, { db with connects := db.connects + 1, lost := false })

def refusal? (db : MemoryDatabase) (closed : Bool) : Option Fault :=
  if closed then some sessionClosed
  else if db.lost then some sessionLost
  else none

/-- Checks a row against the committed rows and the staged ones of its transaction. -/
def check (db : MemoryDatabase) (staged : List Row) (statement : String) (row : Row) :
    Option Fault × MemoryDatabase :=
  if db.lost then (some sessionLost, db)
  else
    let db := { db with statements := db.statements ++ [statement] }
    match row.key? with
    | none => (some (.query "no parameters bound"), db)
    | some key =>
      if db.droppingKeys.contains key then
        (some (.connection s!"server closed the connection while inserting {key}" none),
          { db with lost := true })
      else if db.failingKeys.contains key then
        (some (.query s!"injected failure for key {key}"), db)
      else if (staged ++ db.rows).any fun r => r.key? = some key then
        (some (.constraint "memory_pkey" s!"duplicate key value ({key})"), db)
      else (none, db)

def insert (db : MemoryDatabase) (closed : Bool) (statement : String) (row : Row) :
    Option Fault × MemoryDatabase :=
  match db.refusal? closed with
  | some fault => (some fault, db)
  | none =>
    match db.check [] statement row with
    | (some fault, db) => (some fault, db)
    | (none, db) => (none, { db with rows := db.rows ++ [row] })

def stage (db : MemoryDatabase) (staged : List Row) (statement : String) (row : Row) :
    Option Fault × List Row × MemoryDatabase :=
  match db.check staged statement row with
  | (some fault, db) => (some fault, staged, db)
  | (none, db) => (none, staged ++ [row], db)

def commit (db : MemoryDatabase) (staged : List Row) : Option Fault × MemoryDatabase :=
  if db.lost then (some sessionLost, db)
  else (none, { db with rows := db.rows ++ staged, commits := db.commits + 1 })

def rollback (db : MemoryDatabase) : Option Fault × MemoryDatabase :=
  if db.lost then (some sessionLost, db)
  else (none, { db with rollbacks := db.rollbacks + 1 })

/-- Closes a session; only the first time counts. -/
def close (db : MemoryDatabase) (closed : Bool) : MemoryDatabase :=
  if closed then db else { db with closes := db.closes + 1 }

end MemoryDatabase

structure MemorySession where
  database : MemoryDatabase
  closed : Bool := false
  staged : List Row := []
  deriving Inhabited

namespace MemorySession

def answer (s : MemorySession) : Call → Option Fault × MemorySession
  | .connect _ =>
    match s.database.connect with
    | (some fault, db) => (some fault, { s with database := db })
    | (none, db) => (none, ⟨db, false, []⟩)
  | .begin =>
    match s.database.refusal? s.closed with
    | some fault => (some fault, s)
    | none => (none, { s with staged := [] })
  | .execute statement params =>
    let (fault, staged, db) := s.database.stage s.staged statement params
    (fault, { s with database := db, staged })
  | .commit =>
    let (fault, db) := s.database.commit s.staged
    (fault, { s with database := db, staged := [] })
  | .rollback =>
    let (fault, db) := s.database.rollback
    (fault, { s with database := db, staged := [] })
  | .close => (none, { s with database := s.database.close s.closed, closed := true })

def sessions : Database MemorySession := ⟨.memory, answer⟩

end MemorySession

end Intake.Sql
