import Intake.ObjectFile.Transaction
import Intake.Relational.Run
import Intake.Sql.Identifier

set_option autoImplicit false

/-!
Writing transactions to a table. Every row runs in a database transaction of its own, so that a row
that fails is undone alone. A fault that ends the session stops the batch; the session is closed
once, behind the last row.
-/

namespace Intake.Relational

open Intake.Sql Intake.Text Intake.ObjectFile

inductive SkipReason where
  /-- The row would break a constraint, as a row does that is already there. -/
  | integrity
  | other
  deriving DecidableEq, Repr, Inhabited

inductive RowFate where
  | inserted
  | skipped (reason : SkipReason) (error : String)
  deriving DecidableEq, Repr, Inhabited

def SkipReason.ofFault (fault : Fault) : SkipReason :=
  if fault.isConstraint then .integrity else .other

def RowFate.ofFault (fault : Fault) : RowFate := .skipped (.ofFault fault) fault.message

def RowFate.notAttempted (cause : Fault) : RowFate :=
  .skipped .other s!"not attempted, session ended: {cause.message}"

structure SkippedRow where
  transactionId : String
  reason : SkipReason
  error : String
  deriving DecidableEq, Repr, Inhabited

structure RowsOutcome where
  inserted : Nat := 0
  skipped : List SkippedRow := []
  deriving DecidableEq, Repr, Inhabited

namespace RowsOutcome

def skippedRow? (row : Transaction) : RowFate → Option SkippedRow
  | .inserted => none
  | .skipped reason error => some ⟨row.transactionId, reason, error⟩

def ofFates (fates : List (Transaction × RowFate)) : RowsOutcome where
  inserted := fates.countP fun fate => fate.2 = .inserted
  skipped := fates.filterMap fun fate => skippedRow? fate.1 fate.2

def integritySkips (o : RowsOutcome) : Nat := o.skipped.countP fun s => s.reason = .integrity

end RowsOutcome

inductive WriteFault where
  | connect (fault : Fault)
  | config (fault : Fault)
  deriving DecidableEq, Inhabited

def WriteFault.message : WriteFault → String
  | .connect fault => s!"database connection failed: {fault.message}"
  | .config fault => s!"invalid row writer configuration: {fault.message}"

def defaultTable : String := "monetary_transaction"

/-- A writer to a table whose name is accepted, with the statement that inserts one row. -/
structure RowWriter (σ : Type) where
  database : Database σ
  table : String
  statement : String
  statement_eq : insertStatement table columns = .ok statement

namespace RowWriter

variable {σ : Type}

def ofTable (database : Database σ) (table : String) : Except WriteFault (RowWriter σ) :=
  match h : insertStatement table columns with
  | .ok statement => .ok ⟨database, table, statement, h⟩
  | .error fault => .error (.config fault.toFault)

def shown (w : RowWriter σ) : String :=
  Quoted.record "RowWriter" [("database", w.database.kind.text), ("table", Quoted.quote w.table)]

def call (w : RowWriter σ) (c : Call) (state : σ) : Run σ (Option Fault) :=
  let answer := w.database.answer state c
  ⟨answer.1, [.called c answer.1], answer.2⟩

def connectFailed (config : ConnectionConfig) (fault : Fault) : LogEvent :=
  ⟨.error, "Database connection failed",
    [("host", config.host), ("database", config.database), ("error", fault.message)]⟩

def rollbackFailed (row : Transaction) (fault : Fault) : LogEvent :=
  ⟨.warn, "Rollback failed", [("transaction_id", row.transactionId), ("error", fault.message)]⟩

def skipping (row : Transaction) (fault : Fault) : LogEvent :=
  if fault.isConstraint then
    ⟨.warn, "Skipping transaction due to integrity error",
      [("transaction_id", row.transactionId), ("error", fault.message)]⟩
  else
    ⟨.error, "Error inserting transaction",
      [("transaction_id", row.transactionId), ("category", fault.category.text),
        ("error", fault.message)]⟩

def sessionEnded (remaining : Nat) (cause : Fault) : LogEvent :=
  ⟨.warn, "Database session ended, skipping remaining transactions",
    [("remaining", Digits.text remaining), ("error", cause.message)]⟩

def closeFailed (fault : Fault) : LogEvent :=
  ⟨.warn, "Failed to close database connection", [("error", fault.message)]⟩

def finished (w : RowWriter σ) (rows : Nat) (o : RowsOutcome) : LogEvent :=
  ⟨.info, "Row write finished",
    [("table", w.table), ("rows", Digits.text rows), ("inserted", Digits.text o.inserted),
      ("skipped", Digits.text o.skipped.length)]⟩

/-- Undoes a row for a cause, which stays the fault of the row. -/
def undo (w : RowWriter σ) (row : Transaction) (cause : Fault) (state : σ) :
    Run σ (Option Fault) :=
  (w.call .rollback state).andThen fun refusal state =>
    ⟨some cause, (refusal.map fun fault => Effect.logged (rollbackFailed row fault)).toList, state⟩

/-- Writes one row in a transaction of its own; the value is the fault that kept it out. -/
def writeRow (w : RowWriter σ) (row : Transaction) (state : σ) : Run σ (Option Fault) :=
  (w.call .begin state).andThen fun fault state =>
    match fault with
    | some cause => ⟨some cause, [], state⟩
    | none =>
      (w.call (.execute w.statement row.params) state).andThen fun fault state =>
        match fault with
        | none => w.call .commit state
        | some cause => w.undo row cause state

def abandon (rows : List Transaction) (cause : Fault) (state : σ) :
    Run σ (List (Transaction × RowFate)) :=
  ⟨rows.map fun row => (row, .notAttempted cause),
    if rows.isEmpty then [] else [.logged (sessionEnded rows.length cause)], state⟩

/-- Writes rows one after the other until the session ends. -/
def writeRows (w : RowWriter σ) : List Transaction → σ → Run σ (List (Transaction × RowFate))
  | [], state => ⟨[], [], state⟩
  | row :: rows, state =>
    (w.writeRow row state).andThen fun fault state =>
      match fault with
      | none =>
        (w.writeRows rows state).andThen fun fates state => ⟨(row, .inserted) :: fates, [], state⟩
      | some cause =>
        let others :=
          if cause.endsSession then abandon rows cause state else w.writeRows rows state
        (others.after [.logged (skipping row cause)]).andThen fun fates state =>
          ⟨(row, .ofFault cause) :: fates, [], state⟩

def close (w : RowWriter σ) (state : σ) : Run σ Unit :=
  (w.call .close state).andThen fun fault state =>
    ⟨(), (fault.map fun f => Effect.logged (closeFailed f)).toList, state⟩

def write (w : RowWriter σ) (config : ConnectionConfig) (rows : List Transaction) (state : σ) :
    Run σ (Except WriteFault RowsOutcome) :=
  (w.call (.connect config) state).andThen fun fault state =>
    match fault with
    | some fault => ⟨.error (.connect fault), [.logged (connectFailed config fault)], state⟩
    | none =>
      (w.writeRows rows state).andThen fun fates state =>
        let outcome := RowsOutcome.ofFates fates
        (w.close state).andThen fun _ state =>
          ⟨.ok outcome, [.logged (w.finished rows.length outcome)], state⟩

end RowWriter

end Intake.Relational
