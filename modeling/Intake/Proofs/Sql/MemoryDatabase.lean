import Intake.Sql.MemoryDatabase
import Mathlib.Data.List.Basic

set_option autoImplicit false

/-!
What a database in memory makes of one row. A row is kept out because its key ends the session, is
refused, or is taken already, looked at in this order; otherwise it is let in.
-/

namespace Intake.Sql

def droppedAt (key : String) : Fault :=
  .connection s!"server closed the connection while inserting {key}" none

def refusedAt (key : String) : Fault := .query s!"injected failure for key {key}"

def takenAt (key : String) : Fault :=
  .constraint "memory_pkey" s!"duplicate key value ({key})"

def Row.keys (rows : List Row) : List String := rows.filterMap Row.key?

theorem Row.keys_append (front back : List Row) :
    Row.keys (front ++ back) = Row.keys front ++ Row.keys back :=
  List.filterMap_append

theorem Row.keys_singleton {row : Row} {key : String} (named : row.key? = some key) :
    Row.keys [row] = [key] := by
  simp [keys, named]

theorem Row.any_key?_eq (rows : List Row) (key : String) :
    (rows.any fun r => r.key? = some key) = decide (key ∈ Row.keys rows) := by
  rw [Bool.eq_iff_iff, List.any_eq_true, decide_eq_true_iff, keys, List.mem_filterMap]
  simp only [decide_eq_true_iff]

namespace MemoryDatabase

variable {db : MemoryDatabase} {row : Row} {key : String}

def reachedBy (db : MemoryDatabase) (statement : String) : MemoryDatabase :=
  { db with statements := db.statements ++ [statement] }

theorem check_dropping (statement : String) (live : db.lost = false) (named : row.key? = some key)
    (drops : key ∈ db.droppingKeys) :
    db.check [] statement row = (some (droppedAt key), { db.reachedBy statement with lost := true }) := by
  simp [check, live, named, drops, droppedAt, reachedBy]

theorem check_failing (statement : String) (live : db.lost = false) (named : row.key? = some key)
    (drops : key ∉ db.droppingKeys) (fails : key ∈ db.failingKeys) :
    db.check [] statement row = (some (refusedAt key), db.reachedBy statement) := by
  simp [check, live, named, drops, fails, refusedAt, reachedBy]

theorem check_taken (statement : String) (live : db.lost = false) (named : row.key? = some key)
    (drops : key ∉ db.droppingKeys) (fails : key ∉ db.failingKeys)
    (taken : key ∈ Row.keys db.rows) :
    db.check [] statement row = (some (takenAt key), db.reachedBy statement) := by
  have present := Row.any_key?_eq db.rows key
  rw [decide_eq_true taken] at present
  simp only [check, live, named, List.contains_iff_mem, drops, fails, List.nil_append, present,
    Bool.false_eq_true, if_false, if_true, takenAt, reachedBy]

theorem check_free (statement : String) (live : db.lost = false) (named : row.key? = some key)
    (drops : key ∉ db.droppingKeys) (fails : key ∉ db.failingKeys)
    (free : key ∉ Row.keys db.rows) :
    db.check [] statement row = (none, db.reachedBy statement) := by
  have absent := Row.any_key?_eq db.rows key
  rw [decide_eq_false free] at absent
  simp only [check, live, named, List.contains_iff_mem, drops, fails, List.nil_append, absent,
    Bool.false_eq_true, if_false, reachedBy]

end MemoryDatabase

end Intake.Sql
