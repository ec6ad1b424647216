import Intake.Proofs.Relational.Isolation
import Intake.Proofs.Sql.Replies
import Intake.Sql.Postgres.ScriptedServer
import Mathlib.Data.List.Forall2

set_option autoImplicit false

/-!
How the replies of a server decide about rows. The first statement of a row that is not carried out
tells what becomes of the row and whether the batch stops behind it; a row whose statements are all
carried out is in.
-/

namespace Intake.Relational

open Intake.Sql Intake.Sql.Postgres Intake.ObjectFile

/-- A statement and what it came to. -/
structure Judged where
  call : Call
  verdict : Verdict
  deriving Inhabited

/-- The statements that are sent for a row, and the verdict that decides about it: that of the first
one that is not carried out. -/
inductive RowVerdict (statement : String) (row : Transaction) : List Judged → Verdict → Prop where
  | refused (v : Verdict) (fails : v ≠ .done) : RowVerdict statement row [⟨.begin, v⟩] v
  /-- What undoing the row comes to does not matter. -/
  | undone (v undoing : Verdict) (fails : v ≠ .done) :
      RowVerdict statement row
        [⟨.begin, .done⟩, ⟨.execute statement row.params, v⟩, ⟨.rollback, undoing⟩] v
  | ended (v : Verdict) :
      RowVerdict statement row
        [⟨.begin, .done⟩, ⟨.execute statement row.params, .done⟩, ⟨.commit, v⟩] v

/-- What a verdict makes of a row. -/
inductive Decides : Verdict → RowFate → Prop where
  | inserted : Decides .done .inserted
  | skipped {v : Verdict} (fails : v ≠ .done) (error : String) :
      Decides v (.skipped (if v.breaksConstraint then .integrity else .other) error)

/-- A row for which statements were sent, and what became of it. -/
structure Decision where
  row : Transaction
  statements : List Judged
  verdict : Verdict
  fate : RowFate

namespace Decision

/-- The statements of the row are a group, and the verdict that decides about them tells its fate. -/
structure IsSound (statement : String) (d : Decision) : Prop where
  group : RowVerdict statement d.row d.statements d.verdict
  decides : Decides d.verdict d.fate

end Decision

/-- How rows are decided about one after the other until a verdict ends the session. -/
inductive Decided (statement : String) :
    List Transaction → List Decision → List Transaction → List (Transaction × RowFate) → Prop where
  | nil : Decided statement [] [] [] []
  | next {d : Decision} {rows remaining : List Transaction} {decisions : List Decision}
      {fates : List (Transaction × RowFate)} (sound : d.IsSound statement)
      (goesOn : d.verdict.endsSession = false)
      (rest : Decided statement rows decisions remaining fates) :
      Decided statement (d.row :: rows) (d :: decisions) remaining ((d.row, d.fate) :: fates)
  | last {d : Decision} (rows : List Transaction) (cause : Fault) (sound : d.IsSound statement)
      (ends : d.verdict.endsSession = true) :
      Decided statement (d.row :: rows) [d] rows
        ((d.row, d.fate) :: rows.map fun row => (row, .notAttempted cause))

section Groups

variable {statement : String} {row : Transaction} {statements : List Judged} {v : Verdict}

end Groups

namespace Decided

variable {statement : String} {rows remaining : List Transaction} {decisions : List Decision}
  {fates : List (Transaction × RowFate)}

private theorem rows_eq (h : Decided statement rows decisions remaining fates) :
    decisions.map Decision.row ++ remaining = rows := by
  induction h with
  | nil => rfl
  | next _ _ _ ih => rw [List.map_cons, List.cons_append, ih]
  | last rows _ _ _ => rfl

private theorem sound (h : Decided statement rows decisions remaining fates) :
    ∀ d ∈ decisions, d.IsSound statement := by
  induction h with
  | nil => simp
  | next here _ _ ih => exact List.forall_mem_cons.mpr ⟨here, ih⟩
  | last rows _ here _ => exact List.forall_mem_singleton.mpr here

end Decided

section Judge

variable {σ : Type} (server : Server σ)

variable {server}

end Judge

namespace RowWriter

variable {σ : Type}

end RowWriter

end Intake.Relational
