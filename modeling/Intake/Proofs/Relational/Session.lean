import Intake.Relational.RowWriter
import Mathlib.Data.List.Basic

set_option autoImplicit false

/-!
The calls of a run. What a run asks of a database stands among its effects with the answers; runs
that follow each other ask one after the other, and every answer is the one that the database gives
in the state that the calls before have left.
-/

namespace Intake.Relational

open Intake.Sql

/-- A call to a database, and why it was refused if it was. -/
structure Answered where
  call : Call
  fault : Option Fault
  deriving Inhabited

namespace Effect

def answered? : Effect → Option Answered
  | .called call fault => some ⟨call, fault⟩
  | _ => none

def answered (effects : List Effect) : List Answered := effects.filterMap answered?

@[simp] theorem answered_nil : answered [] = [] := rfl

@[simp] theorem answered_append (front back : List Effect) :
    answered (front ++ back) = answered front ++ answered back :=
  List.filterMap_append

@[simp] theorem answered_called (call : Call) (fault : Option Fault) (effects : List Effect) :
    answered (.called call fault :: effects) = ⟨call, fault⟩ :: answered effects := rfl

@[simp] theorem answered_logged (event : LogEvent) (effects : List Effect) :
    answered (.logged event :: effects) = answered effects := rfl

@[simp] theorem answered_logged_fault (fault : Option Fault) (event : Fault → LogEvent) :
    answered (fault.map fun f => Effect.logged (event f)).toList = [] := by
  cases fault <;> rfl

end Effect

/-- A database answers calls one after the other and ends in a state. -/
inductive Answers {σ : Type} (db : Database σ) : σ → List Answered → σ → Prop where
  | nil (state : σ) : Answers db state [] state
  | cons {state last : σ} {call : Call} {calls : List Answered}
      (rest : Answers db (db.answer state call).2 calls last) :
      Answers db state (⟨call, (db.answer state call).1⟩ :: calls) last

variable {σ α β : Type} {db : Database σ}

private theorem Answers.append {first middle last : σ} {front back : List Answered}
    (before : Answers db first front middle) (after : Answers db middle back last) :
    Answers db first (front ++ back) last := by
  induction before with
  | nil => exact after
  | cons _ ih => exact .cons (ih after)

namespace Run

@[simp] theorem value_andThen (r : Run σ α) (next : α → σ → Run σ β) :
    (r.andThen next).value = (next r.value r.state).value := rfl

@[simp] theorem answered_andThen (r : Run σ α) (next : α → σ → Run σ β) :
    Effect.answered (r.andThen next).effects =
      Effect.answered r.effects ++ Effect.answered (next r.value r.state).effects :=
  Effect.answered_append _ _

/-- The calls of a run that starts in a state are answered by a database. -/
def IsOf (r : Run σ α) (db : Database σ) (first : σ) : Prop :=
  Answers db first (Effect.answered r.effects) r.state

theorem IsOf.andThen {r : Run σ α} {next : α → σ → Run σ β} {first : σ} (here : r.IsOf db first)
    (behind : (next r.value r.state).IsOf db r.state) : (r.andThen next).IsOf db first := by
  unfold IsOf
  rw [answered_andThen]
  exact Answers.append here behind

theorem isOf_of_answered_nil {value : α} {effects : List Effect} {state : σ}
    (nothing : Effect.answered effects = []) : (⟨value, effects, state⟩ : Run σ α).IsOf db state := by
  unfold IsOf
  rw [nothing]
  exact .nil state

end Run

end Intake.Relational
