import Intake.Proofs.Sql.Steps

set_option autoImplicit false

/-!
Keys of committed rows under any order of steps. A row is checked when it is inserted or staged, but a
staged row becomes visible only when its transaction commits, and is not checked again then: keys stay
unique exactly as long as no commit brings a key that has been taken since it was staged.
-/

namespace Intake.Sql

namespace Interleaving

/-- A step is a commit that goes through and brings a key that is taken. -/
def Clashes (s : Interleaving) : Step → Prop
  | .commit name => s.database.lost = false ∧ ∃ transaction,
      s.transactions.get? name = some transaction ∧
        ∃ key ∈ Row.keys transaction.staged, key ∈ s.database.keys
  | _ => False

/-- No transaction has staged a key twice. -/
def StagedOnce (transactions : Dictionary OpenTransaction) : Prop :=
  transactions.Each fun transaction => (Row.keys transaction.staged).Nodup

section Steps

variable {s next : Interleaving} {step : Step} {result : StepResult}

private theorem Performs.stagedOnce (performs : s.Performs step result next)
    (once : StagedOnce s.transactions) : StagedOnce next.transactions := by
  cases performs with
  | begun transaction known usable => exact once.insert transaction List.nodup_nil
  | notStaged known checked => exact once.insert _ (once _ _ known)
  | staged known checked =>
    obtain ⟨key, named, fresh, -⟩ := checked.exists_key
    refine once.insert _ ?_
    rw [Row.keys_append, Row.keys_singleton named]
    exact List.nodup_append_comm.mp (List.nodup_cons.mpr ⟨fresh, once _ _ known⟩)
  | notCommitted known gone => exact once.erase _
  | committed known live => exact once.erase _
  | notRolledBack known gone => exact once.erase _
  | rolledBack known live => exact once.erase _
  | _ => exact once

private theorem not_clashes_of_missing {name : String} (needs : step.transaction? = some name)
    (missing : s.transactions.get? name = none) : ¬ s.Clashes step := by
  cases step with
  | commit other =>
    obtain rfl := Option.some.inj needs
    rintro ⟨-, transaction, known, -⟩
    simp [missing] at known
  | _ => exact id

private theorem not_clashes_of_session {name : String} (needs : step.session? = some name) :
    ¬ s.Clashes step := by
  cases step with
  | commit other => simp [Step.session?] at needs
  | _ => exact id

/-- A step keeps keys unique unless it clashes. -/
theorem Performs.keys_nodup_iff (performs : s.Performs step result next)
    (once : StagedOnce s.transactions) :
    next.database.keys.Nodup ↔ s.database.keys.Nodup ∧ ¬ s.Clashes step := by
  have unchanged (same : next.database.rows = s.database.rows) (calm : ¬ s.Clashes step) :
      next.database.keys.Nodup ↔ s.database.keys.Nodup ∧ ¬ s.Clashes step := by
    rw [MemoryDatabase.keys, same]
    exact (and_iff_left calm).symm
  cases performs with
  | noSession needs missing => exact unchanged rfl (not_clashes_of_session needs)
  | noTransaction needs missing => exact unchanged rfl (not_clashes_of_missing needs missing)
  | notInserted known usable checked => exact unchanged checked.rows_eq id
  | notStaged known checked => exact unchanged checked.rows_eq id
  | staged known checked => exact unchanged checked.rows_eq id
  | notCommitted known gone =>
    refine unchanged rfl ?_
    rintro ⟨live, -⟩
    simp [gone] at live
  | @inserted name statement row session checkedNext known usable checked =>
    obtain ⟨key, named, -, free⟩ := checked.exists_key
    have keys : Row.keys (checkedNext.rows ++ [row]) = s.database.keys ++ [key] := by
      rw [Row.keys_append, Row.keys_singleton named, checked.rows_eq]
      rfl
    show (Row.keys (checkedNext.rows ++ [row])).Nodup ↔ _
    rw [keys, List.nodup_append_comm, List.singleton_append, List.nodup_cons]
    simp [Clashes, free]
  | @committed name transaction known live =>
    -- The staged rows were checked one by one when they came, but not against what has come since.
    have keys : Row.keys (s.database.rows ++ transaction.staged) =
        s.database.keys ++ Row.keys transaction.staged := Row.keys_append _ _
    show (Row.keys (s.database.rows ++ transaction.staged)).Nodup ↔ _
    rw [keys, List.nodup_append']
    refine and_congr_right fun _ => ?_
    simp only [once name transaction known, true_and, Clashes, live, known, Option.some.injEq,
      exists_eq_left', not_exists, not_and]
    exact ⟨fun apart key staged taken => apart taken staged,
      fun apart key taken staged => apart key staged taken⟩
  | closed known =>
    refine unchanged ?_ id
    simp only [MemoryDatabase.close]
    split <;> rfl
  | _ => exact unchanged rfl id

end Steps

section Runs

variable {s : Interleaving} {steps : List Step}

private theorem stagedOnce_after (once : StagedOnce s.transactions) (steps : List Step) :
    StagedOnce (s.after steps).transactions := by
  induction steps generalizing s with
  | nil => exact once
  | cons step steps ih => exact ih ((s.performs_perform step).stagedOnce once)

private theorem keys_nodup_after (once : StagedOnce s.transactions) (unique : s.database.keys.Nodup)
    (calm : ∀ front step back, steps = front ++ step :: back → ¬ (s.after front).Clashes step) :
    (s.after steps).database.keys.Nodup := by
  induction steps generalizing s with
  | nil => exact unique
  | cons step steps ih =>
    obtain ⟨here, others⟩ := forall_split_cons.mp calm
    have performs := s.performs_perform step
    exact ih (performs.stagedOnce once) ((performs.keys_nodup_iff once).mpr ⟨unique, here⟩) others

private theorem keys_nodup_of_mem_run (once : StagedOnce s.transactions)
    (unique : s.database.keys.Nodup)
    (calm : ∀ front step back, steps = front ++ step :: back → ¬ (s.after front).Clashes step)
    {result : StepResult × Interleaving} (there : result ∈ s.run steps) :
    result.2.database.keys.Nodup := by
  obtain ⟨front, step, back, rfl, rfl⟩ := mem_run_iff.mp there
  rw [← after_concat]
  refine keys_nodup_after once unique ?_
  intro before other behind split
  refine calm before other (behind ++ back) ?_
  rw [← List.singleton_append, ← List.append_assoc, split]
  simp

private theorem stagedOnce_ofDatabase (db : MemoryDatabase) :
    StagedOnce (ofDatabase db).transactions := by
  intro name transaction there
  simp [ofDatabase] at there

end Runs

section Exclusion

/-- A step brings no key that another transaction has staged. -/
def Exclusive (s : Interleaving) : Step → Prop
  | .insert _ _ row => ∀ name transaction, s.transactions.get? name = some transaction →
      ∀ key ∈ row.key?, key ∉ Row.keys transaction.staged
  | .commit name => ∀ transaction, s.transactions.get? name = some transaction →
      ∀ other rival, other ≠ name → s.transactions.get? other = some rival →
        (Row.keys transaction.staged).Disjoint (Row.keys rival.staged)
  | _ => True

/-- No transaction has staged a key that is taken. -/
def StagedFree (keys : List String) (transactions : Dictionary OpenTransaction) : Prop :=
  transactions.Each fun transaction => (Row.keys transaction.staged).Disjoint keys

variable {s next : Interleaving} {step : Step} {result : StepResult}

private theorem Performs.stagedFree (performs : s.Performs step result next)
    (exclusive : s.Exclusive step) (free : StagedFree s.database.keys s.transactions) :
    StagedFree next.database.keys next.transactions := by
  cases performs with
  | begun transaction known usable => exact free.insert transaction (List.disjoint_nil_left _)
  | notInserted known usable checked =>
    rw [MemoryDatabase.keys, checked.rows_eq]
    exact free
  | notStaged known checked =>
    rw [MemoryDatabase.keys, checked.rows_eq]
    exact free.insert _ (free _ _ known)
  | @staged name statement row transaction checkedNext known checked =>
    obtain ⟨key, named, -, fresh⟩ := checked.exists_key
    rw [MemoryDatabase.keys, checked.rows_eq]
    refine free.insert _ ?_
    rw [Row.keys_append, Row.keys_singleton named, List.disjoint_append_left]
    exact ⟨free name transaction known, List.singleton_disjoint.mpr fresh⟩
  | @inserted name statement row session checkedNext known usable checked =>
    obtain ⟨key, named, -, -⟩ := checked.exists_key
    intro other rival there
    show (Row.keys rival.staged).Disjoint (Row.keys (checkedNext.rows ++ [row]))
    rw [Row.keys_append, Row.keys_singleton named, checked.rows_eq, List.disjoint_append_right]
    exact ⟨free other rival there, List.disjoint_singleton.mpr (exclusive other rival there key named)⟩
  | notCommitted known gone => exact free.erase _
  | @committed name transaction known live =>
    refine Dictionary.each_erase fun other rival different there => ?_
    show (Row.keys rival.staged).Disjoint (Row.keys (s.database.rows ++ transaction.staged))
    rw [Row.keys_append, List.disjoint_append_right]
    exact ⟨free other rival there, List.disjoint_symm (exclusive transaction known other rival different there)⟩
  | notRolledBack known gone => exact free.erase _
  | rolledBack known live => exact free.erase _
  | closed known =>
    simp only [MemoryDatabase.close]
    split <;> exact free
  | _ => exact free

private theorem not_clashes_of_stagedFree (free : StagedFree s.database.keys s.transactions) :
    ¬ s.Clashes step := by
  cases step with
  | commit name =>
    rintro ⟨-, transaction, known, key, staged, taken⟩
    exact free name transaction known staged taken
  | _ => exact id

private theorem stagedFree_after {steps : List Step}
    (free : StagedFree s.database.keys s.transactions)
    (exclusive : ∀ front step back, steps = front ++ step :: back → (s.after front).Exclusive step) :
    StagedFree (s.after steps).database.keys (s.after steps).transactions := by
  induction steps generalizing s with
  | nil => exact free
  | cons step steps ih =>
    obtain ⟨here, others⟩ := forall_split_cons.mp exclusive
    exact ih ((s.performs_perform step).stagedFree here free) others

theorem run_keys_nodup_of_exclusive (db : MemoryDatabase) (unique : db.keys.Nodup)
    (steps : List Step) (exclusive : ∀ front step back, steps = front ++ step :: back →
      ((ofDatabase db).after front).Exclusive step) :
    ∀ result ∈ (ofDatabase db).run steps, result.2.database.keys.Nodup := by
  intro result there
  refine keys_nodup_of_mem_run (stagedOnce_ofDatabase db) unique ?_ there
  rintro front step back rfl
  refine not_clashes_of_stagedFree (stagedFree_after ?_ ?_)
  · intro name transaction there
    simp [ofDatabase] at there
  · rintro before other behind rfl
    exact exclusive before other (behind ++ step :: back) (by simp)

end Exclusion

/-- Committed keys are unique at every point of a run exactly if no commit brings a key that has been
taken since it was staged. -/
theorem run_keys_nodup_iff (db : MemoryDatabase) (unique : db.keys.Nodup) (steps : List Step) :
    (∀ result ∈ (ofDatabase db).run steps, result.2.database.keys.Nodup) ↔
      ∀ front step back, steps = front ++ step :: back →
        ¬ ((ofDatabase db).after front).Clashes step := by
  have once := stagedOnce_ofDatabase db
  constructor
  · intro all front step back split
    have behind := all _ (mem_run_iff.mpr ⟨front, step, back, split, rfl⟩)
    have performs := ((ofDatabase db).after front).performs_perform step
    exact ((performs.keys_nodup_iff (stagedOnce_after once front)).mp behind).2
  · intro calm result there
    exact keys_nodup_of_mem_run once unique calm there

def overlapping : List Step :=
  [.connect "c", .begin "c" "t", .begin "c" "u", .stage "t" "INSERT" [.string "a"],
    .stage "u" "INSERT" [.string "a"], .commit "t", .commit "u"]

theorem run_keys_nodup_iff_overlapping : (MemoryDatabase.keys {}).Nodup ∧
    ((∀ result ∈ (ofDatabase {}).run overlapping, result.2.database.keys.Nodup) ↔
      ∀ front step back, overlapping = front ++ step :: back →
        ¬ ((ofDatabase {}).after front).Clashes step) :=
  ⟨by decide, run_keys_nodup_iff {} (by decide) overlapping⟩

theorem not_unique_of_overlapping : ¬ ∀ db : MemoryDatabase, db.keys.Nodup → ∀ steps,
    ∀ result ∈ (ofDatabase db).run steps, result.2.database.keys.Nodup := by
  intro all
  have unique := all {} (by decide) overlapping
  have keys : ((ofDatabase {}).run overlapping).map (fun r => r.2.database.keys) =
      [[], [], [], [], [], ["a"], ["a", "a"]] := by decide
  have each : ∀ known ∈ ((ofDatabase {}).run overlapping).map (fun r => r.2.database.keys),
      known.Nodup := List.forall_mem_map.mpr unique
  rw [keys] at each
  exact absurd (each ["a", "a"] (by simp)) (by decide)

end Interleaving

end Intake.Sql
