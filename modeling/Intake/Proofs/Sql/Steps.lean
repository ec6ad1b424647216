import Intake.Proofs.Dictionary
import Intake.Proofs.Sql.MemoryDatabase
import Intake.Sql.Interleaving

set_option autoImplicit false

/-!
What a step of a session or of a transaction can come to. All that is shown about runs rests on this
list of cases, and on the states of a run being those behind its first steps.
-/

namespace Intake.Sql

namespace MemoryDatabase

private theorem connect_refused {db : MemoryDatabase} {message : String}
    (fails : db.connectFailure = some message) :
    db.connect = (some (.connection message none), db) := by
  simp only [connect, fails]

theorem connect_opened {db : MemoryDatabase} (works : db.connectFailure = none) :
    db.connect = (none, { db with connects := db.connects + 1, lost := false }) := by
  simp only [connect, works]

/-- What checking a row comes to: the first of these that applies. -/
inductive Checked (db : MemoryDatabase) (staged : List Row) (statement : String) (row : Row) :
    Option Fault → MemoryDatabase → Prop where
  | lost (gone : db.lost = true) : Checked db staged statement row (some sessionLost) db
  | unnamed (live : db.lost = false) (keyless : row.key? = none) :
      Checked db staged statement row (some (.query "no parameters bound")) (db.reachedBy statement)
  | dropped {key : String} (live : db.lost = false) (named : row.key? = some key)
      (drops : key ∈ db.droppingKeys) :
      Checked db staged statement row (some (droppedAt key))
        { db.reachedBy statement with lost := true }
  | failing {key : String} (live : db.lost = false) (named : row.key? = some key)
      (stays : key ∉ db.droppingKeys) (fails : key ∈ db.failingKeys) :
      Checked db staged statement row (some (refusedAt key)) (db.reachedBy statement)
  | taken {key : String} (live : db.lost = false) (named : row.key? = some key)
      (stays : key ∉ db.droppingKeys) (taken : key ∈ Row.keys (staged ++ db.rows)) :
      Checked db staged statement row (some (takenAt key)) (db.reachedBy statement)
  | free {key : String} (live : db.lost = false) (named : row.key? = some key)
      (stays : key ∉ db.droppingKeys) (free : key ∉ Row.keys (staged ++ db.rows)) :
      Checked db staged statement row none (db.reachedBy statement)

private theorem checked_check (db : MemoryDatabase) (staged : List Row) (statement : String)
    (row : Row) : Checked db staged statement row (db.check staged statement row).1
      (db.check staged statement row).2 := by
  unfold check
  by_cases gone : db.lost = true
  · rw [if_pos gone]
    exact .lost gone
  · rw [if_neg gone]
    have live : db.lost = false := Bool.eq_false_iff.mpr gone
    cases named : row.key? with
    | none => exact .unnamed live named
    | some key =>
      simp only [List.contains_iff_mem, Row.any_key?_eq, decide_eq_true_iff]
      by_cases drops : key ∈ db.droppingKeys
      · rw [if_pos drops]
        exact .dropped live named drops
      · rw [if_neg drops]
        by_cases fails : key ∈ db.failingKeys
        · rw [if_pos fails]
          exact .failing live named drops fails
        · rw [if_neg fails]
          by_cases taken : key ∈ Row.keys (staged ++ db.rows)
          · rw [if_pos taken]
            exact .taken live named drops taken
          · rw [if_neg taken]
            exact .free live named drops taken

section Checked

variable {db next : MemoryDatabase} {staged : List Row} {statement : String} {row : Row}
  {fault : Option Fault}

theorem Checked.frame (checked : Checked db staged statement row fault next) :
    ∃ statements lost, next = { db with statements, lost } := by
  cases checked with
  | dropped live named drops => exact ⟨_, true, rfl⟩
  | _ => exact ⟨_, db.lost, rfl⟩

theorem Checked.rows_eq (checked : Checked db staged statement row fault next) :
    next.rows = db.rows := by
  obtain ⟨statements, lost, rfl⟩ := checked.frame
  rfl

theorem Checked.exists_key (checked : Checked db staged statement row none next) :
    ∃ key, row.key? = some key ∧ key ∉ Row.keys staged ∧ key ∉ db.keys := by
  cases checked with
  | @free key live named stays free =>
    rw [Row.keys, List.filterMap_append, List.mem_append, not_or] at free
    exact ⟨key, named, free.1, free.2⟩

end Checked

end MemoryDatabase

namespace Interleaving

def Step.session? : Step → Option String
  | .begin name _ | .insert name _ _ | .close name | .isValid name => some name
  | _ => none

def Step.transaction? : Step → Option String
  | .stage name _ _ | .commit name | .rollback name => some name
  | _ => none

open MemoryDatabase in
/-- What a step can come to, and the state that it leaves. -/
inductive Performs (s : Interleaving) : Step → StepResult → Interleaving → Prop where
  | noSession {step : Step} {name : String} (needs : step.session? = some name)
      (missing : s.sessions.get? name = none) : Performs s step .unknown s
  | noTransaction {step : Step} {name : String} (needs : step.transaction? = some name)
      (missing : s.transactions.get? name = none) : Performs s step .unknown s
  | unreachable {name message : String} (fails : s.database.connectFailure = some message) :
      Performs s (.connect name) (.refused (.connection message none)) s
  | connected (name : String) (works : s.database.connectFailure = none) :
      Performs s (.connect name) .done
        { s with
          database := { s.database with connects := s.database.connects + 1, lost := false }
          sessions := s.sessions.insert name { number := s.database.connects + 1 } }
  | notBegun {name transaction : String} {session : OpenSession} {fault : Fault}
      (known : s.sessions.get? name = some session)
      (refused : s.database.refusal? session.closed = some fault) :
      Performs s (.begin name transaction) (.refused fault) s
  | begun {name : String} (transaction : String) {session : OpenSession}
      (known : s.sessions.get? name = some session)
      (usable : s.database.refusal? session.closed = none) :
      Performs s (.begin name transaction) .done
        { s with
          transactions := s.transactions.insert transaction { session := session.number } }
  | notReached {name statement : String} {row : Row} {session : OpenSession} {fault : Fault}
      (known : s.sessions.get? name = some session)
      (refused : s.database.refusal? session.closed = some fault) :
      Performs s (.insert name statement row) (.refused fault) s
  | notInserted {name statement : String} {row : Row} {session : OpenSession} {fault : Fault}
      {next : MemoryDatabase} (known : s.sessions.get? name = some session)
      (usable : s.database.refusal? session.closed = none)
      (checked : Checked s.database [] statement row (some fault) next) :
      Performs s (.insert name statement row) (.refused fault) { s with database := next }
  | inserted {name statement : String} {row : Row} {session : OpenSession} {next : MemoryDatabase}
      (known : s.sessions.get? name = some session)
      (usable : s.database.refusal? session.closed = none)
      (checked : Checked s.database [] statement row none next) :
      Performs s (.insert name statement row) (.affected 1)
        { s with database := { next with rows := next.rows ++ [row] } }
  | notStaged {name statement : String} {row : Row} {transaction : OpenTransaction} {fault : Fault}
      {next : MemoryDatabase} (known : s.transactions.get? name = some transaction)
      (checked : Checked s.database transaction.staged statement row (some fault) next) :
      Performs s (.stage name statement row) (.refused fault)
        { s with database := next, transactions := s.transactions.insert name transaction }
  | staged {name statement : String} {row : Row} {transaction : OpenTransaction}
      {next : MemoryDatabase} (known : s.transactions.get? name = some transaction)
      (checked : Checked s.database transaction.staged statement row none next) :
      Performs s (.stage name statement row) (.affected 1)
        { s with
          database := next
          transactions := s.transactions.insert name
            { transaction with staged := transaction.staged ++ [row] } }
  | notCommitted {name : String} {transaction : OpenTransaction}
      (known : s.transactions.get? name = some transaction) (gone : s.database.lost = true) :
      Performs s (.commit name) (.refused sessionLost)
        { s with transactions := s.transactions.erase name }
  | committed {name : String} {transaction : OpenTransaction}
      (known : s.transactions.get? name = some transaction) (live : s.database.lost = false) :
      Performs s (.commit name) .done
        { s with
          database := { s.database with
            rows := s.database.rows ++ transaction.staged, commits := s.database.commits + 1 }
          transactions := s.transactions.erase name }
  | notRolledBack {name : String} {transaction : OpenTransaction}
      (known : s.transactions.get? name = some transaction) (gone : s.database.lost = true) :
      Performs s (.rollback name) (.refused sessionLost)
        { s with transactions := s.transactions.erase name }
  | rolledBack {name : String} {transaction : OpenTransaction}
      (known : s.transactions.get? name = some transaction) (live : s.database.lost = false) :
      Performs s (.rollback name) .done
        { s with
          database := { s.database with rollbacks := s.database.rollbacks + 1 }
          transactions := s.transactions.erase name }
  | closed {name : String} {session : OpenSession} (known : s.sessions.get? name = some session) :
      Performs s (.close name) .done
        { s with
          database := s.database.close session.closed
          sessions := s.sessions.insert name { session with closed := true } }
  | looked {name : String} {session : OpenSession} (known : s.sessions.get? name = some session) :
      Performs s (.isValid name) (.validity (!session.closed)) s

private theorem performs_insert (s : Interleaving) {name : String} {session : OpenSession}
    (known : s.sessions.get? name = some session) (statement : String) (row : Row) :
    s.Performs (.insert name statement row) (s.perform (.insert name statement row)).1
      (s.perform (.insert name statement row)).2 := by
  simp only [perform, onSession, known, MemoryDatabase.insert]
  cases usable : s.database.refusal? session.closed with
  | some fault => exact .notReached known usable
  | none =>
    have checked := s.database.checked_check [] statement row
    generalize s.database.check [] statement row = checkedRow at checked
    obtain ⟨_ | fault, next⟩ := checkedRow
    · exact .inserted known usable checked
    · exact .notInserted known usable checked

private theorem performs_stage (s : Interleaving) {name : String} {transaction : OpenTransaction}
    (known : s.transactions.get? name = some transaction) (statement : String) (row : Row) :
    s.Performs (.stage name statement row) (s.perform (.stage name statement row)).1
      (s.perform (.stage name statement row)).2 := by
  simp only [perform, onTransaction, known, MemoryDatabase.stage]
  have checked := s.database.checked_check transaction.staged statement row
  generalize s.database.check transaction.staged statement row = checkedRow at checked
  obtain ⟨_ | fault, next⟩ := checkedRow
  · exact .staged known checked
  · exact .notStaged known checked

theorem performs_perform (s : Interleaving) (step : Step) :
    s.Performs step (s.perform step).1 (s.perform step).2 := by
  cases step with
  | connect name =>
    cases works : s.database.connectFailure with
    | some message =>
      simp only [perform, MemoryDatabase.connect_refused works]
      exact .unreachable works
    | none =>
      simp only [perform, MemoryDatabase.connect_opened works]
      exact .connected name works
  | begin name transaction =>
    simp only [perform, onSession]
    cases known : s.sessions.get? name with
    | none => exact .noSession rfl known
    | some session =>
      simp only
      cases usable : s.database.refusal? session.closed with
      | some fault => exact .notBegun known usable
      | none => exact .begun transaction known usable
  | insert name statement row =>
    cases known : s.sessions.get? name with
    | none =>
      simp only [perform, onSession, known]
      exact .noSession rfl known
    | some session => exact s.performs_insert known statement row
  | stage name statement row =>
    cases known : s.transactions.get? name with
    | none =>
      simp only [perform, onTransaction, known]
      exact .noTransaction rfl known
    | some transaction => exact s.performs_stage known statement row
  | commit name =>
    simp only [perform, onTransaction, MemoryDatabase.commit]
    cases known : s.transactions.get? name with
    | none => exact .noTransaction rfl known
    | some transaction =>
      by_cases gone : s.database.lost = true
      · simp only [if_pos gone]
        exact .notCommitted known gone
      · simp only [if_neg gone]
        exact .committed known (Bool.eq_false_iff.mpr gone)
  | rollback name =>
    simp only [perform, onTransaction, MemoryDatabase.rollback]
    cases known : s.transactions.get? name with
    | none => exact .noTransaction rfl known
    | some transaction =>
      by_cases gone : s.database.lost = true
      · simp only [if_pos gone]
        exact .notRolledBack known gone
      · simp only [if_neg gone]
        exact .rolledBack known (Bool.eq_false_iff.mpr gone)
  | close name =>
    simp only [perform, onSession]
    cases known : s.sessions.get? name with
    | none => exact .noSession rfl known
    | some session => exact .closed known
  | isValid name =>
    simp only [perform, onSession]
    cases known : s.sessions.get? name with
    | none => exact .noSession rfl known
    | some session => exact .looked known

section Runs

def after (s : Interleaving) (steps : List Step) : Interleaving :=
  steps.foldl (fun s step => (s.perform step).2) s

@[simp] theorem after_nil (s : Interleaving) : s.after [] = s := rfl

@[simp] theorem after_cons (s : Interleaving) (step : Step) (steps : List Step) :
    s.after (step :: steps) = (s.perform step).2.after steps := rfl

theorem after_concat (s : Interleaving) (steps : List Step) (step : Step) :
    s.after (steps ++ [step]) = ((s.after steps).perform step).2 := by
  simp [after]

theorem mem_run_iff {s : Interleaving} {steps : List Step} {result : StepResult × Interleaving} :
    result ∈ s.run steps ↔
      ∃ front step back, steps = front ++ step :: back ∧ result = (s.after front).perform step := by
  induction steps generalizing s with
  | nil => simp [run]
  | cons step steps ih =>
    rw [run, List.mem_cons, ih]
    constructor
    · rintro (rfl | ⟨front, later, back, rfl, rfl⟩)
      · exact ⟨[], step, steps, rfl, rfl⟩
      · exact ⟨step :: front, later, back, rfl, rfl⟩
    · rintro ⟨front, later, back, split, rfl⟩
      cases front with
      | nil =>
        obtain ⟨rfl, rfl⟩ := List.cons.inj split
        exact .inl rfl
      | cons first front =>
        obtain ⟨rfl, rfl⟩ := List.cons.inj split
        exact .inr ⟨front, later, back, rfl, rfl⟩

theorem forall_split_cons {first : Step} {steps : List Step} {holds : List Step → Step → Prop} :
    (∀ front step back, first :: steps = front ++ step :: back → holds front step) ↔
      holds [] first ∧
        ∀ front step back, steps = front ++ step :: back → holds (first :: front) step := by
  constructor
  · intro all
    refine ⟨all [] first steps rfl, ?_⟩
    rintro front step back rfl
    exact all (first :: front) step back rfl
  · rintro ⟨here, others⟩ front step back split
    cases front with
    | nil =>
      obtain ⟨rfl, rfl⟩ := List.cons.inj split
      exact here
    | cons other front =>
      obtain ⟨rfl, rfl⟩ := List.cons.inj split
      exact others front step back rfl

theorem exists_split_concat {steps : List Step} {last : Step}
    (holds : List Step → Step → List Step → Prop) :
    (∃ front step back, steps ++ [last] = front ++ step :: back ∧ holds front step back) ↔
      (∃ front step back, steps = front ++ step :: back ∧ holds front step (back ++ [last])) ∨
        holds steps last [] := by
  constructor
  · rintro ⟨front, step, back, split, there⟩
    rcases List.eq_nil_or_concat' back with rfl | ⟨others, final, rfl⟩
    · obtain ⟨rfl, same⟩ := List.append_inj' split rfl
      obtain rfl : last = step := by simpa using same
      exact .inr there
    · rw [← List.cons_append, ← List.append_assoc] at split
      obtain ⟨rfl, same⟩ := List.append_inj' split rfl
      obtain rfl : last = final := by simpa using same
      exact .inl ⟨front, step, others, rfl, there⟩
  · rintro (⟨front, step, back, rfl, there⟩ | there)
    · exact ⟨front, step, back ++ [last], by simp, there⟩
    · exact ⟨steps, last, [], rfl, there⟩

def ofDatabase (db : MemoryDatabase) : Interleaving := { database := db }

end Runs

end Interleaving

end Intake.Sql
