import Intake.Proofs.Sql.History

set_option autoImplicit false

/-!
The committed rows of a database in memory as a serial history. However the steps of sessions and
transactions are mixed, the rows at any point are those that were there at first and then what each
insertion and each commit has made visible, in their order; and the counters count what went through.
-/

namespace Intake.Sql.Interleaving

open MemoryDatabase

def history (s : Interleaving) (steps : List Step) : List Event :=
  (steps.zip (s.run steps)).mapIdx fun place taken => ⟨place, taken.1, taken.2.1⟩

section Histories

variable (s : Interleaving) (steps : List Step) (step : Step)

private theorem run_concat :
    s.run (steps ++ [step]) = s.run steps ++ [(s.after steps).perform step] := by
  induction steps generalizing s with
  | nil => rfl
  | cons first steps ih => rw [List.cons_append, run, run, ih, List.cons_append, after_cons]

private theorem length_run : (s.run steps).length = steps.length := by
  induction steps generalizing s with
  | nil => rfl
  | cons first steps ih => rw [run, List.length_cons, List.length_cons, ih]

private theorem history_concat : s.history (steps ++ [step]) =
    s.history steps ++ [⟨steps.length, step, ((s.after steps).perform step).1⟩] := by
  have equal : steps.length = (s.run steps).length := (s.length_run steps).symm
  rw [history, run_concat, List.zip_append equal, List.mapIdx_append]
  simp [history, s.length_run steps]

private theorem history_grows (more : List Step) :
    s.history steps <+: s.history (steps ++ more) := by
  induction more using List.reverseRecOn with
  | nil => simp
  | append_singleton more last ih =>
    rw [← List.append_assoc, history_concat]
    exact ih.trans (List.prefix_append _ _)

private theorem map_place_history :
    (s.history steps).map Event.place = List.range steps.length := by
  induction steps using List.reverseRecOn with
  | nil => rfl
  | append_singleton steps last ih =>
    rw [history_concat, List.map_append, ih, List.length_append, List.length_singleton,
      List.range_succ]
    rfl

private theorem nodup_history : (s.history steps).Nodup := by
  apply List.Nodup.of_map Event.place
  rw [map_place_history]
  exact List.nodup_range

end Histories

/-- What a state holds behind a history that began with the rows and the counters of a database. -/
structure Behind (db : MemoryDatabase) (past : List Event) (s : Interleaving) : Prop where
  rows : s.database.rows = db.rows ++ (visible past).filterMap Event.row?
  staged : ∀ name transaction, s.transactions.get? name = some transaction →
    transaction.staged = (pending name past).filterMap Event.row?
  closed : ∀ name session, s.sessions.get? name = some session →
    session.closed = isClosed name past
  commits : s.database.commits = db.commits + past.countP fun e => e.committed?.isSome
  rollbacks : s.database.rollbacks = db.rollbacks + past.countP Event.rollsBack
  connects : s.database.connects = db.connects + past.countP Event.connects
  closes : s.database.closes = db.closes + closedOnce past

section Steps

variable {db : MemoryDatabase} {past : List Event} {s next : Interleaving} {step : Step}
  {result : StepResult}

private theorem Performs.rows_published (performs : s.Performs step result next)
    (behind : Behind db past s) (place : Nat) : next.database.rows =
      s.database.rows ++ (published past ⟨place, step, result⟩).filterMap Event.row? := by
  cases performs with
  | noSession needs missing => cases step <;> simp [published]
  | noTransaction needs missing => cases step <;> simp [published]
  | notInserted known usable checked => simp [published, checked.rows_eq]
  | inserted known usable checked => simp [published, checked.rows_eq, Event.row?, Step.row?]
  | notStaged known checked => simp [published, checked.rows_eq]
  | staged known checked => simp [published, checked.rows_eq]
  | committed known live => simp [published, behind.staged _ _ known]
  | @closed name session known => cases session.closed <;> simp [published, close]
  | _ => simp [published]

private theorem Performs.staged_pending (performs : s.Performs step result next)
    (behind : Behind db past s) (place : Nat) (name : String) (transaction : OpenTransaction)
    (there : next.transactions.get? name = some transaction) :
    transaction.staged =
      (pending name (past ++ [⟨place, step, result⟩])).filterMap Event.row? := by
  have kept {e : Event} (before : s.transactions.get? name = some transaction)
      (inside : e.delimits name = false) (other : e.executes name = false) :
      transaction.staged = (pending name (past ++ [e])).filterMap Event.row? := by
    rw [pending_of_other past e inside other]
    exact behind.staged name transaction before
  have ended {under : String} {e : Event} (delimits : e.delimits name = decide (under = name))
      (other : e.executes name = false)
      (left : (s.transactions.erase under).get? name = some transaction) :
      transaction.staged = (pending name (past ++ [e])).filterMap Event.row? := by
    rw [Dictionary.get?_erase] at left
    split at left
    · simp at left
    next different => exact kept left (delimits.trans (decide_eq_false (Ne.symm different))) other
  cases performs with
  | noSession needs missing =>
    refine kept there ?_ ?_
    · cases step <;> simp_all [Step.session?, Event.delimits]
    · cases step <;> rfl
  | @noTransaction _ under needs missing =>
    have different : under ≠ name := by
      rintro rfl
      simp [missing] at there
    refine kept there ?_ ?_
    · cases step <;> simp_all [Step.transaction?, Event.delimits]
    · cases step <;> rfl
  | @begun session under opened known usable =>
    rw [Dictionary.get?_insert] at there
    split at there
    next same =>
      obtain rfl := Option.some.inj there
      have delimits : Event.delimits name ⟨place, .begin session under, .done⟩ = true :=
        decide_eq_true same.symm
      rw [pending_of_delimits past _ delimits]
      rfl
    next different => exact kept there (decide_eq_false (Ne.symm different)) rfl
  | @notStaged under statement row open_ fault checkedNext known checked =>
    rw [Dictionary.get?_insert] at there
    split at there
    next same =>
      obtain rfl := Option.some.inj there
      exact kept (same ▸ known) rfl rfl
    next different => exact kept there rfl rfl
  | @staged under statement row open_ checkedNext known checked =>
    rw [Dictionary.get?_insert] at there
    split at there
    next same =>
      obtain rfl := Option.some.inj there
      subst same
      have executes : Event.executes name ⟨place, .stage name statement row, .affected 1⟩ = true :=
        decide_eq_true rfl
      rw [pending_of_executes past _ executes, List.filterMap_append, behind.staged name open_ known]
      rfl
    next different => exact kept there rfl (decide_eq_false (Ne.symm different))
  | notCommitted known gone => exact ended rfl rfl there
  | committed known live => exact ended rfl rfl there
  | notRolledBack known gone => exact ended rfl rfl there
  | rolledBack known live => exact ended rfl rfl there
  | _ => exact kept there rfl rfl

private theorem Performs.closed_isClosed (performs : s.Performs step result next)
    (behind : Behind db past s) (place : Nat) (name : String) (session : OpenSession)
    (there : next.sessions.get? name = some session) :
    session.closed = isClosed name (past ++ [⟨place, step, result⟩]) := by
  have kept {e : Event} (before : s.sessions.get? name = some session)
      (opens : e.opens name = false) (closes : e.closes name = false) :
      session.closed = isClosed name (past ++ [e]) := by
    rw [isClosed_concat, opens, closes, Bool.or_false]
    exact behind.closed name session before
  cases performs with
  | noSession needs missing =>
    refine kept there ?_ ?_ <;> cases step <;> rfl
  | noTransaction needs missing =>
    refine kept there ?_ ?_ <;> cases step <;> rfl
  | connected under works =>
    rw [Dictionary.get?_insert] at there
    split at there
    next same =>
      obtain rfl := Option.some.inj there
      simp [isClosed_concat, Event.opens, same]
    next different => exact kept there (decide_eq_false (Ne.symm different)) rfl
  | @closed under own known =>
    rw [Dictionary.get?_insert] at there
    split at there
    next same =>
      obtain rfl := Option.some.inj there
      simp [isClosed_concat, Event.opens, Event.closes, same]
    next different => exact kept there rfl (decide_eq_false (Ne.symm different))
  | _ => exact kept there rfl rfl

/-- The counters count the steps that go through, and of those that close a session the first ones. -/
theorem Performs.counters (performs : s.Performs step result next) (behind : Behind db past s)
    (place : Nat) :
    let e : Event := ⟨place, step, result⟩
    next.database.commits = s.database.commits + (if e.committed?.isSome then 1 else 0) ∧
      next.database.rollbacks = s.database.rollbacks + (if e.rollsBack then 1 else 0) ∧
      next.database.connects = s.database.connects + (if e.connects then 1 else 0) ∧
      next.database.closes = s.database.closes + (if closesFirst past e then 1 else 0) := by
  intro e
  have checks {staged : List Row} {statement : String} {row : Row} {fault : Option Fault}
      {after : MemoryDatabase} (checked : Checked s.database staged statement row fault after) :
      after.commits = s.database.commits ∧ after.rollbacks = s.database.rollbacks ∧
        after.connects = s.database.connects ∧ after.closes = s.database.closes := by
    obtain ⟨statements, lost, rfl⟩ := checked.frame
    exact ⟨rfl, rfl, rfl, rfl⟩
  cases performs with
  | noSession needs missing => cases step <;> exact ⟨rfl, rfl, rfl, rfl⟩
  | noTransaction needs missing => cases step <;> exact ⟨rfl, rfl, rfl, rfl⟩
  | notInserted known usable checked => exact checks checked
  | inserted known usable checked =>
    obtain ⟨statements, lost, rfl⟩ := checked.frame
    exact ⟨rfl, rfl, rfl, rfl⟩
  | notStaged known checked => exact checks checked
  | staged known checked => exact checks checked
  | @closed name session known =>
    have before := behind.closed name session known
    cases first : session.closed with
    | true =>
      rw [first] at before
      simp [e, close, closesFirst, Event.committed?, Event.rollsBack, Event.connects, ← before]
    | false =>
      rw [first] at before
      simp [e, close, closesFirst, Event.committed?, Event.rollsBack, Event.connects, ← before]
  | _ => exact ⟨rfl, rfl, rfl, rfl⟩

private theorem Performs.behind (performs : s.Performs step result next) (behind : Behind db past s)
    (place : Nat) : Behind db (past ++ [⟨place, step, result⟩]) next := by
  obtain ⟨commits, rollbacks, connects, closes⟩ := performs.counters behind place
  refine
    { rows := ?_
      staged := performs.staged_pending behind place
      closed := performs.closed_isClosed behind place
      commits := ?_
      rollbacks := ?_
      connects := ?_
      closes := ?_ }
  · rw [performs.rows_published behind place, behind.rows, visible_concat, List.filterMap_append,
      List.append_assoc]
  · rw [commits, behind.commits, List.countP_append, List.countP_singleton, Nat.add_assoc]
  · rw [rollbacks, behind.rollbacks, List.countP_append, List.countP_singleton, Nat.add_assoc]
  · rw [connects, behind.connects, List.countP_append, List.countP_singleton, Nat.add_assoc]
  · rw [closes, behind.closes, closedOnce_concat, Nat.add_assoc]

private theorem Performs.unchanged_of_refused {fault : Fault}
    (performs : s.Performs step (.refused fault) next) (brings : (step.row?).isSome = true) :
    next.database.rows = s.database.rows ∧
      ∀ name, next.transactions.get? name = s.transactions.get? name := by
  cases performs with
  | notReached known refused => exact ⟨rfl, fun _ => rfl⟩
  | notInserted known usable checked => exact ⟨checked.rows_eq, fun _ => rfl⟩
  | notStaged known checked =>
    refine ⟨checked.rows_eq, fun name => ?_⟩
    rw [Dictionary.get?_insert]
    split
    next same => exact same ▸ known.symm
    next different => rfl
  | _ => simp [Step.row?] at brings

end Steps

section Runs

variable (db : MemoryDatabase) (steps : List Step)

private theorem behind_ofDatabase : Behind db [] (ofDatabase db) where
  rows := (List.append_nil _).symm
  staged name transaction there := by simp [ofDatabase] at there
  closed name session there := by simp [ofDatabase] at there
  commits := rfl
  rollbacks := rfl
  connects := rfl
  closes := rfl

private theorem behind_after :
    Behind db ((ofDatabase db).history steps) ((ofDatabase db).after steps) := by
  induction steps using List.reverseRecOn with
  | nil => exact behind_ofDatabase db
  | append_singleton steps last ih =>
    rw [history_concat, after_concat]
    exact (performs_perform _ last).behind ih steps.length

private theorem getElem?_run (s : Interleaving) {place : Nat} {taken : StepResult × Interleaving}
    (there : (s.run steps)[place]? = some taken) : taken.2 = s.after (steps.take (place + 1)) := by
  induction steps generalizing s place with
  | nil => simp [run] at there
  | cons step steps ih =>
    cases place with
    | zero =>
      obtain rfl : s.perform step = taken := by simpa [run] using there
      rfl
    | succ place =>
      rw [run, List.getElem?_cons_succ] at there
      exact ih (s.perform step).2 there

private theorem take_history (s : Interleaving) (place : Nat) :
    (s.history steps).take place = s.history (steps.take place) := by
  have front := s.history_grows (steps.take place) (steps.drop place)
  rw [List.take_append_drop] at front
  have length : (s.history (steps.take place)).length = min place (s.history steps).length := by
    rw [← List.length_map Event.place, map_place_history, List.length_range, List.length_take,
      ← List.length_map Event.place, map_place_history, List.length_range]
  rw [List.prefix_iff_eq_take.mp front, length, ← List.take_take, List.take_length]

end Runs

/-- What a database in memory holds behind a history: the rows that were there at first, then those that
the history has made visible, and how often it has been committed, rolled back, opened and closed. -/
structure Holds (db : MemoryDatabase) (past : List Event) (now : MemoryDatabase) : Prop where
  rows : now.rows = db.rows ++ (visible past).filterMap Event.row?
  commits : now.commits = db.commits + past.countP fun e => e.committed?.isSome
  rollbacks : now.rollbacks = db.rollbacks + past.countP Event.rollsBack
  connects : now.connects = db.connects + past.countP Event.connects
  closes : now.closes = db.closes + closedOnce past

structure RunsSerially (db : MemoryDatabase) (steps : List Step) : Prop where
  holds : ∀ place taken, ((ofDatabase db).run steps)[place]? = some taken →
    Holds db (((ofDatabase db).history steps).take (place + 1)) taken.2.database
  /-- A row shows at the end if it was inserted on its own or its transaction was committed. -/
  shows_iff : ∀ front e back, (ofDatabase db).history steps = front ++ e :: back →
    (e ∈ visible ((ofDatabase db).history steps) ↔
      e.inserts = true ∨ ∃ name, e.executes name = true ∧ fateOf name back = .committed)
  shows_once : (visible ((ofDatabase db).history steps)).Nodup
  /-- A row does not show at any point if its transaction is not committed. -/
  hides : ∀ front e back, (ofDatabase db).history steps = front ++ e :: back →
    ∀ name, e.executes name = true → fateOf name back ≠ .committed →
      ∀ place, e ∉ visible (((ofDatabase db).history steps).take place)
  unchanged : ∀ front step back fault, steps = front ++ step :: back → step.row?.isSome = true →
    (((ofDatabase db).after front).perform step).1 = .refused fault →
    let before := (ofDatabase db).after front
    let next := (before.perform step).2
    next.database.rows = before.database.rows ∧
      ∀ name, next.transactions.get? name = before.transactions.get? name

/-- Committed rows are a serial history, however the steps of sessions and transactions are mixed. -/
theorem run_serially (db : MemoryDatabase) (steps : List Step) : RunsSerially db steps := by
  have distinct := (ofDatabase db).nodup_history steps
  refine
    { holds := ?_
      shows_iff := ?_
      shows_once := nodup_visible distinct
      hides := ?_
      unchanged := ?_ }
  · intro place taken there
    rw [take_history, getElem?_run steps _ there]
    have behind := behind_after db (steps.take (place + 1))
    exact ⟨behind.rows, behind.commits, behind.rollbacks, behind.connects, behind.closes⟩
  · intro front e back split
    rw [split] at distinct ⊢
    exact mem_visible_iff distinct
  · intro front e back split name executes other place shown
    have late : e ∈ visible (front ++ e :: back) := by
      rw [← split, ← List.take_append_drop place ((ofDatabase db).history steps)]
      exact (visible_grows _ _).subset shown
    rw [split] at distinct
    rcases (mem_visible_iff distinct).mp late with inserts | ⟨also, same, committed⟩
    · simp [Event.not_inserts_of_executes executes] at inserts
    · obtain rfl := Event.executes_unique executes same
      exact other committed
  · intro front step back fault split brings refused
    have performs := ((ofDatabase db).after front).performs_perform step
    rw [refused] at performs
    exact performs.unchanged_of_refused brings

-- A transaction shows its rows together when it commits, behind the row inserted while it was open.
example : (visible ((ofDatabase {}).history
    [.connect "c", .begin "c" "t", .begin "c" "u", .stage "t" "INSERT" [.string "a"],
      .insert "c" "INSERT" [.string "b"], .stage "u" "INSERT" [.string "d"],
      .stage "t" "INSERT" [.string "e"], .commit "t", .rollback "u"])).map Event.place =
    [4, 3, 6] := by
  decide

end Intake.Sql.Interleaving
