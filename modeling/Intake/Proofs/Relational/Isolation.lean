import Intake.Proofs.Relational.Protocol
import Intake.Proofs.Sql.MemoryDatabase
import Mathlib.Data.List.TakeWhile

set_option autoImplicit false

/-!
Isolation of rows that are written to a database in memory. What becomes of a batch is a fold over
its rows: up to the first row with a dropping key each row is refused or let in for itself, and from
there on all are out. A row that was refused has no effect on any other.
-/

namespace Intake.Relational

open Intake.Sql Intake.ObjectFile

/-- What becomes of rows, each written for itself behind the ones before it: a row with a failing
key is refused, then one whose key is taken, and any other is let in. -/
def settle (failing : List String) : List Row → List Transaction → List (Transaction × RowFate)
  | _, [] => []
  | committed, row :: rows =>
    if row.transactionId ∈ failing then
      (row, .skipped .other (refusedAt row.transactionId).message) :: settle failing committed rows
    else if row.transactionId ∈ Row.keys committed then
      (row, .skipped .integrity (takenAt row.transactionId).message) ::
        settle failing committed rows
    else (row, .inserted) :: settle failing (committed ++ [row.params]) rows

/-- What becomes of rows of which the first ends the session: none gets in. -/
def cutOff : List Transaction → List (Transaction × RowFate)
  | [] => []
  | row :: rows =>
    (row, .skipped .other (droppedAt row.transactionId).message) ::
      rows.map fun other => (other, .notAttempted (droppedAt row.transactionId))

def staysOpen (dropping : List String) (row : Transaction) : Bool := row.transactionId ∉ dropping

/-- What a database with failing and dropping keys and some committed rows makes of rows. -/
def isolate (failing dropping : List String) (committed : List Row) (rows : List Transaction) :
    List (Transaction × RowFate) :=
  settle failing committed (rows.takeWhile (staysOpen dropping)) ++
    cutOff (rows.dropWhile (staysOpen dropping))

/-- The rows that are attempted: those up to the first that ends the session. -/
def attempted (dropping : List String) (rows : List Transaction) : List Transaction :=
  rows.takeWhile (staysOpen dropping) ++ (rows.dropWhile (staysOpen dropping)).take 1

/-- The rows that get in, as they are committed. -/
def letIn (fates : List (Transaction × RowFate)) : List Row :=
  (fates.filter fun fate => fate.2 = .inserted).map fun fate => fate.1.params

section Settle

variable (failing : List String) (committed : List Row)

theorem settle_append (front back : List Transaction) :
    settle failing committed (front ++ back) =
      settle failing committed front ++
        settle failing (committed ++ letIn (settle failing committed front)) back := by
  induction front generalizing committed with
  | nil => simp [settle, letIn]
  | cons row front ih =>
    simp only [List.cons_append, settle]
    split_ifs with fails taken
    · rw [ih, List.cons_append]
      rfl
    · rw [ih, List.cons_append]
      rfl
    · have grown : letIn ((row, RowFate.inserted) ::
          settle failing (committed ++ [row.params]) front) =
          row.params :: letIn (settle failing (committed ++ [row.params]) front) := rfl
      rw [ih, List.cons_append, grown, List.append_assoc, List.singleton_append]

@[simp] private theorem map_fst_settle (rows : List Transaction) :
    (settle failing committed rows).map Prod.fst = rows := by
  induction rows generalizing committed with
  | nil => rfl
  | cons row rows ih =>
    rw [settle]
    split_ifs <;> rw [List.map_cons, ih]

@[simp] private theorem map_fst_cutOff (rows : List Transaction) :
    (cutOff rows).map Prod.fst = rows := by
  cases rows with
  | nil => rfl
  | cons row rows => simp [cutOff, Function.comp_def]

private theorem map_fst_isolate (dropping : List String) (rows : List Transaction) :
    (isolate failing dropping committed rows).map Prod.fst = rows := by
  rw [isolate, List.map_append, map_fst_settle, map_fst_cutOff, List.takeWhile_append_dropWhile]

private theorem ne_inserted_of_mem_cutOff {rows : List Transaction} {fate : Transaction × RowFate}
    (member : fate ∈ cutOff rows) : fate.2 ≠ .inserted := by
  cases rows with
  | nil => exact absurd member List.not_mem_nil
  | cons row rows =>
    rcases List.mem_cons.mp member with rfl | later
    · exact RowFate.noConfusion
    · obtain ⟨other, -, rfl⟩ := List.mem_map.mp later
      exact RowFate.noConfusion

theorem letIn_isolate (dropping : List String) (rows : List Transaction) :
    letIn (isolate failing dropping committed rows) =
      letIn (settle failing committed (rows.takeWhile (staysOpen dropping))) := by
  have none : (cutOff (rows.dropWhile (staysOpen dropping))).filter
      (fun fate => fate.2 = .inserted) = [] := by
    refine List.filter_eq_nil_iff.mpr ?_
    intro fate member
    simpa using ne_inserted_of_mem_cutOff member
  simp only [letIn, isolate, List.filter_append, none, List.append_nil]

private theorem inserted_isolate (dropping : List String) (rows : List Transaction) :
    (RowsOutcome.ofFates (isolate failing dropping committed rows)).inserted =
      (RowsOutcome.ofFates
        (settle failing committed (rows.takeWhile (staysOpen dropping)))).inserted := by
  have none : (cutOff (rows.dropWhile (staysOpen dropping))).countP
      (fun fate => fate.2 = .inserted) = 0 := by
    refine List.countP_eq_zero.mpr ?_
    intro fate member
    simpa using ne_inserted_of_mem_cutOff member
  simp only [RowsOutcome.ofFates, isolate, List.countP_append, none, Nat.add_zero]

private theorem settle_of_refused {front back : List Transaction} {row : Transaction}
    {fate : RowFate} {before behind rest : List (Transaction × RowFate)}
    (settled : settle failing committed (front ++ row :: back) ++ rest =
      before ++ (row, fate) :: behind)
    (place : before.length = front.length) (refused : fate ≠ .inserted) :
    settle failing committed (front ++ back) ++ rest = before ++ behind := by
  have length : (settle failing committed front).length = before.length := by
    rw [place, ← List.length_map, map_fst_settle]
  rw [settle_append, List.append_assoc] at settled ⊢
  obtain ⟨rfl, here⟩ := List.append_inj settled length
  rw [settle] at here
  split_ifs at here with fails taken
  · exact congrArg _ (List.cons.inj here).2
  · exact congrArg _ (List.cons.inj here).2
  · have inserted : RowFate.inserted = fate := (Prod.mk.inj (List.cons.inj here).1).2
    exact absurd inserted.symm refused

private theorem isolate_of_refused {dropping : List String} {front back : List Transaction}
    {row : Transaction} {fate : RowFate} {before behind : List (Transaction × RowFate)}
    (isolated : isolate failing dropping committed (front ++ row :: back) =
      before ++ (row, fate) :: behind)
    (place : before.length = front.length)
    (stay : ∀ other ∈ front, other.transactionId ∉ dropping)
    (stays : row.transactionId ∉ dropping) (refused : fate ≠ .inserted) :
    isolate failing dropping committed (front ++ back) = before ++ behind := by
  have open_ : ∀ other ∈ front, staysOpen dropping other = true := by
    intro other member
    exact decide_eq_true (stay other member)
  have here : staysOpen dropping row = true := decide_eq_true stays
  rw [isolate, List.takeWhile_append_of_pos open_, List.dropWhile_append_of_pos open_] at isolated ⊢
  rw [List.takeWhile_cons_of_pos here, List.dropWhile_cons_of_pos here] at isolated
  exact settle_of_refused failing committed isolated place refused

private theorem letIn_of_refused {row : Transaction} {fate : RowFate} (refused : fate ≠ .inserted)
    (before behind : List (Transaction × RowFate)) :
    letIn (before ++ (row, fate) :: behind) = letIn (before ++ behind) := by
  simp [letIn, refused]

end Settle

/-- The database after rows with these fates, none of which has ended the session. -/
def recorded (db : MemoryDatabase) (statement : String) (fates : List (Transaction × RowFate)) :
    MemoryDatabase :=
  { db with
    rows := db.rows ++ letIn fates
    statements := db.statements ++ List.replicate fates.length statement
    commits := db.commits + (RowsOutcome.ofFates fates).inserted
    rollbacks := db.rollbacks + (RowsOutcome.ofFates fates).skipped.length }

private theorem recorded_nil (db : MemoryDatabase) (statement : String) :
    recorded db statement [] = db := by
  simp [recorded, letIn, RowsOutcome.ofFates]

private theorem recorded_append (db : MemoryDatabase) (statement : String)
    (front back : List (Transaction × RowFate)) :
    recorded db statement (front ++ back) = recorded (recorded db statement front) statement back := by
  simp only [recorded, letIn, RowsOutcome.ofFates, List.filter_append, List.map_append,
    List.countP_append, List.filterMap_append, List.length_append, List.replicate_add,
    List.append_assoc, Nat.add_assoc]

def sessionOf (db : MemoryDatabase) : MemorySession := ⟨db, false, []⟩

namespace RowWriter

section Steps

variable {σ : Type} {w : RowWriter σ} {row : Transaction} {state : σ} {rows : List Transaction}

private theorem state_writeRows_next (goesOn : (w.attempt row state).end? = none) :
    (w.writeRows (row :: rows) state).state =
      (w.writeRows rows (w.writeRow row state).state).state := by
  unfold attempt at goesOn
  rw [writeRows]
  cases kept : (w.writeRow row state).value with
  | none => simp only [Run.andThen, kept]
  | some cause =>
    have stays : ¬ cause.endsSession = true := by
      simpa [Attempt.end?, kept] using goesOn
    simp only [Run.andThen, Run.after, kept, if_neg stays]

private theorem state_writeRows_last {cause : Fault}
    (ends : (w.attempt row state).end? = some cause) :
    (w.writeRows (row :: rows) state).state = (w.writeRow row state).state := by
  obtain ⟨kept, lost⟩ := Option.filter_eq_some_iff.mp ends
  have kept : (w.writeRow row state).value = some cause := kept
  simp only [writeRows, Run.andThen, Run.after, kept, if_pos lost, abandon]

end Steps

variable {w : RowWriter MemorySession} {db after : MemoryDatabase} {row : Transaction}
  {cause : Fault}

private theorem writeRow_of_free (sessions : w.database = MemorySession.sessions)
    (live : db.lost = false)
    (free : db.check [] w.statement row.params = (none, after)) (stays : after.lost = false) :
    (w.writeRow row (sessionOf db)).value = none ∧
      (w.writeRow row (sessionOf db)).state =
        sessionOf { after with rows := after.rows ++ [row.params], commits := after.commits + 1 } := by
  simp [writeRow, call, sessions, MemorySession.sessions, MemorySession.answer, Run.andThen,
    sessionOf, MemoryDatabase.refusal?, live, MemoryDatabase.stage, free, MemoryDatabase.commit,
    stays]

private theorem writeRow_of_refused (sessions : w.database = MemorySession.sessions)
    (live : db.lost = false) (refused : db.check [] w.statement row.params = (some cause, after))
    (stays : after.lost = false) :
    (w.writeRow row (sessionOf db)).value = some cause ∧
      (w.writeRow row (sessionOf db)).state =
        sessionOf { after with rollbacks := after.rollbacks + 1 } := by
  simp [writeRow, call, sessions, MemorySession.sessions, MemorySession.answer, Run.andThen,
    sessionOf, MemoryDatabase.refusal?, live, MemoryDatabase.stage, refused, undo,
    MemoryDatabase.rollback, stays]

private theorem writeRow_of_dropped (sessions : w.database = MemorySession.sessions)
    (live : db.lost = false) (dropped : db.check [] w.statement row.params = (some cause, after))
    (lost : after.lost = true) :
    (w.writeRow row (sessionOf db)).value = some cause ∧
      (w.writeRow row (sessionOf db)).state = sessionOf after := by
  simp [writeRow, call, sessions, MemorySession.sessions, MemorySession.answer, Run.andThen,
    sessionOf, MemoryDatabase.refusal?, live, MemoryDatabase.stage, dropped, undo,
    MemoryDatabase.rollback, lost]

private theorem writeRows_step {fault : Option Fault} (fate : RowFate) (rows : List Transaction)
    (written : (w.writeRow row (sessionOf db)).value = fault ∧
      (w.writeRow row (sessionOf db)).state = sessionOf after)
    (goesOn : fault.filter Fault.endsSession = none)
    (fated : (Attempt.mk row [] fault).fate = fate) :
    (w.writeRows (row :: rows) (sessionOf db)).value =
        (row, fate) :: (w.writeRows rows (sessionOf after)).value ∧
      (w.writeRows (row :: rows) (sessionOf db)).state =
        (w.writeRows rows (sessionOf after)).state := by
  obtain ⟨value, state⟩ := written
  have open_ : (w.attempt row (sessionOf db)).end? = none := by
    rw [Attempt.end?, attempt, value, goesOn]
  have next := (w.writeRows_next open_ rows).1
  have fates : (w.attempt row (sessionOf db)).fate = fate := by
    rw [← fated, Attempt.fate, attempt, value]
    rfl
  rw [state_writeRows_next open_, next, fates, state]
  exact ⟨rfl, rfl⟩

variable (db)

private theorem writeRows_settle_one (sessions : w.database = MemorySession.sessions)
    (live : db.lost = false) (stays : row.transactionId ∉ db.droppingKeys)
    (rows : List Transaction) :
    (w.writeRows (row :: rows) (sessionOf db)).value =
        settle db.failingKeys db.rows [row] ++
          (w.writeRows rows (sessionOf
            (recorded db w.statement (settle db.failingKeys db.rows [row])))).value ∧
      (w.writeRows (row :: rows) (sessionOf db)).state =
        (w.writeRows rows (sessionOf
          (recorded db w.statement (settle db.failingKeys db.rows [row])))).state := by
  have named : Row.key? row.params = some row.transactionId := rfl
  simp only [settle]
  split_ifs with fails taken
  · have checked := MemoryDatabase.check_failing w.statement live named stays fails
    have written := writeRow_of_refused sessions live checked live
    have next := writeRows_step (.skipped .other (refusedAt row.transactionId).message) rows
      written rfl rfl
    simpa [recorded, letIn, RowsOutcome.ofFates, RowsOutcome.skippedRow?,
      MemoryDatabase.reachedBy] using next
  · have checked := MemoryDatabase.check_taken w.statement live named stays fails taken
    have written := writeRow_of_refused sessions live checked live
    have next := writeRows_step (.skipped .integrity (takenAt row.transactionId).message) rows
      written rfl rfl
    simpa [recorded, letIn, RowsOutcome.ofFates, RowsOutcome.skippedRow?,
      MemoryDatabase.reachedBy] using next
  · have checked := MemoryDatabase.check_free w.statement live named stays fails taken
    have written := writeRow_of_free sessions live checked live
    have next := writeRows_step .inserted rows written rfl rfl
    simpa [recorded, letIn, RowsOutcome.ofFates, RowsOutcome.skippedRow?,
      MemoryDatabase.reachedBy] using next

private theorem writeRows_settle (sessions : w.database = MemorySession.sessions)
    (live : db.lost = false) {front : List Transaction}
    (stay : ∀ row ∈ front, row.transactionId ∉ db.droppingKeys) (back : List Transaction) :
    (w.writeRows (front ++ back) (sessionOf db)).value =
        settle db.failingKeys db.rows front ++
          (w.writeRows back (sessionOf
            (recorded db w.statement (settle db.failingKeys db.rows front)))).value ∧
      (w.writeRows (front ++ back) (sessionOf db)).state =
        (w.writeRows back (sessionOf
          (recorded db w.statement (settle db.failingKeys db.rows front)))).state := by
  induction front generalizing db with
  | nil => simp [settle, recorded_nil]
  | cons row front ih =>
    obtain ⟨here, others⟩ := List.forall_mem_cons.mp stay
    have split := settle_append db.failingKeys db.rows [row] front
    obtain ⟨value, state⟩ := writeRows_settle_one db sessions live here (front ++ back)
    obtain ⟨values, states⟩ :=
      ih (recorded db w.statement (settle db.failingKeys db.rows [row])) live others
    rw [List.singleton_append] at split
    rw [List.cons_append, value, state, split, recorded_append, List.append_assoc]
    exact ⟨congrArg _ values, states⟩

private theorem writeRows_cutOff (sessions : w.database = MemorySession.sessions)
    (live : db.lost = false)
    (drops : row.transactionId ∈ db.droppingKeys) (rows : List Transaction) :
    (w.writeRows (row :: rows) (sessionOf db)).value = cutOff (row :: rows) ∧
      (w.writeRows (row :: rows) (sessionOf db)).state =
        sessionOf { db.reachedBy w.statement with lost := true } := by
  have named : Row.key? row.params = some row.transactionId := rfl
  have checked := MemoryDatabase.check_dropping w.statement live named drops
  obtain ⟨value, state⟩ := writeRow_of_dropped sessions live checked rfl
  have ends : (w.attempt row (sessionOf db)).end? = some (droppedAt row.transactionId) := by
    rw [Attempt.end?, attempt, value]
    rfl
  have fate : (w.attempt row (sessionOf db)).fate =
      .skipped .other (droppedAt row.transactionId).message := by
    rw [Attempt.fate, attempt, value]
    rfl
  rw [state_writeRows_last ends, (w.writeRows_last ends rows).1, state, fate]
  exact ⟨rfl, rfl⟩

/-- Rows are settled up to the first with a dropping key; there the session ends. -/
theorem writeRows_isolate (sessions : w.database = MemorySession.sessions) (live : db.lost = false)
    (rows : List Transaction) :
    (w.writeRows rows (sessionOf db)).value =
        isolate db.failingKeys db.droppingKeys db.rows rows ∧
      (w.writeRows rows (sessionOf db)).state = sessionOf
        { recorded db w.statement
            (settle db.failingKeys db.rows (rows.takeWhile (staysOpen db.droppingKeys))) with
          statements := db.statements ++
            List.replicate (attempted db.droppingKeys rows).length w.statement
          lost := !rows.all (staysOpen db.droppingKeys) } := by
  have stay : ∀ row ∈ rows.takeWhile (staysOpen db.droppingKeys),
      row.transactionId ∉ db.droppingKeys := by
    intro row member
    have stays : staysOpen db.droppingKeys row = true := List.mem_takeWhile_imp member
    exact of_decide_eq_true stays
  obtain ⟨value, state⟩ := writeRows_settle (w := w) db sessions live stay
    (rows.dropWhile (staysOpen db.droppingKeys))
  have ends := List.head?_dropWhile_not (staysOpen db.droppingKeys) rows
  have length : (settle db.failingKeys db.rows
      (rows.takeWhile (staysOpen db.droppingKeys))).length =
      (rows.takeWhile (staysOpen db.droppingKeys)).length := by
    rw [← List.length_map, map_fst_settle]
  rw [List.takeWhile_append_dropWhile] at value state
  rw [value, state, isolate, attempted, List.length_append]
  cases rest : rows.dropWhile (staysOpen db.droppingKeys) with
  | nil =>
    have all : rows.all (staysOpen db.droppingKeys) = true :=
      List.all_eq_true.mpr (List.dropWhile_eq_nil_iff.mp rest)
    refine ⟨congrArg _ rfl, ?_⟩
    simp [writeRows, all, recorded, live, length]
  | cons row others =>
    have drops : row.transactionId ∈ db.droppingKeys := by
      rw [rest] at ends
      simpa [staysOpen] using ends
    have some_ends : rows.all (staysOpen db.droppingKeys) = false := by
      refine Bool.eq_false_iff.mpr ?_
      intro all
      have none := List.dropWhile_eq_nil_iff.mpr (List.all_eq_true.mp all)
      exact List.cons_ne_nil row others (rest.symm.trans none)
    obtain ⟨cut, lost⟩ := writeRows_cutOff (w := w)
      (recorded db w.statement
        (settle db.failingKeys db.rows (rows.takeWhile (staysOpen db.droppingKeys))))
      sessions live drops others
    refine ⟨congrArg _ cut, ?_⟩
    rw [lost]
    simp [some_ends, recorded, MemoryDatabase.reachedBy, length, List.replicate_succ']

theorem write_memory (w : RowWriter MemorySession) (config : ConnectionConfig)
    (rows : List Transaction) (s : MemorySession)
    (sessions : w.database = MemorySession.sessions)
    (allowed : s.database.connectFailure = none) :
    (w.write config rows s).value =
        .ok (.ofFates (isolate s.database.failingKeys s.database.droppingKeys s.database.rows rows)) ∧
      (w.write config rows s).state.database =
        { recorded s.database w.statement (settle s.database.failingKeys s.database.rows
            (rows.takeWhile (staysOpen s.database.droppingKeys))) with
          statements := s.database.statements ++
            List.replicate (attempted s.database.droppingKeys rows).length w.statement
          lost := !rows.all (staysOpen s.database.droppingKeys)
          connects := s.database.connects + 1
          closes := s.database.closes + 1 } := by
  obtain ⟨value, state⟩ := writeRows_isolate (w := w)
    { s.database with connects := s.database.connects + 1, lost := false } sessions rfl rows
  have opened : w.call (.connect config) s = ⟨none, [.called (.connect config) none],
      sessionOf { s.database with connects := s.database.connects + 1, lost := false }⟩ := by
    simp only [call, sessions, MemorySession.sessions, MemorySession.answer,
      MemoryDatabase.connect, allowed]
    rfl
  rw [write, opened]
  simp only [Run.andThen, value, state, close, call, sessions, MemorySession.sessions,
    MemorySession.answer]
  exact ⟨trivial, rfl⟩

/-- Writing rows to a database in memory that lets sessions be opened is the fold over the rows, in
its result and in what is committed and counted; a row that is refused before the session ends has
no effect on any other. -/
theorem write_isolates (w : RowWriter MemorySession) (config : ConnectionConfig)
    (rows : List Transaction) (s : MemorySession)
    (sessions : w.database = MemorySession.sessions)
    (allowed : s.database.connectFailure = none) :
    let failing := s.database.failingKeys
    let dropping := s.database.droppingKeys
    let fates := isolate failing dropping s.database.rows rows
    let settled := settle failing s.database.rows (rows.takeWhile (staysOpen dropping))
    fates.map Prod.fst = rows ∧ (w.write config rows s).value = .ok (.ofFates fates) ∧
      (w.write config rows s).state.database =
        { s.database with
          rows := s.database.rows ++ letIn fates
          statements := s.database.statements ++
            List.replicate (attempted dropping rows).length w.statement
          lost := !rows.all (staysOpen dropping)
          connects := s.database.connects + 1
          closes := s.database.closes + 1
          commits := s.database.commits + (RowsOutcome.ofFates fates).inserted
          rollbacks := s.database.rollbacks + (RowsOutcome.ofFates settled).skipped.length } ∧
      ∀ front row back before fate behind, rows = front ++ row :: back →
        fates = before ++ (row, fate) :: behind → before.length = front.length →
        (∀ other ∈ front, other.transactionId ∉ dropping) → row.transactionId ∉ dropping →
        fate ≠ .inserted →
        let without := w.write config (front ++ back) s
        without.value = .ok (.ofFates (before ++ behind)) ∧
          without.state.database.rows = s.database.rows ++ letIn fates := by
  intro failing dropping fates settled
  obtain ⟨value, state⟩ := w.write_memory config rows s sessions allowed
  have committed : letIn settled = letIn fates := (letIn_isolate failing _ dropping rows).symm
  have inserted : (RowsOutcome.ofFates settled).inserted = (RowsOutcome.ofFates fates).inserted :=
    (inserted_isolate failing _ dropping rows).symm
  refine ⟨map_fst_isolate failing _ dropping rows, value, ?_, ?_⟩
  · rw [state, recorded, committed, inserted]
  · intro front row back before fate behind input split place stay stays refused without
    obtain ⟨value, state⟩ := w.write_memory config (front ++ back) s sessions allowed
    have isolated : isolate failing dropping s.database.rows (front ++ row :: back) =
        before ++ (row, fate) :: behind := input ▸ split
    have others := isolate_of_refused failing _ isolated place stay stays refused
    refine ⟨?_, ?_⟩
    · rw [value, others]
    · refine (congrArg MemoryDatabase.rows state).trans (congrArg (s.database.rows ++ ·) ?_)
      rw [← letIn_isolate, others, ← letIn_of_refused refused before behind, ← split]

end RowWriter

/-- A writer to the table that rows go to by default, over a database in memory. -/
def memoryWriter : RowWriter MemorySession where
  database := MemorySession.sessions
  table := defaultTable
  statement := "INSERT INTO \"monetary_transaction\" (\"transaction_id\", \"client_id\", \"account_id\", \"amount\", \"status\", \"timestamp\") VALUES ($1, $2, $3, $4, $5, $6)"
  statement_eq := by decide +kernel

def transactionOf (key : String) : Transaction := { (default : Transaction) with transactionId := key }

/-- A database with a row, a failing key and a dropping key. -/
def troubled : MemoryDatabase where
  rows := [(transactionOf "b").params]
  failingKeys := ["c"]
  droppingKeys := ["d"]

/-- Of five rows one is let in, one is taken, one refused, and two are out at the end of the session;
without the one that is taken the others fare as before. -/
theorem write_isolates_troubled :
    troubled.connectFailure = none ∧ RowFate.ofFault (takenAt "b") ≠ .inserted ∧
      (memoryWriter.write default (["a", "b", "c", "d", "e"].map transactionOf)
          (sessionOf troubled)).value =
        .ok ⟨1, [⟨"b", .integrity, (takenAt "b").message⟩, ⟨"c", .other, (refusedAt "c").message⟩,
          ⟨"d", .other, (droppedAt "d").message⟩, notAttempted (droppedAt "d") (transactionOf "e")]⟩ ∧
      (memoryWriter.write default (["a", "c", "d", "e"].map transactionOf)
          (sessionOf troubled)).value =
        .ok ⟨1, [⟨"c", .other, (refusedAt "c").message⟩, ⟨"d", .other, (droppedAt "d").message⟩,
          notAttempted (droppedAt "d") (transactionOf "e")]⟩ := by
  obtain ⟨-, value, -, without⟩ := memoryWriter.write_isolates default
    (["a", "b", "c", "d", "e"].map transactionOf) (sessionOf troubled) rfl rfl
  have others := (without [transactionOf "a"] (transactionOf "b")
    (["c", "d", "e"].map transactionOf) [(transactionOf "a", .inserted)]
    (.ofFault (takenAt "b")) _ rfl rfl rfl (by decide) (by decide) RowFate.noConfusion).1
  exact ⟨rfl, RowFate.noConfusion, value, others⟩

end Intake.Relational
