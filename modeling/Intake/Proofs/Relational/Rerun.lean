import Intake.Proofs.Relational.Isolation

set_option autoImplicit false

/-!
Writing the same rows twice. The first time leaves the key of every row behind that it attempted and
that is not refused for its key; so the second time finds each of them taken, stops at the same row,
and lets nothing in.
-/

namespace Intake.Relational

open Intake.Sql Intake.ObjectFile

/-- What is committed once rows have been settled. -/
def settled (failing : List String) (committed : List Row) (rows : List Transaction) : List Row :=
  committed ++ letIn (settle failing committed rows)

/-- What becomes of a row whose key is taken, unless the key is refused. -/
def turnedAway (failing : List String) (row : Transaction) : RowFate :=
  if row.transactionId ∈ failing then .ofFault (refusedAt row.transactionId)
  else .ofFault (takenAt row.transactionId)

/-- What becomes of a row the second time, told from what became of it the first time. -/
def secondTime : Transaction × RowFate → Transaction × RowFate
  | (row, .inserted) => (row, .ofFault (takenAt row.transactionId))
  | (row, .skipped reason error) => (row, .skipped reason error)

section Settled

variable (failing : List String) (committed : List Row)

private theorem settled_cons (row : Transaction) (rows : List Transaction) :
    settled failing committed (row :: rows) =
      settled failing (settled failing committed [row]) rows := by
  have split := settle_append failing committed [row] rows
  rw [List.singleton_append] at split
  rw [settled, split, letIn, List.filter_append, List.map_append, ← List.append_assoc]
  rfl

private theorem keys_settled (rows : List Transaction) : Row.keys (settled failing committed rows) =
    Row.keys committed ++ Row.keys (letIn (settle failing committed rows)) :=
  Row.keys_append _ _

variable {failing}

private theorem mem_keys_settled_singleton {row : Transaction}
    (accepted : row.transactionId ∉ failing) :
    row.transactionId ∈ Row.keys (settled failing committed [row]) := by
  have named : Row.key? row.params = some row.transactionId := rfl
  rw [keys_settled, List.mem_append]
  by_cases taken : row.transactionId ∈ Row.keys committed
  · exact .inl taken
  · right
    have fate : settle failing committed [row] = [(row, .inserted)] := by
      rw [settle, if_neg accepted, if_neg taken, settle]
    have keys : Row.keys (letIn (settle failing committed [row])) = [row.transactionId] := by
      rw [fate]
      exact Row.keys_singleton named
    rw [keys]
    exact List.mem_singleton_self _

private theorem mem_keys_settled (rows : List Transaction) :
    ∀ row ∈ rows, row.transactionId ∉ failing →
    row.transactionId ∈ Row.keys (settled failing committed rows) := by
  induction rows generalizing committed with
  | nil =>
    intro row there
    exact absurd there List.not_mem_nil
  | cons first rows ih =>
    intro row there accepted
    rw [settled_cons]
    rcases List.mem_cons.mp there with rfl | later
    · rw [keys_settled]
      exact List.mem_append_left _ (mem_keys_settled_singleton committed accepted)
    · exact ih _ row later accepted

private theorem settle_of_taken {committed : List Row} {rows : List Transaction}
    (taken : ∀ row ∈ rows, row.transactionId ∉ failing →
      row.transactionId ∈ Row.keys committed) :
    settle failing committed rows = rows.map fun row => (row, turnedAway failing row) := by
  induction rows with
  | nil => rfl
  | cons row rows ih =>
    obtain ⟨here, others⟩ := List.forall_mem_cons.mp taken
    rw [settle, List.map_cons, ih others, turnedAway]
    by_cases fails : row.transactionId ∈ failing
    · rw [if_pos fails, if_pos fails]
      rfl
    · rw [if_neg fails, if_pos (here fails), if_neg fails]
      rfl

private theorem map_secondTime_settle (rows : List Transaction) :
    (settle failing committed rows).map secondTime =
      rows.map fun row => (row, turnedAway failing row) := by
  induction rows generalizing committed with
  | nil => rfl
  | cons row rows ih =>
    rw [settle, List.map_cons, turnedAway]
    by_cases fails : row.transactionId ∈ failing
    · rw [if_pos fails, if_pos fails, List.map_cons, ih]
      rfl
    · rw [if_neg fails, if_neg fails]
      by_cases taken : row.transactionId ∈ Row.keys committed
      · rw [if_pos taken, List.map_cons, ih]
        rfl
      · rw [if_neg taken, List.map_cons, ih]
        rfl

private theorem map_secondTime_cutOff (rows : List Transaction) :
    (cutOff rows).map secondTime = cutOff rows := by
  cases rows with
  | nil => rfl
  | cons row rows =>
    rw [cutOff, List.map_cons, List.map_map]
    rfl

end Settled

section Isolate

variable (failing dropping : List String) (committed : List Row) (rows : List Transaction)

/-- The second time every row that got in is taken, and all others fare as before. -/
theorem isolate_isolate :
    isolate failing dropping (committed ++ letIn (isolate failing dropping committed rows)) rows =
      (isolate failing dropping committed rows).map secondTime := by
  have kept : ∀ row ∈ rows.takeWhile (staysOpen dropping), row.transactionId ∉ failing →
      row.transactionId ∈ Row.keys (settled failing committed (rows.takeWhile (staysOpen dropping))) :=
    mem_keys_settled committed _
  rw [letIn_isolate, isolate, isolate, List.map_append, map_secondTime_settle,
    map_secondTime_cutOff]
  exact congrArg (· ++ _) (settle_of_taken kept)

private theorem secondTime_ne_inserted (fate : Transaction × RowFate) :
    (secondTime fate).2 ≠ .inserted := by
  obtain ⟨row, _ | ⟨reason, error⟩⟩ := fate
  · exact RowFate.noConfusion
  · exact RowFate.noConfusion

private theorem letIn_secondTime (fates : List (Transaction × RowFate)) :
    letIn (fates.map secondTime) = [] := by
  have none : (fates.map secondTime).filter (fun fate => fate.2 = .inserted) = [] := by
    refine List.filter_eq_nil_iff.mpr ?_
    intro fate member
    obtain ⟨before, -, rfl⟩ := List.mem_map.mp member
    simpa using secondTime_ne_inserted before
  rw [letIn, none, List.map_nil]

private theorem inserted_secondTime (fates : List (Transaction × RowFate)) :
    (RowsOutcome.ofFates (fates.map secondTime)).inserted = 0 := by
  refine List.countP_eq_zero.mpr ?_
  intro fate member
  obtain ⟨before, -, rfl⟩ := List.mem_map.mp member
  simpa using secondTime_ne_inserted before

private theorem ofFates_taken :
    RowsOutcome.ofFates (rows.map fun row => (row, .ofFault (takenAt row.transactionId))) =
      ⟨0, rows.map fun row =>
        ⟨row.transactionId, .integrity, (takenAt row.transactionId).message⟩⟩ := by
  have none : rows.countP (fun row => RowFate.ofFault (takenAt row.transactionId) = .inserted) = 0 :=
    List.countP_eq_zero.mpr fun row _ => by simp [RowFate.ofFault]
  rw [RowsOutcome.ofFates, List.countP_map, List.filterMap_map]
  exact congrArg₂ RowsOutcome.mk none (congrFun List.filterMap_eq_map rows)

variable {failing dropping rows}

private theorem map_secondTime_isolate_of_calm
    (calm : ∀ row ∈ rows, row.transactionId ∉ failing ∧ row.transactionId ∉ dropping) :
    (isolate failing dropping committed rows).map secondTime =
      rows.map fun row => (row, .ofFault (takenAt row.transactionId)) := by
  have stay : ∀ row ∈ rows, staysOpen dropping row = true := by
    intro row member
    exact decide_eq_true (calm row member).2
  rw [isolate, List.takeWhile_eq_self_iff.mpr stay, List.dropWhile_eq_nil_iff.mpr stay, cutOff,
    List.append_nil, map_secondTime_settle]
  refine List.map_congr_left ?_
  intro row member
  rw [turnedAway, if_neg (calm row member).1]

end Isolate

namespace RowWriter

private theorem write_frame (w : RowWriter MemorySession) (config : ConnectionConfig)
    (rows : List Transaction) (s : MemorySession)
    (sessions : w.database = MemorySession.sessions)
    (allowed : s.database.connectFailure = none) :
    let fates := isolate s.database.failingKeys s.database.droppingKeys s.database.rows rows
    let next := (w.write config rows s).state.database
    (w.write config rows s).value = .ok (.ofFates fates) ∧
      next.rows = s.database.rows ++ letIn fates ∧ next.failingKeys = s.database.failingKeys ∧
      next.droppingKeys = s.database.droppingKeys ∧ next.connectFailure = none := by
  intro fates next
  obtain ⟨value, database⟩ := w.write_memory config rows s sessions allowed
  have database : next = _ := database
  refine ⟨value, ?_, ?_, ?_, ?_⟩
  · rw [letIn_isolate, database]
    rfl
  · rw [database]
    rfl
  · rw [database]
    rfl
  · rw [database]
    exact allowed

/-- Rows that are written again behind a first time, however it ended, are all kept out: those that got
in are taken, the others fare as before, and the table stays as it is. -/
theorem write_rerun (w again : RowWriter MemorySession) (config other : ConnectionConfig)
    (rows : List Transaction) (s : MemorySession) (sessions : w.database = MemorySession.sessions)
    (alike : again.database = MemorySession.sessions)
    (allowed : s.database.connectFailure = none) :
    let failing := s.database.failingKeys
    let dropping := s.database.droppingKeys
    let first := w.write config rows s
    let second := again.write other rows first.state
    let fates := isolate failing dropping s.database.rows rows
    first.value = .ok (.ofFates fates) ∧ second.value = .ok (.ofFates (fates.map secondTime)) ∧
      (RowsOutcome.ofFates (fates.map secondTime)).inserted = 0 ∧
      second.state.database.rows = first.state.database.rows ∧
      ((∀ row ∈ rows, row.transactionId ∉ failing ∧ row.transactionId ∉ dropping) →
        second.value = .ok ⟨0, rows.map fun row =>
          ⟨row.transactionId, .integrity, (takenAt row.transactionId).message⟩⟩) := by
  intro failing dropping first second fates
  obtain ⟨value, state, fails, drops, reachable⟩ := w.write_frame config rows s sessions allowed
  obtain ⟨value', state', -⟩ := again.write_frame other rows first.state alike reachable
  have known := isolate_isolate failing dropping s.database.rows rows
  rw [fails, drops, state, known] at value' state'
  refine ⟨value, value', inserted_secondTime fates, ?_, ?_⟩
  · rw [letIn_secondTime, List.append_nil] at state'
    exact state'.trans state.symm
  · intro calm
    rw [map_secondTime_isolate_of_calm s.database.rows calm, ofFates_taken] at value'
    exact value'

end RowWriter

/-- Of six rows one gets in the first time and none the second, which is cut short at the same row; of
three rows without such keys each is taken. -/
theorem write_rerun_troubled :
    troubled.connectFailure = none ∧
      (let rows := ["a", "b", "a", "c", "d", "e"].map transactionOf
       let first := memoryWriter.write default rows (sessionOf troubled)
       (memoryWriter.write default rows first.state).value =
        .ok ⟨0, [⟨"a", .integrity, (takenAt "a").message⟩, ⟨"b", .integrity, (takenAt "b").message⟩,
          ⟨"a", .integrity, (takenAt "a").message⟩, ⟨"c", .other, (refusedAt "c").message⟩,
          ⟨"d", .other, (droppedAt "d").message⟩,
          notAttempted (droppedAt "d") (transactionOf "e")]⟩) ∧
      (let rows := ["a", "b", "a"].map transactionOf
       let first := memoryWriter.write default rows (sessionOf troubled)
       (memoryWriter.write default rows first.state).value =
        .ok ⟨0, [⟨"a", .integrity, (takenAt "a").message⟩, ⟨"b", .integrity, (takenAt "b").message⟩,
          ⟨"a", .integrity, (takenAt "a").message⟩]⟩) := by
  obtain ⟨-, cut, -⟩ := memoryWriter.write_rerun memoryWriter default default
    (["a", "b", "a", "c", "d", "e"].map transactionOf) (sessionOf troubled) rfl rfl rfl
  obtain ⟨-, -, -, -, all⟩ := memoryWriter.write_rerun memoryWriter default default
    (["a", "b", "a"].map transactionOf) (sessionOf troubled) rfl rfl rfl
  exact ⟨rfl, cut, all (by decide)⟩

end Intake.Relational
