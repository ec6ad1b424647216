import Intake.Proofs.Relational.Session

set_option autoImplicit false

/-!
The protocol of a session in which rows are written. The calls are grouped by rows: a row is begun,
executed and committed, or undone where its statement fails. The groups follow the rows in order up
to the first whose own fault ends the session; behind them stands the close, and nothing else.
-/

namespace Intake.Relational

open Intake.Sql Intake.ObjectFile

/-- The calls made for a row, and the fault that kept it out. -/
inductive RowGroup (statement : String) (row : Transaction) :
    List Answered → Option Fault → Prop where
  | refused (cause : Fault) : RowGroup statement row [⟨.begin, some cause⟩] (some cause)
  /-- What undoing the row comes to does not matter. -/
  | undone (cause : Fault) (refusal : Option Fault) :
      RowGroup statement row
        [⟨.begin, none⟩, ⟨.execute statement row.params, some cause⟩, ⟨.rollback, refusal⟩]
        (some cause)
  | ended (fault : Option Fault) :
      RowGroup statement row
        [⟨.begin, none⟩, ⟨.execute statement row.params, none⟩, ⟨.commit, fault⟩] fault

/-- A row that was attempted, its calls, and the fault that kept it out. -/
structure Attempt where
  row : Transaction
  calls : List Answered
  fault : Option Fault

namespace Attempt

def end? (a : Attempt) : Option Fault := a.fault.filter Fault.endsSession

def fate (a : Attempt) : RowFate :=
  match a.fault with
  | none => .inserted
  | some cause => .ofFault cause

def skipped? (a : Attempt) : Option SkippedRow :=
  a.fault.map fun cause => ⟨a.row.transactionId, .ofFault cause, cause.message⟩

private theorem filterMap_skipped?_cons (a : Attempt) (attempts : List Attempt) :
    (a :: attempts).filterMap skipped? = a.skipped?.toList ++ attempts.filterMap skipped? := by
  cases skipped : a.skipped? <;> simp [skipped]

end Attempt

def notAttempted (cause : Fault) (row : Transaction) : SkippedRow :=
  ⟨row.transactionId, .other, s!"not attempted, session ended: {cause.message}"⟩

/-- How rows are attempted one after the other, which of them remain when the session ends, and what
becomes of all. -/
inductive Attempts (statement : String) :
    List Transaction → List Attempt → List Transaction → List (Transaction × RowFate) → Prop where
  | nil : Attempts statement [] [] [] []
  | next {a : Attempt} {rows remaining : List Transaction} {attempts : List Attempt}
      {fates : List (Transaction × RowFate)}
      (group : RowGroup statement a.row a.calls a.fault) (goesOn : a.end? = none)
      (rest : Attempts statement rows attempts remaining fates) :
      Attempts statement (a.row :: rows) (a :: attempts) remaining ((a.row, a.fate) :: fates)
  | last {a : Attempt} {cause : Fault} (rows : List Transaction)
      (group : RowGroup statement a.row a.calls a.fault) (ends : a.end? = some cause) :
      Attempts statement (a.row :: rows) [a] rows
        ((a.row, a.fate) :: rows.map fun row => (row, .notAttempted cause))

/-- What a session does with rows, and what is reported about it. -/
structure SessionAccount (statement : String) (rows : List Transaction) (attempts : List Attempt)
    (remaining : List Transaction) (outcome : RowsOutcome) : Prop where
  rows_eq : attempts.map Attempt.row ++ remaining = rows
  group : ∀ a ∈ attempts, RowGroup statement a.row a.calls a.fault
  /-- A row is in exactly if its commit succeeded. -/
  committed : ∀ a ∈ attempts, a.fault = none ↔ ⟨.commit, none⟩ ∈ a.calls
  /-- Only the last attempt can end the session. -/
  open_before : ∀ a ∈ attempts.dropLast, a.end? = none
  inserted_eq : outcome.inserted = attempts.countP fun a => a.fault.isNone
  total : outcome.inserted + outcome.skipped.length = rows.length
  all_attempted : attempts.findSome? Attempt.end? = none →
    remaining = [] ∧ outcome.skipped = attempts.filterMap Attempt.skipped?
  cut_short : ∀ cause, attempts.findSome? Attempt.end? = some cause →
    outcome.skipped = attempts.filterMap Attempt.skipped? ++ remaining.map (notAttempted cause)

private theorem RowGroup.fault_eq_none_iff {statement : String} {row : Transaction}
    {calls : List Answered} {fault : Option Fault} (group : RowGroup statement row calls fault) :
    fault = none ↔ ⟨.commit, none⟩ ∈ calls := by
  cases group with
  | refused cause => simp
  | undone cause refusal => simp
  | ended fault => simp [eq_comm]

namespace RowsOutcome

variable (row : Transaction) (fates : List (Transaction × RowFate))

private theorem ofFates_inserted :
    ofFates ((row, .inserted) :: fates) =
      ⟨(ofFates fates).inserted + 1, (ofFates fates).skipped⟩ := by
  simp [ofFates, skippedRow?]

private theorem ofFates_skipped (reason : SkipReason) (error : String) :
    ofFates ((row, .skipped reason error) :: fates) =
      ⟨(ofFates fates).inserted, ⟨row.transactionId, reason, error⟩ :: (ofFates fates).skipped⟩ := by
  simp [ofFates, skippedRow?]

private theorem total_ofFates :
    (ofFates fates).inserted + (ofFates fates).skipped.length = fates.length := by
  induction fates with
  | nil => rfl
  | cons entry fates ih =>
    obtain ⟨row, fate⟩ := entry
    cases fate with
    | inserted =>
      rw [ofFates_inserted, List.length_cons]
      simp only
      omega
    | skipped reason error =>
      rw [ofFates_skipped, List.length_cons]
      simp only [List.length_cons]
      omega

private theorem ofFates_notAttempted (cause : Fault) (rows : List Transaction) :
    ofFates (rows.map fun row => (row, .notAttempted cause)) =
      ⟨0, rows.map (notAttempted cause)⟩ := by
  induction rows with
  | nil => rfl
  | cons row rows ih =>
    rw [List.map_cons, RowFate.notAttempted, ofFates_skipped, ← RowFate.notAttempted, ih]
    rfl

private theorem ofFates_attempt (a : Attempt) :
    ofFates ((a.row, a.fate) :: fates) =
      ⟨(ofFates fates).inserted + (if a.fault.isNone then 1 else 0),
        a.skipped?.toList ++ (ofFates fates).skipped⟩ := by
  unfold Attempt.fate Attempt.skipped?
  cases a.fault with
  | none => exact ofFates_inserted a.row fates
  | some cause => exact ofFates_skipped a.row fates _ _

end RowsOutcome

namespace Attempts

variable {statement : String} {rows remaining : List Transaction} {attempts : List Attempt}
  {fates : List (Transaction × RowFate)}

private theorem rows_eq (h : Attempts statement rows attempts remaining fates) :
    attempts.map Attempt.row ++ remaining = rows := by
  induction h with
  | nil => rfl
  | next _ _ _ ih => rw [List.map_cons, List.cons_append, ih]
  | last rows _ _ => rfl

theorem group (h : Attempts statement rows attempts remaining fates) :
    ∀ a ∈ attempts, RowGroup statement a.row a.calls a.fault := by
  induction h with
  | nil => simp
  | next here _ _ ih => exact List.forall_mem_cons.mpr ⟨here, ih⟩
  | last rows here _ => exact List.forall_mem_singleton.mpr here

private theorem open_before (h : Attempts statement rows attempts remaining fates) :
    ∀ a ∈ attempts.dropLast, a.end? = none := by
  induction h with
  | nil => simp
  | @next a rows remaining attempts fates _ goesOn _ ih =>
    cases attempts with
    | nil => simp
    | cons b others =>
      rw [List.dropLast_cons_of_ne_nil (List.cons_ne_nil b others)]
      exact List.forall_mem_cons.mpr ⟨goesOn, ih⟩
  | last rows _ _ => simp

private theorem inserted_eq (h : Attempts statement rows attempts remaining fates) :
    (RowsOutcome.ofFates fates).inserted = attempts.countP fun a => a.fault.isNone := by
  induction h with
  | nil => rfl
  | next _ _ _ ih => rw [RowsOutcome.ofFates_attempt, List.countP_cons, ih]
  | last rows _ _ =>
    rw [RowsOutcome.ofFates_attempt, RowsOutcome.ofFates_notAttempted, List.countP_singleton]
    exact Nat.zero_add _

private theorem skipped_eq (h : Attempts statement rows attempts remaining fates) :
    (attempts.findSome? Attempt.end? = none → remaining = [] ∧
        (RowsOutcome.ofFates fates).skipped = attempts.filterMap Attempt.skipped?) ∧
      ∀ cause, attempts.findSome? Attempt.end? = some cause →
        (RowsOutcome.ofFates fates).skipped =
          attempts.filterMap Attempt.skipped? ++ remaining.map (notAttempted cause) := by
  induction h with
  | nil => exact ⟨fun _ => ⟨rfl, rfl⟩, fun _ ends => absurd ends (Option.some_ne_none _).symm⟩
  | @next a rows remaining attempts fates _ goesOn _ ih =>
    obtain ⟨complete, cut⟩ := ih
    have later : (a :: attempts).findSome? Attempt.end? = attempts.findSome? Attempt.end? := by
      rw [List.findSome?_cons, goesOn]
    rw [later, RowsOutcome.ofFates_attempt, a.filterMap_skipped?_cons]
    constructor
    · intro goesOn
      obtain ⟨nothing, all⟩ := complete goesOn
      exact ⟨nothing, congrArg (a.skipped?.toList ++ ·) all⟩
    · intro cause ends
      rw [List.append_assoc]
      exact congrArg (a.skipped?.toList ++ ·) (cut cause ends)
  | @last a cause rows _ ends =>
    have found : [a].findSome? Attempt.end? = some cause := by
      rw [List.findSome?_cons, ends]
    rw [found, RowsOutcome.ofFates_attempt, RowsOutcome.ofFates_notAttempted,
      a.filterMap_skipped?_cons, List.filterMap_nil, List.append_nil]
    refine ⟨fun goesOn => absurd goesOn (Option.some_ne_none cause), ?_⟩
    rintro _ ⟨⟩
    rfl

private theorem length_eq (h : Attempts statement rows attempts remaining fates) :
    fates.length = rows.length := by
  induction h with
  | nil => rfl
  | next _ _ _ ih => rw [List.length_cons, List.length_cons, ih]
  | last rows _ _ => rw [List.length_cons, List.length_cons, List.length_map]

private theorem account (h : Attempts statement rows attempts remaining fates) :
    SessionAccount statement rows attempts remaining (.ofFates fates) where
  rows_eq := h.rows_eq
  group := h.group
  committed a member := (h.group a member).fault_eq_none_iff
  open_before := h.open_before
  inserted_eq := h.inserted_eq
  total := (RowsOutcome.total_ofFates fates).trans h.length_eq
  all_attempted := h.skipped_eq.1
  cut_short := h.skipped_eq.2

end Attempts

namespace RowWriter

variable {σ : Type} (w : RowWriter σ)

private theorem isOf_call (call : Call) (state : σ) : (w.call call state).IsOf w.database state :=
  .cons (.nil _)

theorem answered_call (call : Call) (state : σ) :
    Effect.answered (w.call call state).effects = [⟨call, (w.call call state).value⟩] := rfl

private theorem isOf_undo (row : Transaction) (cause : Fault) (state : σ) :
    (w.undo row cause state).IsOf w.database state :=
  (w.isOf_call .rollback state).andThen
    (Run.isOf_of_answered_nil (Effect.answered_logged_fault _ _))

private theorem isOf_writeRow (row : Transaction) (state : σ) :
    (w.writeRow row state).IsOf w.database state := by
  refine (w.isOf_call .begin state).andThen ?_
  split
  · exact Run.isOf_of_answered_nil rfl
  · refine (w.isOf_call _ _).andThen ?_
    split
    · exact w.isOf_call .commit _
    · exact w.isOf_undo row _ _

private theorem isOf_abandon (rows : List Transaction) (cause : Fault) (state : σ) :
    (abandon rows cause state).IsOf w.database state := by
  apply Run.isOf_of_answered_nil
  split <;> rfl

theorem isOf_writeRows (rows : List Transaction) (state : σ) :
    (w.writeRows rows state).IsOf w.database state := by
  induction rows generalizing state with
  | nil => exact Run.isOf_of_answered_nil rfl
  | cons row rows ih =>
    rw [writeRows]
    refine (w.isOf_writeRow row state).andThen ?_
    split
    · exact (ih _).andThen (Run.isOf_of_answered_nil rfl)
    next cause _ =>
      refine Run.IsOf.andThen ?_ (Run.isOf_of_answered_nil rfl)
      by_cases ends : cause.endsSession = true
      · rw [if_pos ends]
        exact w.isOf_abandon rows cause _
      · rw [if_neg ends]
        exact ih _

private theorem isOf_close (state : σ) : (w.close state).IsOf w.database state :=
  (w.isOf_call .close state).andThen
    (Run.isOf_of_answered_nil (Effect.answered_logged_fault _ _))

private theorem rowGroup_writeRow (row : Transaction) (state : σ) :
    RowGroup w.statement row (Effect.answered (w.writeRow row state).effects)
      (w.writeRow row state).value := by
  unfold writeRow
  cases began : (w.call .begin state).value with
  | some cause =>
    simp only [Run.answered_andThen, Run.value_andThen, answered_call, began]
    exact .refused cause
  | none =>
    cases executed : (w.call (.execute w.statement row.params) (w.call .begin state).state).value with
    | none =>
      simp only [Run.answered_andThen, Run.value_andThen, answered_call, began, executed]
      exact .ended _
    | some cause =>
      simp only [Run.answered_andThen, Run.value_andThen, answered_call, undo, began, executed]
      rw [Effect.answered_logged_fault]
      exact .undone cause _

def attempt (row : Transaction) (state : σ) : Attempt :=
  ⟨row, Effect.answered (w.writeRow row state).effects, (w.writeRow row state).value⟩

theorem writeRows_next {row : Transaction} {state : σ} (goesOn : (w.attempt row state).end? = none)
    (rows : List Transaction) :
    (w.writeRows (row :: rows) state).value = (row, (w.attempt row state).fate) ::
        (w.writeRows rows (w.writeRow row state).state).value ∧
      Effect.answered (w.writeRows (row :: rows) state).effects = (w.attempt row state).calls ++
        Effect.answered (w.writeRows rows (w.writeRow row state).state).effects := by
  rw [writeRows, Run.value_andThen, Run.answered_andThen]
  unfold attempt at *
  cases kept : (w.writeRow row state).value with
  | none =>
    refine ⟨rfl, ?_⟩
    rw [Run.answered_andThen, Effect.answered_nil, List.append_nil]
  | some cause =>
    have stays : ¬ cause.endsSession = true := by
      simpa [Attempt.end?, kept] using goesOn
    simp only [if_neg stays]
    refine ⟨rfl, ?_⟩
    rw [Run.answered_andThen, Run.after, Effect.answered_append, Effect.answered_nil,
      List.append_nil]
    rfl

theorem writeRows_last {row : Transaction} {state : σ} {cause : Fault}
    (ends : (w.attempt row state).end? = some cause) (rows : List Transaction) :
    (w.writeRows (row :: rows) state).value = (row, (w.attempt row state).fate) ::
        rows.map (fun row => (row, .notAttempted cause)) ∧
      Effect.answered (w.writeRows (row :: rows) state).effects = (w.attempt row state).calls := by
  obtain ⟨kept, lost⟩ := Option.filter_eq_some_iff.mp ends
  have kept : (w.writeRow row state).value = some cause := kept
  rw [writeRows, Run.value_andThen, Run.answered_andThen]
  unfold attempt Attempt.fate
  simp only [kept, if_pos lost]
  refine ⟨rfl, ?_⟩
  rw [Run.answered_andThen, Run.after, Effect.answered_append, Effect.answered_nil,
    List.append_nil, Effect.answered_logged, Effect.answered_nil, List.nil_append, abandon]
  split <;> simp

/-- Rows are attempted in order, and the calls are those of the attempts. -/
theorem exists_attempts (rows : List Transaction) (state : σ) :
    ∃ attempts remaining,
      Attempts w.statement rows attempts remaining (w.writeRows rows state).value ∧
        Effect.answered (w.writeRows rows state).effects = attempts.flatMap Attempt.calls := by
  induction rows generalizing state with
  | nil => exact ⟨[], [], .nil, rfl⟩
  | cons row rows ih =>
    have group := w.rowGroup_writeRow row state
    cases ended : (w.attempt row state).end? with
    | none =>
      obtain ⟨attempts, remaining, rest, calls⟩ := ih (w.writeRow row state).state
      obtain ⟨value, answered⟩ := w.writeRows_next ended rows
      refine ⟨w.attempt row state :: attempts, remaining, ?_, ?_⟩
      · rw [value]
        exact .next group ended rest
      · rw [answered, calls, List.flatMap_cons]
    | some cause =>
      obtain ⟨value, answered⟩ := w.writeRows_last ended rows
      refine ⟨[w.attempt row state], rows, ?_, ?_⟩
      · rw [value]
        exact .last rows group ended
      · rw [answered, List.flatMap_singleton]

/-- A session that cannot be opened takes no other call. One that can writes the rows in groups up
to the first that ends it, is then closed once, and reports every row. -/
theorem write_protocol (config : ConnectionConfig) (rows : List Transaction) (state : σ) :
    (w.write config rows state).IsOf w.database state ∧
      (∀ fault, (w.database.answer state (.connect config)).1 = some fault →
        (w.write config rows state).value = .error (.connect fault) ∧
        Effect.answered (w.write config rows state).effects =
          [⟨.connect config, some fault⟩]) ∧
      ((w.database.answer state (.connect config)).1 = none →
        ∃ outcome attempts remaining refusal,
          (w.write config rows state).value = .ok outcome ∧
          Effect.answered (w.write config rows state).effects =
            ⟨.connect config, none⟩ :: (attempts.flatMap Attempt.calls ++ [⟨.close, refusal⟩]) ∧
          SessionAccount w.statement rows attempts remaining outcome) := by
  refine ⟨?_, ?_, ?_⟩
  · refine (w.isOf_call (.connect config) state).andThen ?_
    split
    · exact Run.isOf_of_answered_nil rfl
    · refine (w.isOf_writeRows rows _).andThen ?_
      exact (w.isOf_close _).andThen (Run.isOf_of_answered_nil rfl)
  · intro fault refused
    have opened : (w.call (.connect config) state).value = some fault := refused
    rw [write, Run.value_andThen, Run.answered_andThen, answered_call, opened]
    exact ⟨rfl, rfl⟩
  · intro accepted
    have opened : (w.call (.connect config) state).value = none := accepted
    obtain ⟨attempts, remaining, attempted, calls⟩ :=
      w.exists_attempts rows (w.call (.connect config) state).state
    let written := w.writeRows rows (w.call (.connect config) state).state
    refine ⟨.ofFates written.value, attempts, remaining, (w.call .close written.state).value,
      ?_, ?_, attempted.account⟩
    · rw [write, Run.value_andThen, opened]
      rfl
    · rw [write, Run.answered_andThen, answered_call, opened, Run.answered_andThen, calls,
        Run.answered_andThen, close, Run.answered_andThen, answered_call,
        Effect.answered_logged_fault]
      rfl

end RowWriter

end Intake.Relational
