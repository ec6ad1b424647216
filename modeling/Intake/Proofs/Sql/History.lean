import Intake.Proofs.Sql.Steps
import Mathlib.Data.List.DropRight
import Mathlib.Data.List.Nodup

set_option autoImplicit false

/-!
Histories of steps, apart from the database that they are taken on. Which rows a history makes visible
is told from its steps and from what came of them: an insertion shows its own row, and a commit that
goes through shows what has been executed under its name since the transaction was begun.
-/

namespace Intake.Sql.Interleaving

def Step.row? : Step → Option Row
  | .insert _ _ row | .stage _ _ row => some row
  | _ => none

/-- A step that has been taken: how many were taken before it, and what came of it. -/
structure Event where
  place : Nat
  step : Step
  result : StepResult

/-- How the transaction ends that a row was executed in. -/
inductive Fate where
  | committed
  | commitFailed
  | rolledBack
  /-- Nothing is said about it any more; its name may have been given to another one. -/
  | unfinished
  deriving DecidableEq

namespace Event

def row? (e : Event) : Option Row := e.step.row?

def inserts (e : Event) : Bool :=
  match e.step, e.result with
  | .insert _ _ _, .affected _ => true
  | _, _ => false

def executes (name : String) (e : Event) : Bool :=
  match e.step, e.result with
  | .stage other _ _, .affected _ => other = name
  | _, _ => false

/-- The transaction that was under a name in front of the event is not under it any more. -/
def delimits (name : String) (e : Event) : Bool :=
  match e.step, e.result with
  | .begin _ other, .done => other = name
  | .commit other, _ | .rollback other, _ => other = name
  | _, _ => false

def fate (e : Event) : Fate :=
  match e.step, e.result with
  | .commit _, .done => .committed
  | .commit _, _ => .commitFailed
  | .rollback _, _ => .rolledBack
  | _, _ => .unfinished

def committed? (e : Event) : Option String :=
  match e.step, e.result with
  | .commit name, .done => some name
  | _, _ => none

def rollsBack (e : Event) : Bool :=
  match e.step, e.result with
  | .rollback _, .done => true
  | _, _ => false

def connects (e : Event) : Bool :=
  match e.step, e.result with
  | .connect _, .done => true
  | _, _ => false

def opens (name : String) (e : Event) : Bool :=
  match e.step, e.result with
  | .connect other, .done => other = name
  | _, _ => false

/-- The session under a name is closed, which may be done again and again. -/
def closes (name : String) (e : Event) : Bool :=
  match e.step, e.result with
  | .close other, .done => other = name
  | _, _ => false

private theorem fate_eq_committed_iff {e : Event} {name : String}
    (delimits : e.delimits name = true) : e.fate = .committed ↔ e.committed? = some name := by
  obtain ⟨place, step, result⟩ := e
  cases step with
  | commit other =>
    have same : other = name := by cases result <;> exact of_decide_eq_true delimits
    cases result <;> simp [fate, committed?, same]
  | _ => simp [fate, committed?]

private theorem delimits_of_committed? {e : Event} {name : String}
    (committed : e.committed? = some name) : e.delimits name = true := by
  obtain ⟨place, step, result⟩ := e
  cases step with
  | commit other => cases result <;> simp_all [committed?, Event.delimits]
  | _ => simp [committed?] at committed

theorem executes_unique {e : Event} {name other : String} (first : e.executes name = true)
    (second : e.executes other = true) : name = other := by
  obtain ⟨place, step, result⟩ := e
  cases step with
  | stage under statement row => cases result <;> simp_all [executes]
  | _ => simp [executes] at first

private theorem not_delimits_of_executes {e : Event} {name other : String}
    (executes : e.executes name = true) : e.delimits other = false := by
  obtain ⟨place, step, result⟩ := e
  cases step with
  | stage under statement row => rfl
  | _ => simp [Event.executes] at executes

theorem not_inserts_of_executes {e : Event} {name : String} (executes : e.executes name = true) :
    e.inserts = false := by
  obtain ⟨place, step, result⟩ := e
  cases step with
  | stage under statement row => rfl
  | _ => simp [Event.executes] at executes

end Event

/-- What becomes of the transaction under a name in the events that follow. -/
def fateOf (name : String) (future : List Event) : Fate :=
  ((future.find? (Event.delimits name)).map Event.fate).getD .unfinished

/-- What has been executed in the transaction under a name, since it came to be under it. -/
def pending (name : String) (past : List Event) : List Event :=
  (past.rtakeWhile fun e => !e.delimits name).filter (Event.executes name)

/-- What an event makes visible behind others. -/
def published (past : List Event) (e : Event) : List Event :=
  match e.step, e.result with
  | .insert _ _ _, .affected _ => [e]
  | .commit name, .done => pending name past
  | _, _ => []

def isClosed (name : String) (past : List Event) : Bool :=
  (past.rtakeWhile fun e => !e.opens name).any (Event.closes name)

def closesFirst (past : List Event) (e : Event) : Bool :=
  match e.step, e.result with
  | .close name, .done => !isClosed name past
  | _, _ => false

def withPast (past : List Event) : List Event → List (List Event × Event)
  | [] => []
  | e :: rest => (past, e) :: withPast (past ++ [e]) rest

/-- The events whose rows a history makes visible, in the order in which they become so. -/
def visible (history : List Event) : List Event :=
  (withPast [] history).flatMap fun p => published p.1 p.2

def closedOnce (history : List Event) : Nat :=
  (withPast [] history).countP fun p => closesFirst p.1 p.2

section Concat

variable {name : String} (past : List Event) (e : Event)

private theorem withPast_append (before future : List Event) :
    withPast before (past ++ future) = withPast before past ++ withPast (before ++ past) future := by
  induction past generalizing before with
  | nil => simp [withPast]
  | cons first past ih => simp [withPast, ih]

theorem visible_concat : visible (past ++ [e]) = visible past ++ published past e := by
  simp [visible, withPast_append, withPast]

theorem visible_grows (future : List Event) : visible past <+: visible (past ++ future) := by
  rw [visible, visible, withPast_append, List.flatMap_append]
  exact List.prefix_append _ _

theorem closedOnce_concat :
    closedOnce (past ++ [e]) = closedOnce past + if closesFirst past e then 1 else 0 := by
  simp [closedOnce, withPast_append, withPast, List.countP_singleton]

theorem pending_of_delimits (delimits : e.delimits name = true) : pending name (past ++ [e]) = [] := by
  simp [pending, delimits]

theorem pending_of_executes (executes : e.executes name = true) :
    pending name (past ++ [e]) = pending name past ++ [e] := by
  have inside : e.delimits name = false := e.not_delimits_of_executes executes
  simp [pending, inside, executes]

theorem pending_of_other (inside : e.delimits name = false) (other : e.executes name = false) :
    pending name (past ++ [e]) = pending name past := by
  simp [pending, inside, other]

theorem isClosed_concat : isClosed name (past ++ [e]) =
    (!e.opens name && (isClosed name past || e.closes name)) := by
  cases opened : e.opens name <;> simp [isClosed, opened]

end Concat

section Fate

variable {name : String} {future : List Event}

private theorem find?_of_inside (inside : ∀ e ∈ future, e.delimits name = false) :
    future.find? (Event.delimits name) = none := by
  rw [List.find?_eq_none]
  intro e there
  simp [inside e there]

private theorem fateOf_of_inside (inside : ∀ e ∈ future, e.delimits name = false) :
    fateOf name future = .unfinished := by
  simp [fateOf, find?_of_inside inside]

private theorem fateOf_concat_of_inside (inside : ∀ e ∈ future, e.delimits name = false)
    {last : Event}
    (delimits : last.delimits name = true) : fateOf name (future ++ [last]) = last.fate := by
  simp [fateOf, List.find?_append, find?_of_inside inside, delimits]

private theorem fateOf_append_of_delimited (delimited : ∃ e ∈ future, e.delimits name = true)
    (more : List Event) : fateOf name (future ++ more) = fateOf name future := by
  have found : (future.find? (Event.delimits name)).isSome = true := by
    rw [List.find?_isSome]
    exact delimited
  obtain ⟨e, first⟩ := Option.isSome_iff_exists.mp found
  simp [fateOf, List.find?_append, first]

private theorem fateOf_concat_eq_committed_iff (last : Event) :
    fateOf name (future ++ [last]) = .committed ↔ fateOf name future = .committed ∨
      last.committed? = some name ∧ ∀ e ∈ future, e.delimits name = false := by
  by_cases delimited : ∃ e ∈ future, e.delimits name = true
  · have outside : ¬ ∀ e ∈ future, e.delimits name = false := by
      obtain ⟨e, there, delimits⟩ := delimited
      intro inside
      simp [inside e there] at delimits
    rw [fateOf_append_of_delimited delimited]
    simp [outside]
  · push Not at delimited
    have inside : ∀ e ∈ future, e.delimits name = false := by
      intro e there
      exact Bool.eq_false_iff.mpr (delimited e there)
    rw [fateOf_of_inside inside]
    simp only [reduceCtorEq, false_or, and_iff_left inside]
    by_cases delimits : last.delimits name = true
    · rw [fateOf_concat_of_inside inside delimits]
      exact Event.fate_eq_committed_iff delimits
    · have inside' : ∀ e ∈ future ++ [last], e.delimits name = false := by
        intro e there
        rcases List.mem_append.mp there with before | now
        · exact inside e before
        · rw [List.mem_singleton.mp now]
          exact Bool.eq_false_iff.mpr delimits
      rw [fateOf_of_inside inside']
      refine iff_of_false (by simp) ?_
      intro committed
      exact delimits (Event.delimits_of_committed? committed)

end Fate

section Visible

variable {name : String} {front back past : List Event} {x e : Event}

private theorem nodup_concat_iff : (past ++ [e]).Nodup ↔ e ∉ past ∧ past.Nodup := by
  rw [List.nodup_append_comm, List.singleton_append, List.nodup_cons]

private theorem pending_subset (name : String) (past : List Event) : pending name past ⊆ past := by
  intro x there
  exact (List.rtakeWhile_suffix _ past).subset (List.mem_of_mem_filter there)

private theorem pending_sublist (name : String) (past : List Event) :
    (pending name past).Sublist past :=
  List.filter_sublist.trans (List.rtakeWhile_suffix _ past).sublist

private theorem mem_published_iff : x ∈ published past e ↔
    e.inserts = true ∧ x = e ∨ ∃ name, e.committed? = some name ∧ x ∈ pending name past := by
  obtain ⟨place, step, result⟩ := e
  cases step with
  | insert session statement row => cases result <;> simp [published, Event.inserts, Event.committed?]
  | commit under => cases result <;> simp [published, Event.inserts, Event.committed?]
  | _ => simp [published, Event.inserts, Event.committed?]

private theorem mem_pending_iff (distinct : (front ++ x :: back).Nodup) :
    x ∈ pending name (front ++ x :: back) ↔
      x.executes name = true ∧ ∀ e ∈ back, e.delimits name = false := by
  induction back using List.reverseRecOn with
  | nil =>
    have fresh := (nodup_concat_iff.mp distinct).1
    have absent : x ∉ pending name front := fun there => fresh (pending_subset name front there)
    cases executes : x.executes name with
    | true => simp [pending_of_executes front x executes]
    | false =>
      cases delimits : x.delimits name with
      | true => simp [pending_of_delimits front x delimits]
      | false => simp [pending_of_other front x delimits executes, absent]
  | append_singleton back last ih =>
    rw [← List.cons_append, ← List.append_assoc] at distinct ⊢
    obtain ⟨fresh, earlier⟩ := nodup_concat_iff.mp distinct
    have different : x ≠ last := by
      rintro rfl
      exact fresh (by simp)
    cases delimits : last.delimits name with
    | true =>
      rw [pending_of_delimits _ last delimits]
      refine iff_of_false List.not_mem_nil ?_
      rintro ⟨-, inside⟩
      have contrary := inside last (List.mem_append_right back (List.mem_singleton_self last))
      simp [delimits] at contrary
    | false =>
      have kept : x ∈ pending name (front ++ x :: back ++ [last]) ↔
          x ∈ pending name (front ++ x :: back) := by
        cases executes : last.executes name with
        | true =>
          rw [pending_of_executes _ last executes, List.mem_append, List.mem_singleton]
          exact or_iff_left different
        | false => rw [pending_of_other _ last delimits executes]
      rw [kept, ih earlier]
      simp [or_imp, forall_and, delimits]

private theorem visible_subset (history : List Event) : visible history ⊆ history := by
  induction history using List.reverseRecOn with
  | nil => exact List.nil_subset []
  | append_singleton past e ih =>
    rw [visible_concat]
    intro x there
    rcases List.mem_append.mp there with before | now
    · exact List.mem_append_left [e] (ih before)
    · rcases mem_published_iff.mp now with ⟨-, rfl⟩ | ⟨name, -, waiting⟩
      · exact List.mem_append_right past (List.mem_singleton_self x)
      · exact List.mem_append_left [e] (pending_subset name past waiting)

/-- A row is visible if it was inserted on its own, or executed in a transaction that is committed. -/
theorem mem_visible_iff (distinct : (front ++ x :: back).Nodup) :
    x ∈ visible (front ++ x :: back) ↔
      x.inserts = true ∨ ∃ name, x.executes name = true ∧ fateOf name back = .committed := by
  induction back using List.reverseRecOn with
  | nil =>
    have fresh := (nodup_concat_iff.mp distinct).1
    have before : x ∉ visible front := fun there => fresh (visible_subset front there)
    have waiting : ∀ name, x ∉ pending name front := by
      intro name there
      exact fresh (pending_subset name front there)
    rw [visible_concat, List.mem_append, or_iff_right before, mem_published_iff]
    simp [waiting, fateOf]
  | append_singleton back last ih =>
    rw [← List.cons_append, ← List.append_assoc] at distinct ⊢
    obtain ⟨fresh, earlier⟩ := nodup_concat_iff.mp distinct
    have different : x ≠ last := by
      rintro rfl
      exact fresh (by simp)
    rw [visible_concat, List.mem_append, ih earlier, mem_published_iff]
    simp only [different, and_false, false_or, mem_pending_iff earlier, or_assoc,
      fateOf_concat_eq_committed_iff]
    refine or_congr_right ?_
    constructor
    · rintro (⟨name, executes, committed⟩ | ⟨name, committed, executes, inside⟩)
      · exact ⟨name, executes, .inl committed⟩
      · exact ⟨name, executes, .inr ⟨committed, inside⟩⟩
    · rintro ⟨name, executes, committed | ⟨committed, inside⟩⟩
      · exact .inl ⟨name, executes, committed⟩
      · exact .inr ⟨name, committed, executes, inside⟩

private theorem notMem_visible_of_mem_pending (distinct : past.Nodup)
    (waiting : x ∈ pending name past) : x ∉ visible past := by
  obtain ⟨front, back, rfl⟩ := List.append_of_mem (pending_subset name past waiting)
  obtain ⟨executes, inside⟩ := (mem_pending_iff distinct).mp waiting
  rw [mem_visible_iff distinct]
  rintro (inserts | ⟨other, also, committed⟩)
  · simp [Event.not_inserts_of_executes executes] at inserts
  · obtain rfl := Event.executes_unique executes also
    simp [fateOf_of_inside inside] at committed

theorem nodup_visible {history : List Event} (distinct : history.Nodup) : (visible history).Nodup := by
  induction history using List.reverseRecOn with
  | nil => exact List.nodup_nil
  | append_singleton past e ih =>
    obtain ⟨fresh, earlier⟩ := nodup_concat_iff.mp distinct
    have once : (published past e).Nodup := by
      have waiting : ∀ name, (pending name past).Nodup := fun name =>
        earlier.sublist (pending_sublist name past)
      unfold published
      split
      · exact List.nodup_singleton e
      · exact waiting _
      · exact List.nodup_nil
    rw [visible_concat]
    refine List.nodup_append.mpr ⟨ih earlier, once, ?_⟩
    rintro x before _ now rfl
    rcases mem_published_iff.mp now with ⟨-, rfl⟩ | ⟨name, -, waiting⟩
    · exact fresh (visible_subset past before)
    · exact notMem_visible_of_mem_pending earlier waiting before

end Visible

end Intake.Sql.Interleaving
