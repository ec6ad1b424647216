import Intake.Bulk.Writer
import Intake.Proofs.Dictionary
import Mathlib.Algebra.GroupWithZero.Nat
import Mathlib.Algebra.Order.Group.Multiset

set_option autoImplicit false

/-!
Histories of calls to a store. A chunk is submitted as a history in which every call submits what
the call before it left; if no call leaves anything but what it was given, nothing is lost on the
way: what was pending is what the calls acknowledged together with what the last one left.
-/

namespace Intake.Bulk

theorem Reply.unprocessed_ofUnprocessed (table : String) (requests : List PutRequest) :
    (Reply.ofUnprocessed table requests).unprocessed table = requests := by
  unfold ofUnprocessed
  split
  next nothing => rw [List.isEmpty_iff.mp nothing]; rfl
  next => simp only [unprocessed, Dictionary.get?_insert_self, Option.getD_some]

/-- A call to a store and its answer. -/
structure Exchange where
  table : String
  requests : List PutRequest
  answer : Except StoreFault Reply

namespace Exchange

/-- What has to be submitted again after a call: all of it if the call failed. -/
def left (e : Exchange) : List PutRequest :=
  match e.answer with
  | .ok reply => reply.unprocessed e.table
  | .error _ => e.requests

def IsComplete (e : Exchange) : Prop :=
  ∃ reply, e.answer = .ok reply ∧ reply.unprocessed e.table = []

def fault? (e : Exchange) : Option StoreFault :=
  match e.answer with
  | .ok _ => none
  | .error fault => some fault

/-- The requests that a call took over, each as often as it did. -/
def acknowledged (e : Exchange) : Multiset PutRequest := ↑e.requests - ↑e.left

/-- How many requests a call took over, going by the lengths. -/
def taken (e : Exchange) : Nat := e.requests.length - e.left.length

/-- What a call leaves has been submitted by it. -/
def LeavesSubmitted (e : Exchange) : Prop := (e.left : Multiset PutRequest) ≤ ↑e.requests

theorem left_of_isComplete {e : Exchange} (complete : e.IsComplete) : e.left = [] := by
  obtain ⟨reply, answered, nothing⟩ := complete
  simp only [left, answered, nothing]

private theorem left_ne_nil {e : Exchange} (nonempty : e.requests ≠ [])
    (incomplete : ¬ e.IsComplete) : e.left ≠ [] := by
  cases answered : e.answer with
  | ok reply =>
    intro nothing
    simp only [left, answered] at nothing
    exact incomplete ⟨reply, answered, nothing⟩
  | error fault => simpa only [left, answered] using nonempty

private theorem acknowledged_add_left {e : Exchange} (submitted : e.LeavesSubmitted) :
    e.acknowledged + ↑e.left = ↑e.requests :=
  Multiset.sub_add_cancel submitted

/-- Cutting the difference of lengths off at zero does no harm. -/
theorem card_acknowledged {e : Exchange} (submitted : e.LeavesSubmitted) :
    e.acknowledged.card = e.taken := by
  rw [acknowledged, Multiset.card_sub submitted, Multiset.coe_card, Multiset.coe_card, taken]

end Exchange

def Store.call {σ : Type} (store : Store σ) (table : String) (requests : List PutRequest)
    (state : σ) : Exchange :=
  ⟨table, requests, (store.write state table requests).1⟩

/-- Whatever a call leaves for the table has been submitted by it, whatever the state. -/
def Store.LeavesSubmitted {σ : Type} (store : Store σ) (table : String) : Prop :=
  ∀ state requests, (store.call table requests state).LeavesSubmitted

/-- A store answers the calls of a history one after the other and ends in a state. -/
inductive Store.Answers {σ : Type} (store : Store σ) : σ → List Exchange → σ → Prop where
  | nil (state : σ) : store.Answers state [] state
  | cons {state : σ} {table : String} {requests : List PutRequest} {calls : List Exchange} {last : σ}
      (rest : store.Answers (store.write state table requests).2 calls last) :
      store.Answers state (store.call table requests state :: calls) last

theorem Store.Answers.append {σ : Type} {store : Store σ} {first middle last : σ}
    {front back : List Exchange} (before : store.Answers first front middle)
    (after : store.Answers middle back last) : store.Answers first (front ++ back) last := by
  induction before with
  | nil => exact after
  | cons _ ih => exact .cons (ih after)

theorem Store.Answers.forall_call {σ : Type} {store : Store σ} {table : String}
    {property : Exchange → Prop} (each : ∀ state requests, property (store.call table requests state))
    {first last : σ} {calls : List Exchange} (answers : store.Answers first calls last)
    (addressed : ∀ e ∈ calls, e.table = table) : ∀ e ∈ calls, property e := by
  induction answers with
  | nil => simp
  | @cons state name requests calls last _ ih =>
    obtain ⟨rfl, others⟩ := List.forall_mem_cons.mp addressed
    exact List.forall_mem_cons.mpr ⟨each state requests, ih others⟩

theorem Store.Answers.leavesSubmitted {σ : Type} {store : Store σ} {table : String}
    (submitted : store.LeavesSubmitted table) {first last : σ} {calls : List Exchange}
    (answers : store.Answers first calls last) (addressed : ∀ e ∈ calls, e.table = table) :
    ∀ e ∈ calls, e.LeavesSubmitted :=
  answers.forall_call submitted addressed

/-- The calls address a table and submit `pending` first, then each what the one before it left. -/
def Follows (table : String) : List PutRequest → List Exchange → Prop
  | _, [] => True
  | pending, call :: calls =>
    call.table = table ∧ call.requests = pending ∧ Follows table call.left calls

/-- What has to be submitted after a history that began with `pending`. -/
def leftAfter (pending : List PutRequest) (calls : List Exchange) : List PutRequest :=
  calls.foldl (fun _ call => call.left) pending

def acknowledgedBy (calls : List Exchange) : Multiset PutRequest :=
  (calls.map Exchange.acknowledged).sum

@[simp] theorem acknowledgedBy_nil : acknowledgedBy [] = 0 := rfl

@[simp] theorem acknowledgedBy_cons (call : Exchange) (calls : List Exchange) :
    acknowledgedBy (call :: calls) = call.acknowledged + acknowledgedBy calls := by
  simp [acknowledgedBy]

@[simp] theorem acknowledgedBy_append (front back : List Exchange) :
    acknowledgedBy (front ++ back) = acknowledgedBy front + acknowledgedBy back := by
  simp [acknowledgedBy]

@[simp] theorem leftAfter_nil (pending : List PutRequest) : leftAfter pending [] = pending := rfl

@[simp] theorem leftAfter_cons (pending : List PutRequest) (call : Exchange)
    (calls : List Exchange) : leftAfter pending (call :: calls) = leftAfter call.left calls := rfl

@[simp] theorem leftAfter_concat (pending : List PutRequest) (calls : List Exchange)
    (call : Exchange) : leftAfter pending (calls ++ [call]) = call.left := by
  simp [leftAfter]

namespace Follows

variable {table : String} {pending : List PutRequest} {calls : List Exchange}

theorem table_eq (follows : Follows table pending calls) : ∀ e ∈ calls, e.table = table := by
  induction calls generalizing pending with
  | nil => simp
  | cons call calls ih =>
    obtain ⟨addressed, -, rest⟩ := follows
    exact List.forall_mem_cons.mpr ⟨addressed, ih rest⟩

private theorem append_iff {front back : List Exchange} :
    Follows table pending (front ++ back) ↔
      Follows table pending front ∧ Follows table (leftAfter pending front) back := by
  induction front generalizing pending with
  | nil => simp [Follows]
  | cons call front ih => simp only [List.cons_append, Follows, ih, leftAfter_cons, and_assoc]

/-- As long as no call was complete there is something to submit. -/
theorem requests_ne_nil (follows : Follows table pending calls) (nonempty : pending ≠ [])
    (incomplete : ∀ call ∈ calls.dropLast, ¬ call.IsComplete) :
    ∀ call ∈ calls, call.requests ≠ [] := by
  induction calls generalizing pending with
  | nil => simp
  | cons call calls ih =>
    obtain ⟨-, rfl, rest⟩ := follows
    refine List.forall_mem_cons.mpr ⟨nonempty, ?_⟩
    cases calls with
    | nil => simp
    | cons next others =>
      rw [List.dropLast_cons_of_ne_nil (List.cons_ne_nil _ _)] at incomplete
      obtain ⟨here, behind⟩ := List.forall_mem_cons.mp incomplete
      exact ih rest (Exchange.left_ne_nil nonempty here) behind

theorem conserved (follows : Follows table pending calls)
    (submitted : ∀ e ∈ calls, e.LeavesSubmitted) :
    (pending : Multiset PutRequest) = acknowledgedBy calls + ↑(leftAfter pending calls) := by
  induction calls generalizing pending with
  | nil => simp
  | cons call calls ih =>
    obtain ⟨-, rfl, rest⟩ := follows
    obtain ⟨here, others⟩ := List.forall_mem_cons.mp submitted
    calc (call.requests : Multiset PutRequest)
        = call.acknowledged + ↑call.left := (Exchange.acknowledged_add_left here).symm
      _ = call.acknowledged + (acknowledgedBy calls + ↑(leftAfter call.left calls)) := by
          rw [← ih rest others]
      _ = acknowledgedBy (call :: calls) + ↑(leftAfter call.requests (call :: calls)) := by
          rw [acknowledgedBy_cons, leftAfter_cons, add_assoc]

/-- A call submits what the calls before it have not acknowledged, and nothing that they have. -/
theorem resubmitted {front back : List Exchange} {call : Exchange}
    (follows : Follows table pending (front ++ call :: back))
    (submitted : ∀ e ∈ front, e.LeavesSubmitted) :
    (pending : Multiset PutRequest) = acknowledgedBy front + ↑call.requests := by
  obtain ⟨before, here⟩ := append_iff.mp follows
  rw [here.2.1]
  exact before.conserved submitted

end Follows

namespace Effect

def exchange? : Effect → Option Exchange
  | .submitted table requests answer => some ⟨table, requests, answer⟩
  | _ => none

def exchanges (effects : List Effect) : List Exchange := effects.filterMap exchange?

@[simp] theorem exchanges_nil : exchanges [] = [] := rfl

@[simp] theorem exchanges_append (front back : List Effect) :
    exchanges (front ++ back) = exchanges front ++ exchanges back :=
  List.filterMap_append

@[simp] theorem exchanges_submitted (table : String) (requests : List PutRequest)
    (answer : Except StoreFault Reply) (effects : List Effect) :
    exchanges (.submitted table requests answer :: effects) =
      ⟨table, requests, answer⟩ :: exchanges effects := rfl

@[simp] theorem exchanges_slept (delay : Time.Span) (effects : List Effect) :
    exchanges (.slept delay :: effects) = exchanges effects := rfl

@[simp] theorem exchanges_offered (sink : SinkRole) (letter : DeadLetter) (fault : Option Fault)
    (effects : List Effect) :
    exchanges (.offered sink letter fault :: effects) = exchanges effects := rfl

@[simp] theorem exchanges_logged (event : LogEvent) (effects : List Effect) :
    exchanges (.logged event :: effects) = exchanges effects := rfl

@[simp] theorem exchanges_map_logged (events : List LogEvent) :
    exchanges (events.map .logged) = [] := by
  simp [exchanges, exchange?]

end Effect

end Intake.Bulk
