import Intake.Proofs.Bulk.Exchange

set_option autoImplicit false

/-!
How a chunk is delivered. `Delivers` lists the three ways in which a call can go on: it leaves
nothing, or the attempts are used up, or what it left is submitted again after a delay. Every law of
a delivery is an induction over these three. The main statement is that a chunk is conserved: what
the store acknowledged and what was given up are together the chunk.
-/

namespace Intake.Bulk

open Intake.Time

namespace RetryPolicy

/-- The most calls that are made for a chunk: there is always one. -/
def budget (p : RetryPolicy) : Nat := max 1 p.maxRetries.toNat

/-- Every delay that a chunk can incur can be represented. -/
def IsRepresentable (p : RetryPolicy) : Prop :=
  ∀ attempt, 1 ≤ attempt → attempt ≤ p.budget → ∃ delay, p.delay? attempt = some delay

theorem budget_pos (p : RetryPolicy) : 0 < p.budget := by
  unfold budget
  omega

theorem budget_lt (p : RetryPolicy) : p.budget < UInt32.size := by
  have bound := p.maxRetries.toNat_lt_size
  have one : 1 < UInt32.size := by decide
  unfold budget
  omega

private theorem isExhausted_iff {p : RetryPolicy} {n : Nat} (within : n < p.budget) :
    (RetryState.fail ⟨p, n⟩).isExhausted = true ↔ n + 1 = p.budget := by
  have unfolded : (RetryState.fail ⟨p, n⟩).isExhausted = true ↔ p.maxRetries.toNat ≤ n + 1 :=
    decide_eq_true_iff
  rw [unfolded]
  unfold budget at *
  omega

theorem standard_isRepresentable : standard.IsRepresentable := by
  have all : ∀ attempt ≤ 5, (standard.delay? attempt).isSome = true := by decide +kernel
  intro attempt _ within
  exact Option.isSome_iff_exists.mp (all attempt within)

end RetryPolicy

namespace Round

variable (table : String) (accepted : Nat) (pending : List PutRequest)
  (answer : Except StoreFault Reply)

private theorem ofAnswer_pending :
    (ofAnswer table accepted pending answer).pending = Exchange.left ⟨table, pending, answer⟩ := by
  cases answer <;> rfl

private theorem ofAnswer_fault :
    (ofAnswer table accepted pending answer).fault = Exchange.fault? ⟨table, pending, answer⟩ := by
  cases answer <;> rfl

private theorem ofAnswer_accepted :
    (ofAnswer table accepted pending answer).accepted =
      accepted + Exchange.taken ⟨table, pending, answer⟩ := by
  cases answer with
  | ok reply => rfl
  | error fault => simp [ofAnswer, Exchange.taken, Exchange.left]

private theorem isDone_ofAnswer_iff :
    (ofAnswer table accepted pending answer).isDone = true ↔
      Exchange.IsComplete ⟨table, pending, answer⟩ := by
  cases answer with
  | ok reply => simp [ofAnswer, isDone, Exchange.IsComplete]
  | error fault => simp [ofAnswer, isDone, Exchange.IsComplete]

end Round

theorem ChunkOutcome.residual_of_isSuccess {o : ChunkOutcome} (success : o.isSuccess = true) :
    o.residual = [] := by
  cases o with
  | success attempts accepted => rfl
  | exhausted attempts accepted residual => exact absurd success Bool.false_ne_true

def callEffects (call : Exchange) (accepted attempts : Nat) : List Effect :=
  [.submitted call.table call.requests call.answer,
    .logged ((Round.ofAnswer call.table accepted call.requests call.answer).event call.table
      attempts)]

def pauseEffects (table : String) (attempts : Nat) (delay : Span) : List Effect :=
  [.logged (backingOff table attempts delay), .slept delay]

/-- A delivery of what is pending behind `n` calls, of which `accepted` requests were taken. -/
inductive Delivers {σ : Type} (store : Store σ) (policy : RetryPolicy) (table : String) :
    Nat → Nat → List PutRequest → σ → Delivery σ → Prop where
  | done {n accepted : Nat} {pending : List PutRequest} {state : σ}
      (complete : (store.call table pending state).IsComplete) :
      Delivers store policy table n accepted pending state
        ⟨.success (n + 1) (accepted + (store.call table pending state).taken), none,
          callEffects (store.call table pending state) accepted (n + 1),
          (store.write state table pending).2⟩
  /-- The call fails or leaves something, and is the last one allowed. -/
  | spent {n accepted : Nat} {pending : List PutRequest} {state : σ} {delay : Span}
      (incomplete : ¬ (store.call table pending state).IsComplete)
      (waits : policy.delay? (n + 1) = some delay) (last : n + 1 = policy.budget) :
      Delivers store policy table n accepted pending state
        ⟨.exhausted (n + 1) (accepted + (store.call table pending state).taken)
            (store.call table pending state).left,
          (store.call table pending state).fault?,
          callEffects (store.call table pending state) accepted (n + 1) ++
            pauseEffects table (n + 1) delay,
          (store.write state table pending).2⟩
  /-- The call fails or leaves something, which is submitted again. -/
  | again {n accepted : Nat} {pending : List PutRequest} {state : σ} {delay : Span}
      {d : Delivery σ} (incomplete : ¬ (store.call table pending state).IsComplete)
      (waits : policy.delay? (n + 1) = some delay) (more : n + 1 < policy.budget)
      (rest : Delivers store policy table (n + 1)
        (accepted + (store.call table pending state).taken)
        (store.call table pending state).left (store.write state table pending).2 d) :
      Delivers store policy table n accepted pending state
        (d.after (callEffects (store.call table pending state) accepted (n + 1) ++
          pauseEffects table (n + 1) delay))

variable {σ : Type} {policy : RetryPolicy}

/-- A delivery that has attempts left comes to an end, and does so in one of the three ways. -/
theorem exists_delivers (store : Store σ) (table : String) (representable : policy.IsRepresentable)
    {n : Nat} (within : n < policy.budget) (accepted : Nat) (pending : List PutRequest)
    (state : σ) :
    ∃ d, deliver store table ⟨policy, n⟩ n accepted pending state = some d ∧
      Delivers store policy table n accepted pending state d := by
  induction left : policy.budget - n generalizing n accepted pending state with
  | zero => omega
  | succ left' ih =>
    have fault := Round.ofAnswer_fault table accepted pending (store.write state table pending).1
    have pendingEq :=
      Round.ofAnswer_pending table accepted pending (store.write state table pending).1
    have taken :=
      Round.ofAnswer_accepted table accepted pending (store.write state table pending).1
    have done :=
      Round.isDone_ofAnswer_iff table accepted pending (store.write state table pending).1
    rw [deliver]
    by_cases complete : (store.call table pending state).IsComplete
    · refine ⟨_, if_pos (done.mpr complete), ?_⟩
      rw [taken]
      exact .done complete
    · obtain ⟨delay, waits⟩ := representable (n + 1) (by omega) (by omega)
      have waits' : (RetryState.fail ⟨policy, n⟩).delay? = some delay := waits
      simp only [if_neg (mt done.mp complete), waits', fault, pendingEq, taken,
        Option.bind_eq_bind, Option.bind_some]
      by_cases last : n + 1 = policy.budget
      · rw [if_pos ((RetryPolicy.isExhausted_iff within).mpr last)]
        exact ⟨_, rfl, .spent complete waits last⟩
      · rw [if_neg (mt (RetryPolicy.isExhausted_iff within).mp last)]
        obtain ⟨d, run, rest⟩ := ih (n := n + 1) (by omega)
          (accepted + (store.call table pending state).taken)
          (store.call table pending state).left (store.write state table pending).2 (by omega)
        refine ⟨_, ?_, .again complete waits (by omega) rest⟩
        exact congrArg (Option.map _) run

variable {store : Store σ} {table : String}

@[simp] theorem exchanges_callEffects (call : Exchange) (accepted attempts : Nat) :
    Effect.exchanges (callEffects call accepted attempts) = [call] := rfl

@[simp] theorem exchanges_pauseEffects (attempts : Nat) (delay : Span) :
    Effect.exchanges (pauseEffects table attempts delay) = [] := rfl

theorem exchanges_after (call : Exchange) (accepted attempts : Nat) (delay : Span)
    (d : Delivery σ) :
    Effect.exchanges (d.after (callEffects call accepted attempts ++
        pauseEffects table attempts delay)).effects =
      call :: Effect.exchanges d.effects := by
  simp [Delivery.after]

namespace Delivers

variable {n accepted : Nat} {pending : List PutRequest} {state : σ} {d : Delivery σ}

theorem follows (h : Delivers store policy table n accepted pending state d) :
    Follows table pending (Effect.exchanges d.effects) := by
  induction h with
  | done _ => exact ⟨rfl, rfl, trivial⟩
  | spent _ _ _ => exact ⟨rfl, rfl, trivial⟩
  | again _ _ _ _ ih =>
    rw [exchanges_after]
    exact ⟨rfl, rfl, ih⟩

theorem answers (h : Delivers store policy table n accepted pending state d) :
    store.Answers state (Effect.exchanges d.effects) d.store := by
  induction h with
  | done _ => exact .cons (.nil _)
  | spent _ _ _ => exact .cons (.nil _)
  | again _ _ _ _ ih =>
    rw [exchanges_after]
    exact .cons ih

theorem ends (h : Delivers store policy table n accepted pending state d)
    (within : n < policy.budget) :
    ∃ front last, Effect.exchanges d.effects = front ++ [last] ∧
      (∀ call ∈ front, ¬ call.IsComplete) ∧ n + front.length < policy.budget ∧
      (d.outcome.isSuccess = true ∧ last.IsComplete ∨
        d.outcome.isSuccess = false ∧ ¬ last.IsComplete ∧ n + front.length + 1 = policy.budget) := by
  induction h with
  | done complete => exact ⟨[], _, rfl, by simp, within, .inl ⟨rfl, complete⟩⟩
  | spent incomplete _ last => exact ⟨[], _, rfl, by simp, within, .inr ⟨rfl, incomplete, last⟩⟩
  | again incomplete _ more _ ih =>
    obtain ⟨front, last, calls, open_, fewer, outcome⟩ := ih more
    refine ⟨_ :: front, last, ?_, List.forall_mem_cons.mpr ⟨incomplete, open_⟩, ?_, ?_⟩
    · rw [exchanges_after, calls, List.cons_append]
    · simp only [List.length_cons]
      omega
    · simpa only [Delivery.after, List.length_cons, Nat.add_assoc, Nat.add_comm 1] using outcome

theorem attempts_eq (h : Delivers store policy table n accepted pending state d) :
    d.outcome.attempts = n + (Effect.exchanges d.effects).length := by
  induction h with
  | done _ => rfl
  | spent _ _ _ => rfl
  | again _ _ _ _ ih =>
    rw [exchanges_after, List.length_cons]
    simp only [Delivery.after, ih]
    omega

theorem residual_eq (h : Delivers store policy table n accepted pending state d) :
    d.outcome.residual = leftAfter pending (Effect.exchanges d.effects) := by
  induction h with
  | done complete => exact (Exchange.left_of_isComplete complete).symm
  | spent _ _ _ => rfl
  | again _ _ _ _ ih =>
    rw [exchanges_after, leftAfter_cons]
    exact ih

theorem accepted_eq (h : Delivers store policy table n accepted pending state d) :
    d.outcome.accepted = accepted + ((Effect.exchanges d.effects).map Exchange.taken).sum := by
  induction h with
  | done _ => rfl
  | spent _ _ _ => rfl
  | again _ _ _ _ ih =>
    rw [exchanges_after, List.map_cons, List.sum_cons]
    simp only [Delivery.after, ih]
    omega

end Delivers

end Intake.Bulk
