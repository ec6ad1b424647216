import Intake.Proofs.Bulk.Delivery

set_option autoImplicit false

/-!
Conservation in one chunk. Whatever a store answers, as long as a call leaves nothing but what it
was given: the calls made for a chunk acknowledge each of its requests or leave it in the end, and
the outcome says how many of either there are.
-/

namespace Intake.Bulk

/-- What the outcome of a chunk says about the calls that were made for it. -/
structure ChunkAccount (policy : RetryPolicy) (table : String) (chunk : List PutRequest)
    (calls : List Exchange) (outcome : ChunkOutcome) : Prop where
  called : 1 ≤ calls.length
  within : calls.length ≤ policy.budget
  /-- The chunk is submitted first, and then what the call before left. -/
  follows : Follows table chunk calls
  /-- A call that leaves nothing is the last one. -/
  incomplete : ∀ call ∈ calls.dropLast, ¬ call.IsComplete
  success_iff : outcome.isSuccess = true ↔ ∃ last ∈ calls.getLast?, last.IsComplete
  exhausted_iff : outcome.isSuccess = false ↔
    calls.length = policy.budget ∧ ∀ call ∈ calls, ¬ call.IsComplete
  attempts_eq : outcome.attempts = calls.length
  /-- The counter of the calls stays within its word. -/
  attempts_lt : outcome.attempts < UInt32.size
  residual_eq : outcome.residual = leftAfter chunk calls
  conserved : (chunk : Multiset PutRequest) = acknowledgedBy calls + ↑outcome.residual
  accepted_eq : outcome.accepted = (acknowledgedBy calls).card
  accepted_add : outcome.accepted + outcome.residual.length = chunk.length
  /-- No call submits again what a call before it acknowledged. -/
  resubmitted : ∀ front call back, calls = front ++ call :: back →
    (chunk : Multiset PutRequest) = acknowledgedBy front + ↑call.requests

variable {σ τ υ : Type} {table : String} {chunk : List PutRequest}

theorem card_acknowledgedBy {calls : List Exchange}
    (submitted : ∀ call ∈ calls, call.LeavesSubmitted) :
    (acknowledgedBy calls).card = (calls.map Exchange.taken).sum := by
  induction calls with
  | nil => rfl
  | cons call calls ih =>
    obtain ⟨here, others⟩ := List.forall_mem_cons.mp submitted
    rw [acknowledgedBy_cons, Multiset.card_add, Exchange.card_acknowledged here, ih others,
      List.map_cons, List.sum_cons]

namespace Delivers

variable {store : Store σ} {policy : RetryPolicy} {state : σ} {d : Delivery σ}

theorem bounds (h : Delivers store policy table 0 0 chunk state d) :
    1 ≤ (Effect.exchanges d.effects).length ∧
      (Effect.exchanges d.effects).length ≤ policy.budget ∧
      ∀ call ∈ (Effect.exchanges d.effects).dropLast, ¬ call.IsComplete := by
  obtain ⟨front, last, calls, incomplete, fewer, -⟩ := h.ends policy.budget_pos
  have length : (Effect.exchanges d.effects).length = front.length + 1 := by simp [calls]
  refine ⟨by omega, by omega, ?_⟩
  rwa [calls, List.dropLast_concat]

private theorem success_iff (h : Delivers store policy table 0 0 chunk state d) :
    d.outcome.isSuccess = true ↔
      ∃ last ∈ (Effect.exchanges d.effects).getLast?, last.IsComplete := by
  obtain ⟨front, last, calls, -, -, outcome⟩ := h.ends policy.budget_pos
  rw [calls, List.getLast?_concat]
  rcases outcome with ⟨success, complete⟩ | ⟨success, unfinished, -⟩
  · simp [success, complete]
  · simp [success, unfinished]

theorem exhausted_iff (h : Delivers store policy table 0 0 chunk state d) :
    d.outcome.isSuccess = false ↔ (Effect.exchanges d.effects).length = policy.budget ∧
      ∀ call ∈ Effect.exchanges d.effects, ¬ call.IsComplete := by
  obtain ⟨front, last, calls, incomplete, -, outcome⟩ := h.ends policy.budget_pos
  rw [calls]
  rcases outcome with ⟨success, complete⟩ | ⟨success, unfinished, spent⟩
  · simp [success, complete]
  · have all : ∀ call ∈ front ++ [last], ¬ call.IsComplete := by
      intro call made
      rcases List.mem_append.mp made with made | made
      · exact incomplete call made
      · rwa [List.mem_singleton.mp made]
    have length : (front ++ [last]).length = policy.budget := by
      rw [List.length_append, List.length_singleton]
      omega
    exact ⟨fun _ => ⟨length, all⟩, fun _ => success⟩

private theorem conserved (h : Delivers store policy table 0 0 chunk state d)
    (submitted : store.LeavesSubmitted table) :
    (chunk : Multiset PutRequest) =
        acknowledgedBy (Effect.exchanges d.effects) + ↑d.outcome.residual ∧
      d.outcome.accepted = (acknowledgedBy (Effect.exchanges d.effects)).card := by
  have kept := h.answers.leavesSubmitted submitted h.follows.table_eq
  constructor
  · rw [h.residual_eq]
    exact h.follows.conserved kept
  · rw [h.accepted_eq, Nat.zero_add, card_acknowledgedBy kept]

private theorem account (h : Delivers store policy table 0 0 chunk state d)
    (submitted : store.LeavesSubmitted table) :
    ChunkAccount policy table chunk (Effect.exchanges d.effects) d.outcome := by
  obtain ⟨called, within, incomplete⟩ := h.bounds
  obtain ⟨conserved, accepted⟩ := h.conserved submitted
  have attempts : d.outcome.attempts = (Effect.exchanges d.effects).length := by
    rw [h.attempts_eq, Nat.zero_add]
  have bound := policy.budget_lt
  have cards := congrArg Multiset.card conserved
  rw [Multiset.card_add, Multiset.coe_card, Multiset.coe_card] at cards
  refine
    { called := called
      within := within
      follows := h.follows
      incomplete := incomplete
      success_iff := h.success_iff
      exhausted_iff := h.exhausted_iff
      attempts_eq := attempts
      attempts_lt := by omega
      residual_eq := h.residual_eq
      conserved := conserved
      accepted_eq := accepted
      accepted_add := by omega
      resubmitted := ?_ }
  intro front call back cut
  have follows := h.follows
  have kept := h.answers.leavesSubmitted submitted follows.table_eq
  rw [cut] at follows kept
  exact follows.resubmitted fun e made => kept e (List.mem_append_left _ made)

end Delivers

namespace Writer

private theorem exchanges_report (w : Writer σ τ υ) (letter : DeadLetter) (places : Places σ τ υ) :
    Effect.exchanges (w.report letter places).1 = [] := by
  unfold report
  simp only
  split
  · simp
  · split <;> simp

private theorem store_report (w : Writer σ τ υ) (letter : DeadLetter) (places : Places σ τ υ) :
    (w.report letter places).2.store = places.store := by
  unfold report
  simp only
  split <;> rfl

theorem value_conclude (w : Writer σ τ υ) (places : Places σ τ υ) (d : Delivery σ) :
    (w.conclude table places d).value = d.outcome := by
  unfold conclude
  split <;> rfl

theorem exchanges_conclude (w : Writer σ τ υ) (places : Places σ τ υ) (d : Delivery σ) :
    Effect.exchanges (w.conclude table places d).effects = Effect.exchanges d.effects := by
  unfold conclude
  split
  · rfl
  · simp [exchanges_report]

theorem store_conclude (w : Writer σ τ υ) (places : Places σ τ υ) (d : Delivery σ) :
    (w.conclude table places d).places.store = d.store := by
  unfold conclude
  split
  · rfl
  · exact store_report w _ _

@[simp] private theorem writeChunk_nil (w : Writer σ τ υ) (places : Places σ τ υ) :
    w.writeChunk table [] places = some ⟨.success 0 0, [], places⟩ := rfl

theorem exists_writeChunk (w : Writer σ τ υ) (table : String)
    (representable : w.policy.IsRepresentable) (nonempty : chunk ≠ []) (places : Places σ τ υ) :
    ∃ d, Delivers w.store w.policy table 0 0 chunk places.store d ∧
      w.writeChunk table chunk places = some (w.conclude table places d) := by
  obtain ⟨d, run, delivers⟩ :=
    exists_delivers w.store table representable w.policy.budget_pos 0 chunk places.store
  refine ⟨d, delivers, ?_⟩
  rw [writeChunk, if_neg (by simpa using nonempty), run, Option.map_some]

/-- The run of a chunk that is not empty is a delivery and what follows from it. -/
theorem delivers_of_writeChunk {w : Writer σ τ υ} (representable : w.policy.IsRepresentable)
    (nonempty : chunk ≠ []) {places : Places σ τ υ} {run : Run σ τ υ ChunkOutcome}
    (written : w.writeChunk table chunk places = some run) :
    ∃ d, Delivers w.store w.policy table 0 0 chunk places.store d ∧
      w.conclude table places d = run := by
  obtain ⟨d, delivers, concluded⟩ := exists_writeChunk w table representable nonempty places
  exact ⟨d, delivers, Option.some.inj (concluded.symm.trans written)⟩

theorem account_of_writeChunk {w : Writer σ τ υ} (representable : w.policy.IsRepresentable)
    (submitted : w.store.LeavesSubmitted table) (nonempty : chunk ≠ []) {places : Places σ τ υ}
    {run : Run σ τ υ ChunkOutcome} (written : w.writeChunk table chunk places = some run) :
    w.store.Answers places.store (Effect.exchanges run.effects) run.places.store ∧
      ChunkAccount w.policy table chunk (Effect.exchanges run.effects) run.value := by
  obtain ⟨d, delivers, rfl⟩ := delivers_of_writeChunk representable nonempty written
  rw [exchanges_conclude, store_conclude, value_conclude]
  exact ⟨delivers.answers, delivers.account submitted⟩

/-- An empty chunk takes no call. Any other takes at most as many as the policy allows, submits what
is still left with each, and ends with every request acknowledged or given up, once. -/
theorem writeChunk_conserves (w : Writer σ τ υ) (table : String) (chunk : List PutRequest)
    (places : Places σ τ υ) (representable : w.policy.IsRepresentable)
    (submitted : w.store.LeavesSubmitted table) :
    (chunk = [] → w.writeChunk table chunk places = some ⟨.success 0 0, [], places⟩) ∧
      (chunk ≠ [] → ∃ run, w.writeChunk table chunk places = some run ∧
        w.store.Answers places.store (Effect.exchanges run.effects) run.places.store ∧
        ChunkAccount w.policy table chunk (Effect.exchanges run.effects) run.value) := by
  constructor
  · rintro rfl
    exact writeChunk_nil w places
  · intro nonempty
    obtain ⟨d, -, written⟩ := exists_writeChunk w table representable nonempty places
    exact ⟨_, written, account_of_writeChunk representable submitted nonempty written⟩

end Writer

/-- A store that refuses its first call, leaves the last request of the second and then takes all;
its state counts the calls. -/
def Store.reluctant : Store Nat where
  write calls table requests :=
    (match calls with
      | 0 => .error ⟨.throttled, "later"⟩
      | 1 => .ok (.ofUnprocessed table (requests.drop (requests.length - 1)))
      | _ => .ok .complete,
      calls + 1)

theorem Store.reluctant_leavesSubmitted (table : String) :
    Store.reluctant.LeavesSubmitted table := by
  intro calls requests
  match calls with
  | 0 => exact le_refl _
  | 1 =>
    have left : (Store.reluctant.call table requests 1).left =
        requests.drop (requests.length - 1) := Reply.unprocessed_ofUnprocessed table _
    unfold Exchange.LeavesSubmitted
    rw [left]
    exact (List.drop_sublist _ _).subperm
  | calls + 2 => exact Multiset.zero_le _

theorem eq_of_map {α β : Type} {found : Option α} {run : α} (written : found = some run)
    (part : α → β) {result : β} (computed : found.map part = some result) : part run = result := by
  rw [written] at computed
  exact Option.some.inj computed

/-- A writer over a store, with the usual policy and sinks that take everything. -/
def Writer.plain {σ : Type} (store : Store σ) :
    Writer σ (List DeadLetter) (List DeadLetter) where
  store := store
  primary := .memory none
  fallback := .memory none
  stamp := ⟨0, 0⟩

/-- A chunk in which a request stands twice, over a store that refuses a call and then leaves a
request. -/
theorem writeChunk_conserves_reluctant :
    RetryPolicy.standard.IsRepresentable ∧ Store.reluctant.LeavesSubmitted "audit" ∧
      ∃ run, (Writer.plain Store.reluctant).writeChunk "audit"
          [.ofKey "a", .ofKey "b", .ofKey "a"] ⟨0, [], []⟩ = some run ∧
        Store.reluctant.Answers 0 (Effect.exchanges run.effects) run.places.store ∧
        ChunkAccount .standard "audit" [.ofKey "a", .ofKey "b", .ofKey "a"]
          (Effect.exchanges run.effects) run.value ∧
        run.value = .success 3 3 ∧
        Effect.calls run.effects =
          [("audit", [.ofKey "a", .ofKey "b", .ofKey "a"]),
            ("audit", [.ofKey "a", .ofKey "b", .ofKey "a"]), ("audit", [.ofKey "a"])] := by
  obtain ⟨run, written, answered, account⟩ := ((Writer.plain Store.reluctant).writeChunk_conserves
    "audit" [.ofKey "a", .ofKey "b", .ofKey "a"] ⟨0, [], []⟩ RetryPolicy.standard_isRepresentable
    (Store.reluctant_leavesSubmitted "audit")).2 (by simp)
  refine ⟨RetryPolicy.standard_isRepresentable, Store.reluctant_leavesSubmitted "audit", run, written,
    answered, account, ?_, ?_⟩
  · exact eq_of_map written Run.value (by decide +kernel)
  · exact eq_of_map written (fun run => Effect.calls run.effects) (by decide +kernel)

end Intake.Bulk
