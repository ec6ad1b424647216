import Intake.Bulk.Pipeline
import Intake.Proofs.Bulk.Run
import Intake.Proofs.Stream.Normalization

set_option autoImplicit false

/-!
Accounting of a batch from its messages to the store. Each message is rejected with a warning, or
its request is acknowledged, or it is given up with the chunk that it belongs to; the totals that
are reported are the sizes of these parts.
-/

namespace Intake.Bulk

/-- The requests of the messages that are records, in their order. -/
def requestsOf (received : String) (envelopes : List Stream.Envelope) : List PutRequest :=
  (envelopes.filterMap (Stream.record? received)).map PutRequest.ofRecord

def residuals {σ τ υ : Type} (runs : List (ChunkRun σ τ υ)) : List PutRequest :=
  runs.flatMap fun r => r.run.value.residual

/-- What a call for a table submits of some requests if at most so many go into a call. -/
structure CallFits (table : String) (limit : Nat) (requests : List PutRequest)
    (call : Exchange) : Prop where
  table_eq : call.table = table
  nonempty : 1 ≤ call.requests.length
  length_le : call.requests.length ≤ limit
  subset : call.requests ⊆ requests

def callsOf {σ τ υ : Type} (runs : List (ChunkRun σ τ υ)) : List Exchange :=
  runs.flatMap fun r => Effect.exchanges r.run.effects

/-- What the writing of requests amounts to, chunk by chunk and in total. -/
structure WriteAccount {σ τ υ : Type} (w : Writer σ τ υ) (table : String)
    (requests : List PutRequest) (runs : List (ChunkRun σ τ υ)) (summary : Summary) : Prop where
  chunks_flatten : (runs.map ChunkRun.chunk).flatten = requests
  chunk_account : ∀ r ∈ runs, r.chunk.length ≤ w.chunker.limit ∧
    ChunkAccount w.policy table r.chunk (Effect.exchanges r.run.effects) r.run.value
  first_submissions : (runs.flatMap fun r =>
    ((Effect.exchanges r.run.effects).head?.map Exchange.requests).getD []) = requests
  calls_fit : ∀ call ∈ callsOf runs, CallFits table w.chunker.limit requests call
  /-- Every request has been acknowledged or is left in a chunk that was given up, once. -/
  conserved : (requests : Multiset PutRequest) = acknowledgedBy (callsOf runs) + ↑(residuals runs)
  residual_success : ∀ r ∈ runs, r.run.value.isSuccess = true → r.run.value.residual = []
  submitted_eq : summary.submitted = requests.length
  accepted_eq : summary.accepted = (acknowledgedBy (callsOf runs)).card
  failed_eq : summary.failed = (residuals runs).length
  accepted_add_failed : summary.accepted + summary.failed = requests.length
  chunks_eq : summary.chunks = runs.length
  chunks_count : summary.chunks = (requests.length + w.chunker.limit - 1) / w.chunker.limit
  exhausted_eq : summary.exhaustedChunks = runs.countP fun r => !r.run.value.isSuccess

/-- What the handling of a batch amounts to. -/
structure BatchAccount {σ τ υ : Type} (w : Writer σ τ υ) (table received : String)
    (batch : Stream.Batch) (run : Run σ τ υ BatchResponse) (runs : List (ChunkRun σ τ υ))
    (summary : Summary) : Prop where
  /-- The groups in the ascending order of their names, and the messages of each as they stand. -/
  envelopes_eq : batch.envelopes = batch.groups.entries.flatMap Prod.snd
  /-- First the warnings about what is rejected, in order; then the chunks; then two reports. -/
  effects_eq : run.effects =
    ((batch.envelopes.filterMap (Stream.rejection? received)).map Stream.Rejection.warning).map
        Effect.logged ++
      (runs.flatMap fun r => r.run.effects) ++
      [.logged (Writer.finished table summary), .logged (batchProcessed table batch.size
        (batch.envelopes.filterMap (Stream.rejection? received)).length summary)]
  /-- One warning for each message that is rejected, in the order of the messages. -/
  warned : List.Forall₂ Stream.Warns
    ((batch.groups.entries.flatMap Prod.snd).filter fun e => (Stream.record? received e).isNone)
    ((batch.envelopes.filterMap (Stream.rejection? received)).map Stream.Rejection.warning)
  /-- A message is rejected or has a request, and not both. -/
  envelope_or : ∀ e ∈ batch.envelopes,
    (Stream.rejection? received e).isNone = (Stream.record? received e).isSome
  envelopes_length : (batch.envelopes.filterMap (Stream.rejection? received)).length +
    (requestsOf received batch.envelopes).length = batch.envelopes.length
  written : WriteAccount w table (requestsOf received batch.envelopes) runs summary
  calls_eq : Effect.exchanges run.effects = callsOf runs
  status_eq : run.value.status = "success"
  processed_eq : run.value.processed =
    batch.envelopes.countP fun e => (Stream.rejection? received e).isNone
  processed_split : run.value.processed = summary.accepted + summary.failed

variable {σ τ υ : Type} {table : String} {policy : RetryPolicy}

section Chunks

variable {runs : List (ChunkRun σ τ υ)}

private theorem callsOf_cons (r : ChunkRun σ τ υ) (runs : List (ChunkRun σ τ υ)) :
    callsOf (r :: runs) = Effect.exchanges r.run.effects ++ callsOf runs := rfl

private theorem conserved_of_account
    (account : ∀ r ∈ runs, ChunkAccount policy table r.chunk (Effect.exchanges r.run.effects)
      r.run.value) :
    ((runs.map ChunkRun.chunk).flatten : Multiset PutRequest) =
      acknowledgedBy (callsOf runs) + ↑(residuals runs) := by
  induction runs with
  | nil => rfl
  | cons r runs ih =>
    obtain ⟨here, others⟩ := List.forall_mem_cons.mp account
    have split : (residuals (r :: runs) : Multiset PutRequest) =
        ↑r.run.value.residual + ↑(residuals runs) := by
      simp [residuals]
    calc ((List.map ChunkRun.chunk (r :: runs)).flatten : Multiset PutRequest)
        = ↑r.chunk + ↑(runs.map ChunkRun.chunk).flatten := by simp
      _ = (acknowledgedBy (Effect.exchanges r.run.effects) + ↑r.run.value.residual) +
            (acknowledgedBy (callsOf runs) + ↑(residuals runs)) := by
          rw [here.conserved, ih others]
      _ = acknowledgedBy (callsOf (r :: runs)) + ↑(residuals (r :: runs)) := by
          rw [callsOf_cons, acknowledgedBy_append, split, add_add_add_comm]

private theorem accepted_of_account
    (account : ∀ r ∈ runs, ChunkAccount policy table r.chunk (Effect.exchanges r.run.effects)
      r.run.value) :
    ((runs.map fun r => r.run.value).map ChunkOutcome.accepted).sum =
      (acknowledgedBy (callsOf runs)).card := by
  induction runs with
  | nil => rfl
  | cons r runs ih =>
    obtain ⟨here, others⟩ := List.forall_mem_cons.mp account
    rw [List.map_cons, List.map_cons, List.sum_cons, ih others, here.accepted_eq, callsOf_cons,
      acknowledgedBy_append, Multiset.card_add]

private theorem first_submissions_of_account
    (account : ∀ r ∈ runs, ChunkAccount policy table r.chunk (Effect.exchanges r.run.effects)
      r.run.value) :
    (runs.flatMap fun r =>
      ((Effect.exchanges r.run.effects).head?.map Exchange.requests).getD []) =
        (runs.map ChunkRun.chunk).flatten := by
  induction runs with
  | nil => rfl
  | cons r runs ih =>
    obtain ⟨here, others⟩ := List.forall_mem_cons.mp account
    rw [List.flatMap_cons, ih others, List.map_cons, List.flatten_cons]
    congr 1
    have called := here.called
    have follows := here.follows
    cases calls : Effect.exchanges r.run.effects with
    | nil => simp [calls] at called
    | cons call rest =>
      rw [calls] at follows
      exact follows.2.1

private theorem callFits_of_account {chunk : List PutRequest} {calls : List Exchange}
    {outcome : ChunkOutcome} (account : ChunkAccount policy table chunk calls outcome) {limit : Nat}
    (nonempty : chunk ≠ []) (fits : chunk.length ≤ limit) :
    ∀ call ∈ calls, CallFits table limit chunk call := by
  intro call made
  obtain ⟨front, back, cut⟩ := List.append_of_mem made
  have part : (call.requests : Multiset PutRequest) ≤ ↑chunk := by
    rw [account.resubmitted front call back cut]
    exact Multiset.le_add_left _ _
  have shorter : call.requests.length ≤ chunk.length := by
    simpa only [Multiset.coe_card] using Multiset.card_le_card part
  have present := account.follows.requests_ne_nil nonempty account.incomplete call made
  exact
    { table_eq := account.follows.table_eq call made
      nonempty := List.length_pos_iff.mpr present
      length_le := shorter.trans fits
      subset := Multiset.coe_subset.mp (Multiset.subset_of_le part) }

private theorem callFits_of_mem_callsOf {limit : Nat} {requests : List PutRequest}
    (account : ∀ r ∈ runs, ChunkAccount policy table r.chunk (Effect.exchanges r.run.effects)
      r.run.value)
    (nonempty : ∀ r ∈ runs, r.chunk ≠ []) (fits : ∀ r ∈ runs, r.chunk.length ≤ limit)
    (flatten : (runs.map ChunkRun.chunk).flatten = requests) :
    ∀ call ∈ callsOf runs, CallFits table limit requests call := by
  intro call made
  obtain ⟨r, member, made⟩ := List.mem_flatMap.mp made
  have fit := callFits_of_account (account r member) (nonempty r member) (fits r member) call made
  have within : r.chunk ⊆ requests := by
    intro request inside
    rw [← flatten]
    exact List.mem_flatten.mpr ⟨_, List.mem_map_of_mem member, inside⟩
  exact { fit with subset := fun _ inside => within (fit.subset inside) }

end Chunks

private theorem Writer.WritesEach.writeAccount {w : Writer σ τ υ} {places last : Places σ τ υ}
    {runs : List (ChunkRun σ τ υ)} (each : w.WritesEach table places runs last)
    (representable : w.policy.IsRepresentable) (submitted : w.store.LeavesSubmitted table)
    {requests : List PutRequest} (cut : runs.map ChunkRun.chunk = w.chunker.split requests) :
    WriteAccount w table requests runs
      (.ofOutcomes requests.length (runs.map fun r => r.run.value)) := by
  have nonempty := nonempty_of_split cut
  have account := each.account representable submitted nonempty
  have flatten : (runs.map ChunkRun.chunk).flatten = requests := by
    rw [cut, Chunker.flatten_split]
  have fits : ∀ r ∈ runs, r.chunk.length ≤ w.chunker.limit := by
    intro r member
    exact (w.chunker.length_of_mem_split (cut ▸ List.mem_map_of_mem member)).2
  have conserved := conserved_of_account account
  rw [flatten] at conserved
  have accepted := accepted_of_account account
  have failed : ((runs.map fun r => r.run.value).map fun o => o.residual.length).sum =
      (residuals runs).length := by
    simp [residuals, List.length_flatMap, Function.comp_def]
  have cards := congrArg Multiset.card conserved
  rw [Multiset.card_add, Multiset.coe_card, Multiset.coe_card] at cards
  have count : runs.length = w.chunker.count requests.length := by
    rw [← w.chunker.length_split, ← cut, List.length_map]
  refine
    { chunks_flatten := flatten
      chunk_account := fun r member => ⟨fits r member, account r member⟩
      first_submissions := (first_submissions_of_account account).trans flatten
      calls_fit := callFits_of_mem_callsOf account nonempty fits flatten
      conserved := conserved
      residual_success := fun r _ => ChunkOutcome.residual_of_isSuccess
      submitted_eq := rfl
      accepted_eq := accepted
      failed_eq := failed
      accepted_add_failed := ?_
      chunks_eq := ?_
      chunks_count := ?_
      exhausted_eq := ?_ }
  · show ((runs.map fun r => r.run.value).map ChunkOutcome.accepted).sum +
      ((runs.map fun r => r.run.value).map fun o => o.residual.length).sum = _
    rw [accepted, failed, cards]
  · exact List.length_map _
  · exact (List.length_map _).trans count
  · exact List.countP_map

theorem Writer.handle_of_write {w : Writer σ τ υ} {received : String} {batch : Stream.Batch}
    {places : Places σ τ υ} {run : Run σ τ υ Summary}
    (written : w.write table (requestsOf received batch.envelopes) places = some run) :
    w.handle table received batch places = some
      { value := .success (requestsOf received batch.envelopes).length
        effects :=
          ((batch.envelopes.filterMap (Stream.rejection? received)).map
              Stream.Rejection.warning).map Effect.logged ++ run.effects ++
            [.logged (batchProcessed table batch.size
              (batch.envelopes.filterMap (Stream.rejection? received)).length run.value)]
        places := run.places } := by
  unfold handle
  simp only [Stream.normalize_eq, Stream.Normalized.log]
  rw [← requestsOf, written, Option.map_some, requestsOf, List.length_map]

/-- Handling a batch succeeds, and accounts for every message. -/
theorem Writer.handle_accounts (w : Writer σ τ υ) (table received : String)
    (batch : Stream.Batch) (places : Places σ τ υ) (representable : w.policy.IsRepresentable)
    (submitted : w.store.LeavesSubmitted table) :
    ∃ run runs summary, w.handle table received batch places = some run ∧
      w.WritesEach table places runs run.places ∧
      w.store.Answers places.store (Effect.exchanges run.effects) run.places.store ∧
      BatchAccount w table received batch run runs summary := by
  obtain ⟨runs, last, summary, cut, each, totals, written⟩ :=
    w.exists_write table representable (requestsOf received batch.envelopes) places
  have account := each.writeAccount representable submitted cut
  rw [← totals] at account
  have length : (requestsOf received batch.envelopes).length =
      batch.envelopes.countP fun e => (Stream.rejection? received e).isNone := by
    simp only [requestsOf, List.length_map, List.length_filterMap_eq_countP,
      Stream.rejection?_isNone]
  have counted := Stream.length_records_add_rejected received batch.envelopes
  have calls : ∀ warnings : List LogEvent, ∀ first second : LogEvent,
      Effect.exchanges (warnings.map Effect.logged ++
        ((runs.flatMap fun r => r.run.effects) ++ [.logged first]) ++ [.logged second]) =
          callsOf runs := by
    intro warnings first second
    simp [WritesEach.exchanges_flatMap, callsOf]
  have envelopes : batch.envelopes = batch.groups.entries.flatMap Prod.snd :=
    (List.flatMap_def ..).symm
  refine ⟨_, runs, summary, handle_of_write written, each, ?_, ?_⟩
  · rw [calls]
    exact each.answers representable (nonempty_of_split cut)
  · exact
      { envelopes_eq := envelopes
        effects_eq := by simp only [List.append_assoc, List.cons_append, List.nil_append]
        warned := envelopes ▸ Stream.forall₂_warning received batch.envelopes
        envelope_or := fun e _ => Stream.rejection?_isNone received e
        envelopes_length := by
          rw [requestsOf, List.length_map]
          omega
        written := account
        calls_eq := calls _ _ _
        status_eq := rfl
        processed_eq := length
        processed_split := account.accepted_add_failed.symm }

def bareRecord (name : String) : Stream.AuditRecord where
  logId := name
  transactionType := Stream.unknown
  actorId := Stream.unknown
  targetId := Stream.unknown
  timestamp := "0"

/-- A batch of two groups with a repeated record and two messages that are none, over a store that
refuses a call and then leaves a request. -/
theorem handle_accounts_reluctant :
    RetryPolicy.standard.IsRepresentable ∧ Store.reluctant.LeavesSubmitted "audit" ∧
      ∃ run runs summary, (Writer.plain Store.reluctant).handle "audit" "0"
          ⟨.ofList [("b", [.ofParts 0 1 "\x7b\"message_id\": \"m1\"\x7d", .ofParts 0 2 "[]"]),
            ("a", [.ofParts 1 1 "\x7b\"message_id\": \"m1\"\x7d", .ofParts 1 2 "\x7b"])]⟩
          ⟨0, [], []⟩ = some run ∧
        (Writer.plain Store.reluctant).WritesEach "audit" ⟨0, [], []⟩ runs run.places ∧
        Store.reluctant.Answers 0 (Effect.exchanges run.effects) run.places.store ∧
        BatchAccount (Writer.plain Store.reluctant) "audit" "0"
          ⟨.ofList [("b", [.ofParts 0 1 "\x7b\"message_id\": \"m1\"\x7d", .ofParts 0 2 "[]"]),
            ("a", [.ofParts 1 1 "\x7b\"message_id\": \"m1\"\x7d", .ofParts 1 2 "\x7b"])]⟩
          run runs summary ∧
        run.value = ⟨"success", 2⟩ ∧
        Effect.calls run.effects =
          [("audit", [.ofRecord (bareRecord "m1"), .ofRecord (bareRecord "m1")]),
            ("audit", [.ofRecord (bareRecord "m1"), .ofRecord (bareRecord "m1")]),
            ("audit", [.ofRecord (bareRecord "m1")])] ∧
        (Effect.log run.effects).filter (fun event => event.level ≠ .debug) =
          [⟨.warn, "Skipping message", [("partition", "Some(1)"), ("offset", "Some(2)"),
              ("reason", "invalid payload at partition 1, offset 2: " ++
                "EOF while parsing an object at line 1 column 1")]⟩,
            ⟨.warn, "Skipping message", [("partition", "Some(0)"), ("offset", "Some(2)"),
              ("reason", "invalid payload at partition 0, offset 2: " ++
                "expected JSON object, got array")]⟩,
            ⟨.warn, "Batch write failed, retrying whole chunk",
              [("table", "audit"), ("attempt", "1"), ("kind", "throttled"),
                ("error", "throttled: later")]⟩,
            ⟨.info, "Bulk write finished",
              [("table", "audit"), ("chunks", "1"), ("submitted", "2"), ("accepted", "2"),
                ("failed", "0")]⟩,
            ⟨.info, "Bulk batch processed",
              [("table", "audit"), ("messages", "4"), ("rejected", "2"), ("accepted", "2"),
                ("failed", "0"), ("exhausted_chunks", "0")]⟩] := by
  obtain ⟨run, runs, summary, written, each, answered, account⟩ :=
    (Writer.plain Store.reluctant).handle_accounts "audit" "0"
      ⟨.ofList [("b", [.ofParts 0 1 "\x7b\"message_id\": \"m1\"\x7d", .ofParts 0 2 "[]"]),
        ("a", [.ofParts 1 1 "\x7b\"message_id\": \"m1\"\x7d", .ofParts 1 2 "\x7b"])]⟩ ⟨0, [], []⟩
      RetryPolicy.standard_isRepresentable (Store.reluctant_leavesSubmitted "audit")
  refine ⟨RetryPolicy.standard_isRepresentable, Store.reluctant_leavesSubmitted "audit", run, runs,
    summary, written, each, answered, account, ?_, ?_, ?_⟩
  · exact eq_of_map written Run.value (by decide +kernel)
  · exact eq_of_map written (fun run => Effect.calls run.effects) (by decide +kernel)
  · refine eq_of_map written
      (fun run => (Effect.log run.effects).filter fun event => event.level ≠ .debug) ?_
    decide +kernel

end Intake.Bulk
