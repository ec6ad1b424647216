import Intake.Proofs.Cloud.Upsert

set_option autoImplicit false

/-!
What a table of items acknowledges, and what is counted as accepted. A batch is collapsed before it
is sent, and the count goes by the lengths before that; so it is too high by the requests that were
dropped in favour of one that is left in the end, and exact if there are none.
-/

namespace Intake.Cloud

open Intake.Bulk

/-- The call fails, or the service hands back a part of the batch for the table. -/
def Line.HandsBackPart {σ : Type} (line : Line σ BatchWrite) (table : String) : Prop :=
  ∀ state puts, (∃ fault, ItemTable.answer (line.send state ⟨table, puts⟩).1 = .error fault) ∨
    ∃ a reply, (line.send state ⟨table, puts⟩).1 = .answered a ∧ a.Names reply ∧
      (reply.unprocessed table).Subperm puts

/-- The puts that a call sends and the service acknowledges: none if the call fails. -/
def acknowledgedPuts (call : Exchange) : List PutRequest :=
  match call.answer with
  | .ok reply => (collapse call.requests).filter (· ∉ reply.unprocessed call.table)
  | .error _ => []

def allAcknowledged (calls : List Exchange) : List PutRequest := calls.flatMap acknowledgedPuts

def sharesKey (puts : List PutRequest) (r : PutRequest) : Bool := puts.any (·.key? = r.key?)

/-- What a call leaves is a part of the batch that it sends. -/
def LeavesSent (call : Exchange) : Prop :=
  ∀ reply, call.answer = .ok reply → (reply.unprocessed call.table).Subperm (collapse call.requests)

theorem LeavesSent.leavesSubmitted {call : Exchange} (sent : LeavesSent call) :
    call.LeavesSubmitted := by
  unfold Exchange.LeavesSubmitted Exchange.left
  cases answered : call.answer with
  | ok reply => exact (sent reply answered).trans (collapse_distinct call.requests).2
  | error fault => exact le_refl _

section Calls

variable {table : String} {pending : List PutRequest} {calls : List Exchange} {call : Exchange}

private theorem mem_keysOf_acknowledgedPuts (sent : LeavesSent call) (key : String) :
    key ∈ keysOf (acknowledgedPuts call) ↔
      key ∈ keysOf call.requests ∧ key ∉ keysOf call.left := by
  cases answered : call.answer with
  | error fault =>
    have nothing : acknowledgedPuts call = [] := by simp only [acknowledgedPuts, answered]
    have all : call.left = call.requests := by simp only [Exchange.left, answered]
    rw [nothing, all]
    exact iff_of_false List.not_mem_nil (fun h => h.2 h.1)
  | ok reply =>
    have taken : acknowledgedPuts call =
        (collapse call.requests).filter (· ∉ reply.unprocessed call.table) := by
      simp only [acknowledgedPuts, answered]
    have left : call.left = reply.unprocessed call.table := by simp only [Exchange.left, answered]
    have back := (sent reply answered).subset
    have kept : key ∈ keysOf (collapse call.requests) ↔ key ∈ keysOf call.requests :=
      mem_keysOf_collapse
    rw [taken, left, ← kept]
    constructor
    · intro acknowledged
      obtain ⟨put, member, named⟩ := mem_keysOf.mp acknowledged
      obtain ⟨there, absent⟩ := List.mem_filter.mp member
      refine ⟨mem_keysOf.mpr ⟨put, there, named⟩, ?_⟩
      intro again
      obtain ⟨other, returned, same⟩ := mem_keysOf.mp again
      have equal := eq_of_mem_collapse (back returned) there same named
      exact of_decide_eq_true absent (equal ▸ returned)
    · rintro ⟨named, notLeft⟩
      obtain ⟨put, there, named⟩ := mem_keysOf.mp named
      refine mem_keysOf.mpr ⟨put, List.mem_filter.mpr ⟨there, ?_⟩, named⟩
      exact decide_eq_true fun returned => notLeft (mem_keysOf.mpr ⟨put, returned, named⟩)

private theorem keysOf_left_subset (sent : LeavesSent call) :
    keysOf call.left ⊆ keysOf call.requests := by
  intro key left
  obtain ⟨r, there, named⟩ := mem_keysOf.mp left
  exact mem_keysOf.mpr ⟨r, Multiset.coe_subset.mp (Multiset.subset_of_le sent.leavesSubmitted) there,
    named⟩

private theorem mem_keysOf_allAcknowledged (follows : Follows table pending calls)
    (sent : ∀ call ∈ calls, LeavesSent call) :
    keysOf (leftAfter pending calls) ⊆ keysOf pending ∧
      ∀ key, key ∈ keysOf (allAcknowledged calls) ↔
        key ∈ keysOf pending ∧ key ∉ keysOf (leftAfter pending calls) := by
  induction calls generalizing pending with
  | nil =>
    refine ⟨List.Subset.refl _, ?_⟩
    intro key
    exact iff_of_false List.not_mem_nil (fun h => h.2 h.1)
  | cons call calls ih =>
    obtain ⟨-, rfl, rest⟩ := follows
    obtain ⟨here, others⟩ := List.forall_mem_cons.mp sent
    obtain ⟨later, divided⟩ := ih rest others
    have fewer := keysOf_left_subset here
    refine ⟨List.Subset.trans later fewer, ?_⟩
    intro key
    have first := mem_keysOf_acknowledgedPuts here key
    have behind := divided key
    have shrinks : key ∈ keysOf call.left → key ∈ keysOf call.requests := fun h => fewer h
    have ends : key ∈ keysOf (leftAfter call.left calls) → key ∈ keysOf call.left := fun h => later h
    rw [allAcknowledged, List.flatMap_cons, keysOf_append, List.mem_append, ← allAcknowledged,
      leftAfter_cons]
    tauto

end Calls

private theorem sharesKey_iff {puts : List PutRequest} {r : PutRequest} {key : String}
    (named : r.key? = some key) : sharesKey puts r = true ↔ key ∈ keysOf puts := by
  rw [sharesKey, List.any_eq_true, mem_keysOf, named]
  simp only [decide_eq_true_iff]

private theorem countP_sharesKey_add {table : String} {chunk : List PutRequest}
    {calls : List Exchange}
    (follows : Follows table chunk calls) (sent : ∀ call ∈ calls, LeavesSent call)
    (keyed : ∀ r ∈ chunk, r.key? ≠ none) :
    chunk.countP (sharesKey (allAcknowledged calls)) +
      chunk.countP (sharesKey (leftAfter chunk calls)) = chunk.length := by
  obtain ⟨-, divided⟩ := mem_keysOf_allAcknowledged follows sent
  have complement : chunk.countP (sharesKey (leftAfter chunk calls)) =
      chunk.countP fun r => ¬ sharesKey (allAcknowledged calls) r = true := by
    refine List.countP_congr ?_
    intro r there
    obtain ⟨key, named⟩ := Option.ne_none_iff_exists'.mp (keyed r there)
    have inside : key ∈ keysOf chunk := mem_keysOf.mpr ⟨r, there, named⟩
    rw [sharesKey_iff named, decide_eq_true_iff, sharesKey_iff named, divided key]
    tauto
  rw [complement]
  exact (List.length_eq_countP_add_countP _).symm

private theorem Exchange.left_of_fault? {call : Exchange} {fault : StoreFault}
    (failed : call.fault? = some fault) : call.left = call.requests := by
  cases answered : call.answer with
  | ok reply => simp [Exchange.fault?, answered] at failed
  | error _ => simp only [Exchange.left, answered]

private theorem nodup_keysOf_left {call : Exchange} (sent : LeavesSent call)
    (through : call.fault? = none) : (keysOf call.left).Nodup := by
  cases answered : call.answer with
  | error fault => simp [Exchange.fault?, answered] at through
  | ok reply =>
    obtain ⟨puts, same, part⟩ := sent reply answered
    have distinct := (collapse_distinct call.requests).1
    have left : call.left = reply.unprocessed call.table := by simp only [Exchange.left, answered]
    rw [left, keysOf, ← (same.filterMap PutRequest.key?).nodup_iff]
    exact (part.filterMap PutRequest.key?).nodup distinct

private theorem nodup_keysOf_leftAfter {table : String} {pending : List PutRequest}
    {calls : List Exchange}
    (follows : Follows table pending calls) (sent : ∀ call ∈ calls, LeavesSent call)
    (start : (keysOf pending).Nodup ∨ ∃ call ∈ calls, call.fault? = none) :
    (keysOf (leftAfter pending calls)).Nodup := by
  induction calls generalizing pending with
  | nil => exact start.resolve_right (by simp)
  | cons call calls ih =>
    obtain ⟨-, rfl, rest⟩ := follows
    obtain ⟨here, others⟩ := List.forall_mem_cons.mp sent
    refine ih rest others ?_
    cases through : call.fault? with
    | none => exact .inl (nodup_keysOf_left here through)
    | some fault =>
      have same : call.left = call.requests := Exchange.left_of_fault? through
      show (keysOf call.left).Nodup ∨ _
      rw [same]
      refine start.imp_right ?_
      rintro ⟨other, there, success⟩
      rcases List.mem_cons.mp there with rfl | behind
      · exact absurd (through.symm.trans success) (Option.some_ne_none fault)
      · exact ⟨other, behind, success⟩

private theorem leftAfter_of_fault {table : String} {pending : List PutRequest}
    {calls : List Exchange}
    (follows : Follows table pending calls) (failed : ∀ call ∈ calls, call.fault? ≠ none) :
    leftAfter pending calls = pending := by
  induction calls generalizing pending with
  | nil => rfl
  | cons call calls ih =>
    obtain ⟨-, rfl, rest⟩ := follows
    obtain ⟨here, others⟩ := List.forall_mem_cons.mp failed
    obtain ⟨fault, lost⟩ := Option.ne_none_iff_exists'.mp here
    rw [leftAfter_cons, ih rest others]
    exact Exchange.left_of_fault? lost

private theorem countP_mem_cons {key : String} {keys : List String} (fresh : key ∉ keys)
    (others : List String) :
    others.countP (· ∈ key :: keys) = others.count key + others.countP (· ∈ keys) := by
  induction others with
  | nil => rfl
  | cons other others ih =>
    rw [List.countP_cons, List.countP_cons, List.count_cons, ih]
    by_cases same : other = key
    · simp [same, fresh]
      omega
    · simp [same]
      omega

private theorem countP_mem_keys {keys others : List String} (distinct : keys.Nodup)
    (present : keys ⊆ others) : keys.length ≤ others.countP (· ∈ keys) ∧
      (others.countP (· ∈ keys) = keys.length ↔ ∀ key ∈ keys, others.count key = 1) := by
  induction keys with
  | nil => simp
  | cons key keys ih =>
    obtain ⟨fresh, distinct⟩ := List.nodup_cons.mp distinct
    obtain ⟨here, present⟩ := List.cons_subset.mp present
    obtain ⟨least, exact_iff⟩ := ih distinct present
    have once : 1 ≤ others.count key := List.one_le_count_iff.mpr here
    rw [countP_mem_cons fresh, List.length_cons, List.forall_mem_cons, ← exact_iff]
    omega

/-- How the count of accepted requests of a chunk goes by what the service acknowledges. -/
structure CountsAccepted (chunk : List PutRequest) (calls : List Exchange) (outcome : ChunkOutcome) :
    Prop where
  /-- The count is too high by what was dropped in favour of requests that are left in the end. -/
  accepted_add : outcome.accepted + outcome.residual.length =
    chunk.countP (sharesKey (allAcknowledged calls)) + chunk.countP (sharesKey outcome.residual)
  le_accepted : chunk.countP (sharesKey (allAcknowledged calls)) ≤ outcome.accepted
  /-- It is exact if no call went through, or no request that is left has a key that is repeated. -/
  exact_iff : outcome.accepted = chunk.countP (sharesKey (allAcknowledged calls)) ↔
    (∀ call ∈ calls, call.fault? ≠ none) ∨
      ∀ r ∈ outcome.residual, chunk.countP (fun other => other.key? = r.key?) = 1

section Counting

variable {chunk puts : List PutRequest}

private theorem countP_sharesKey (keyed : ∀ r ∈ chunk, r.key? ≠ none) :
    chunk.countP (sharesKey puts) = (keysOf chunk).countP (· ∈ keysOf puts) := by
  have keys : keysOf chunk = chunk.filterMap PutRequest.key? := rfl
  rw [keys, List.countP_filterMap]
  refine List.countP_congr ?_
  intro r there
  obtain ⟨key, named⟩ := Option.ne_none_iff_exists'.mp (keyed r there)
  rw [sharesKey_iff named, named]
  simp

private theorem countP_sameKey {r : PutRequest} {key : String} (named : r.key? = some key) :
    chunk.countP (fun other => other.key? = r.key?) = (keysOf chunk).count key := by
  rw [keysOf, List.count, List.countP_filterMap, named]
  refine List.countP_congr ?_
  intro other there
  cases other.key? <;> simp

private theorem length_keysOf (keyed : ∀ r ∈ puts, r.key? ≠ none) :
    (keysOf puts).length = puts.length := by
  rw [keysOf, List.length_filterMap_eq_countP, List.countP_eq_length]
  intro r there
  exact Option.isSome_iff_ne_none.mpr (keyed r there)

/-- Puts without repeated keys are no more than the requests that share a key with one, and as many
if none of their keys is repeated among the requests. -/
theorem length_le_countP_sharesKey (keyed : ∀ r ∈ chunk, r.key? ≠ none) (part : puts ⊆ chunk)
    (distinct : (keysOf puts).Nodup) :
    puts.length ≤ chunk.countP (sharesKey puts) ∧
      (chunk.countP (sharesKey puts) = puts.length ↔
        ∀ r ∈ puts, chunk.countP (fun other => other.key? = r.key?) = 1) := by
  have keys : keysOf puts ⊆ keysOf chunk := List.filterMap_subset PutRequest.key? part
  have kept : ∀ r ∈ puts, r.key? ≠ none := fun r there => keyed r (part there)
  obtain ⟨least, exact_iff⟩ := countP_mem_keys distinct keys
  rw [countP_sharesKey keyed, ← length_keysOf kept]
  refine ⟨least, exact_iff.trans ?_⟩
  constructor
  · intro once r there
    obtain ⟨key, named⟩ := Option.ne_none_iff_exists'.mp (kept r there)
    rw [countP_sameKey named]
    exact once key (mem_keysOf.mpr ⟨r, there, named⟩)
  · intro once key there
    obtain ⟨r, member, named⟩ := mem_keysOf.mp there
    rw [← countP_sameKey named]
    exact once r member

end Counting

private theorem CountsAccepted.of_account {policy : RetryPolicy} {table : String}
    {chunk : List PutRequest} {calls : List Exchange} {outcome : ChunkOutcome}
    (account : ChunkAccount policy table chunk calls outcome)
    (sent : ∀ call ∈ calls, LeavesSent call) (keyed : ∀ r ∈ chunk, r.key? ≠ none) :
    CountsAccepted chunk calls outcome := by
  have divides := countP_sharesKey_add account.follows sent keyed
  rw [← account.residual_eq] at divides
  have total := account.accepted_add
  have bounds : outcome.residual.length ≤ chunk.countP (sharesKey outcome.residual) ∧
      (chunk.countP (sharesKey outcome.residual) = outcome.residual.length ↔
        (∀ call ∈ calls, call.fault? ≠ none) ∨
          ∀ r ∈ outcome.residual, chunk.countP (fun other => other.key? = r.key?) = 1) := by
    by_cases failed : ∀ call ∈ calls, call.fault? ≠ none
    · have all : outcome.residual = chunk :=
        account.residual_eq.trans (leftAfter_of_fault account.follows failed)
      have shared : chunk.countP (sharesKey chunk) = chunk.length := by
        refine List.countP_eq_length.mpr ?_
        intro r there
        exact List.any_eq_true.mpr ⟨r, there, decide_eq_true rfl⟩
      rw [all, shared]
      exact ⟨le_refl _, iff_of_true rfl (.inl failed)⟩
    · have part : outcome.residual ⊆ chunk := by
        have kept := Multiset.le_add_left (outcome.residual : Multiset PutRequest)
          (acknowledgedBy calls)
        rw [← account.conserved] at kept
        exact Multiset.coe_subset.mp (Multiset.subset_of_le kept)
      have distinct : (keysOf outcome.residual).Nodup := by
        rw [account.residual_eq]
        refine nodup_keysOf_leftAfter account.follows sent (.inr ?_)
        push Not at failed
        exact failed
      rw [or_iff_right failed]
      exact length_le_countP_sharesKey keyed part distinct
  obtain ⟨least, exact_iff⟩ := bounds
  refine { accepted_add := ?_, le_accepted := ?_, exact_iff := ?_ }
  · omega
  · omega
  · rw [← exact_iff]
    omega

section Store

variable {σ τ υ : Type} {line : Line σ BatchWrite} {table : String}

namespace ItemTable

theorem leavesSent_of_answer (site : Site) {state : σ} {requests : List PutRequest}
    (part : ∀ reply, answer (line.send state ⟨table, collapse requests⟩).1 = .ok reply →
      (reply.unprocessed table).Subperm (collapse requests)) :
    LeavesSent ((store site line).call table requests state) := by
  intro reply answered
  by_cases known : site.isKnown = true
  · simp only [Store.call, write_of_isKnown line known] at answered
    exact part reply answered
  · simp only [Store.call, write_of_not_isKnown line known] at answered
    exact absurd answered (by simp)

private theorem leavesSent (site : Site) (part : line.HandsBackPart table) (state : σ)
    (requests : List PutRequest) : LeavesSent ((store site line).call table requests state) := by
  refine leavesSent_of_answer site ?_
  intro reply answered
  rcases part state (collapse requests) with ⟨fault, failed⟩ | ⟨a, back, sent, names, within⟩
  · rw [failed] at answered
    exact absurd answered (by simp)
  · rw [sent, answer_of_names names] at answered
    obtain rfl := Except.ok.inj answered
    exact within

/-- The counts of accepted requests of all chunks, against what the service acknowledges. -/
theorem write_countsAccepted (w : Writer σ τ υ) (site : Site) (requests : List PutRequest)
    (places : Places σ τ υ) (placed : w.store = store site line)
    (representable : w.policy.IsRepresentable) (part : line.HandsBackPart table)
    (keyed : ∀ r ∈ requests, r.key? ≠ none) :
    ∃ run runs, w.write table requests places = some run ∧
      runs.map ChunkRun.chunk = w.chunker.split requests ∧
      w.WritesEach table places runs run.places ∧
      run.value = .ofOutcomes requests.length (runs.map fun r => r.run.value) ∧
      ∀ c ∈ runs, CountsAccepted c.chunk (Effect.exchanges c.run.effects) c.run.value := by
  obtain ⟨runs, last, summary, cut, each, totals, written⟩ :=
    w.exists_write table representable requests places
  have sent := leavesSent site part
  have submitted : w.store.LeavesSubmitted table := by
    intro state requests
    rw [placed]
    exact (sent state requests).leavesSubmitted
  refine ⟨_, runs, written, cut, each, totals, ?_⟩
  intro c member
  have nonempty := Writer.nonempty_of_split cut c member
  obtain ⟨before, first⟩ := each.written c member
  obtain ⟨answers, account⟩ := Writer.account_of_writeChunk representable submitted nonempty first
  rw [placed] at answers
  refine .of_account account (answers.forall_call sent account.follows.table_eq) ?_
  have flatten : (runs.map ChunkRun.chunk).flatten = requests := by
    rw [cut, Chunker.flatten_split]
  intro r inside
  apply keyed
  rw [← flatten]
  exact List.mem_flatten.mpr ⟨_, List.mem_map_of_mem member, inside⟩

end ItemTable

end Store

private theorem Line.hesitant_handsBackPart : Line.hesitant.HandsBackPart "audit" := by
  rintro ⟨calls, items⟩ puts
  match calls with
  | 0 => exact .inl ⟨_, rfl⟩
  | 1 =>
    by_cases there : .ofKey "b" ∈ puts
    · have sent : Line.hesitant.send (1, items) ⟨"audit", puts⟩ =
          (.answered .handingBack, 2, items.putAll (puts.filter (· ≠ .ofKey "b"))) := if_pos there
      rw [sent]
      refine .inr ⟨_, _, rfl, Answer.handingBack_names, ?_⟩
      rw [Reply.unprocessed_ofUnprocessed]
      exact List.singleton_subperm_iff.mpr there
    · have sent : Line.hesitant.send (1, items) ⟨"audit", puts⟩ = (.lost, 2, items) :=
        if_neg there
      rw [sent]
      exact .inl ⟨_, rfl⟩
  | calls + 2 =>
    refine .inr ⟨{}, .complete, rfl, ?_, List.nil_subperm⟩
    exact ⟨rfl, rfl, [], rfl, rfl, rfl, .inl ⟨rfl, rfl⟩⟩

/-- Repeated keys over a table that loses an answer and hands a put back. -/
theorem write_countsAccepted_hesitant :
    RetryPolicy.standard.IsRepresentable ∧ Line.hesitant.HandsBackPart "audit" ∧
      (∀ r ∈ repeatedRequests, r.key? ≠ none) ∧
      ∃ run runs, hesitantWriter.write "audit" repeatedRequests ⟨(0, fun _ => none), [], []⟩ =
          some run ∧
        runs.map ChunkRun.chunk = hesitantWriter.chunker.split repeatedRequests ∧
        hesitantWriter.WritesEach "audit" ⟨(0, fun _ => none), [], []⟩ runs run.places ∧
        run.value = .ofOutcomes repeatedRequests.length (runs.map fun r => r.run.value) ∧
        ∀ c ∈ runs, CountsAccepted c.chunk (Effect.exchanges c.run.effects) c.run.value :=
  ⟨RetryPolicy.standard_isRepresentable, Line.hesitant_handsBackPart, by decide,
    ItemTable.write_countsAccepted hesitantWriter ⟨some "eu-west-1", none⟩ repeatedRequests
      ⟨(0, fun _ => none), [], []⟩ rfl RetryPolicy.standard_isRepresentable
      Line.hesitant_handsBackPart (by decide)⟩

/-- A table that hands a put back whenever it is sent, and loses every other batch. -/
def Line.unwilling : Line Unit BatchWrite where
  send _ batch := (if .ofKey "b" ∈ batch.puts then .answered .handingBack else .lost, ())

private theorem Line.unwilling_handsBackPart : Line.unwilling.HandsBackPart "audit" := by
  rintro ⟨⟩ puts
  by_cases there : .ofKey "b" ∈ puts
  · have sent : Line.unwilling.send () ⟨"audit", puts⟩ = (.answered .handingBack, ()) :=
      congrArg (·, ()) (if_pos there)
    rw [sent]
    refine .inr ⟨_, _, rfl, Answer.handingBack_names, ?_⟩
    rw [Reply.unprocessed_ofUnprocessed]
    exact List.singleton_subperm_iff.mpr there
  · have sent : Line.unwilling.send () ⟨"audit", puts⟩ = (.lost, ()) :=
      congrArg (·, ()) (if_neg there)
    rw [sent]
    exact .inl ⟨_, rfl⟩

def unwillingWriter : Writer Unit (List DeadLetter) (List DeadLetter) :=
  Writer.plain (ItemTable.store ⟨some "eu-west-1", none⟩ Line.unwilling)

/-- Two requests with one key of which the service never takes one: one is counted as accepted. -/
theorem accepted_of_nothing_acknowledged :
    RetryPolicy.standard.IsRepresentable ∧ Line.unwilling.HandsBackPart "audit" ∧
      ∃ run, unwillingWriter.writeChunk "audit" [requestOf "b" "x", .ofKey "b"] ⟨(), [], []⟩ =
          some run ∧
        allAcknowledged (Effect.exchanges run.effects) = [] ∧ run.value.accepted = 1 := by
  refine ⟨RetryPolicy.standard_isRepresentable, Line.unwilling_handsBackPart, ?_⟩
  have counted : (unwillingWriter.writeChunk "audit" [requestOf "b" "x", .ofKey "b"]
      ⟨(), [], []⟩).map (fun run =>
        (allAcknowledged (Effect.exchanges run.effects), run.value.accepted)) = some ([], 1) := by
    decide +kernel
  obtain ⟨run, written, result⟩ := Option.map_eq_some_iff.mp counted
  exact ⟨run, written, congrArg Prod.fst result, congrArg Prod.snd result⟩

end Intake.Cloud
