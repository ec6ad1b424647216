import Intake.Proofs.Bulk.Surfacing

set_option autoImplicit false

/-!
Requests that a store puts off. A store that takes a request only after some submissions gives it a
number; what becomes of the request is told by that number and the budget of the policy alone. The
requests of a chunk share their calls, yet none of them uses up what another one needs: in every call
of a chunk each request that is still submitted has been submitted equally often before.
-/

namespace Intake.Bulk

/-- How often a request has been submitted in a history. -/
def submissions (request : PutRequest) (calls : List Exchange) : Nat :=
  (calls.map fun call => call.requests.count request).sum

@[simp] private theorem submissions_append (request : PutRequest) (front back : List Exchange) :
    submissions request (front ++ back) = submissions request front + submissions request back := by
  simp [submissions]

@[simp] private theorem submissions_singleton (request : PutRequest) (call : Exchange) :
    submissions request [call] = call.requests.count request := by
  simp [submissions]

private theorem submissions_eq_zero {request : PutRequest} {calls : List Exchange}
    (elsewhere : ∀ call ∈ calls, request ∉ call.requests) : submissions request calls = 0 := by
  induction calls with
  | nil => rfl
  | cons call calls ih =>
    obtain ⟨here, others⟩ := List.forall_mem_cons.mp elsewhere
    rw [← List.singleton_append, submissions_append, submissions_singleton, ih others,
      List.count_eq_zero.mpr here]

/-- A history for one table in which no call submits a request twice. -/
def IsPlain (table : String) (calls : List Exchange) : Prop :=
  ∀ call ∈ calls, call.table = table ∧ call.requests.Nodup

private theorem IsPlain.append {table : String} {front back : List Exchange}
    (before : IsPlain table front) (after : IsPlain table back) : IsPlain table (front ++ back) :=
  List.forall_mem_append.mpr ⟨before, after⟩

/-- A store that fails no call, and leaves a request in just as many submissions as `deferrals` says;
the submissions are counted from a state on. -/
def Store.Defers {σ : Type} (store : Store σ) (table : String) (deferrals : PutRequest → Nat)
    (first : σ) : Prop :=
  ∀ before call last, store.Answers first (before ++ [call]) last →
    IsPlain table (before ++ [call]) →
      (∃ reply, call.answer = .ok reply) ∧
        call.left.Perm (call.requests.filter fun r =>
          submissions r (before ++ [call]) ≤ deferrals r)

/-- What becomes of requests that are put off so often, if `budget` is the most calls for a chunk:
those that are put off less often are acknowledged, the others are given up. -/
structure FallsBy {σ τ υ : Type} (budget : Nat) (deferrals : PutRequest → Nat)
    (requests : List PutRequest) (run : Run σ τ υ Summary) : Prop where
  acknowledged_eq : acknowledgedBy (Effect.exchanges run.effects) =
    (requests.filter fun r => deferrals r < budget : List PutRequest)
  /-- The letters hold what is given up. -/
  letters_perm : ((Effect.reported run.effects).flatMap DeadLetter.records).Perm
    (requests.filter fun r => budget ≤ deferrals r)
  accepted_eq : run.value.accepted = requests.countP fun r => deferrals r < budget
  failed_eq : run.value.failed = requests.countP fun r => budget ≤ deferrals r

structure ChunkFallsBy {σ τ υ : Type} (budget : Nat) (deferrals : PutRequest → Nat)
    (r : ChunkRun σ τ υ) : Prop where
  acknowledged_eq : acknowledgedBy (Effect.exchanges r.run.effects) =
    (r.chunk.filter fun r => deferrals r < budget : List PutRequest)
  residual_perm : r.run.value.residual.Perm (r.chunk.filter fun r => budget ≤ deferrals r)
  accepted_eq : r.run.value.accepted = r.chunk.countP fun r => deferrals r < budget

variable {σ τ υ : Type} {table : String} {deferrals : PutRequest → Nat}

private theorem Store.Answers.exists_split {store : Store σ} {first last : σ}
    {front back : List Exchange} (answers : store.Answers first (front ++ back) last) :
    ∃ middle, store.Answers first front middle ∧ store.Answers middle back last := by
  induction front generalizing first with
  | nil => exact ⟨first, .nil first, answers⟩
  | cons call front ih =>
    cases answers with
    | cons rest =>
      obtain ⟨middle, before, after⟩ := ih rest
      exact ⟨middle, .cons before, after⟩

namespace Follows

variable {pending : List PutRequest} {calls : List Exchange}

private theorem requests_subset (follows : Follows table pending calls)
    (submitted : ∀ e ∈ calls, e.LeavesSubmitted) : ∀ e ∈ calls, e.requests ⊆ pending := by
  intro call made
  obtain ⟨front, back, rfl⟩ := List.append_of_mem made
  have kept : ∀ e ∈ front, e.LeavesSubmitted := fun e there =>
    submitted e (List.mem_append_left _ there)
  have part : (call.requests : Multiset PutRequest) ≤ ↑pending := by
    rw [follows.resubmitted kept]
    exact Multiset.le_add_left _ _
  exact Multiset.coe_subset.mp (Multiset.subset_of_le part)

/-- Behind `k` submissions of all that is pending, the calls leave what is put off more often than it
has been submitted then. -/
theorem of_defers {store : Store σ} {first last : σ} (defers : store.Defers table deferrals first)
    {before : List Exchange} (answers : store.Answers first (before ++ calls) last)
    (plain : IsPlain table before) (follows : Follows table pending calls)
    (distinct : pending.Nodup) {k : Nat}
    (equally : ∀ r ∈ pending, submissions r before = k ∧ k ≤ deferrals r) :
    IsPlain table calls ∧ (∀ e ∈ calls, e.LeavesSubmitted) ∧
      (leftAfter pending calls).Perm (pending.filter fun r => k + calls.length ≤ deferrals r) := by
  induction calls generalizing before pending k with
  | nil =>
    have all : pending.filter (fun r => k ≤ deferrals r) = pending :=
      List.filter_eq_self.mpr fun r there => decide_eq_true (equally r there).2
    refine ⟨by simp [IsPlain], by simp, ?_⟩
    rw [List.length_nil, Nat.add_zero, leftAfter_nil, all]
  | cons call calls ih =>
    obtain ⟨addressed, rfl, rest⟩ := follows
    rw [← List.singleton_append, ← List.append_assoc] at answers
    obtain ⟨middle, made, -⟩ := answers.exists_split
    have here : IsPlain table [call] := List.forall_mem_singleton.mpr ⟨addressed, distinct⟩
    obtain ⟨-, left⟩ := defers before call middle made (plain.append here)
    have again : ∀ r ∈ call.requests, submissions r (before ++ [call]) = k + 1 := by
      intro r there
      rw [submissions_append, submissions_singleton, (equally r there).1,
        List.count_eq_one_of_mem distinct there]
    have cut : call.requests.filter (fun r => submissions r (before ++ [call]) ≤ deferrals r) =
        call.requests.filter fun r => k + 1 ≤ deferrals r :=
      List.filter_congr fun r there => by rw [again r there]
    rw [cut] at left
    have still : ∀ r ∈ call.left, submissions r (before ++ [call]) = k + 1 ∧ k + 1 ≤ deferrals r := by
      intro r there
      obtain ⟨submitted, long⟩ := List.mem_filter.mp (left.mem_iff.mp there)
      exact ⟨again r submitted, of_decide_eq_true long⟩
    obtain ⟨others, kept, leaves⟩ := ih answers (plain.append here) rest
      (left.nodup_iff.mpr (distinct.filter _)) still
    refine ⟨here.append others, List.forall_mem_cons.mpr ⟨?_, kept⟩, ?_⟩
    · exact Multiset.coe_le.mpr (left.subperm.trans List.filter_sublist.subperm)
    · have longer : call.left.filter (fun r => k + 1 + calls.length ≤ deferrals r) |>.Perm
          (call.requests.filter fun r => k + (calls.length + 1) ≤ deferrals r) := by
        refine (left.filter _).trans ?_
        rw [List.filter_filter]
        refine List.Perm.of_eq (List.filter_congr fun r _ => ?_)
        rw [Bool.eq_iff_iff]
        simp only [Bool.and_eq_true, decide_eq_true_iff]
        omega
      rw [leftAfter_cons, List.length_cons]
      exact leaves.trans longer

end Follows

private theorem filter_add_filter (deferrals : PutRequest → Nat) (budget : Nat)
    (requests : List PutRequest) :
    ((requests.filter fun r => deferrals r < budget : List PutRequest) : Multiset PutRequest) +
        (requests.filter fun r => budget ≤ deferrals r : List PutRequest) = requests := by
  have other : (requests.filter fun r => budget ≤ deferrals r) =
      requests.filter fun r => !decide (deferrals r < budget) :=
    List.filter_congr fun r _ => by rw [← decide_not, decide_eq_decide, Nat.not_lt]
  rw [other, Multiset.coe_add, Multiset.coe_eq_coe]
  exact List.filter_append_perm _ requests

namespace Writer

variable {w : Writer σ τ υ}

private theorem chunkFallsBy_of_defers {first : σ} (defers : w.store.Defers table deferrals first)
    (representable : w.policy.IsRepresentable) {r : ChunkRun σ τ υ} (nonempty : r.chunk ≠ [])
    (distinct : r.chunk.Nodup) {places : Places σ τ υ}
    (written : w.writeChunk table r.chunk places = some r.run) {before : List Exchange}
    (answers : w.store.Answers first before places.store) (plain : IsPlain table before)
    (fresh : ∀ request ∈ r.chunk, submissions request before = 0) :
    ChunkFallsBy w.policy.budget deferrals r ∧ IsPlain table (Effect.exchanges r.run.effects) ∧
      ∀ call ∈ Effect.exchanges r.run.effects, call.requests ⊆ r.chunk := by
  obtain ⟨d, delivers, concluded⟩ := delivers_of_writeChunk representable nonempty written
  have calls : Effect.exchanges r.run.effects = Effect.exchanges d.effects := by
    rw [← concluded, exchanges_conclude]
  have outcome : r.run.value = d.outcome := by rw [← concluded, value_conclude]
  obtain ⟨others, kept, left⟩ := delivers.follows.of_defers defers (answers.append delivers.answers)
    plain distinct (k := 0) fun request there => ⟨fresh request there, Nat.zero_le _⟩
  rw [Nat.zero_add, ← delivers.residual_eq] at left
  obtain ⟨-, within, -⟩ := delivers.bounds
  have residual : d.outcome.residual.Perm
      (r.chunk.filter fun r => w.policy.budget ≤ deferrals r) := by
    cases ended : d.outcome.isSuccess with
    | false =>
      rw [(delivers.exhausted_iff.mp ended).1] at left
      exact left
    | true =>
      rw [ChunkOutcome.residual_of_isSuccess ended] at left ⊢
      have nothing := List.filter_eq_nil_iff.mp (List.nil_perm.mp left)
      refine List.Perm.of_eq (List.filter_eq_nil_iff.mpr fun request there => ?_).symm
      have short := nothing request there
      rw [decide_eq_true_iff] at short ⊢
      omega
  have conserved := delivers.follows.conserved kept
  rw [← delivers.residual_eq, Multiset.coe_eq_coe.mpr residual,
    ← filter_add_filter deferrals w.policy.budget] at conserved
  have acknowledged := (add_right_cancel conserved).symm
  have accepted : d.outcome.accepted = r.chunk.countP fun r => deferrals r < w.policy.budget := by
    rw [delivers.accepted_eq, Nat.zero_add, ← card_acknowledgedBy kept, acknowledged,
      Multiset.coe_card, List.countP_eq_length_filter]
  rw [calls]
  refine ⟨⟨?_, ?_, ?_⟩, others, delivers.follows.requests_subset kept⟩
  · rw [calls, acknowledged]
  · rw [outcome]
    exact residual
  · rw [outcome, accepted]

private theorem WritesEach.chunkFallsBy {places last : Places σ τ υ} {runs : List (ChunkRun σ τ υ)}
    (each : w.WritesEach table places runs last) {first : σ}
    (defers : w.store.Defers table deferrals first) (representable : w.policy.IsRepresentable)
    (nonempty : ∀ r ∈ runs, r.chunk ≠ []) (distinct : (runs.map ChunkRun.chunk).flatten.Nodup)
    {before : List Exchange} (answers : w.store.Answers first before places.store)
    (plain : IsPlain table before)
    (fresh : ∀ request ∈ (runs.map ChunkRun.chunk).flatten, submissions request before = 0) :
    ∀ r ∈ runs, ChunkFallsBy w.policy.budget deferrals r := by
  induction each generalizing before with
  | nil => simp
  | @cons places last chunk run others written _ ih =>
    obtain ⟨here, behind⟩ := List.forall_mem_cons.mp nonempty
    rw [List.map_cons, List.flatten_cons] at distinct fresh
    obtain ⟨own, later, apart⟩ := List.nodup_append.mp distinct
    obtain ⟨unused, unused'⟩ := List.forall_mem_append.mp fresh
    obtain ⟨falls, calls, inside⟩ := chunkFallsBy_of_defers (r := ⟨chunk, run⟩) defers representable
      here own written answers plain unused
    obtain ⟨d, delivers, rfl⟩ := delivers_of_writeChunk representable here written
    refine List.forall_mem_cons.mpr ⟨falls, ih behind later ?_ (plain.append calls) ?_⟩
    · rw [exchanges_conclude, store_conclude]
      exact answers.append delivers.answers
    · intro request there
      rw [submissions_append, unused' request there, Nat.zero_add]
      exact submissions_eq_zero fun call made submitted =>
        apart request (inside call made submitted) request there rfl

end Writer

section Totals

variable {budget : Nat} {runs : List (ChunkRun σ τ υ)}

private theorem ChunkSurfaces.records_eq {r : ChunkRun σ τ υ} (surfaces : ChunkSurfaces table r) :
    (Effect.reported r.run.effects).flatMap DeadLetter.records = r.run.value.residual := by
  cases ended : r.run.value.isSuccess with
  | true =>
    rw [Effect.reported, Effect.offersTo_of_offers_nil _ (surfaces.silent ended),
      ChunkOutcome.residual_of_isSuccess ended]
    rfl
  | false =>
    obtain ⟨letter, front, back, cut, before, behind, records, -⟩ := surfaces.told ended
    rw [cut, Effect.reported_append, behind.reported_eq, Effect.reported,
      Effect.offersTo_of_offers_nil _ before, ← records]
    simp

private theorem totals_of_chunkFallsBy (falls : ∀ r ∈ runs, ChunkFallsBy budget deferrals r)
    (surfaces : ∀ r ∈ runs, ChunkSurfaces table r) :
    acknowledgedBy (runs.flatMap fun r => Effect.exchanges r.run.effects) =
        ((runs.map ChunkRun.chunk).flatten.filter fun r => deferrals r < budget :
          List PutRequest) ∧
      ((Effect.reported (runs.flatMap fun r => r.run.effects)).flatMap DeadLetter.records).Perm
        ((runs.map ChunkRun.chunk).flatten.filter fun r => budget ≤ deferrals r) ∧
      ((runs.map fun r => r.run.value).map ChunkOutcome.accepted).sum =
        (runs.map ChunkRun.chunk).flatten.countP (fun r => deferrals r < budget) ∧
      ((runs.map fun r => r.run.value).map fun o => o.residual.length).sum =
        (runs.map ChunkRun.chunk).flatten.countP fun r => budget ≤ deferrals r := by
  induction runs with
  | nil => exact ⟨rfl, .nil, rfl, rfl⟩
  | cons r runs ih =>
    obtain ⟨here, others⟩ := List.forall_mem_cons.mp falls
    obtain ⟨told, behind⟩ := List.forall_mem_cons.mp surfaces
    obtain ⟨acknowledged, letters, accepted, failed⟩ := ih others behind
    simp only [List.map_cons, List.flatten_cons, List.flatMap_cons, List.filter_append,
      List.countP_append, List.sum_cons, acknowledgedBy_append, Effect.reported_append,
      List.flatMap_append]
    refine ⟨?_, ?_, ?_, ?_⟩
    · rw [acknowledged, here.acknowledged_eq, Multiset.coe_add]
    · rw [told.records_eq]
      exact here.residual_perm.append letters
    · rw [accepted, here.accepted_eq]
    · rw [failed, here.residual_perm.length_eq, ← List.countP_eq_length_filter]

end Totals

namespace Writer

variable {w : Writer σ τ υ}

private theorem exists_write_fallsBy {requests : List PutRequest} {places : Places σ τ υ}
    (distinct : requests.Nodup) (representable : w.policy.IsRepresentable)
    (defers : w.store.Defers table deferrals places.store) :
    ∃ run, w.write table requests places = some run ∧
      FallsBy w.policy.budget deferrals requests run := by
  obtain ⟨runs, last, summary, cut, each, totals, written⟩ :=
    w.exists_write table representable requests places
  have nonempty := nonempty_of_split cut
  have flatten : (runs.map ChunkRun.chunk).flatten = requests := by
    rw [cut, Chunker.flatten_split]
  have falls := each.chunkFallsBy defers representable nonempty (flatten.symm ▸ distinct) (.nil _)
    (by simp [IsPlain]) fun _ _ => rfl
  have surfaces : ∀ r ∈ runs, ChunkSurfaces table r := by
    intro r member
    obtain ⟨places, first⟩ := each.written r member
    exact surfaces_of_writeChunk representable (nonempty r member) first
  obtain ⟨acknowledged, letters, accepted, failed⟩ := totals_of_chunkFallsBy falls surfaces
  rw [flatten] at acknowledged letters accepted failed
  refine ⟨_, written, ?_, ?_, ?_, ?_⟩
  · rw [Effect.exchanges_append, WritesEach.exchanges_flatMap, acknowledgedBy_append, acknowledged]
    exact add_zero _
  · rw [Effect.reported_append, List.flatMap_append]
    exact (List.append_nil _).symm ▸ letters
  · rw [totals]
    exact accepted
  · rw [totals]
    exact failed

/-- What becomes of a request is told by how often it is put off, and by the budget: neither the size
of the chunks nor the order of the requests, which decide about what shares a chunk, change it. -/
theorem write_fallsBy (w : Writer σ τ υ) (table : String) (deferrals : PutRequest → Nat)
    (requests : List PutRequest) (places : Places σ τ υ) (distinct : requests.Nodup)
    (representable : w.policy.IsRepresentable)
    (defers : w.store.Defers table deferrals places.store) :
    ∃ run, w.write table requests places = some run ∧
      FallsBy w.policy.budget deferrals requests run ∧
      ∀ (chunker : Chunker) (shuffled : List PutRequest), shuffled.Perm requests →
        ∃ run', { w with chunker := chunker }.write table shuffled places = some run' ∧
          FallsBy w.policy.budget deferrals requests run' ∧
          acknowledgedBy (Effect.exchanges run'.effects) =
            acknowledgedBy (Effect.exchanges run.effects) ∧
          ((Effect.reported run'.effects).flatMap DeadLetter.records).Perm
            ((Effect.reported run.effects).flatMap DeadLetter.records) ∧
          run'.value.accepted = run.value.accepted ∧ run'.value.failed = run.value.failed := by
  obtain ⟨run, written, falls⟩ := exists_write_fallsBy distinct representable defers
  refine ⟨run, written, falls, fun chunker shuffled same => ?_⟩
  obtain ⟨run', written', falls'⟩ := exists_write_fallsBy (w := { w with chunker := chunker })
    (same.nodup_iff.mpr distinct) representable defers
  have alike : FallsBy w.policy.budget deferrals requests run' :=
    { acknowledged_eq := falls'.acknowledged_eq.trans (Multiset.coe_eq_coe.mpr (same.filter _))
      letters_perm := falls'.letters_perm.trans (same.filter _)
      accepted_eq := falls'.accepted_eq.trans (same.countP_eq _)
      failed_eq := falls'.failed_eq.trans (same.countP_eq _) }
  exact ⟨run', written', alike, alike.acknowledged_eq.trans falls.acknowledged_eq.symm,
    alike.letters_perm.trans falls.letters_perm.symm,
    alike.accepted_eq.trans falls.accepted_eq.symm, alike.failed_eq.trans falls.failed_eq.symm⟩

end Writer

/-- A store that puts requests off; its state is what has been submitted so far. -/
def Store.patient (deferrals : PutRequest → Nat) : Store (List PutRequest) where
  write seen table requests :=
    (.ok (.ofUnprocessed table (requests.filter fun r => (seen ++ requests).count r ≤ deferrals r)),
      seen ++ requests)

private theorem Store.patient_seen {deferrals : PutRequest → Nat} {first last : List PutRequest}
    {calls : List Exchange} (answers : (patient deferrals).Answers first calls last)
    (request : PutRequest) : last.count request = first.count request + submissions request calls := by
  induction answers with
  | nil => rfl
  | @cons state table requests calls last _ ih =>
    rw [ih]
    show (state ++ requests).count request + _ = state.count request + submissions request ([_] ++ _)
    rw [submissions_append, submissions_singleton, List.count_append, Nat.add_assoc]
    rfl

private theorem Store.patient_defers (deferrals : PutRequest → Nat) (table : String) :
    (patient deferrals).Defers table deferrals [] := by
  intro before call last answers _
  obtain ⟨middle, front, behind⟩ := answers.exists_split
  cases behind with
  | @cons _ name requests _ _ _ =>
    refine ⟨⟨_, rfl⟩, ?_⟩
    have left : ((patient deferrals).call name requests middle).left =
        requests.filter fun r => (middle ++ requests).count r ≤ deferrals r :=
      Reply.unprocessed_ofUnprocessed name _
    rw [left]
    refine List.Perm.of_eq (List.filter_congr fun r _ => ?_)
    rw [List.count_append, patient_seen front, submissions_append, submissions_singleton]
    simp only [List.count_nil, Nat.zero_add]
    rfl

/-- A request with the key `a` is never put off, one with the key `b` four times, and any other five
times. -/
def deferralsByKey (r : PutRequest) : Nat :=
  match r.key? with
  | some "a" => 0
  | some "b" => 4
  | _ => 5

/-- Three requests, of which one is taken at once, one by the last call allowed, and one never; in one
chunk, and each in its own. -/
theorem write_fallsBy_patient :
    [PutRequest.ofKey "a", .ofKey "b", .ofKey "c"].Nodup ∧
      RetryPolicy.standard.IsRepresentable ∧
      (Store.patient deferralsByKey).Defers "audit" deferralsByKey [] ∧
      ∃ run, (Writer.plain (Store.patient deferralsByKey)).write "audit"
          [.ofKey "a", .ofKey "b", .ofKey "c"] ⟨[], [], []⟩ = some run ∧
        run.value.accepted = 2 ∧ run.value.failed = 1 ∧
        ∃ run', { Writer.plain (Store.patient deferralsByKey) with chunker := ⟨1, by decide, by decide⟩
            }.write "audit" [.ofKey "c", .ofKey "b", .ofKey "a"] ⟨[], [], []⟩ = some run' ∧
          acknowledgedBy (Effect.exchanges run'.effects) =
            acknowledgedBy (Effect.exchanges run.effects) ∧
          run'.value.accepted = 2 ∧ run'.value.failed = 1 := by
  have distinct : [PutRequest.ofKey "a", .ofKey "b", .ofKey "c"].Nodup := by decide
  have shuffled : [PutRequest.ofKey "c", .ofKey "b", .ofKey "a"].Perm
      [.ofKey "a", .ofKey "b", .ofKey "c"] := by decide
  obtain ⟨run, written, falls, same⟩ := (Writer.plain (Store.patient deferralsByKey)).write_fallsBy
    "audit" deferralsByKey [.ofKey "a", .ofKey "b", .ofKey "c"] ⟨[], [], []⟩ distinct
    RetryPolicy.standard_isRepresentable (Store.patient_defers deferralsByKey "audit")
  obtain ⟨run', written', -, acknowledged, -, accepted, failed⟩ :=
    same ⟨1, by decide, by decide⟩ _ shuffled
  have two : run.value.accepted = 2 := falls.accepted_eq.trans (by decide)
  have one : run.value.failed = 1 := falls.failed_eq.trans (by decide)
  exact ⟨distinct, RetryPolicy.standard_isRepresentable, Store.patient_defers deferralsByKey "audit",
    run, written, two, one, run', written', acknowledged, accepted.trans two, failed.trans one⟩

end Intake.Bulk
