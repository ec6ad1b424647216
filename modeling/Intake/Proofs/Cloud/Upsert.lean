import Intake.Proofs.Bulk.Run
import Intake.Proofs.Cloud.Collapse
import Intake.Proofs.Cloud.ItemTable
import Mathlib

set_option autoImplicit false

/-!
Bulk writing to a table of items. Whatever the calls store before they fail or are lost, a call only
ever submits the newest request of a chunk for a key; so a key holds what it held before the chunk
or what its newest request put, and it holds the latter once no request with the key is left.
-/

namespace Intake.Cloud

open Intake.Bulk

/-- What a service does with batches for a table: it stores some of the puts, and then fails, or
hands back puts of the batch, among them all that it has not stored. -/
def Line.Upserts {σ : Type} (line : Line σ BatchWrite) (table : String)
    (contents : σ → Contents) : Prop :=
  ∀ state puts, ∃ persisted ⊆ puts,
    contents (line.send state ⟨table, puts⟩).2 = (contents state).putAll persisted ∧
      ((∃ fault, ItemTable.answer (line.send state ⟨table, puts⟩).1 = .error fault) ∨
        ∃ a reply, (line.send state ⟨table, puts⟩).1 = .answered a ∧ a.Names reply ∧
          reply.unprocessed table ⊆ puts ∧
          ∀ r ∈ puts, r ∈ persisted ∨ r ∈ reply.unprocessed table)

/-- A table between the calls for a chunk. -/
structure Settling (chunk pending : List PutRequest) (before now : Contents) : Prop where
  /-- What is submitted next for a key is the newest request of the chunk for it. -/
  newest : ∀ key r, lastPut? key pending = some r → lastPut? key chunk = some r
  stored : ∀ key r, lastPut? key chunk = some r →
    now key = some r.item ∨ lastPut? key pending ≠ none ∧ now key = before key
  untouched : ∀ key, lastPut? key chunk = none → now key = before key

namespace Settling

variable {chunk pending persisted left : List PutRequest} {before now : Contents}

private theorem start (chunk : List PutRequest) (before : Contents) :
    Settling chunk chunk before before where
  newest _ _ last := last
  stored _ _ last := .inr ⟨by rw [last]; exact Option.some_ne_none _, rfl⟩
  untouched _ _ := rfl

/-- A part of the collapsed batch has no older request for a key. -/
theorem newest_of_subset (settling : Settling chunk pending before now) {part : List PutRequest}
    (sent : part ⊆ collapse pending) {key : String} {r : PutRequest}
    (last : lastPut? key part = some r) : lastPut? key chunk = some r := by
  have kept := sent (mem_of_lastPut? last)
  have named := key?_of_lastPut? last
  exact settling.newest key r ((mem_collapse_iff_lastPut? named).mp kept)

private theorem step (settling : Settling chunk pending before now)
    (kept : persisted ⊆ collapse pending) (back : left = pending ∨ left ⊆ collapse pending)
    (covered : ∀ r ∈ collapse pending, r ∈ persisted ∨ r ∈ left) :
    Settling chunk left before (now.putAll persisted) := by
  refine { newest := ?_, stored := ?_, untouched := ?_ }
  · intro key r last
    rcases back with rfl | back
    · exact settling.newest key r last
    · exact settling.newest_of_subset back last
  · intro key r last
    rw [Contents.putAll_apply]
    cases put : lastPut? key persisted with
    | some q =>
      have newest := settling.newest_of_subset kept put
      obtain rfl : q = r := Option.some.inj (newest.symm.trans last)
      exact .inl rfl
    | none =>
      rcases settling.stored key r last with done | ⟨waiting, old⟩
      · exact .inl done
      · refine .inr ⟨?_, old⟩
        obtain ⟨q, next⟩ := Option.ne_none_iff_exists'.mp waiting
        have named := key?_of_lastPut? next
        have sent : q ∈ collapse pending := (mem_collapse_iff_lastPut? named).mpr next
        intro nothing
        rcases covered q sent with there | there
        · exact lastPut?_eq_none_iff.mp put q there named
        · exact lastPut?_eq_none_iff.mp nothing q there named
  · intro key absent
    have nothing : lastPut? key persisted = none := by
      apply Option.eq_none_iff_forall_ne_some.mpr
      intro r last
      exact Option.some_ne_none r ((settling.newest_of_subset kept last).symm.trans absent)
    rw [Contents.putAll_apply, nothing]
    exact settling.untouched key absent

private theorem eq_item (settling : Settling chunk pending before now) {key : String}
    {r : PutRequest} (last : lastPut? key chunk = some r) (settled : lastPut? key pending = none) :
    now key = some r.item := by
  rcases settling.stored key r last with done | ⟨waiting, -⟩
  · exact done
  · exact absurd settled waiting

private theorem eq_putAll (settling : Settling chunk [] before now) :
    now = before.putAll chunk := by
  ext1 key
  rw [Contents.putAll_apply]
  cases last : lastPut? key chunk with
  | none => exact settling.untouched key last
  | some r => exact settling.eq_item last rfl

private theorem genuine (settling : Settling chunk pending before now) (key : String) :
    now key = before key ∨ ∃ r ∈ chunk, r.key? = some key ∧ now key = some r.item := by
  cases last : lastPut? key chunk with
  | none => exact .inl (settling.untouched key last)
  | some r =>
    rcases settling.stored key r last with done | ⟨-, old⟩
    · exact .inr ⟨r, mem_of_lastPut? last, key?_of_lastPut? last, done⟩
    · exact .inl old

end Settling

variable {σ τ υ : Type} {line : Line σ BatchWrite} {table : String} {contents : σ → Contents}

namespace ItemTable

private theorem exists_persisted (site : Site) (upserts : line.Upserts table contents)
    (pending : List PutRequest) (state : σ) :
    ∃ persisted ⊆ collapse pending,
      contents ((store site line).write state table pending).2 =
        (contents state).putAll persisted ∧
      (((store site line).call table pending state).left = pending ∨
        ((store site line).call table pending state).left ⊆ collapse pending) ∧
      ∀ r ∈ collapse pending, r ∈ persisted ∨ r ∈ ((store site line).call table pending state).left := by
  by_cases known : site.isKnown = true
  · have write := write_of_isKnown line known state table pending
    obtain ⟨persisted, kept, after, result⟩ := upserts state (collapse pending)
    refine ⟨persisted, kept, ?_, ?_⟩
    · rw [write, after]
    · simp only [Store.call, write]
      rcases result with ⟨fault, failed⟩ | ⟨a, reply, answered, names, back, covered⟩
      · rw [failed]
        exact ⟨.inl rfl, fun r sent => .inr (collapse_subset pending sent)⟩
      · rw [answered, answer_of_names names]
        exact ⟨.inr back, covered⟩
  · have write := write_of_not_isKnown line known state table pending
    refine ⟨[], List.nil_subset _, ?_, ?_⟩
    · rw [write, Contents.putAll_nil]
    · simp only [Store.call, write]
      exact ⟨.inl rfl, fun r sent => .inr (collapse_subset pending sent)⟩

end ItemTable

/-- A delivery keeps the table settling, down to what it gives up. -/
theorem Settling.deliver {site : Site} (upserts : line.Upserts table contents)
    {policy : RetryPolicy} {n accepted : Nat} {chunk pending : List PutRequest} {state : σ}
    {d : Bulk.Delivery σ} {before : Contents}
    (delivers : Delivers (ItemTable.store site line) policy table n accepted pending state d)
    (settling : Settling chunk pending before (contents state)) :
    Settling chunk d.outcome.residual before (contents d.store) := by
  have call : ∀ {pending : List PutRequest} {state : σ},
      Settling chunk pending before (contents state) →
      Settling chunk ((ItemTable.store site line).call table pending state).left before
        (contents ((ItemTable.store site line).write state table pending).2) := by
    intro pending state settling
    obtain ⟨persisted, kept, after, back, covered⟩ :=
      ItemTable.exists_persisted site upserts pending state
    rw [after]
    exact settling.step kept back covered
  induction delivers with
  | done complete =>
    have settled := call settling
    rwa [Exchange.left_of_isComplete complete] at settled
  | spent _ _ _ => exact call settling
  | again _ _ _ _ ih => exact ih (call settling)

/-- What becomes of a table when requests are written to it chunk by chunk. -/
structure Upserted (runs : List (ChunkRun σ τ υ)) (requests : List PutRequest)
    (before after : Contents) : Prop where
  chunks_flatten : (runs.map ChunkRun.chunk).flatten = requests
  /-- A key holds what its newest request put, unless the chunk that has it leaves a request with
  the key. -/
  newest : ∀ key r, lastPut? key requests = some r → ∃ front c back, runs = front ++ c :: back ∧
    lastPut? key c.chunk = some r ∧ (∀ other ∈ back, ∀ q ∈ other.chunk, q.key? ≠ some key) ∧
    ((∀ q ∈ c.run.value.residual, q.key? ≠ some key) → after key = some r.item)
  untouched : ∀ key, (∀ r ∈ requests, r.key? ≠ some key) → after key = before key
  /-- Even then it holds what it held before or what one of its requests put. -/
  genuine : ∀ key, after key = before key ∨
    ∃ r ∈ requests, r.key? = some key ∧ after key = some r.item
  complete : (∀ r ∈ runs, r.run.value.isSuccess = true) → after = before.putAll requests

namespace Upserted

variable {c : ChunkRun σ τ υ} {others : List (ChunkRun σ τ υ)} {rest : List PutRequest}
  {before middle after : Contents}

private theorem nil (before : Contents) :
    Upserted ([] : List (ChunkRun σ τ υ)) [] before before where
  chunks_flatten := rfl
  newest _ r last := absurd last (Option.some_ne_none r).symm
  untouched _ _ := rfl
  genuine _ := .inl rfl
  complete _ := rfl

private theorem cons (settling : Settling c.chunk c.run.value.residual before middle)
    (behind : Upserted others rest middle after) :
    Upserted (c :: others) (c.chunk ++ rest) before after := by
  refine
    { chunks_flatten := ?_, newest := ?_, untouched := ?_, genuine := ?_, complete := ?_ }
  · rw [List.map_cons, List.flatten_cons, behind.chunks_flatten]
  · intro key r last
    rw [lastPut?_append] at last
    cases later : lastPut? key rest with
    | some q =>
      rw [later, Option.some_or] at last
      obtain ⟨front, holder, back, cut, found⟩ := behind.newest key q later
      refine ⟨c :: front, holder, back, by rw [cut, List.cons_append], ?_⟩
      rwa [← Option.some.inj last]
    | none =>
      rw [later, Option.none_or] at last
      have absent := lastPut?_eq_none_iff.mp later
      refine ⟨[], c, others, rfl, last, ?_, ?_⟩
      · intro other there q inside
        apply absent q
        rw [← behind.chunks_flatten]
        exact List.mem_flatten.mpr ⟨_, List.mem_map_of_mem there, inside⟩
      · intro settled
        rw [behind.untouched key absent]
        exact settling.eq_item last (lastPut?_eq_none_iff.mpr settled)
  · intro key absent
    obtain ⟨here, there⟩ := List.forall_mem_append.mp absent
    rw [behind.untouched key there]
    exact settling.untouched key (lastPut?_eq_none_iff.mpr here)
  · intro key
    rcases behind.genuine key with old | ⟨r, there, named, put⟩
    · rw [old]
      rcases settling.genuine key with older | ⟨r, here, named, put⟩
      · exact .inl older
      · exact .inr ⟨r, List.mem_append_left _ here, named, put⟩
    · exact .inr ⟨r, List.mem_append_right _ there, named, put⟩
  · intro success
    obtain ⟨here, there⟩ := List.forall_mem_cons.mp success
    rw [ChunkOutcome.residual_of_isSuccess here] at settling
    rw [behind.complete there, settling.eq_putAll, Contents.putAll_append]

end Upserted

private theorem upserted_of_writesEach {w : Writer σ τ υ} {site : Site}
    (placed : w.store = ItemTable.store site line) (representable : w.policy.IsRepresentable)
    (upserts : line.Upserts table contents) {places last : Places σ τ υ}
    {runs : List (ChunkRun σ τ υ)} (each : w.WritesEach table places runs last)
    (nonempty : ∀ r ∈ runs, r.chunk ≠ []) :
    Upserted runs (runs.map ChunkRun.chunk).flatten (contents places.store)
      (contents last.store) := by
  induction each with
  | nil places => exact .nil _
  | @cons places last chunk run others first _ ih =>
    obtain ⟨here, behind⟩ := List.forall_mem_cons.mp nonempty
    obtain ⟨d, delivers, rfl⟩ := Writer.delivers_of_writeChunk representable here first
    rw [placed] at delivers
    have settling := Settling.deliver upserts delivers (.start chunk (contents places.store))
    rw [List.map_cons, List.flatten_cons]
    refine .cons ?_ (ih behind)
    rwa [Writer.value_conclude, Writer.store_conclude]

/-- Writing to a table of items puts the requests one by one, apart from the keys of what is given
up, and whatever a key holds has been put for it or was there. -/
theorem ItemTable.write_upserts (w : Writer σ τ υ) (site : Site) (requests : List PutRequest)
    (places : Places σ τ υ) (placed : w.store = store site line)
    (representable : w.policy.IsRepresentable) (upserts : line.Upserts table contents) :
    ∃ run runs, w.write table requests places = some run ∧
      runs.map ChunkRun.chunk = w.chunker.split requests ∧
      w.WritesEach table places runs run.places ∧
      run.value = .ofOutcomes requests.length (runs.map fun r => r.run.value) ∧
      Upserted runs requests (contents places.store) (contents run.places.store) ∧
      (run.value.exhaustedChunks = 0 →
        contents run.places.store = (contents places.store).putAll requests) := by
  obtain ⟨runs, last, summary, cut, each, totals, written⟩ :=
    w.exists_write table representable requests places
  have upserted := upserted_of_writesEach placed representable upserts each
    (Writer.nonempty_of_split cut)
  rw [cut, w.chunker.flatten_split] at upserted
  refine ⟨_, runs, written, cut, each, totals, upserted, ?_⟩
  intro exhausted
  apply upserted.complete
  rw [totals] at exhausted
  intro r member
  have counted := List.countP_eq_zero.mp exhausted r.run.value (List.mem_map_of_mem member)
  simpa using counted

def handedBack : List (String × Json) :=
  [("UnprocessedItems", .object [("audit", .array [.object [("PutRequest",
    .object [("Item", .object [("log_id", .object [("S", .string "b")])])])]])])]

def Answer.handingBack : Answer where
  body := Text.Utf8.encode (Json.object handedBack).text.toList

set_option maxRecDepth 10000 in
theorem Answer.handingBack_names :
    Answer.handingBack.Names (Reply.ofUnprocessed "audit" [.ofKey "b"]) where
  success := rfl
  whole := rfl
  document := by
    refine ⟨handedBack, by cbv, by simp [Json.member?, handedBack],
      by simp [Json.member?, handedBack], .inr ?_⟩
    refine ⟨_, [("audit", [.ofKey "b"])], rfl, .refl _, ?_⟩
    exact .cons ⟨rfl, _, rfl, .cons ⟨[("log_id", "b")], .refl _, rfl⟩ .nil⟩ .nil

/-- A table that stores a put and loses the answer, then hands one put back, and then stores all;
its state counts the calls. -/
def Line.hesitant : Line (Nat × Contents) BatchWrite where
  send state batch :=
    match state.1 with
    | 0 => (.lost, 1, state.2.putAll (batch.puts.take 1))
    | 1 =>
      if .ofKey "b" ∈ batch.puts then
        (.answered .handingBack, 2, state.2.putAll (batch.puts.filter (· ≠ .ofKey "b")))
      else (.lost, 2, state.2)
    | calls + 2 => (.answered {}, calls + 3, state.2.putAll batch.puts)

private theorem Line.hesitant_upserts : Line.hesitant.Upserts "audit" Prod.snd := by
  rintro ⟨calls, items⟩ puts
  match calls with
  | 0 => exact ⟨puts.take 1, List.take_subset 1 puts, rfl, .inl ⟨_, rfl⟩⟩
  | 1 =>
    by_cases there : .ofKey "b" ∈ puts
    · have sent : Line.hesitant.send (1, items) ⟨"audit", puts⟩ =
          (.answered .handingBack, 2, items.putAll (puts.filter (· ≠ .ofKey "b"))) := if_pos there
      rw [sent]
      refine ⟨puts.filter (· ≠ .ofKey "b"), List.filter_subset_self puts, rfl, .inr ?_⟩
      refine ⟨_, _, rfl, Answer.handingBack_names, ?_, ?_⟩
      · rw [Reply.unprocessed_ofUnprocessed]
        simpa using there
      · intro r inside
        rw [Reply.unprocessed_ofUnprocessed]
        by_cases same : r = .ofKey "b" <;> simp [same, inside]
    · have sent : Line.hesitant.send (1, items) ⟨"audit", puts⟩ = (.lost, 2, items) :=
        if_neg there
      rw [sent]
      exact ⟨[], List.nil_subset _, rfl, .inl ⟨_, rfl⟩⟩
  | calls + 2 =>
    refine ⟨puts, List.Subset.refl _, rfl, .inr ⟨{}, .complete, rfl, ?_, ?_, ?_⟩⟩
    · exact ⟨rfl, rfl, [], rfl, rfl, rfl, .inl ⟨rfl, rfl⟩⟩
    · exact List.nil_subset _
    · exact fun r inside => .inl inside

def hesitantWriter : Writer (Nat × Contents) (List DeadLetter) (List DeadLetter) where
  __ := Writer.plain (ItemTable.store ⟨some "eu-west-1", none⟩ Line.hesitant)
  chunker := { limit := 3 }

def requestOf (key actor : String) : PutRequest :=
  ⟨.ofList [(keyAttribute, key), ("actor_id", actor)]⟩

/-- Requests with a key that comes twice in the first three and once more behind them. -/
def repeatedRequests : List PutRequest :=
  [requestOf "a" "x", .ofKey "b", requestOf "a" "y", requestOf "a" "z"]

/-- Repeated keys over a table that is empty at first, loses an answer and hands a put back. -/
theorem write_upserts_hesitant :
    RetryPolicy.standard.IsRepresentable ∧ Line.hesitant.Upserts "audit" Prod.snd ∧
      ∃ run runs, hesitantWriter.write "audit" repeatedRequests ⟨(0, fun _ => none), [], []⟩ =
          some run ∧
        runs.map ChunkRun.chunk = hesitantWriter.chunker.split repeatedRequests ∧
        hesitantWriter.WritesEach "audit" ⟨(0, fun _ => none), [], []⟩ runs run.places ∧
        run.value = .ofOutcomes repeatedRequests.length (runs.map fun r => r.run.value) ∧
        Upserted runs repeatedRequests (fun _ => none) run.places.store.2 ∧
        (run.value.exhaustedChunks = 0 →
          run.places.store.2 = Contents.putAll (fun _ => none) repeatedRequests) ∧
        run.value = ⟨2, 4, 4, 0, 0⟩ ∧
        Effect.calls run.effects =
          [("audit", [requestOf "a" "x", .ofKey "b", requestOf "a" "y"]),
            ("audit", [requestOf "a" "x", .ofKey "b", requestOf "a" "y"]), ("audit", [.ofKey "b"]),
            ("audit", [requestOf "a" "z"])] ∧
        ["a", "b", "c"].map run.places.store.2 =
          [some (requestOf "a" "z").item, some (PutRequest.ofKey "b").item, none] := by
  obtain ⟨run, runs, written, cut, each, totals, upserted, complete⟩ :=
    ItemTable.write_upserts hesitantWriter ⟨some "eu-west-1", none⟩ repeatedRequests
      ⟨(0, fun _ => none), [], []⟩ rfl RetryPolicy.standard_isRepresentable Line.hesitant_upserts
  refine ⟨RetryPolicy.standard_isRepresentable, Line.hesitant_upserts, run, runs, written, cut, each,
    totals, upserted, complete, ?_, ?_, ?_⟩
  · exact eq_of_map written Run.value (by decide +kernel)
  · exact eq_of_map written (fun run => Effect.calls run.effects) (by decide +kernel)
  · exact eq_of_map written (fun run => ["a", "b", "c"].map run.places.store.2) (by decide +kernel)

end Intake.Cloud
