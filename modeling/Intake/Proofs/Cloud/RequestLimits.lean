import Intake.Proofs.Bulk.Accounting
import Intake.Proofs.Cloud.Acknowledgement
import Intake.Proofs.Decoder.Printed
import Intake.Proofs.Text.Utf8

set_option autoImplicit false

/-!
What goes over the line to a table of items. Whatever comes back for it, every batch that is sent holds
records of messages, each once and under a name of its own, and as many as the service takes at once.
-/

namespace Intake

private theorem Dictionary.mem_of_get?_ofList {α : Type} {entries : List (String × α)}
    {key : String}
    {value : α} (found : (ofList entries).get? key = some value) : (key, value) ∈ entries := by
  induction entries using List.reverseRecOn with
  | nil => simp [ofList] at found
  | append_singleton entries last ih =>
    rw [ofList_concat, get?_insert] at found
    split at found
    next same =>
      obtain rfl := Option.some.inj found
      rw [same]
      exact List.mem_append_right entries (List.mem_singleton_self last)
    next => exact List.mem_append_left _ (ih found)

namespace Stream

private theorem ofMembers?_logId_ne {received : String} {members : List (String × Json)}
    {r : AuditRecord} (read : AuditRecord.ofMembers? received members = some r) : r.logId ≠ "" := by
  unfold AuditRecord.ofMembers? at read
  split at read
  next id _ =>
    split at read
    next => simp at read
    next nonempty =>
      obtain rfl := Option.some.inj read
      exact nonempty
  next => simp at read

private theorem logId_ne_of_record? {received : String} {e : Envelope} {r : AuditRecord}
    (read : record? received e = some r) : r.logId ≠ "" := by
  obtain ⟨members, -, found⟩ := AuditRecord.ofEnvelope_eq_ok_iff.mp (record?_eq_some_iff.mp read)
  exact ofMembers?_logId_ne found

def AuditRecord.attributes (r : AuditRecord) : List (String × String) :=
  [("actor_id", r.actorId), (keyAttribute, r.logId), ("target_id", r.targetId),
    ("timestamp", r.timestamp), ("transaction_type", r.transactionType)]

private theorem AuditRecord.entries_toItem (r : AuditRecord) : r.toItem.entries = r.attributes := by
  have names : ["actor_id", keyAttribute, "target_id", "timestamp", "transaction_type"].Pairwise
      (· < ·) := by decide
  have ascending : r.attributes.Pairwise (fun a b => a.1 < b.1) := List.pairwise_map.mp names
  have moved : ([("transaction_type", r.transactionType), ("actor_id", r.actorId),
      ("target_id", r.targetId), ("timestamp", r.timestamp)] : List (String × String)).Perm
      [("actor_id", r.actorId), ("target_id", r.targetId), ("timestamp", r.timestamp),
        ("transaction_type", r.transactionType)] := (List.perm_append_singleton _ _).symm
  have perm := (moved.cons (keyAttribute, r.logId)).trans (List.Perm.swap _ _ _)
  have same : r.toItem = ⟨r.attributes, ascending⟩ := Dictionary.ofList_of_perm perm
  rw [same]

private theorem AuditRecord.key?_toItem (r : AuditRecord) : r.toItem.key? = some r.logId := by
  rw [Item.key?, Dictionary.get?, entries_toItem]
  rfl

end Stream

namespace Cloud

open Bulk

def Line.recording {σ ρ : Type} (line : Line σ ρ) : Line (σ × List ρ) ρ where
  send state request :=
    let (delivery, next) := line.send state.1 request
    (delivery, next, state.2 ++ [request])

/-- The puts that a whole answer to a batch names as unprocessed for the table are a part of the batch,
in any order; nothing is said of refusals, of broken answers, and of other tables. -/
def Line.ReturnsPart {σ : Type} (line : Line σ BatchWrite) (table : String) : Prop :=
  ∀ state puts a members tables, (line.send state ⟨table, puts⟩).1 = .answered a →
    a.isSuccess = true → a.isCut = false → a.json? = some (.object members) →
    Json.member? members "UnprocessedItems" = some (.object tables) → ∀ t ∈ tables, t.1 = table →
      ∃ writes left, t.2 = .array writes ∧ List.Forall₂ IsWriteOf writes left ∧ left.Subperm puts

/-- A record as it is put: five attributes, and each of them a text. -/
def writeOf (r : Stream.AuditRecord) : Json :=
  .object [("PutRequest", .object [("Item",
    .object (r.attributes.map fun e => (e.1, .object [("S", .string e.2)])))])]

/-- A batch of some records of messages that the service may refuse for no limit of its own. -/
structure RespectsLimits (table received : String) (envelopes : List Stream.Envelope)
    (b : BatchWrite) (records : List Stream.AuditRecord) : Prop where
  table_eq : b.table = table
  puts_eq : b.puts = records.map PutRequest.ofRecord
  one_le : 1 ≤ records.length
  length_le : records.length ≤ 25
  logId_ne : ∀ r ∈ records, r.logId ≠ ""
  distinct : (records.map Stream.AuditRecord.logId).Nodup
  survives : ∀ r ∈ records, ∃ e ∈ envelopes, Stream.record? received e = some r
  /-- What is sent names no other table, and no attribute besides those of the records. -/
  document : b.toJson =
    .object [("RequestItems", .object [(table, .array (records.map writeOf))])]

def batchOf (call : Exchange) : BatchWrite := ⟨call.table, collapse call.requests⟩

section Sent

variable {σ : Type} {line : Line σ BatchWrite} {table : String}

namespace ItemTable

private theorem reply?_cases {members : List (String × Json)} {reply : Reply}
    (read : reply? (.object members) = some reply) : reply = .complete ∨
      ∃ tables entries, Json.member? members "UnprocessedItems" = some (.object tables) ∧
        tables.mapM (fun t => (puts? t.2).map fun puts => (t.1, puts)) = some entries ∧
        reply = .ofList entries := by
  rw [reply?] at read
  split at read
  next =>
    cases named : Json.member? members "UnprocessedItems" with
    | none =>
      rw [named] at read
      exact .inl (Option.some.inj read).symm
    | some value =>
      rw [named] at read
      cases value with
      | null => exact .inl (Option.some.inj read).symm
      | object tables =>
        obtain ⟨entries, listed, made⟩ := Option.map_eq_some_iff.mp read
        exact .inr ⟨tables, entries, rfl, listed, made.symm⟩
      | _ => simp at read
  next => simp at read

private theorem unprocessed_subperm {members : List (String × Json)} {reply : Reply}
    {puts : List PutRequest} (read : reply? (.object members) = some reply)
    (part : ∀ tables, Json.member? members "UnprocessedItems" = some (.object tables) →
      ∀ t ∈ tables, t.1 = table → ∃ writes left, t.2 = .array writes ∧
        List.Forall₂ IsWriteOf writes left ∧ left.Subperm puts) :
    (reply.unprocessed table).Subperm puts := by
  rcases reply?_cases read with rfl | ⟨tables, entries, named, listed, rfl⟩
  · exact List.nil_subperm
  · rw [Reply.unprocessed]
    cases found : (Dictionary.ofList entries).get? table with
    | none => exact List.nil_subperm
    | some back =>
      obtain ⟨⟨name, value⟩, there, reads⟩ :=
        Json.exists_of_mem_forall₂ (Json.mapM_eq_some_iff.mp listed) _
          (Dictionary.mem_of_get?_ofList found)
      obtain ⟨puts', readBack, same⟩ := Option.map_eq_some_iff.mp reads
      obtain ⟨rfl, rfl⟩ := Prod.mk.inj same
      obtain ⟨writes, left, rfl, back, within⟩ := part tables named _ there rfl
      rw [puts?_of_forall₂ back] at readBack
      rw [← Option.some.inj readBack]
      exact within

private theorem answer_eq_ok {delivery : Delivery} {reply : Reply}
    (answered : answer delivery = .ok reply) :
    ∃ a document, delivery = .answered a ∧ a.isSuccess = true ∧ a.isCut = false ∧
      a.json? = some document ∧ reply? document = some reply := by
  unfold answer at answered
  cases delivery with
  | lost => simp [Verdict.ofDelivery] at answered
  | answered a =>
    cases cut : a.isCut with
    | true => simp [Verdict.ofDelivery, cut] at answered
    | false =>
      cases success : a.isSuccess with
      | false =>
        cases code : refusalCode? "message" a <;>
          simp [Verdict.ofDelivery, cut, success, code] at answered
      | true =>
        cases read : a.json? >>= reply? with
        | none => simp [Verdict.ofDelivery, cut, success, read] at answered
        | some value =>
          obtain rfl : value = reply := by
            simpa [Verdict.ofDelivery, cut, success, read] using answered
          obtain ⟨document, body, reads⟩ := Option.bind_eq_some_iff.mp read
          exact ⟨a, document, rfl, success, cut, body, reads⟩

private theorem leavesSent_of_returnsPart (site : Site) (part : line.ReturnsPart table) (state : σ)
    (requests : List PutRequest) : LeavesSent ((store site line).call table requests state) := by
  refine leavesSent_of_answer site ?_
  intro reply answered
  obtain ⟨a, document, sent, success, whole, body, read⟩ := answer_eq_ok answered
  cases document with
  | object members =>
    exact unprocessed_subperm read fun tables named =>
      part state (collapse requests) a members tables sent success whole body named
  | _ => simp [reply?] at read

private theorem recording_returnsPart (part : line.ReturnsPart table) :
    line.recording.ReturnsPart table := fun state => part state.1

private theorem noted_write (site : Site) (state : σ × List BatchWrite)
    (requests : List PutRequest) : ((store site line.recording).write state table requests).2.2 =
      state.2 ++ if site.isKnown then [⟨table, collapse requests⟩] else [] := by
  by_cases known : site.isKnown = true
  · rw [write_of_isKnown line.recording known, if_pos known]
    rfl
  · rw [write_of_not_isKnown line.recording known, if_neg known, List.append_nil]

private theorem noted_of_answers {site : Site} {first last : σ × List BatchWrite}
    {calls : List Exchange} (answers : (store site line.recording).Answers first calls last) :
    last.2 = first.2 ++ if site.isKnown then calls.map batchOf else [] := by
  induction answers with
  | nil state => simp
  | @cons state table requests calls last _ ih =>
    rw [ih, noted_write, List.append_assoc]
    by_cases known : site.isKnown = true
    · simp only [if_pos known]
      rfl
    · simp only [if_neg known, List.append_nil]

end ItemTable

private theorem exists_records {received : String} {envelopes : List Stream.Envelope}
    {puts : List PutRequest} (within : puts ⊆ requestsOf received envelopes) :
    ∃ records : List Stream.AuditRecord, puts = records.map PutRequest.ofRecord ∧
      ∀ r ∈ records, ∃ e ∈ envelopes, Stream.record? received e = some r := by
  induction puts with
  | nil => exact ⟨[], rfl, by simp⟩
  | cons put puts ih =>
    obtain ⟨here, others⟩ := List.cons_subset.mp within
    obtain ⟨r, survives, rfl⟩ := List.mem_map.mp here
    obtain ⟨records, rfl, behind⟩ := ih others
    exact ⟨r :: records, rfl, List.forall_mem_cons.mpr ⟨List.mem_filterMap.mp survives, behind⟩⟩

private theorem keysOf_map_ofRecord (records : List Stream.AuditRecord) :
    keysOf (records.map PutRequest.ofRecord) = records.map Stream.AuditRecord.logId := by
  rw [keysOf, List.filterMap_map]
  have named : PutRequest.key? ∘ PutRequest.ofRecord =
      fun r : Stream.AuditRecord => some r.logId := funext Stream.AuditRecord.key?_toItem
  rw [named, List.filterMap_eq_map']

private theorem toJson_ofRecords (table : String) (records : List Stream.AuditRecord) :
    (⟨table, records.map PutRequest.ofRecord⟩ : BatchWrite).toJson =
      .object [("RequestItems", .object [(table, .array (records.map writeOf))])] := by
  have each : ∀ r : Stream.AuditRecord, Json.object [("PutRequest", .object [("Item",
      BatchWrite.itemToJson (PutRequest.ofRecord r).item)])] = writeOf r := by
    intro r
    rw [BatchWrite.itemToJson, Json.dictionary, PutRequest.ofRecord,
      Stream.AuditRecord.entries_toItem, writeOf]
  simp only [BatchWrite.toJson, Json.list, List.map_map, Function.comp_def, each]

private theorem collapse_ne_nil {requests : List PutRequest} (nonempty : requests ≠ []) :
    collapse requests ≠ [] := by
  obtain ⟨front, last, rfl⟩ := List.eq_nil_or_concat' requests |>.resolve_left nonempty
  rw [collapse_concat]
  exact List.ne_nil_of_mem (mem_placeRequest.mpr (.inl rfl))

/-- A batch that is sent in a call for some of the requests keeps to the limits. -/
theorem respectsLimits_batchOf {received : String} {envelopes : List Stream.Envelope} {limit : Nat}
    (fits : limit ≤ 25) {call : Exchange}
    (fit : CallFits table limit (requestsOf received envelopes) call) :
    ∃ records, RespectsLimits table received envelopes (batchOf call) records := by
  obtain ⟨distinct, part⟩ := collapse_distinct call.requests
  have within : collapse call.requests ⊆ requestsOf received envelopes := fun _ there =>
    fit.subset (collapse_subset call.requests there)
  obtain ⟨records, same, survives⟩ := exists_records within
  have length : records.length = (collapse call.requests).length := by
    rw [same, List.length_map]
  have batch : batchOf call = ⟨table, records.map PutRequest.ofRecord⟩ := by
    rw [batchOf, fit.table_eq, same]
  have nonempty : collapse call.requests ≠ [] :=
    collapse_ne_nil (List.length_pos_iff.mp fit.nonempty)
  rw [same, keysOf_map_ofRecord] at distinct
  refine ⟨records, ?_⟩
  rw [batch]
  exact
    { table_eq := rfl
      puts_eq := rfl
      one_le := by
        rw [length]
        exact List.length_pos_iff.mpr nonempty
      length_le := by
        have shorter := part.length_le
        have limited := fit.length_le
        omega
      logId_ne := by
        intro r there
        obtain ⟨e, -, read⟩ := survives r there
        exact Stream.logId_ne_of_record? read
      distinct := distinct
      survives := survives
      document := toJson_ofRecords table records }

/-- Every batch that is sent while a batch of messages is handled keeps to the limits of the service,
whether it is sent for the first time or again. -/
theorem ItemTable.handle_respectsLimits {τ υ : Type} (w : Writer (σ × List BatchWrite) τ υ)
    (site : Site) (table received : String) (batch : Stream.Batch)
    (places : Places (σ × List BatchWrite) τ υ) (placed : w.store = store site line.recording)
    (representable : w.policy.IsRepresentable) (part : line.ReturnsPart table) :
    ∃ run sent, w.handle table received batch places = some run ∧
      run.places.store.2 = places.store.2 ++ sent ∧
      sent = (if site.isKnown then (Effect.exchanges run.effects).map batchOf else []) ∧
      ∀ b ∈ sent, ∃ records, RespectsLimits table received batch.envelopes b records := by
  have submitted : w.store.LeavesSubmitted table := by
    intro state requests
    rw [placed]
    exact (leavesSent_of_returnsPart site (recording_returnsPart part) state
      requests).leavesSubmitted
  obtain ⟨run, runs, summary, handled, -, answers, account⟩ :=
    w.handle_accounts table received batch places representable submitted
  rw [placed] at answers
  refine ⟨run, _, handled, noted_of_answers answers, rfl, ?_⟩
  intro b there
  split at there
  next =>
    obtain ⟨call, made, rfl⟩ := List.mem_map.mp there
    rw [account.calls_eq] at made
    exact respectsLimits_batchOf w.chunker.limit_le (account.written.calls_fit call made)
  next => exact absurd there List.not_mem_nil

end Sent

/-- A document that hands back a put, and for another table a write that is no put. -/
def mixedDocument : List (String × Json) :=
  [("UnprocessedItems", .object [("other", .array [.object [("DeleteRequest", .object [])]]),
    ("audit", .array [writeOf (bareRecord "m1")])])]

private theorem writeOf_isPlain (r : Stream.AuditRecord) (levels : Nat) :
    Json.IsPlain (levels + 4) (writeOf r) := by
  have each : ∀ e ∈ r.attributes, Json.IsPlain (levels + 1) (.object [("S", .string e.2)]) :=
    fun e _ => .object (List.forall_mem_singleton.mpr (.string levels e.2))
  refine .object (List.forall_mem_singleton.mpr ?_)
  refine .object (List.forall_mem_singleton.mpr ?_)
  exact .object (List.forall_mem_map.mpr each)

private theorem mixedDocument_isPlain : Json.IsPlain Json.maxLevels (.object mixedDocument) := by
  have deletion : Json.IsPlain 124 (.object [("DeleteRequest", .object [])]) :=
    .object (List.forall_mem_singleton.mpr (.object (List.forall_mem_nil _)))
  refine .object (List.forall_mem_singleton.mpr (.object ?_))
  refine List.forall_mem_cons.mpr ⟨?_, List.forall_mem_singleton.mpr ?_⟩
  · exact .array (List.forall_mem_singleton.mpr deletion)
  · exact .array (List.forall_mem_singleton.mpr (writeOf_isPlain (bareRecord "m1") 120))

def Answer.printing (document : Json) : Answer where
  body := Text.Utf8.encode document.print

private theorem Answer.json?_printing {document : Json}
    (plain : Json.IsPlain Json.maxLevels document) :
    (Answer.printing document).json? = some document := by
  have decoded : Text.Utf8.decode (Answer.printing document).body = .ok document.print :=
    Text.Utf8.decode_eq_ok_iff.mpr rfl
  have nonempty : (Answer.printing document).body ≠ [] := by
    obtain ⟨c, chars, begins, -⟩ := plain.isValue.exists_cons
    intro empty
    have nothing : Text.Utf8.decode [] = .ok [] := Text.Utf8.decode_eq_ok_iff.mpr rfl
    rw [empty, nothing, begins] at decoded
    exact List.cons_ne_nil c chars (Except.ok.inj decoded).symm
  have text : (Answer.printing document).text? = some document.print := by
    rw [Answer.text?, decoded]
    rfl
  rw [Answer.json?, if_neg (by simpa using nonempty), text]
  exact (Decoder.restores_json plain).parse_text

def Answer.mixed : Answer := .printing (.object mixedDocument)

/-- A line that loses the first batch, hands a put back if the second has it, and then takes all; its
state counts the batches. -/
def Line.forgetful : Line Nat BatchWrite where
  send calls batch :=
    (match calls with
      | 0 => .lost
      | 1 => if .ofRecord (bareRecord "m1") ∈ batch.puts then .answered .mixed else .lost
      | _ => .answered {}, calls + 1)

private theorem Line.forgetful_returnsPart : Line.forgetful.ReturnsPart "audit" := by
  intro calls puts a members tables sent success whole body named t there addressed
  match calls with
  | 0 => simp [Line.forgetful] at sent
  | 1 =>
    by_cases present : .ofRecord (bareRecord "m1") ∈ puts
    · have answered : Line.forgetful.send 1 ⟨"audit", puts⟩ = (.answered .mixed, 2) :=
        congrArg (·, 2) (if_pos present)
      rw [answered] at sent
      obtain rfl := Delivery.answered.inj sent
      rw [Answer.mixed, Answer.json?_printing mixedDocument_isPlain] at body
      obtain rfl := Json.object.inj (Option.some.inj body)
      obtain rfl : _ = tables := Json.object.inj (Option.some.inj named)
      rcases List.mem_pair.mp there with rfl | rfl
      · simp at addressed
      · refine ⟨_, [.ofRecord (bareRecord "m1")], rfl, .cons ?_ .nil, ?_⟩
        · refine ⟨_, .refl _, ?_⟩
          rw [PutRequest.ofRecord, Stream.AuditRecord.entries_toItem]
          rfl
        · exact List.singleton_subperm_iff.mpr present
    · have answered : Line.forgetful.send 1 ⟨"audit", puts⟩ = (.lost, 2) :=
        congrArg (·, 2) (if_neg present)
      rw [answered] at sent
      simp at sent
  | calls + 2 =>
    have answered : a = {} := (Delivery.answered.inj sent).symm
    rw [answered] at body
    have empty : members = [] := (Json.object.inj (Option.some.inj body)).symm
    simp [empty, Json.member?] at named

/-- Two groups with a name that comes three times, and a message that is no record. -/
def repeatedBatch : Stream.Batch where
  groups := .ofList
    [("b", [.ofParts 0 1 "\x7b\"message_id\": \"m1\"\x7d", .ofParts 0 2 "[]",
      .ofParts 0 3 "\x7b\"message_id\": \"m2\"\x7d"]),
    ("a", [.ofParts 1 1 "\x7b\"message_id\": \"m1\"\x7d",
      .ofParts 1 2 "\x7b\"message_id\": \"m1\"\x7d"])]

/-- That batch over a line that hands one of the puts back. -/
theorem handle_respectsLimits_forgetful :
    RetryPolicy.standard.IsRepresentable ∧ Line.forgetful.ReturnsPart "audit" ∧
      ∃ run sent, (Writer.plain (ItemTable.store ⟨some "eu-west-1", none⟩
          Line.forgetful.recording)).handle "audit" "0" repeatedBatch ⟨(0, []), [], []⟩ = some run ∧
        run.places.store.2 = [] ++ sent ∧
        sent = (if Site.isKnown ⟨some "eu-west-1", none⟩ then
          (Effect.exchanges run.effects).map batchOf else []) ∧
        (∀ b ∈ sent, ∃ records, RespectsLimits "audit" "0" repeatedBatch.envelopes b records) ∧
        run.value = ⟨"success", 4⟩ ∧
        sent = [⟨"audit", [.ofRecord (bareRecord "m1"), .ofRecord (bareRecord "m2")]⟩,
          ⟨"audit", [.ofRecord (bareRecord "m1"), .ofRecord (bareRecord "m2")]⟩,
          ⟨"audit", [.ofRecord (bareRecord "m1")]⟩] := by
  obtain ⟨run, sent, written, stored, calls, limits⟩ :=
    ItemTable.handle_respectsLimits (Writer.plain (ItemTable.store ⟨some "eu-west-1", none⟩
      Line.forgetful.recording)) ⟨some "eu-west-1", none⟩ "audit" "0" repeatedBatch ⟨(0, []), [], []⟩
      rfl RetryPolicy.standard_isRepresentable Line.forgetful_returnsPart
  refine ⟨RetryPolicy.standard_isRepresentable, Line.forgetful_returnsPart, run, sent, written, stored,
    calls, limits, ?_⟩
  rw [List.nil_append] at stored
  rw [← stored, ← Prod.mk.injEq]
  exact eq_of_map written (fun run => (run.value, run.places.store.2)) (by decide +kernel)

end Cloud

end Intake
