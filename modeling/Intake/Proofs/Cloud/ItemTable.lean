import Intake.Cloud.ItemTable
import Intake.Proofs.Dictionary
import Intake.Proofs.Json.Layout
import Mathlib.Data.List.Forall2

set_option autoImplicit false

/-!
Reading what a table of items answers. A success that names puts as unprocessed is read as just
those puts, whatever order the service gives the tables and the attributes of an item.
-/

namespace Intake.Cloud

open Intake.Bulk

/-- A write as the service hands it back: the put of an item, its attributes in any order. -/
def IsWriteOf (write : Json) (r : PutRequest) : Prop :=
  ∃ attributes : List (String × String), attributes.Perm r.item.entries ∧
    write = .object [("PutRequest", .object [("Item",
      .object (attributes.map fun e => (e.1, .object [("S", .string e.2)])))])]

def IsTableOf (table : String × Json) (entry : String × List PutRequest) : Prop :=
  table.1 = entry.1 ∧ ∃ writes, table.2 = .array writes ∧ List.Forall₂ IsWriteOf writes entry.2

/-- The document of a success without the statistics that nobody asks for: it names the unprocessed
requests by table, in any order, and may name none if there are none. -/
structure IsDocumentOf (members : List (String × Json)) (reply : Reply) : Prop where
  capacity : Json.member? members "ConsumedCapacity" = none
  metrics : Json.member? members "ItemCollectionMetrics" = none
  unprocessed : reply = .complete ∧ Json.member? members "UnprocessedItems" = none ∨
    ∃ tables entries, Json.member? members "UnprocessedItems" = some (.object tables) ∧
      entries.Perm reply.entries ∧ List.Forall₂ IsTableOf tables entries

structure Answer.Names (a : Answer) (reply : Reply) : Prop where
  success : a.isSuccess = true
  whole : a.isCut = false
  document : ∃ members, a.json? = some (.object members) ∧ IsDocumentOf members reply

namespace ItemTable

@[simp] private theorem attributeText?_text (s : String) :
    attributeText? (.object [("S", .string s)]) = some s := by
  simp [attributeText?, isTelling]

@[simp] private theorem isAttribute_text (s : String) :
    isAttribute (.object [("S", .string s)]) = true := by
  simp [isAttribute, isTelling, areMembers, isMember]

private theorem areNamed_texts (attributes : List (String × String)) :
    areNamed (attributes.map fun e => (e.1, .object [("S", .string e.2)])) = true := by
  induction attributes with
  | nil => rfl
  | cons e rest ih => simp [areNamed, ih]

private theorem put?_of_isWriteOf {write : Json} {r : PutRequest} (back : IsWriteOf write r) :
    put? write = some (some r) := by
  obtain ⟨attributes, perm, rfl⟩ := back
  have texts : (attributes.map fun e => (e.1, Json.object [("S", .string e.2)])).filterMap
      (fun e => (attributeText? e.2).map fun text => (e.1, text)) = attributes := by
    simp [List.filterMap_map]
  have item : (⟨.ofList attributes⟩ : PutRequest) = r := by
    rw [Dictionary.ofList_of_perm perm]
  simp [put?, attributes?, Json.member?, areNamed_texts, texts, item]

theorem puts?_of_forall₂ {writes : List Json} {puts : List PutRequest}
    (back : List.Forall₂ IsWriteOf writes puts) : puts? (.array writes) = some puts := by
  have read : writes.mapM put? = some (puts.map some) := by
    refine Json.mapM_eq_some_iff.mpr (List.forall₂_map_right_iff.mpr ?_)
    exact back.imp fun _ _ => put?_of_isWriteOf
  rw [puts?, read, Option.map_some, List.filterMap_map]
  simp

private theorem reply?_of_isDocumentOf {members : List (String × Json)} {reply : Reply}
    (document : IsDocumentOf members reply) : reply? (.object members) = some reply := by
  obtain ⟨capacity, metrics, ⟨rfl, nothing⟩ | ⟨tables, entries, named, perm, back⟩⟩ := document
  · simp [reply?, capacity, metrics, nothing, isOptional]
  · have read : tables.mapM (fun t => (puts? t.2).map fun puts => (t.1, puts)) = some entries := by
      refine Json.mapM_eq_some_iff.mpr (back.imp ?_)
      rintro ⟨name, value⟩ ⟨name', puts⟩ ⟨rfl, writes, rfl, back⟩
      rw [puts?_of_forall₂ back, Option.map_some]
    simp [reply?, capacity, metrics, named, isOptional, read, Dictionary.ofList_of_perm perm]

theorem answer_of_names {a : Answer} {reply : Reply} (names : a.Names reply) :
    answer (.answered a) = .ok reply := by
  obtain ⟨success, whole, members, body, document⟩ := names
  have read : a.json? >>= reply? = some reply := by
    rw [body]
    exact reply?_of_isDocumentOf document
  simp [answer, Verdict.ofDelivery, whole, success, read]

section Write

variable {σ : Type} (line : Line σ BatchWrite) {site : Site}

theorem write_of_isKnown (known : site.isKnown = true) (state : σ) (table : String)
    (requests : List PutRequest) : (store site line).write state table requests =
      (answer (line.send state ⟨table, collapse requests⟩).1,
        (line.send state ⟨table, collapse requests⟩).2) := if_pos known

theorem write_of_not_isKnown (unknown : ¬site.isKnown = true) (state : σ) (table : String)
    (requests : List PutRequest) : (store site line).write state table requests =
      (.error ⟨.transport, "no address is known"⟩, state) := if_neg unknown

end Write

end ItemTable

end Intake.Cloud
