import Intake.Cloud.Collapse
import Mathlib.Data.List.Basic
import Mathlib.Data.List.Induction
import Mathlib.Data.List.Nodup
import Mathlib.Data.List.Perm.Subperm

set_option autoImplicit false

/-!
What collapsing a batch keeps, and what a table holds after puts. Of the requests with a key both
look at the last one only; what comes before it is of no consequence.
-/

namespace Intake.Cloud

open Intake.Bulk

/-- The last of the requests with a key. -/
def lastPut? (key : String) (requests : List PutRequest) : Option PutRequest :=
  requests.reverse.find? (·.key? = some key)

section LastPut

variable {key : String} {requests : List PutRequest} {r : PutRequest}

@[simp] theorem lastPut?_nil (key : String) : lastPut? key [] = none := rfl

theorem lastPut?_concat (key : String) (requests : List PutRequest) (r : PutRequest) :
    lastPut? key (requests ++ [r]) = if r.key? = some key then some r else lastPut? key requests := by
  by_cases named : r.key? = some key <;> simp [lastPut?, named]

theorem lastPut?_append (key : String) (front back : List PutRequest) :
    lastPut? key (front ++ back) = (lastPut? key back).or (lastPut? key front) := by
  simp only [lastPut?, List.reverse_append, List.find?_append]

theorem lastPut?_eq_none_iff : lastPut? key requests = none ↔ ∀ r ∈ requests, r.key? ≠ some key := by
  simp [lastPut?]

theorem mem_of_lastPut? (last : lastPut? key requests = some r) : r ∈ requests :=
  List.mem_reverse.mp (List.mem_of_find?_eq_some last)

theorem key?_of_lastPut? (last : lastPut? key requests = some r) : r.key? = some key := by
  simpa using List.find?_some last

end LastPut

section Collapse

variable {key : String} {requests kept : List PutRequest} {r x : PutRequest}

theorem collapse_concat (requests : List PutRequest) (r : PutRequest) :
    collapse (requests ++ [r]) = placeRequest (collapse requests) r := by
  rw [collapse, List.foldl_append]
  rfl

private theorem mem_replace (key : String) :
    r ∈ kept.map (fun k => if k.key? = some key then x else k) ↔
      r = x ∧ (∃ k ∈ kept, k.key? = some key) ∨ r ∈ kept ∧ r.key? ≠ some key := by
  rw [List.mem_map]
  constructor
  · rintro ⟨k, there, made⟩
    by_cases named : k.key? = some key
    · rw [if_pos named] at made
      exact .inl ⟨made.symm, k, there, named⟩
    · rw [if_neg named] at made
      exact .inr (made ▸ ⟨there, named⟩)
  · rintro (⟨rfl, k, there, named⟩ | ⟨there, other⟩)
    · exact ⟨k, there, if_pos named⟩
    · exact ⟨r, there, if_neg other⟩

theorem mem_placeRequest :
    r ∈ placeRequest kept x ↔ r = x ∨ r ∈ kept ∧ (r.key? = x.key? → x.key? = none) := by
  unfold placeRequest
  cases placed : x.key? with
  | none => simp [or_comm]
  | some key =>
    by_cases present : ∃ k ∈ kept, k.key? = some key
    · have any : kept.any (·.key? = some key) = true := by simpa using present
      simp only [any, if_true, mem_replace, present, and_true]
      simp
    · have any : ¬ kept.any (·.key? = some key) = true := by simpa using present
      have apart : r ∈ kept → r.key? ≠ some key := fun there named => present ⟨r, there, named⟩
      simp only [if_neg any, List.mem_append, List.mem_singleton]
      constructor
      · rintro (there | rfl)
        · exact .inr ⟨there, fun named => absurd named (apart there)⟩
        · exact .inl rfl
      · rintro (rfl | ⟨there, -⟩)
        · exact .inr rfl
        · exact .inl there

theorem collapse_subset (requests : List PutRequest) : collapse requests ⊆ requests := by
  induction requests using List.reverseRecOn with
  | nil => exact List.Subset.refl _
  | append_singleton requests x ih =>
    intro r there
    rw [collapse_concat] at there
    rcases mem_placeRequest.mp there with rfl | ⟨before, -⟩
    · exact List.mem_append_right _ (List.mem_singleton_self _)
    · exact List.mem_append_left _ (ih before)

/-- Of the requests with a key the last one is kept. -/
theorem mem_collapse_iff_lastPut? (named : r.key? = some key) :
    r ∈ collapse requests ↔ lastPut? key requests = some r := by
  induction requests using List.reverseRecOn with
  | nil => simp [collapse]
  | append_singleton requests x ih =>
    rw [collapse_concat, mem_placeRequest, lastPut?_concat, ih, named]
    by_cases placed : x.key? = some key
    · rw [if_pos placed, placed, Option.some.injEq]
      simp [eq_comm]
    · have other : r ≠ x := fun h => placed (h ▸ named)
      have apart : some key = x.key? → x.key? = none := fun h => absurd h.symm placed
      rw [if_neg placed, or_iff_right other, and_iff_left apart]

/-- The keys of requests, each as often as it comes. -/
def keysOf (requests : List PutRequest) : List String := requests.filterMap PutRequest.key?

theorem mem_keysOf : key ∈ keysOf requests ↔ ∃ r ∈ requests, r.key? = some key := List.mem_filterMap

theorem keysOf_append (front back : List PutRequest) :
    keysOf (front ++ back) = keysOf front ++ keysOf back := List.filterMap_append

theorem lastPut?_isSome_iff : (lastPut? key requests).isSome = true ↔ key ∈ keysOf requests := by
  rw [Option.isSome_iff_ne_none, Ne, lastPut?_eq_none_iff, mem_keysOf]
  push Not
  rfl

theorem mem_keysOf_collapse : key ∈ keysOf (collapse requests) ↔ key ∈ keysOf requests := by
  constructor
  · intro kept
    obtain ⟨r, there, named⟩ := mem_keysOf.mp kept
    exact mem_keysOf.mpr ⟨r, collapse_subset requests there, named⟩
  · intro named
    obtain ⟨r, last⟩ := Option.isSome_iff_exists.mp (lastPut?_isSome_iff.mpr named)
    have named := key?_of_lastPut? last
    exact mem_keysOf.mpr ⟨r, (mem_collapse_iff_lastPut? named).mpr last, named⟩

theorem eq_of_mem_collapse {a b : PutRequest} (first : a ∈ collapse requests)
    (second : b ∈ collapse requests) (named : a.key? = some key) (same : b.key? = some key) :
    a = b := by
  have last := (mem_collapse_iff_lastPut? named).mp first
  have also := (mem_collapse_iff_lastPut? same).mp second
  exact Option.some.inj (last.symm.trans also)

theorem notMem_keysOf_around {front back : List PutRequest}
    (distinct : (keysOf (front ++ r :: back)).Nodup) (named : r.key? = some key) :
    key ∉ keysOf front ∧ key ∉ keysOf back := by
  have cut : keysOf (front ++ r :: back) = keysOf front ++ key :: keysOf back := by
    rw [keysOf_append, keysOf, keysOf, keysOf, List.filterMap_cons_some named]
  rw [cut, List.nodup_middle, List.nodup_cons, List.mem_append, not_or] at distinct
  exact distinct.1

private theorem map_replace_eq {front back : List PutRequest} {old : PutRequest}
    (distinct : (keysOf (front ++ old :: back)).Nodup) (named : old.key? = some key) :
    (front ++ old :: back).map (fun k => if k.key? = some key then x else k) =
      front ++ x :: back := by
  obtain ⟨notBefore, notBehind⟩ := notMem_keysOf_around distinct named
  have stays : ∀ {others : List PutRequest}, key ∉ keysOf others →
      others.map (fun k => if k.key? = some key then x else k) = others := by
    intro others absent
    refine (List.map_congr_left ?_).trans (List.map_id others)
    intro k there
    exact if_neg fun same => absent (mem_keysOf.mpr ⟨k, there, same⟩)
  rw [List.map_append, List.map_cons, stays notBefore, stays notBehind, if_pos named]

theorem placeRequest_of_fresh (fresh : ∀ key, x.key? = some key → key ∉ keysOf kept) :
    placeRequest kept x = kept ++ [x] := by
  cases named : x.key? with
  | none => rw [placeRequest, named]
  | some key =>
    have apart := fresh key named
    rw [mem_keysOf] at apart
    have absent : ¬ kept.any (·.key? = some key) = true := by simpa using apart
    simp only [placeRequest, named, if_neg absent]

theorem placeRequest_of_taken (named : x.key? = some key) (taken : key ∈ keysOf kept) :
    placeRequest kept x = kept.map fun k => if k.key? = some key then x else k := by
  rw [mem_keysOf] at taken
  have present : kept.any (·.key? = some key) = true := by simpa using taken
  simp only [placeRequest, named, if_pos present]

theorem placeRequest_eq_or (distinct : (keysOf kept).Nodup) :
    (placeRequest kept x = kept ++ [x] ∧ ∀ key, x.key? = some key → key ∉ keysOf kept) ∨
      ∃ front old back, kept = front ++ old :: back ∧ old.key? = x.key? ∧
        placeRequest kept x = front ++ x :: back := by
  by_cases fresh : ∀ key, x.key? = some key → key ∉ keysOf kept
  · exact .inl ⟨placeRequest_of_fresh fresh, fresh⟩
  · push Not at fresh
    obtain ⟨key, named, taken⟩ := fresh
    obtain ⟨old, there, same⟩ := mem_keysOf.mp taken
    obtain ⟨front, back, rfl⟩ := List.append_of_mem there
    refine .inr ⟨front, old, back, rfl, same.trans named.symm, ?_⟩
    rw [placeRequest_of_taken named taken]
    exact map_replace_eq distinct same

private theorem placeRequest_distinct (distinct : (keysOf kept).Nodup) :
    (keysOf (placeRequest kept x)).Nodup ∧ (placeRequest kept x).Subperm (kept ++ [x]) := by
  rcases placeRequest_eq_or (x := x) distinct with ⟨placed, fresh⟩ | ⟨front, old, back, rfl, same, placed⟩
  · rw [placed]
    refine ⟨?_, List.Subperm.refl _⟩
    rw [keysOf_append]
    cases named : x.key? with
    | none => simpa [keysOf, named] using distinct
    | some key =>
      have apart := fresh key named
      have one : keysOf [x] = [key] := by simp [keysOf, named]
      rw [one, List.nodup_append]
      refine ⟨distinct, List.nodup_singleton key, ?_⟩
      intro a before b here
      rw [List.mem_singleton.mp here]
      rintro rfl
      exact apart before
  · rw [placed]
    have keys : keysOf (front ++ x :: back) = keysOf (front ++ old :: back) := by
      simp only [keysOf, List.filterMap_append, List.filterMap_cons, same]
    refine ⟨keys ▸ distinct, ?_⟩
    have moved : (front ++ x :: back).Perm (front ++ back ++ [x]) := by
      rw [List.append_assoc]
      exact (List.perm_append_singleton x back).symm.append_left front
    have dropped : (front ++ back).Sublist (front ++ old :: back) :=
      (List.sublist_cons_self old back).append_left front
    exact moved.subperm.trans (dropped.append_right [x]).subperm

theorem collapse_distinct (requests : List PutRequest) :
    (keysOf (collapse requests)).Nodup ∧ (collapse requests).Subperm requests := by
  induction requests using List.reverseRecOn with
  | nil => exact ⟨List.nodup_nil, List.Subperm.refl _⟩
  | append_singleton requests x ih =>
    obtain ⟨distinct, part⟩ := ih
    rw [collapse_concat]
    have placed := placeRequest_distinct (x := x) distinct
    refine ⟨placed.1, placed.2.trans ?_⟩
    exact (List.subperm_append_right [x]).mpr part

end Collapse

/-- The items of a table by their keys. -/
def Contents := String → Option Item

namespace Contents

@[ext] theorem ext {a b : Contents} (h : ∀ key, a key = b key) : a = b := funext h

/-- A put replaces the item with its key; without a key it changes nothing. -/
def put (contents : Contents) (r : PutRequest) : Contents := fun key =>
  if r.key? = some key then some r.item else contents key

def putAll (contents : Contents) (requests : List PutRequest) : Contents :=
  requests.foldl put contents

variable (contents : Contents) (requests : List PutRequest)

@[simp] theorem putAll_nil : contents.putAll [] = contents := rfl

theorem putAll_append (front back : List PutRequest) :
    contents.putAll (front ++ back) = (contents.putAll front).putAll back :=
  List.foldl_append

theorem putAll_apply (key : String) :
    contents.putAll requests key =
      ((lastPut? key requests).map PutRequest.item).or (contents key) := by
  induction requests using List.reverseRecOn with
  | nil => rfl
  | append_singleton requests r ih =>
    have step : contents.putAll (requests ++ [r]) key =
        if r.key? = some key then some r.item else contents.putAll requests key := by
      rw [putAll_append]
      rfl
    rw [step, lastPut?_concat, ih]
    by_cases named : r.key? = some key
    · rw [if_pos named, if_pos named]
      rfl
    · rw [if_neg named, if_neg named]

end Contents

end Intake.Cloud
