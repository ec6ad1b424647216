import Intake.Dictionary
import Mathlib.Data.List.Basic
import Mathlib.Data.List.Induction
import Mathlib.Data.List.Sort
import Mathlib.Order.Basic
import Mathlib.Data.String.Basic

set_option autoImplicit false

/-!
Laws of dictionaries: what is found under a key after an insertion, where an entry of a list comes to
stand, and that a dictionary is determined by its entries in any order.
-/

namespace Intake.Dictionary

variable {α : Type}

private theorem ext {a b : Dictionary α} (h : a.entries = b.entries) : a = b := by
  cases a
  cases b
  cases h
  rfl

theorem lookup_entry_cons (key : String) (entry : String × α) (rest : List (String × α)) :
    (entry :: rest).lookup key = if key = entry.1 then some entry.2 else rest.lookup key := by
  obtain ⟨name, value⟩ := entry
  by_cases same : key = name
  · simp [same]
  · have test : (key == name) = false := beq_eq_false_iff_ne.mpr same
    simp [List.lookup_cons, test, same]

private theorem lookup_insertSorted (key other : String) (value : α) (entries : List (String × α)) :
    (insertSorted key value entries).lookup other =
      if other = key then some value else entries.lookup other := by
  induction entries with
  | nil => rw [insertSorted, lookup_entry_cons]
  | cons entry rest ih =>
    rw [insertSorted]
    split
    · rw [lookup_entry_cons]
    · split
      next equal =>
        rw [lookup_entry_cons, lookup_entry_cons]
        by_cases same : other = key
        · rw [if_pos same, if_pos same]
        · rw [if_neg same, if_neg same, if_neg (equal ▸ same)]
      next different =>
        rw [lookup_entry_cons, lookup_entry_cons, ih]
        by_cases same : other = entry.1
        · have distinct : other ≠ key := fun h => different (h.symm.trans same)
          rw [if_pos same, if_neg distinct, if_pos same]
        · rw [if_neg same, if_neg same]

theorem get?_insert (d : Dictionary α) (key other : String) (value : α) :
    (d.insert key value).get? other = if other = key then some value else d.get? other :=
  lookup_insertSorted key other value d.entries

private theorem lookup_filter_ne (key other : String) (entries : List (String × α)) :
    (entries.filter (·.1 ≠ key)).lookup other =
      if other = key then none else entries.lookup other := by
  induction entries with
  | nil => simp
  | cons entry rest ih =>
    rw [List.filter_cons, lookup_entry_cons]
    by_cases gone : entry.1 = key
    · rw [if_neg (by simp [gone]), ih, gone]
      by_cases same : other = key
      · rw [if_pos same, if_pos same]
      · rw [if_neg same, if_neg same, if_neg same]
    · rw [if_pos (by simp [gone]), lookup_entry_cons, ih]
      by_cases here : other = entry.1
      · rw [if_pos here, if_pos here, if_neg (here ▸ gone)]
      · rw [if_neg here, if_neg here]

theorem get?_erase (d : Dictionary α) (key other : String) :
    (d.erase key).get? other = if other = key then none else d.get? other :=
  lookup_filter_ne key other d.entries

@[simp] theorem get?_empty (key : String) : (empty : Dictionary α).get? key = none := rfl

@[simp] theorem get?_insert_self (d : Dictionary α) (key : String) (value : α) :
    (d.insert key value).get? key = some value := by
  rw [get?_insert, if_pos rfl]

def Each (d : Dictionary α) (holds : α → Prop) : Prop :=
  ∀ key value, d.get? key = some value → holds value

section Each

variable {d : Dictionary α} {holds : α → Prop}

theorem Each.imp {weaker : α → Prop} (each : d.Each holds)
    (follows : ∀ value, holds value → weaker value) : d.Each weaker := fun key value there =>
  follows value (each key value there)

theorem Each.insert (each : d.Each holds) (key : String) {value : α} (own : holds value) :
    (d.insert key value).Each holds := by
  intro other found there
  rw [get?_insert] at there
  split at there
  · rwa [← Option.some.inj there]
  · exact each other found there

theorem each_erase {key : String}
    (others : ∀ other value, other ≠ key → d.get? other = some value → holds value) :
    (d.erase key).Each holds := by
  intro other found there
  rw [get?_erase] at there
  split at there
  · simp at there
  next different => exact others other found different there

theorem Each.erase (each : d.Each holds) (key : String) : (d.erase key).Each holds :=
  each_erase fun other value _ there => each other value there

end Each

private theorem insertSorted_perm {key : String} (value : α) {entries : List (String × α)}
    (fresh : ∀ e ∈ entries, key ≠ e.1) :
    (insertSorted key value entries).Perm ((key, value) :: entries) := by
  induction entries with
  | nil => exact .refl _
  | cons entry rest ih =>
    obtain ⟨first, others⟩ := List.forall_mem_cons.mp fresh
    rw [insertSorted, if_neg first]
    split
    · exact .refl _
    · exact ((ih others).cons entry).trans (.swap _ _ rest)

theorem keys_nodup (d : Dictionary α) : (d.entries.map Prod.fst).Nodup := by
  have ascending := d.ascending
  rw [List.Nodup, List.pairwise_map]
  exact ascending.imp fun before => ne_of_lt before

theorem ofList_concat (entries : List (String × α)) (entry : String × α) :
    ofList (entries ++ [entry]) = (ofList entries).insert entry.1 entry.2 := by
  rw [ofList, List.foldl_append]
  rfl

private theorem entries_ofList_perm {entries : List (String × α)}
    (distinct : (entries.map Prod.fst).Nodup) : (ofList entries).entries.Perm entries := by
  induction entries using List.reverseRecOn with
  | nil => exact .refl _
  | append_singleton entries entry ih =>
    rw [List.map_append, List.nodup_append] at distinct
    obtain ⟨before, -, apart⟩ := distinct
    have kept := ih before
    have fresh : ∀ e ∈ (ofList entries).entries, entry.1 ≠ e.1 := by
      intro e there
      have listed := List.mem_map_of_mem (f := Prod.fst) (kept.mem_iff.mp there)
      exact (apart e.1 listed entry.1 (List.mem_singleton_self _)).symm
    have added : ((ofList entries).insert entry.1 entry.2).entries.Perm
        (entry :: (ofList entries).entries) := insertSorted_perm entry.2 fresh
    rw [ofList_concat]
    exact (added.trans (kept.cons entry)).trans (List.perm_append_singleton entry entries).symm

theorem ofList_of_perm {entries : List (String × α)} {d : Dictionary α}
    (perm : entries.Perm d.entries) : ofList entries = d := by
  have distinct : (entries.map Prod.fst).Nodup :=
    (perm.map Prod.fst).nodup_iff.mpr d.keys_nodup
  have same : (ofList entries).entries.Perm d.entries := (entries_ofList_perm distinct).trans perm
  refine ext (same.eq_of_pairwise ?_ (ofList entries).ascending d.ascending)
  intro a b _ _ before behind
  exact absurd behind (not_lt_of_gt before)

private theorem exists_insertSorted (key : String) (entries : List (String × α)) :
    ∃ before after, ∀ value, insertSorted key value entries = before ++ (key, value) :: after := by
  induction entries with
  | nil => exact ⟨[], [], fun _ => rfl⟩
  | cons entry rest ih =>
    simp only [insertSorted]
    split
    · exact ⟨[], entry :: rest, fun _ => rfl⟩
    · split
      · exact ⟨[], rest, fun _ => rfl⟩
      · obtain ⟨before, after, place⟩ := ih
        exact ⟨entry :: before, after, fun value => by rw [place, List.cons_append]⟩

private theorem exists_insertSorted_of_ne {key other : String} (different : key ≠ other) (value : α)
    (before after : List (String × α)) :
    ∃ front back, ∀ x,
      insertSorted key value (before ++ (other, x) :: after) = front ++ (other, x) :: back := by
  induction before with
  | nil =>
    simp only [List.nil_append, insertSorted, if_neg different]
    split
    · exact ⟨[(key, value)], after, fun _ => rfl⟩
    · exact ⟨[], insertSorted key value after, fun _ => rfl⟩
  | cons entry rest ih =>
    simp only [List.cons_append, insertSorted]
    split
    · exact ⟨(key, value) :: entry :: rest, after, fun _ => rfl⟩
    · split
      · exact ⟨(key, value) :: rest, after, fun _ => rfl⟩
      · obtain ⟨front, back, place⟩ := ih
        exact ⟨entry :: front, back, fun x => by rw [place, List.cons_append]⟩

private theorem insertSorted_replace {key : String} {before : List (String × α)}
    (smaller : ∀ e ∈ before, e.1 < key) (value x : α) (after : List (String × α)) :
    insertSorted key value (before ++ (key, x) :: after) = before ++ (key, value) :: after := by
  induction before with
  | nil => simp [insertSorted]
  | cons entry rest ih =>
    obtain ⟨less, others⟩ := List.forall_mem_cons.mp smaller
    rw [List.cons_append, insertSorted, if_neg (not_lt_of_gt less), if_neg (ne_of_gt less),
      ih others, List.cons_append]

theorem ofList_cases (front back : List (String × α)) (key : String) :
    (∃ d, ∀ x, ofList (front ++ (key, x) :: back) = d) ∨
      ∃ before after, ∀ x,
        (ofList (front ++ (key, x) :: back)).entries = before ++ (key, x) :: after := by
  induction back using List.reverseRecOn with
  | nil =>
    obtain ⟨before, after, place⟩ := exists_insertSorted key (ofList front).entries
    refine .inr ⟨before, after, fun x => ?_⟩
    rw [ofList_concat]
    exact place x
  | append_singleton back entry ih =>
    have last : ∀ x, ofList (front ++ (key, x) :: (back ++ [entry])) =
        (ofList (front ++ (key, x) :: back)).insert entry.1 entry.2 := by
      intro x
      rw [← ofList_concat, List.append_assoc, List.cons_append]
    simp only [last]
    obtain ⟨d, lost⟩ | ⟨before, after, place⟩ := ih
    · exact .inl ⟨d.insert entry.1 entry.2, fun x => by rw [lost]⟩
    · by_cases same : entry.1 = key
      · have replaced : ∀ x, ((ofList (front ++ (key, x) :: back)).insert entry.1 entry.2).entries =
            before ++ (key, entry.2) :: after := by
          intro x
          have ascending := (ofList (front ++ (key, x) :: back)).ascending
          rw [place, List.pairwise_append] at ascending
          have smaller : ∀ e ∈ before, e.1 < key := fun e there =>
            ascending.2.2 e there _ List.mem_cons_self
          rw [← insertSorted_replace smaller entry.2 x after, ← place, same]
          rfl
        exact .inl ⟨_, fun x => ext ((replaced x).trans (replaced entry.2).symm)⟩
      · obtain ⟨front', back', kept⟩ := exists_insertSorted_of_ne same entry.2 before after
        refine .inr ⟨front', back', fun x => ?_⟩
        rw [← kept, ← place]
        rfl

end Intake.Dictionary
