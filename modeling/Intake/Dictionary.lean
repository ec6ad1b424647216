set_option autoImplicit false

/-!
Values under text keys. The entries stand in ascending order of their keys, so two dictionaries
with the same contents are equal; a later entry under a key replaces the earlier one.
-/

namespace Intake

/-- Entries in strictly ascending order of their keys. -/
structure Dictionary (α : Type) where
  entries : List (String × α)
  ascending : entries.Pairwise (fun a b => a.1 < b.1)

namespace Dictionary

variable {α β : Type}

instance [DecidableEq α] : DecidableEq (Dictionary α) := fun a b =>
  if h : a.entries = b.entries then isTrue (by cases a; cases b; cases h; rfl)
  else isFalse (fun e => h (congrArg entries e))

def empty : Dictionary α := ⟨[], .nil⟩

instance : Inhabited (Dictionary α) := ⟨empty⟩

def insertSorted (key : String) (value : α) : List (String × α) → List (String × α)
  | [] => [(key, value)]
  | entry :: rest =>
    if key < entry.1 then (key, value) :: entry :: rest
    else if key = entry.1 then (key, value) :: rest
    else entry :: insertSorted key value rest

private theorem mem_insertSorted {key : String} {value : α} {entries : List (String × α)}
    {e : String × α} (h : e ∈ insertSorted key value entries) :
    e = (key, value) ∨ e ∈ entries := by
  induction entries with
  | nil => simpa [insertSorted] using h
  | cons entry rest ih =>
    rw [insertSorted] at h
    split at h
    · simpa using h
    · split at h
      · rcases List.mem_cons.1 h with rfl | h
        · exact .inl rfl
        · exact .inr (List.mem_cons_of_mem _ h)
      · rcases List.mem_cons.1 h with rfl | h
        · exact .inr List.mem_cons_self
        · rcases ih h with h | h
          · exact .inl h
          · exact .inr (List.mem_cons_of_mem _ h)

private theorem pairwise_insertSorted {key : String} {value : α} {entries : List (String × α)}
    (h : entries.Pairwise (fun a b => a.1 < b.1)) :
    (insertSorted key value entries).Pairwise (fun a b => a.1 < b.1) := by
  induction entries with
  | nil => simp [insertSorted]
  | cons entry rest ih =>
    obtain ⟨first, others⟩ := List.pairwise_cons.1 h
    rw [insertSorted]
    split
    next before =>
      refine List.pairwise_cons.2 ⟨fun e he => ?_, h⟩
      rcases List.mem_cons.1 he with rfl | he
      · exact before
      · exact String.lt_trans before (first e he)
    next notBefore =>
      split
      next same => exact List.pairwise_cons.2 ⟨fun e he => by simpa [same] using first e he, others⟩
      next different =>
        refine List.pairwise_cons.2 ⟨fun e he => ?_, ih others⟩
        rcases mem_insertSorted he with rfl | he
        · exact Decidable.byContradiction fun notAfter =>
            different (String.le_antisymm (String.not_lt.1 notAfter) (String.not_lt.1 notBefore))
        · exact first e he

def insert (d : Dictionary α) (key : String) (value : α) : Dictionary α :=
  ⟨insertSorted key value d.entries, pairwise_insertSorted d.ascending⟩

/-- The entries of a list; of two under one key the later one stays. -/
def ofList (entries : List (String × α)) : Dictionary α :=
  entries.foldl (fun d entry => d.insert entry.1 entry.2) empty

def get? (d : Dictionary α) (key : String) : Option α := d.entries.lookup key

def erase (d : Dictionary α) (key : String) : Dictionary α :=
  ⟨d.entries.filter (·.1 ≠ key), d.ascending.filter _⟩

def keys (d : Dictionary α) : List String := d.entries.map (·.1)

def values (d : Dictionary α) : List α := d.entries.map (·.2)

def size (d : Dictionary α) : Nat := d.entries.length

def map (f : α → β) (d : Dictionary α) : Dictionary β :=
  ⟨d.entries.map fun e => (e.1, f e.2), List.pairwise_map.2 d.ascending⟩

end Dictionary

end Intake
