import Intake.Proofs.Decoder.Reading

set_option autoImplicit false

/-!
The members of a record by their names. A member that the record knows may come once; what is read
of it is what its text means, and its default if there is no such member.
-/

namespace Intake

open Intake.Json Intake.Decoder

namespace Json

def textsOf (name : String) (pairs : List (String × List Char)) : List (List Char) :=
  (pairs.filter (·.1 = name)).map (·.2)

/-- What the members of a name mean: there is one, or none and a default takes its place. -/
inductive IsMember {α : Type} (means : List Char → α → Prop) (default : α) :
    List (List Char) → α → Prop where
  | absent : IsMember means default [] default
  | single {text : List Char} {a : α} (meaning : means text a) : IsMember means default [text] a

theorem textsOf_cons (name key : String) (text : List Char) (pairs : List (String × List Char)) :
    textsOf name ((key, text) :: pairs) =
      if key = name then text :: textsOf name pairs else textsOf name pairs := by
  by_cases same : key = name <;> simp [textsOf, same]

end Json

namespace Decoder

variable {α : Type} {read : List Char → Option α} {name : String}
  {pairs : List (String × List Char)}

private theorem slotOf_some (a : α) :
    slotOf read name (some a) pairs = if textsOf name pairs = [] then some (some a) else none := by
  induction pairs with
  | nil => rfl
  | cons pair pairs ih =>
    obtain ⟨key, text⟩ := pair
    rw [slotOf, textsOf_cons]
    by_cases same : key = name
    · simp [same]
    · rw [if_neg same, if_neg same, ih]

theorem slotOf_none_iff {means : List Char → α → Prop} {default : α}
    (agree : ∀ pair ∈ pairs, ∀ a, read pair.2 = some a ↔ means pair.2 a) (a : α) :
    (slotOf read name none pairs).map (·.getD default) = some a ↔
      IsMember means default (textsOf name pairs) a := by
  induction pairs with
  | nil =>
    constructor
    · intro same
      rw [← Option.some.inj same]
      exact .absent
    · rintro ⟨⟩
      rfl
  | cons pair pairs ih =>
    obtain ⟨key, text⟩ := pair
    obtain ⟨here, others⟩ := List.forall_mem_cons.mp agree
    rw [slotOf, textsOf_cons]
    by_cases same : key = name
    · rw [if_pos same, if_pos same]
      simp only [slotOf_some]
      constructor
      · intro found
        obtain ⟨slot, read_, made⟩ := Option.map_eq_some_iff.mp found
        obtain ⟨b, meant, alone⟩ := Option.bind_eq_some_iff.mp read_
        split at alone
        next empty =>
          obtain rfl := Option.some.inj alone
          obtain rfl : b = a := made
          rw [empty]
          exact .single ((here b).mp meant)
        next => simp at alone
      · generalize textsOf name pairs = more
        rintro ⟨⟩
        next meaning => simp [(here a).mpr meaning]
    · rw [if_neg same, if_neg same]
      exact ih others

theorem slotOf_none_eq_some_iff (a : α) : slotOf read name none pairs = some (some a) ↔
    ∃ text, textsOf name pairs = [text] ∧ read text = some a := by
  induction pairs with
  | nil => simp [slotOf, textsOf]
  | cons pair pairs ih =>
    obtain ⟨key, text⟩ := pair
    rw [slotOf, textsOf_cons]
    by_cases same : key = name
    · rw [if_pos same, if_pos same]
      simp only [slotOf_some, Option.bind_eq_some_iff, List.cons.injEq]
      constructor
      · rintro ⟨b, meant, alone⟩
        split at alone
        next empty => exact ⟨text, ⟨rfl, empty⟩, meant.trans (Option.some.inj alone)⟩
        next => simp at alone
      · rintro ⟨_, ⟨rfl, empty⟩, meant⟩
        exact ⟨a, meant, if_pos empty⟩
    · rw [if_neg same, if_neg same]
      exact ih

section Pairs

variable {β : Type} {render : β → List Char} {ms : List (MemberText β)}

/-- A member and the pair that it is read as: its name and the text of its value. -/
def IsPairOf (render : β → List Char) (m : MemberText β) (pair : String × List Char) : Prop :=
  Glyph.text? m.name = some pair.1 ∧ render m.slot.value = pair.2

private theorem isPairOf_iff (m : MemberText β) (pair : String × List Char) :
    ((Glyph.text? m.name).map fun key => (key, render m.slot.value)) = some pair ↔
      IsPairOf render m pair := by
  rw [Option.map_eq_some_iff]
  constructor
  · rintro ⟨key, named, rfl⟩
    exact ⟨named, rfl⟩
  · rintro ⟨named, text⟩
    exact ⟨pair.1, named, Prod.ext rfl text⟩

private theorem pairsOf_eq_some_iff :
    pairsOf render ms = some pairs ↔ List.Forall₂ (IsPairOf render) ms pairs := by
  rw [pairsOf, mapM_eq_some_iff]
  simp only [isPairOf_iff]

theorem exists_of_mem_pairsOf (named : pairsOf render ms = some pairs) :
    ∀ pair ∈ pairs, ∃ m ∈ ms, IsPairOf render m pair :=
  exists_of_mem_forall₂ (pairsOf_eq_some_iff.mp named)

theorem isSome_pairsOf : (pairsOf render ms).isSome ↔ ∀ m ∈ ms, (Glyph.text? m.name).isSome := by
  induction ms with
  | nil => simp [pairsOf]
  | cons m ms ih =>
    rw [pairsOf_cons, List.forall_mem_cons, ← ih]
    cases Glyph.text? m.name with
    | none => simp
    | some key => cases pairsOf render ms <;> simp

theorem textsOf_pairsOf (named : pairsOf render ms = some pairs) (name : String) :
    textsOf name pairs = (ms.filter fun m => Glyph.text? m.name = some name).map
      fun m => render m.slot.value := by
  have each := pairsOf_eq_some_iff.mp named
  clear named
  induction each with
  | nil => rfl
  | @cons m pair ms pairs here _ ih =>
    obtain ⟨key, text⟩ := pair
    obtain ⟨known, value⟩ := here
    rw [textsOf_cons, ih, List.filter_cons, known]
    by_cases same : key = name
    · simp [same, value]
    · simp [same]

end Pairs

end Decoder

end Intake
