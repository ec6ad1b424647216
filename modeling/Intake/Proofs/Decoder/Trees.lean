import Intake.Decoder
import Intake.Proofs.Dictionary
import Intake.Proofs.Json.Layout
import Mathlib.Logic.Function.Basic

set_option autoImplicit false

/-!
Records that are taken out of values. In a value that is tidy a name stands once, so it does not matter
in which order the members come: each member of the record is looked up by its name.
-/

namespace Intake

open Intake.Json

namespace Json

variable {name other : String} {value : Json} {front back : List (String × Json)}

private theorem member?_cons (member : String × Json) (members : List (String × Json))
    (name : String) : member? (member :: members) name =
      (member? members name).or (if member.1 = name then some member.2 else none) := by
  simp only [member?, List.reverse_cons, List.find?_append]
  cases members.reverse.find? (·.1 = name) with
  | some e => rfl
  | none => by_cases same : member.1 = name <;> simp [same]

private theorem member?_eq_none (absent : ∀ e ∈ front, e.1 ≠ name) : member? front name = none := by
  simpa [member?] using absent

theorem member?_last (last : ∀ e ∈ back, e.1 ≠ name) :
    member? (front ++ (name, value) :: back) name = some value := by
  induction front with
  | nil => simp [member?_cons, member?_eq_none last]
  | cons e front ih => rw [List.cons_append, member?_cons, ih, Option.some_or]

theorem member?_of_ne (different : name ≠ other) :
    member? (front ++ (name, value) :: back) other = member? (front ++ back) other := by
  induction front with
  | nil => simp [member?_cons, different]
  | cons e front ih => rw [List.cons_append, List.cons_append, member?_cons, member?_cons, ih]

private theorem get?_tidyMembers (members : List (String × Json)) (name : String) :
    (tidyMembers members).get? name = (member? members name).map tidy := by
  induction members with
  | nil => rfl
  | cons member members ih =>
    obtain ⟨key, value⟩ := member
    rw [member?_cons, tidyMembers]
    by_cases same : key = name
    · subst same
      cases later : member? members key with
      | some found =>
        rw [later] at ih
        simp [ih]
      | none =>
        rw [later] at ih
        simp [ih]
    · have step : (if ((tidyMembers members).get? key).isSome then tidyMembers members
          else (tidyMembers members).insert key (tidy value)).get? name =
          (tidyMembers members).get? name := by
        split
        · rfl
        · rw [Dictionary.get?_insert, if_neg (Ne.symm same)]
      simp [step, ih, same]

private theorem exists_of_map_eq_ok {ε α β : Type} {f : α → β} {x : Except ε α} {b : β}
    (made : x.map f = .ok b) : ∃ a, x = .ok a ∧ f a = b := by
  cases x with
  | error e => cases made
  | ok a => exact ⟨a, rfl, Except.ok.inj made⟩

theorem tidyItems_eq_map (items : List Json) : tidyItems items = items.map tidy := by
  induction items with
  | nil => rfl
  | cons item items ih => rw [tidyItems, ih, List.map_cons]

end Json

namespace Decoder

namespace Fields

variable {ν σ : Type} {find : String → Option Json}

/-- The members of a record of which some are held and the others are looked up by their names. -/
def ofLookup (find : String → Option Json) : {ν σ : Type} → Fields ν σ → σ → Option ν
  | _, _, .nil, _ => some ()
  | _, _, .cons name d fallback rest, (slot, slots) =>
    (slot <|> (find name).elim (fallback <|> d.absent) fun value => (d.ofTree value).toOption).bind
      fun a => (rest.ofLookup find slots).map (a, ·)

/-- No member of the record has a fallback. -/
def IsStrict : {ν σ : Type} → Fields ν σ → Prop
  | _, _, .nil => True
  | _, _, .cons _ _ fallback rest => fallback = none ∧ rest.IsStrict

def Holds (name : String) : {ν σ : Type} → Fields ν σ → σ → Prop
  | _, _, .nil, _ => False
  | _, _, .cons own _ _ rest, (slot, slots) =>
    (own = name ∧ slot.isSome = true) ∨ rest.Holds name slots

private theorem not_holds_blank (fields : Fields ν σ) (name : String) :
    ¬fields.Holds name fields.blank := by
  induction fields with
  | nil => exact id
  | cons own d fallback rest ih => simpa [Holds, blank] using ih

private theorem ofLookup_congr {fields : Fields ν σ} {find' : String → Option Json}
    (same : ∀ name ∈ fields.names, find name = find' name) (slots : σ) :
    fields.ofLookup find slots = fields.ofLookup find' slots := by
  induction fields with
  | nil => rfl
  | cons name d fallback rest ih =>
    obtain ⟨here, others⟩ := List.forall_mem_cons.mp same
    rw [ofLookup, ofLookup, here, ih others]

private theorem ofLookup_none (fields : Fields ν σ) (slots : σ) :
    fields.ofLookup (fun _ => none) slots = (fields.complete slots).toOption := by
  induction fields with
  | nil => rfl
  | cons name d fallback rest ih =>
    obtain ⟨slot, slots⟩ := slots
    rw [ofLookup, complete, ih, Option.elim_none]
    cases slot <|> fallback <|> d.absent with
    | none => rfl
    | some a => cases complete rest slots <;> rfl

/-- A reader of a member makes of it what looking it up makes, and holds it from then on. -/
structure LooksUp (fields : Fields ν σ) (find : String → Option Json) (key : String) (value : Json)
    (slots : σ) (read : TreeReader σ) : Prop where
  holds {made : σ} (result : read value = .ok made) {name : String}
    (there : fields.Holds name made) : name = key ∨ fields.Holds name slots
  made : fields.ofLookup (Function.update find key (some value)) slots =
    (read value).toOption.bind (fields.ofLookup find)

section Cons

variable {α : Type} {own key : String} {d : Decoder α} {fallback : Option α} {rest : Fields ν σ}
  {value : Json} {slots : σ}

private theorem looksUp_here (alone : key ∉ rest.names) :
    (cons key d fallback rest).LooksUp find key value (none, slots)
      ((fun a => (some a, slots)) <$> d.ofTree) where
  holds {made} result name there := by
    obtain ⟨a, -, rfl⟩ := exists_of_map_eq_ok result
    rcases there with ⟨named, -⟩ | there
    · exact .inl named.symm
    · exact .inr (.inr there)
  made := by
    have others : rest.ofLookup (Function.update find key (some value)) slots =
        rest.ofLookup find slots := ofLookup_congr (fun name there =>
      Function.update_of_ne (ne_of_mem_of_not_mem there alone) _ _) slots
    have read : ((fun a => (some a, slots)) <$> d.ofTree : TreeReader _) value =
        (d.ofTree value).map fun a => (some a, slots) := rfl
    rw [read, ofLookup, others, Function.update_self, toOption_map, Option.bind_map]
    rfl

private theorem LooksUp.behind {inner : TreeReader σ}
    (looksUp : rest.LooksUp find key value slots inner) (different : key ≠ own) (slot : Option α) :
    (cons own d fallback rest).LooksUp find key value (slot, slots)
      ((fun s => (slot, s)) <$> inner) where
  holds {made} result name there := by
    obtain ⟨s, read, rfl⟩ := exists_of_map_eq_ok result
    rcases there with here | there
    · exact .inr (.inl here)
    · exact (looksUp.holds read there).imp id .inr
  made := by
    have read : ((fun s => (slot, s)) <$> inner : TreeReader _) value =
        (inner value).map fun s => (slot, s) := rfl
    rw [read, ofLookup, looksUp.made, Function.update_of_ne (Ne.symm different), toOption_map,
      Option.bind_map]
    cases inner value with
    | error m =>
      cases slot <|> (find own).elim (fallback <|> d.absent) fun value =>
        (d.ofTree value).toOption <;> rfl
    | ok s => rfl

end Cons

private theorem member_ofTree {fields : Fields ν σ} (distinct : fields.names.Nodup)
    (find : String → Option Json) (key : String) (value : Json) (slots : σ) :
    match fields.member (F := TreeReader) (fun d => d.ofTree) key slots with
    | .unknown => key ∉ fields.names
    | .repeated => fields.Holds key slots
    | .fresh read => fields.LooksUp find key value slots read := by
  induction fields with
  | nil => exact List.not_mem_nil
  | cons own d fallback rest ih =>
    obtain ⟨slot, slots⟩ := slots
    obtain ⟨alone, distinct⟩ := List.nodup_cons.mp distinct
    by_cases same : key = own
    · subst same
      simp only [member, if_true]
      cases slot with
      | some a => exact .inl ⟨rfl, rfl⟩
      | none => exact looksUp_here alone
    · have behind := ih distinct slots
      simp only [member, if_neg same]
      cases found : rest.member (F := TreeReader) (fun d => d.ofTree) key slots with
      | unknown =>
        rw [found] at behind
        exact mt List.mem_cons.mp (not_or.mpr ⟨same, behind⟩)
      | repeated =>
        rw [found] at behind
        exact .inr behind
      | fresh inner =>
        rw [found] at behind
        exact LooksUp.behind behind same slot

private theorem toOption_ofItems {fields : Fields ν σ} (strict : fields.IsStrict)
    (distinct : fields.names.Nodup) (expected : String) (index : Nat) (values : List Json) :
    (fields.ofItems expected index values).toOption =
      if fields.names.length ≤ values.length then
        (fields.ofLookup (fun name => (fields.names.zip values).lookup name) fields.blank).map
          fun value => (value, values.drop fields.names.length)
      else none := by
  induction fields generalizing index values with
  | nil => simp [ofItems, names, ofLookup, Except.toOption]
  | cons name d fallback rest ih =>
    obtain ⟨rfl, strict⟩ := strict
    obtain ⟨alone, distinct⟩ := List.nodup_cons.mp distinct
    cases values with
    | nil => rfl
    | cons value values =>
      have others : rest.ofLookup
            (fun other => ((name, value) :: rest.names.zip values).lookup other) rest.blank =
          rest.ofLookup (fun other => (rest.names.zip values).lookup other) rest.blank :=
        ofLookup_congr (fun other there => by
          rw [Dictionary.lookup_entry_cons, if_neg (ne_of_mem_of_not_mem there alone)]) rest.blank
      have here : ((name, value) :: rest.names.zip values).lookup name = some value := by
        rw [Dictionary.lookup_entry_cons, if_pos rfl]
      simp only [ofItems, toOption_bind, ih strict distinct, names, List.length_cons,
        Nat.add_le_add_iff_right, List.zip_cons_cons, ofLookup, blank, others, here, List.drop_succ_cons]
      rw [Option.elim_some]
      split
      · cases d.ofTree value with
        | error m => rfl
        | ok a =>
          cases rest.ofLookup (fun other => (rest.names.zip values).lookup other) rest.blank <;> rfl
      · cases d.ofTree value <;> rfl

end Fields

section Records

variable {α ν σ : Type} {form : Form} {fields : Fields ν σ} {make : ν → Except Mismatch α}

private theorem toOption_membersOfTree (openForm : form.isClosed = false)
    (distinct : fields.names.Nodup)
    {entries : List (String × Json)} (once : (entries.map Prod.fst).Nodup) (slots : σ)
    (fresh : ∀ e ∈ entries, ¬fields.Holds e.1 slots) :
    (membersOfTree form fields slots entries).toOption =
      fields.ofLookup (fun name => entries.lookup name) slots := by
  induction entries generalizing slots with
  | nil => exact (fields.ofLookup_none slots).symm
  | cons entry entries ih =>
    obtain ⟨key, value⟩ := entry
    obtain ⟨alone, once⟩ := List.nodup_cons.mp once
    obtain ⟨here, later⟩ := List.forall_mem_cons.mp fresh
    have lookup : (fun name => ((key, value) :: entries).lookup name) =
        Function.update (fun name => entries.lookup name) key (some value) := by
      funext name
      rw [Dictionary.lookup_entry_cons, Function.update_apply]
    have step := Fields.member_ofTree distinct (fun name => entries.lookup name) key value slots
    rw [membersOfTree, lookup]
    cases found : fields.member (F := TreeReader) (fun d => d.ofTree) key slots with
    | unknown =>
      rw [found] at step
      simp only [openForm, Bool.false_eq_true, if_false]
      rw [ih once slots later]
      exact Fields.ofLookup_congr (fun name there =>
        (Function.update_of_ne (ne_of_mem_of_not_mem there step) _ _).symm) slots
    | repeated =>
      rw [found] at step
      exact absurd step here
    | fresh read =>
      rw [found] at step
      rw [step.made]
      simp only [toOption_bind]
      cases result : read value with
      | error m => rfl
      | ok made =>
        refine ih once made fun e there held => ?_
        rcases step.holds result held with same | before
        · exact alone (List.mem_map.mpr ⟨e, there, same⟩)
        · exact later e there before

theorem toOption_ofTree_object (openForm : form.isClosed = false) (distinct : fields.names.Nodup)
    (members : List (String × Json)) :
    ((record form fields make).ofTree (tidy (.object members))).toOption =
      (fields.ofLookup (fun name => (member? members name).map tidy) fields.blank).bind
        fun value => (make value).toOption := by
  have read := toOption_membersOfTree openForm distinct (tidyMembers members).keys_nodup fields.blank
    fun e _ => fields.not_holds_blank e.1
  have lookup : (fun name => (tidyMembers members).entries.lookup name) =
      fun name => (member? members name).map tidy := funext (get?_tidyMembers members)
  rw [lookup] at read
  rw [← read, tidy]
  exact toOption_bind _ _

theorem toOption_ofTree_array (strict : fields.IsStrict) (distinct : fields.names.Nodup)
    (values : List Json) :
    ((record form fields make).ofTree (.array values)).toOption =
      if values.length = fields.names.length then
        (fields.ofLookup (fun name => (fields.names.zip values).lookup name) fields.blank).bind
          fun value => (make value).toOption
      else none := by
  simp only [record, toOption_bind, Fields.toOption_ofItems strict distinct]
  generalize fields.ofLookup (fun name => (fields.names.zip values).lookup name) fields.blank = taken
  rcases Nat.lt_trichotomy values.length fields.names.length with few | same | many
  · rw [if_neg (Nat.not_le_of_lt few), if_neg (Nat.ne_of_lt few)]
    rfl
  · have empty : values.drop fields.names.length = [] := List.drop_eq_nil_iff.mpr same.le
    rw [if_pos same.ge, if_pos same, empty, Option.bind_map]
    refine congrArg _ (funext fun value => ?_)
    cases result : make value <;> simp [result, Except.toOption, pure, Except.pure]
  · have left : values.drop fields.names.length ≠ [] := by simpa using many
    rw [if_pos many.le, if_neg (Nat.ne_of_gt many), Option.bind_map, Option.bind_eq_none_iff]
    intro value _
    cases result : make value <;> simp [result, left, Except.toOption]

end Records

end Decoder

end Intake
