import Intake.Proofs.Decoder.Members
import Intake.Proofs.Dictionary
import Intake.Proofs.Json.Printing

set_option autoImplicit false

/-!
Reading what was printed. A decoder gives back the value whose document was printed if it does so for
the values inside: texts and numbers, lists and dictionaries, and records whose members are printed in
their order.
-/

namespace Intake

open Intake.Json Intake.Number

namespace Decoder

variable {α β : Type} {levels : Nat}

/-- The printed document of a value is read as the value, wherever it stands. -/
structure Restores (d : Decoder α) (levels : Nat) (json : Json) (a : α) : Prop where
  plain : IsPlain levels json
  reads : Reads (d.ofText levels) json.print (some a)

theorem Restores.parse_text {d : Decoder α} {json : Json} {a : α}
    (restores : d.Restores maxLevels json a) : (d.parse json.text).toOption = some a := by
  have read := toOption_parse_of_reads restores.reads Blank.none Blank.none
  have text : String.ofList (Blank.none.chars ++ (json.print ++ Blank.none.chars)) = json.text := by
    simp [Blank.none, Json.text]
  rwa [text] at read

theorem restores_json {levels : Nat} {json : Json} (plain : IsPlain levels json) :
    Decoder.json.Restores levels json json := ⟨plain, plain.reads⟩

theorem restores_string (levels : Nat) (s : String) : string.Restores levels (.string s) s where
  plain := .string levels s
  reads := reads_scalar (IsPlain.string levels s).isValue (.string s)
    (fun rest _ => readScalar_string s rest) rfl

theorem restores_parsed (levels : Nat) {expected : String} {rule : String → Except Mismatch α}
    {s : String} {a : α} (accepted : rule s = .ok a) :
    (parsed expected rule).Restores levels (.string s) a where
  plain := .string levels s
  reads := reads_scalar (IsPlain.string levels s).isValue (.string s)
    (fun rest _ => readScalar_string s rest) (congrArg some accepted)

theorem restores_nat (levels : Nat) (name : String) {bits n : Nat} (narrow : bits ≤ 63)
    (small : n < Word.count bits) : (nat name bits).Restores levels (.nat n) n := by
  have wide : Word.count bits ≤ Word.count 63 := Nat.pow_le_pow_right (by decide) narrow
  have plain : IsPlain levels (.nat n) := .int levels (by omega) (by omega)
  have inside : (n : Int) ≤ (Word.count bits - 1 : Nat) := by omega
  refine ⟨plain, ?_⟩
  have whole : Reads ((int name 0 (Word.count bits - 1 : Nat)).ofText levels) (Json.nat n).print
      (some (n : Int)) := by
    refine reads_scalar plain.isValue (.nat n) ?_ ?_
    · intro rest boundary
      exact readScalar_int (by omega) (by omega) boundary
    · simp [Json.nat, inside]
  exact reads_map Int.toNat whole

section Options

variable {d : Decoder α}

private theorem restores_none (d : Decoder α) (levels : Nat) :
    d.option.Restores levels .null none :=
  ⟨.null levels, reads_option_null d levels⟩

private theorem restores_some {json : Json} {a : α} (restores : d.Restores levels json a)
    (other : json.print.head? ≠ some 'n') : d.option.Restores levels json (some a) :=
  ⟨restores.plain, reads_option restores.plain.isValue other restores.reads⟩

theorem restores_optionString (levels : Nat) (s : Option String) :
    string.option.Restores levels (.option .string s) s := by
  cases s with
  | none => exact restores_none string levels
  | some s => exact restores_some (restores_string levels s) (by simp [Json.option, print, printString])

end Options

section Containers

variable {d : Decoder α} {toJson : α → Json}

theorem restores_list {as : List α} (each : ∀ a ∈ as, d.Restores levels (toJson a) a) :
    d.list.Restores (levels + 1) (.list toJson as) as where
  plain := .array (List.forall_mem_map.mpr fun a there => (each a there).plain)
  reads := by
    have inside : ∀ p ∈ (tightArray as).items, Begins (toJson p.value).print ∧
        Reads (d.ofText levels) (toJson p.value).print (some p.value) := by
      intro p there
      obtain ⟨a, member, rfl⟩ := List.mem_map.mp there
      exact ⟨(each a member).plain.isValue.exists_cons, (each a member).reads⟩
    have values : ((tightArray as).items.mapM fun p => some p.value) = some (as.map id) :=
      mapM_map_eq_some fun _ _ => rfl
    have read : Reads (d.list.ofText (levels + 1))
        ((tightArray as).chars fun a => (toJson a).print)
        ((tightArray as).items.mapM fun p => some p.value) := reads_list inside
    rw [values, List.map_id] at read
    rw [print_list]
    exact read

theorem restores_dictionary {entries : Dictionary α}
    (each : ∀ e ∈ entries.entries, d.Restores levels (toJson e.2) e.2) :
    d.dictionary.Restores (levels + 1) (.dictionary toJson entries) entries where
  plain := .object (List.forall_mem_map.mpr fun e there => (each e there).plain)
  reads := by
    have inside : ∀ m ∈ (tightObject entries.entries).members,
        Reads (d.ofText levels) (toJson m.slot.value).print (some m.slot.value) :=
      List.forall_mem_map.mpr fun e there => (each e there).reads
    have values : ((tightObject entries.entries).members.mapM fun m =>
        (Glyph.text? m.name).bind fun key => (some m.slot.value).map (key, ·)) =
          some (entries.entries.map id) := by
      refine mapM_map_eq_some fun e _ => ?_
      rw [text?_glyphsOf]
      rfl
    have read : Reads (d.dictionary.ofText (levels + 1))
        ((tightObject entries.entries).chars fun a => (toJson a).print)
        (((tightObject entries.entries).members.mapM fun m =>
          (Glyph.text? m.name).bind fun key => (some m.slot.value).map (key, ·)).map
            Dictionary.ofList) := reads_dictionary inside
    rw [values, List.map_id, Option.map_some, Dictionary.ofList_of_perm (.refl _)] at read
    rw [Json.dictionary, print_members]
    exact read

end Containers

namespace Fields

variable {ν σ : Type}

/-- The members of a record are printed in their order, and each is restored. -/
def Restores (levels : Nat) : {ν σ : Type} → Fields ν σ → List (String × Json) → ν → Prop
  | _, _, .nil, members, _ => members = []
  | _, _, .cons name d _ rest, members, (a, others) => ∃ json behind,
      members = (name, json) :: behind ∧ d.Restores levels json a ∧ rest.Restores levels behind others

theorem restores_nil (levels : Nat) : Fields.nil.Restores levels [] () := rfl

theorem restores_cons {name : String} {d : Decoder α} {fallback : Option α} {rest : Fields ν σ}
    {json : Json} {a : α} {behind : List (String × Json)} {others : ν}
    (here : d.Restores levels json a) (later : rest.Restores levels behind others) :
    (Fields.cons name d fallback rest).Restores levels ((name, json) :: behind) (a, others) :=
  ⟨json, behind, rfl, here, later⟩

private theorem Restores.names {fields : Fields ν σ} {members : List (String × Json)} {value : ν}
    (restores : fields.Restores levels members value) : members.map Prod.fst = fields.names := by
  induction fields generalizing members with
  | nil =>
    obtain rfl : members = [] := restores
    rfl
  | cons name d fallback rest ih =>
    obtain ⟨json, behind, rfl, -, others⟩ := restores
    rw [List.map_cons, ih others]
    rfl

private theorem Restores.plain {fields : Fields ν σ} {members : List (String × Json)} {value : ν}
    (restores : fields.Restores levels members value) : ∀ m ∈ members, IsPlain levels m.2 := by
  induction fields generalizing members with
  | nil =>
    obtain rfl : members = [] := restores
    simp
  | cons name d fallback rest ih =>
    obtain ⟨json, behind, rfl, here, others⟩ := restores
    exact List.forall_mem_cons.mpr ⟨here.plain, ih others⟩

private theorem isLocal_of_notMem {fields : Fields ν σ} {key : String}
    (foreign : key ∉ fields.names) (text : List Char) : fields.IsLocal levels key text := by
  induction fields with
  | nil => trivial
  | cons name d fallback rest ih =>
    obtain ⟨other, foreign⟩ := not_or.mp (mt List.mem_cons.mpr foreign)
    exact ⟨fun same => absurd same other, ih foreign⟩

private theorem Restores.isLocal {fields : Fields ν σ} (distinct : fields.names.Nodup)
    {members : List (String × Json)} {value : ν}
    (restores : fields.Restores levels members value) :
    ∀ m ∈ members, fields.IsLocal levels m.1 m.2.print := by
  induction fields generalizing members with
  | nil =>
    obtain rfl : members = [] := restores
    simp
  | cons name d fallback rest ih =>
    obtain ⟨json, behind, rfl, here, others⟩ := restores
    obtain ⟨fresh, distinct⟩ := List.nodup_cons.mp distinct
    refine List.forall_mem_cons.mpr ⟨?_, ?_⟩
    · exact ⟨fun _ => (reading_of_reads here.reads).2, isLocal_of_notMem fresh _⟩
    · intro m there
      refine ⟨fun same => absurd ?_ fresh, ih distinct others m there⟩
      rw [← same, ← others.names]
      exact List.mem_map_of_mem there

private theorem Restores.exists_slots {fields : Fields ν σ} (distinct : fields.names.Nodup)
    {members : List (String × Json)} {value : ν}
    (restores : fields.Restores levels members value) :
    ∃ slots, fields.slotsOf levels fields.blank (members.map fun m => (m.1, m.2.print)) =
      some slots ∧ fields.complete slots = .ok value := by
  induction fields generalizing members with
  | nil => exact ⟨(), rfl, rfl⟩
  | cons name d fallback rest ih =>
    obtain ⟨a, value⟩ := value
    obtain ⟨json, behind, rfl, here, others⟩ := restores
    obtain ⟨fresh, distinct⟩ := List.nodup_cons.mp distinct
    obtain ⟨slots, filled, complete⟩ := ih distinct others
    have alone : textsOf name (behind.map fun m => (m.1, m.2.print)) = [] := by
      rw [textsOf, List.map_eq_nil_iff, List.filter_eq_nil_iff]
      rintro pair there same
      obtain ⟨m, member, rfl⟩ := List.mem_map.mp there
      apply fresh
      rw [← others.names, ← of_decide_eq_true same]
      exact List.mem_map_of_mem member
    have slot : slotOf (d.reading levels) name none
        (((name, json) :: behind).map fun m => (m.1, m.2.print)) = some (some a) := by
      refine (slotOf_none_eq_some_iff a).mpr ⟨json.print, ?_, (reading_of_reads here.reads).1⟩
      rw [List.map_cons, textsOf_cons, if_pos rfl, alone]
    refine ⟨(some a, slots), ?_, ?_⟩
    · rw [blank, slotsOf, slot, List.map_cons, slotsOf_cons_of_notMem levels fresh, filled]
      rfl
    · rw [Fields.complete, complete]
      rfl

end Fields

theorem restores_record {ν σ : Type} {form : Form} {fields : Fields ν σ}
    {make : ν → Except Mismatch α} (openForm : form.isClosed = false)
    (distinct : fields.names.Nodup) {members : List (String × Json)} {value : ν}
    (restores : fields.Restores levels members value) {a : α} (made : make value = .ok a) :
    (record form fields make).Restores (levels + 1) (.object members) a where
  plain := .object restores.plain
  reads := by
    have each : ∀ m ∈ (tightObject members).members, IsValue m.slot.value.print ∧
        ∀ key, Glyph.text? m.name = some key → fields.IsLocal levels key m.slot.value.print := by
      refine List.forall_mem_map.mpr fun m there => ⟨(restores.plain m there).isValue, ?_⟩
      intro key named
      rw [text?_glyphsOf] at named
      rw [← Option.some.inj named]
      exact restores.isLocal distinct m there
    have pairs : pairsOf print (tightObject members).members =
        some (members.map fun m => (m.1, m.2.print)) := by
      refine mapM_map_eq_some fun m _ => ?_
      rw [text?_glyphsOf]
      rfl
    obtain ⟨slots, filled, complete⟩ := restores.exists_slots distinct
    have read : Reads ((record form fields make).ofText (levels + 1))
        ((tightObject members).chars print)
        ((membersFrom fields levels fields.blank (pairsOf print (tightObject members).members)).bind
          fun v => (make v).toOption) := reads_record openForm distinct each
    rw [membersFrom, pairs, Option.bind_some, filled, Option.bind_some, complete] at read
    rw [print_object]
    simpa [made, Except.toOption] using read

end Decoder

end Intake
