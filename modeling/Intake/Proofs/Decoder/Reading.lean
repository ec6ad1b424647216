import Intake.Decoder
import Intake.Proofs.Json.Layout

set_option autoImplicit false

/-!
Reading lists, dictionaries and records from text. What is read of a container is put together from
what is read of the values in it: of a record each member on its own, wherever it stands and
whatever stands around it.
-/

namespace Intake.Decoder

open Intake.Json

variable {α β : Type} {render : β → List Char} {levels : Nat}

section Containers

variable {d : Decoder α} {value : β → Option α}

theorem reads_list {a : ArrayText β}
    (each : ∀ p ∈ a.items,
      Begins (render p.value) ∧ Reads (d.ofText levels) (render p.value) (value p.value)) :
    Reads (d.list.ofText (levels + 1)) (a.chars render) (a.items.mapM fun p => value p.value) := by
  intro before rest _
  have text : a.chars render ++ rest =
      '[' :: (enclosed a.fill (a.items.map (Padded.chars render)) ++ ']' :: rest) := by
    simp [ArrayText.chars]
  have read := toOption_items_enclosed each a.fill rest rfl
  simp only [text, Decoder.list, skipSpace_blank]
  exact read

theorem reads_dictionary {o : ObjectText β}
    (each : ∀ m ∈ o.members, Reads (d.ofText levels) (render m.slot.value) (value m.slot.value)) :
    Reads (d.dictionary.ofText (levels + 1)) (o.chars render)
      ((o.members.mapM fun m => (Glyph.text? m.name).bind fun key =>
        (value m.slot.value).map (key, ·)).map Dictionary.ofList) := by
  intro before rest _
  have text : o.chars render ++ rest =
      '\x7b' :: (enclosed o.fill (o.members.map (MemberText.chars render)) ++ '\x7d' :: rest) := by
    simp [ObjectText.chars]
  have read := toOption_members_enclosed each o.fill rest rfl
  simp only [text, Decoder.dictionary, skipSpace_blank]
  show ((closed endObject _).map _).toOption = _
  rw [toOption_map]
  show (closed endObject _).toOption.map _ = _
  rw [read, Option.map_map, Option.map_map]
  rfl

end Containers

def reading (d : Decoder α) (levels : Nat) (text : List Char) : Option α :=
  (d.ofText levels text).toOption.map Prod.fst

/-- A decoder makes the same of a text wherever it stands. -/
def IsLocal (d : Decoder α) (levels : Nat) (text : List Char) : Prop :=
  Reads (d.ofText levels) text (d.reading levels text)

theorem reading_of_reads {d : Decoder α} {text : List Char} {value : Option α}
    (reads : Reads (d.ofText levels) text value) :
    d.reading levels text = value ∧ d.IsLocal levels text := by
  have alone : d.reading levels text = value := by
    have read := reads Blank.none [] isBoundary_nil
    rw [List.append_nil] at read
    show (d.ofText levels (Blank.none.chars ++ text)).toOption.map Prod.fst = value
    rw [read, Option.map_map]
    cases value <;> rfl
  rw [IsLocal, alone]
  exact ⟨rfl, reads⟩

theorem toOption_parse_of_reads {d : Decoder α} {text : List Char} {value : Option α}
    (reads : Reads (d.ofText maxLevels) text value) (before after : Blank) :
    (d.parse (String.ofList (before.chars ++ (text ++ after.chars)))).toOption = value := by
  have boundary := isBoundary_nil.blank_append after
  have behind := skipSpace_blank after []
  rw [List.append_nil] at boundary behind
  have read := reads before after.chars boundary
  rw [Decoder.parse, String.toList_ofList, whole]
  cases result : d.ofText maxLevels (before.chars ++ (text ++ after.chars)) with
  | error stop =>
    rw [result] at read
    cases value with
    | none => rfl
    | some a => simp [Except.toOption] at read
  | ok r =>
    rw [result] at read
    obtain ⟨a, same, rfl⟩ := Option.map_eq_some_iff.mp read.symm
    rw [same]
    simp only [behind]
    rfl

theorem reads_map {γ : Type} (f : α → γ) {reader : TextReader α} {text : List Char}
    {value : Option α} (reads : Reads reader text value) :
    Reads (f <$> reader : TextReader γ) text (value.map f) := by
  intro before rest boundary
  have read := reads before rest boundary
  show (reader (before.chars ++ (text ++ rest)) >>= fun r => pure (f r.1, r.2)).toOption = _
  rw [toOption_bind, read, Option.map_map]
  cases value <;> rfl

/-- What a member of a record holds after the members of an object that has been read in front of
them: each name may come once. -/
def slotOf (read : List Char → Option α) (name : String) :
    Option α → List (String × List Char) → Option (Option α)
  | slot, [] => some slot
  | slot, (key, text) :: rest =>
    if key = name then
      match slot with
      | some _ => none
      | none => (read text).bind fun a => slotOf read name (some a) rest
    else slotOf read name slot rest

namespace Fields

variable {ν σ : Type}

/-- The member of that name, if the record has it, is read the same wherever the text stands. -/
def IsLocal (levels : Nat) (key : String) (text : List Char) : {ν σ : Type} → Fields ν σ → Prop
  | _, _, .nil => True
  | _, _, .cons name d _ rest => (key = name → d.IsLocal levels text) ∧ rest.IsLocal levels key text

/-- What the members of a record hold after the members of an object. -/
def slotsOf (levels : Nat) : {ν σ : Type} → Fields ν σ → σ → List (String × List Char) → Option σ
  | _, _, .nil, _, _ => some ()
  | _, _, .cons name d _ rest, (slot, slots), pairs =>
    (slotOf (d.reading levels) name slot pairs).bind fun first =>
      (rest.slotsOf levels slots pairs).map fun others => (first, others)

private theorem slotsOf_nil (fields : Fields ν σ) (slots : σ) :
    fields.slotsOf levels slots [] = some slots := by
  induction fields with
  | nil => rfl
  | cons name d fallback rest ih =>
    obtain ⟨slot, slots⟩ := slots
    simp [slotsOf, slotOf, ih]

theorem slotsOf_cons_of_notMem (levels : Nat) {fields : Fields ν σ} {key : String}
    (foreign : key ∉ fields.names) (slots : σ) (text : List Char) (pairs : List (String × List Char)) :
    fields.slotsOf levels slots ((key, text) :: pairs) = fields.slotsOf levels slots pairs := by
  induction fields with
  | nil => rfl
  | cons name d fallback rest ih =>
    obtain ⟨slot, slots⟩ := slots
    obtain ⟨other, foreign⟩ := not_or.mp (mt List.mem_cons.mpr foreign)
    simp only [slotsOf, ih foreign, slotOf, if_neg other]

private theorem member_cases {fields : Fields ν σ} (distinct : fields.names.Nodup) {key : String}
    {text : List Char} (locals : fields.IsLocal levels key text) (slots : σ) :
    match fields.member (fun d => d.ofText levels) key slots with
    | .unknown => key ∉ fields.names
    | .repeated => ∀ pairs, fields.slotsOf levels slots ((key, text) :: pairs) = none
    | .fresh read => ∃ result : Option σ, Reads read text result ∧
      ∀ pairs, fields.slotsOf levels slots ((key, text) :: pairs) =
        result.bind fun slots => fields.slotsOf levels slots pairs := by
  induction fields with
  | nil => exact List.not_mem_nil
  | cons name d fallback rest ih =>
    obtain ⟨slot, slots⟩ := slots
    obtain ⟨fresh, distinct⟩ := List.nodup_cons.mp distinct
    obtain ⟨here, others⟩ := locals
    by_cases same : key = name
    · simp only [member, if_pos same]
      cases slot with
      | some a =>
        intro pairs
        simp [slotsOf, slotOf, same]
      | none =>
        refine ⟨(d.reading levels text).map fun a => (some a, slots), reads_map _ (here same), ?_⟩
        intro pairs
        have foreign := slotsOf_cons_of_notMem levels (same ▸ fresh) slots text pairs
        simp only [slotsOf, slotOf, if_pos same, foreign]
        cases d.reading levels text <;> rfl
    · have behind := ih distinct others slots
      simp only [member, if_neg same]
      cases found : rest.member (fun d => d.ofText levels) key slots with
      | unknown =>
        rw [found] at behind
        exact mt List.mem_cons.mp (not_or.mpr ⟨same, behind⟩)
      | repeated =>
        rw [found] at behind
        intro pairs
        simp [slotsOf, behind pairs]
      | fresh read =>
        rw [found] at behind
        obtain ⟨result, reads, step⟩ := behind
        refine ⟨result.map fun slots => (slot, slots), reads_map _ reads, ?_⟩
        intro pairs
        simp only [slotsOf, slotOf, if_neg same, step pairs]
        cases result with
        | none => cases slotOf (d.reading levels) name slot pairs <;> rfl
        | some slots => rfl

end Fields

section Records

variable {ν σ : Type} {form : Form} {fields : Fields ν σ}

/-- The members of an object under their names, if these are texts. -/
def pairsOf (render : β → List Char) (ms : List (MemberText β)) :
    Option (List (String × List Char)) :=
  ms.mapM fun m => (Glyph.text? m.name).map fun key => (key, render m.slot.value)

theorem pairsOf_cons (render : β → List Char) (m : MemberText β) (ms : List (MemberText β)) :
    pairsOf render (m :: ms) = (Glyph.text? m.name).bind fun key =>
      (pairsOf render ms).map ((key, render m.slot.value) :: ·) := by
  rw [pairsOf, List.mapM_cons]
  cases Glyph.text? m.name with
  | none => rfl
  | some key =>
    show ((pairsOf render ms).bind _) = (pairsOf render ms).map _
    cases pairsOf render ms <;> rfl

theorem membersOfText_cons {fuel : Nat} {first : Bool} {slots : σ} {text front behind : List Char}
    {key : String} (openForm : form.isClosed = false)
    (next : nextKey first text = .ok (some (key, front))) (after : colon front = .ok behind) :
    membersOfText form fields levels (fuel + 1) first slots text =
      match fields.member (fun d => d.ofText levels) key slots with
      | .unknown => (skipValue behind).bind fun rest =>
        membersOfText form fields levels fuel false slots rest
      | .repeated => .error (.pending (.duplicateField key) front)
      | .fresh read => (read behind).bind fun r =>
        membersOfText form fields levels fuel false r.1 r.2 := by
  rw [membersOfText, next]
  simp only [bind, Except.bind, after, openForm, Bool.false_eq_true, if_false]
  cases fields.member (fun d => d.ofText levels) key slots <;> rfl

def membersFrom (fields : Fields ν σ) (levels : Nat) (slots : σ)
    (pairs : Option (List (String × List Char))) : Option ν :=
  (pairs.bind (fields.slotsOf levels slots)).bind fun slots => (fields.complete slots).toOption

private theorem membersFrom_nil (slots : σ) :
    membersFrom fields levels slots (pairsOf render ([] : List (MemberText β))) =
      (fields.complete slots).toOption := by
  show ((fields.slotsOf levels slots []).bind _) = _
  rw [Fields.slotsOf_nil, Option.bind_some]

private theorem membersFrom_cons {m : MemberText β} {key : String}
    (named : Glyph.text? m.name = some key) (ms : List (MemberText β)) (slots : σ) :
    membersFrom fields levels slots (pairsOf render (m :: ms)) =
      (pairsOf render ms).bind fun pairs =>
        (fields.slotsOf levels slots ((key, render m.slot.value) :: pairs)).bind
          fun slots => (fields.complete slots).toOption := by
  rw [membersFrom, pairsOf_cons, named]
  cases pairsOf render ms <;> rfl

private theorem toOption_membersOfText_step {m : MemberText β} {ms : List (MemberText β)}
    {key : String} (openForm : form.isClosed = false) (distinct : fields.names.Nodup)
    (named : Glyph.text? m.name = some key) (sound : IsValue (render m.slot.value))
    (locals : fields.IsLocal levels key (render m.slot.value)) {fuel : Nat}
    {more rest : List Char} (boundary : IsBoundary more)
    (behind : ∀ slots, (closed endObject
        (membersOfText form fields levels fuel false slots more)).toOption =
      (membersFrom fields levels slots (pairsOf render ms)).map (·, rest))
    (slots : σ) (lead : Option Blank) :
    (closed endObject (membersOfText form fields levels (fuel + 1) lead.isNone slots
        (leadChars lead ++ (m.before.chars ++ (Glyph.quoted m.name ++ (m.between.chars ++
          ':' :: (m.slot.before.chars ++ (render m.slot.value ++ more)))))))).toOption =
      (membersFrom fields levels slots (pairsOf render (m :: ms))).map (·, rest) := by
  have outcome := Fields.member_cases distinct locals slots
  rw [membersFrom_cons named, membersOfText_cons openForm
    (nextKey_of_text? lead m.before named _) (colon_blank _ _)]
  cases found : fields.member (fun d => d.ofText levels) key slots with
  | unknown =>
    rw [found] at outcome
    show (closed endObject ((skipValue _).bind _)).toOption = _
    rw [skipValue_value sound m.slot.before boundary]
    refine (behind slots).trans (congrArg (Option.map _) ?_)
    simp only [Fields.slotsOf_cons_of_notMem levels outcome]
    exact Option.bind_assoc _ _ _
  | repeated =>
    rw [found] at outcome
    simp only [outcome, toOption_closed]
    cases pairsOf render ms <;> rfl
  | fresh read =>
    rw [found] at outcome
    obtain ⟨result, reads, step⟩ := outcome
    show (closed endObject ((read _).bind _)).toOption = _
    rw [toOption_closed_bind, reads m.slot.before more boundary]
    simp only [step]
    cases result with
    | none => cases pairsOf render ms <;> rfl
    | some slots =>
      refine (behind slots).trans (congrArg (Option.map _) ?_)
      exact Option.bind_assoc _ _ _

private theorem toOption_membersOfText {ms : List (MemberText β)} (openForm : form.isClosed = false)
    (distinct : fields.names.Nodup)
    (each : ∀ m ∈ ms, IsValue (render m.slot.value) ∧ ∀ key, Glyph.text? m.name = some key →
      fields.IsLocal levels key (render m.slot.value))
    (slots : σ) (lead : Option Blank) (fill : Blank) {fuel : Nat} (enough : ms.length < fuel)
    (rest : List Char) :
    (closed endObject (membersOfText form fields levels fuel lead.isNone slots
        (remaining lead fill (ms.map (MemberText.chars render)) ++ '\x7d' :: rest))).toOption =
      (membersFrom fields levels slots (pairsOf render ms)).map (·, rest) := by
  -- What has been read before, in the slots, is all that a member knows of those in front of it.
  induction ms generalizing slots lead fuel with
  | nil =>
    obtain ⟨fuel, rfl⟩ := Nat.exists_eq_add_one.mpr enough
    rw [membersFrom_nil, toOption_closed, List.map_nil, remaining, membersOfText, nextKey_end]
    simp only [bind, Except.bind]
    cases fields.complete slots with
    | error m => rfl
    | ok value =>
      show (endObject _).toOption.map _ = _
      rw [endObject_blank]
      rfl
  | cons m ms ih =>
    obtain ⟨fuel, rfl⟩ := Nat.exists_eq_add_one.mpr (Nat.zero_lt_of_lt enough)
    obtain ⟨⟨sound, locals⟩, others⟩ := List.forall_mem_cons.mp each
    have boundary := isBoundary_remaining m.slot.after fill (ms.map (MemberText.chars render))
      (.inr rfl) rest
    have behind := fun slots => ih others slots (some m.slot.after) (Nat.lt_of_succ_lt_succ enough)
    rw [remaining_member]
    cases named : Glyph.text? m.name with
    | none =>
      obtain ⟨stop, refused⟩ := nextKey_of_text?_none lead m.before named
        (m.between.chars ++ ':' :: (m.slot.before.chars ++ (render m.slot.value ++
          (remaining (some m.slot.after) fill (ms.map (MemberText.chars render)) ++
            '\x7d' :: rest))))
      have unread : pairsOf render (m :: ms) = none := by
        rw [pairsOf_cons, named]
        rfl
      rw [toOption_closed, membersOfText, refused, unread]
      rfl
    | some key =>
      exact toOption_membersOfText_step openForm distinct named sound (locals key named) boundary
        behind slots lead

private theorem toOption_closed_made (make : ν → Except Mismatch α)
    (content : Except Stop (Read ν)) : (closed endObject (do
      let (value, rest) ← content
      match make value with
      | .ok a => return (a, rest)
      | .error m => .error (.pending m (skipSpace rest)))).toOption =
      (closed endObject content).toOption.bind fun r => (make r.1).toOption.map (·, r.2) := by
  have inside := toOption_closed_bind endObject content fun r =>
    match make r.1 with
    | .ok a => .ok (a, r.2)
    | .error m => .error (.pending m (skipSpace r.2))
  refine inside.trans ?_
  rw [toOption_closed]
  cases content with
  | error stop => rfl
  | ok r =>
    show (closed endObject _).toOption = ((endObject r.2).toOption.map (r.1, ·)).bind _
    rw [toOption_closed, Option.bind_map]
    cases made : make r.1 with
    | error m => cases ended : endObject r.2 <;> simp [made, Except.toOption]
    | ok a => cases ended : endObject r.2 <;> simp [made, ended, Except.toOption]

/-- A record is read from the members of an object in any order; members that are not its own are
passed over. -/
theorem reads_record {make : ν → Except Mismatch α} {o : ObjectText β}
    (openForm : form.isClosed = false) (distinct : fields.names.Nodup)
    (each : ∀ m ∈ o.members, IsValue (render m.slot.value) ∧ ∀ key,
      Glyph.text? m.name = some key → fields.IsLocal levels key (render m.slot.value)) :
    Reads ((record form fields make).ofText (levels + 1)) (o.chars render)
      ((membersFrom fields levels fields.blank (pairsOf render o.members)).bind
        fun value => (make value).toOption) := by
  intro before rest _
  have text : o.chars render ++ rest =
      '\x7b' :: (enclosed o.fill (o.members.map (MemberText.chars render)) ++ '\x7d' :: rest) := by
    simp [ObjectText.chars]
  generalize inside : enclosed o.fill (o.members.map (MemberText.chars render)) ++ '\x7d' :: rest =
    content at text
  have enough := length_lt_members o.members o.fill rest inside
  have read := toOption_membersOfText openForm distinct each fields.blank none o.fill enough rest
  rw [← enclosed_eq_remaining, inside] at read
  have made := toOption_closed_made make
    (membersOfText form fields levels (content.length + 1) true fields.blank content)
  simp only [text, record, skipSpace_blank]
  refine made.trans ?_
  rw [show (true : Bool) = (none : Option Blank).isNone from rfl, read, Option.bind_map]
  cases membersFrom fields levels fields.blank (pairsOf render o.members) with
  | none => rfl
  | some value => rfl

end Records

end Intake.Decoder
