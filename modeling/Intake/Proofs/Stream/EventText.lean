import Intake.Proofs.Decoder.Members
import Intake.Proofs.Decoder.Scalar
import Intake.Proofs.Dictionary
import Intake.Stream.Batch

set_option autoImplicit false

/-!
Texts of batches. A message object is a message if its position and its content are well-formed, each
at most once; a batch is read exactly if all its message objects are messages.
-/

namespace Intake

open Intake.Json Intake.Decoder

namespace Stream

/-- What an object means as a message: its members have texts as names, and of those that count each
comes once at most. -/
def IsEnvelope (o : ObjectText ValueText) (e : Envelope) : Prop :=
  ∃ pairs, pairsOf Subtype.val o.members = some pairs ∧
    IsMember IsNullable64 none (textsOf "partition" pairs) e.position.partition ∧
    IsMember IsNullable64 none (textsOf "offset" pairs) e.position.offset ∧
    IsMember IsContent "" (textsOf "value" pairs) e.value

def Envelope.fields := Fields.cons "partition" (.option .int64) (some none)
  (.cons "offset" (.option .int64) (some none) (.cons "value" .string (some "") .nil))

private theorem membersFrom_fields (levels : Nat) (pairs : List (String × List Char)) :
    membersFrom Envelope.fields levels Envelope.fields.blank (some pairs) =
      ((slotOf (int64.option.reading levels) "partition" none pairs).map (·.getD none)).bind
        fun partition =>
          ((slotOf (int64.option.reading levels) "offset" none pairs).map (·.getD none)).bind
            fun offset =>
              ((slotOf (string.reading levels) "value" none pairs).map (·.getD "")).map
                fun value => (partition, offset, value, ()) := by
  simp only [membersFrom, Envelope.fields, Fields.blank, Fields.slotsOf, Option.bind_some]
  cases slotOf (int64.option.reading levels) "partition" none pairs with
  | none => rfl
  | some partition =>
    cases slotOf (int64.option.reading levels) "offset" none pairs with
    | none => rfl
    | some offset =>
      cases slotOf (string.reading levels) "value" none pairs with
      | none => rfl
      | some value => cases partition <;> cases offset <;> cases value <;> rfl

private theorem envelope_iff (levels : Nat) (o : ObjectText ValueText) :
    Envelope.decoder.IsLocal (levels + 1) (o.chars Subtype.val) ∧
      ∀ e, Envelope.decoder.reading (levels + 1) (o.chars Subtype.val) = some e ↔
        IsEnvelope o e := by
  have reads : Reads (Envelope.decoder.ofText (levels + 1)) (o.chars Subtype.val)
      ((membersFrom Envelope.fields levels Envelope.fields.blank
        (pairsOf Subtype.val o.members)).bind fun r => some ⟨⟨r.1, r.2.1⟩, r.2.2.1⟩) := by
    refine reads_record rfl (by decide) ?_
    intro m there
    have sound := m.slot.value.property
    refine ⟨sound, fun key _ => ⟨?_, ?_, ?_, trivial⟩⟩
    · exact fun _ => (nullable64_iff levels sound).1
    · exact fun _ => (nullable64_iff levels sound).1
    · exact fun _ => (string_iff levels sound).1
  obtain ⟨alone, isLocal⟩ := reading_of_reads reads
  refine ⟨isLocal, ?_⟩
  intro e
  rw [alone]
  cases named : pairsOf Subtype.val o.members with
  | none => simp [membersFrom, IsEnvelope, named]
  | some pairs =>
    have sound : ∀ pair ∈ pairs, IsValue pair.2 := by
      intro pair there
      obtain ⟨m, -, -, text⟩ := exists_of_mem_pairsOf named pair there
      rw [← text]
      exact m.slot.value.property
    have partition := @slotOf_none_iff _ _ "partition" pairs _ none
      (fun pair there => (nullable64_iff levels (sound pair there)).2)
    have offset := @slotOf_none_iff _ _ "offset" pairs _ none
      (fun pair there => (nullable64_iff levels (sound pair there)).2)
    have value := @slotOf_none_iff _ _ "value" pairs _ ""
      (fun pair there => (string_iff levels (sound pair there)).2)
    rw [membersFrom_fields]
    constructor
    · intro made
      obtain ⟨r, read, built⟩ := Option.bind_eq_some_iff.mp made
      obtain ⟨p, first, read⟩ := Option.bind_eq_some_iff.mp read
      obtain ⟨q, second, read⟩ := Option.bind_eq_some_iff.mp read
      obtain ⟨v, third, rfl⟩ := Option.map_eq_some_iff.mp read
      obtain rfl := Option.some.inj built
      exact ⟨pairs, named, (partition p).mp first, (offset q).mp second, (value v).mp third⟩
    · rintro ⟨_, again, first, second, third⟩
      obtain rfl := Option.some.inj (again.symm.trans named)
      rw [(partition _).mpr first, (offset _).mpr second, (value _).mpr third]
      rfl

/-- A batch as a text: an object with a member of groups of messages among others. -/
structure EventText where
  before : Blank
  front : List (MemberText ValueText)
  records : MemberText (ObjectText (ArrayText (ObjectText ValueText)))
  back : List (MemberText ValueText)
  after : Blank
  named : Glyph.text? records.name = some "records"
  others : ∀ m ∈ front ++ back, Glyph.text? m.name ≠ some "records"

namespace EventText

def groups (event : EventText) : List (MemberText (ArrayText (ObjectText ValueText))) :=
  event.records.slot.value.members

/-- The members of the object, each with the text of its value. -/
def members (event : EventText) : List (MemberText (List Char)) :=
  event.front.map (.map Subtype.val) ++
    event.records.map (ObjectText.chars (ArrayText.chars (ObjectText.chars Subtype.val))) ::
      event.back.map (.map Subtype.val)

def chars (event : EventText) : List Char :=
  event.before.chars ++ (ObjectText.chars id ⟨Blank.none, event.members⟩ ++ event.after.chars)

/-- What a batch is read as: messages in groups under their names, if all names are texts and all
messages are messages. -/
structure IsReadAs (event : EventText) (groups : List (String × List Envelope)) : Prop where
  names : ∀ m ∈ event.front ++ event.back, (Glyph.text? m.name).isSome
  each : List.Forall₂ (fun g group => Glyph.text? g.name = some group.1 ∧
    List.Forall₂ (fun p e => IsEnvelope p.value e) g.slot.value.items group.2) event.groups groups

section Reading

private theorem filter_members (event : EventText) :
    event.members.filter (fun m => Glyph.text? m.name = some "records") =
      [event.records.map (ObjectText.chars (ArrayText.chars (ObjectText.chars Subtype.val)))] := by
  have foreign : ∀ ms : List (MemberText ValueText),
      (∀ m ∈ ms, Glyph.text? m.name ≠ some "records") →
      (ms.map (MemberText.map Subtype.val)).filter
        (fun m => Glyph.text? m.name = some "records") = [] := by
    intro ms other
    rw [List.filter_eq_nil_iff]
    intro m there
    obtain ⟨n, member, rfl⟩ := List.mem_map.mp there
    exact mt of_decide_eq_true (other n member)
  obtain ⟨front, back⟩ := List.forall_mem_append.mp event.others
  rw [members, List.filter_append, List.filter_cons, foreign _ front, foreign _ back]
  simp [MemberText.map, event.named]

def messageOf (levels : Nat) (o : ObjectText ValueText) : Option Envelope :=
  Envelope.decoder.reading (levels + 1) (o.chars Subtype.val)

def groupOf (levels : Nat) (g : MemberText (ArrayText (ObjectText ValueText))) :
    Option (String × List Envelope) :=
  (Glyph.text? g.name).bind fun key =>
    (g.slot.value.items.mapM fun p => messageOf levels p.value).map (key, ·)

private theorem groupOf_eq_some_iff (levels : Nat)
    (g : MemberText (ArrayText (ObjectText ValueText))) (group : String × List Envelope) :
    groupOf levels g = some group ↔ Glyph.text? g.name = some group.1 ∧
      List.Forall₂ (fun p e => IsEnvelope p.value e) g.slot.value.items group.2 := by
  obtain ⟨key, es⟩ := group
  simp only [groupOf, messageOf, Option.bind_eq_some_iff, Option.map_eq_some_iff, mapM_eq_some_iff,
    (envelope_iff levels _).2, Prod.mk.injEq]
  constructor
  · rintro ⟨_, named, _, each, rfl, rfl⟩
    exact ⟨named, each⟩
  · rintro ⟨named, each⟩
    exact ⟨key, named, es, each, rfl, rfl⟩

private theorem reads_messages (levels : Nat) (a : ArrayText (ObjectText ValueText)) :
    Reads (Envelope.decoder.list.ofText (levels + 2)) (a.chars (ObjectText.chars Subtype.val))
      (a.items.mapM fun p => messageOf levels p.value) := by
  refine reads_list fun p _ => ⟨?_, (envelope_iff levels p.value).1⟩
  exact ⟨'\x7b', _, rfl, by decide, by decide, by decide⟩

private theorem reads_groups (levels : Nat) (o : ObjectText (ArrayText (ObjectText ValueText))) :
    Reads (Envelope.decoder.list.dictionary.ofText (levels + 3))
      (o.chars (ArrayText.chars (ObjectText.chars Subtype.val)))
      ((o.members.mapM (groupOf levels)).map Dictionary.ofList) := by
  have read := @reads_dictionary (List Envelope) (ArrayText (ObjectText ValueText))
    (ArrayText.chars (ObjectText.chars Subtype.val)) (levels + 2) Envelope.decoder.list
    (fun a => a.items.mapM fun p => messageOf levels p.value) o
  exact read fun g _ => reads_messages levels g.slot.value

def fields := Fields.cons "records" Envelope.decoder.list.dictionary (some Dictionary.empty) .nil

private theorem membersFrom_fields (levels : Nat) (pairs : List (String × List Char)) :
    membersFrom fields levels fields.blank (some pairs) =
      ((slotOf (Envelope.decoder.list.dictionary.reading levels) "records" none pairs).map
        (·.getD Dictionary.empty)).map (·, ()) := by
  simp only [membersFrom, fields, Fields.blank, Fields.slotsOf, Option.bind_some]
  cases slotOf (Envelope.decoder.list.dictionary.reading levels) "records" none pairs with
  | none => rfl
  | some slot => cases slot <;> rfl

private theorem isValue_groups (o : ObjectText (ArrayText (ObjectText ValueText))) :
    IsValue (o.chars (ArrayText.chars (ObjectText.chars Subtype.val))) :=
  isValue_object fun _ _ => isValue_array fun _ _ => isValue_object fun m _ => m.slot.value.property

private theorem isLocal_members (levels : Nat) (event : EventText) :
    ∀ m ∈ event.members, IsValue m.slot.value ∧
      ∀ key, Glyph.text? m.name = some key → fields.IsLocal (levels + 3) key m.slot.value := by
  have foreign : ∀ m ∈ event.front ++ event.back, IsValue m.slot.value.val ∧
      ∀ key, Glyph.text? m.name = some key → fields.IsLocal (levels + 3) key m.slot.value.val := by
    intro m there
    refine ⟨m.slot.value.property, fun key named => ⟨?_, trivial⟩⟩
    rintro rfl
    exact absurd named (event.others m there)
  obtain ⟨front, back⟩ := List.forall_mem_append.mp foreign
  have groups := (reading_of_reads (reads_groups levels event.records.slot.value)).2
  refine List.forall_mem_append.mpr ⟨List.forall_mem_map.mpr front, List.forall_mem_cons.mpr
    ⟨⟨isValue_groups _, ?_⟩, List.forall_mem_map.mpr back⟩⟩
  exact fun key _ => ⟨fun _ => groups, trivial⟩

private theorem names_members (event : EventText) :
    (∀ m ∈ event.members, (Glyph.text? m.name).isSome) ↔
    ∀ m ∈ event.front ++ event.back, (Glyph.text? m.name).isSome := by
  simp only [members, List.forall_mem_append, List.forall_mem_cons, List.forall_mem_map]
  have own : (Glyph.text? event.records.name).isSome := by simp [event.named]
  exact and_congr_right fun _ => and_iff_right own

private theorem members_iff (levels : Nat) (event : EventText) (batch : Batch) :
    (membersFrom fields (levels + 3) fields.blank (pairsOf id event.members)).map
        (fun r => (⟨r.1⟩ : Batch)) = some batch ↔
      ∃ groups, event.IsReadAs groups ∧ batch = ⟨Dictionary.ofList groups⟩ := by
  obtain ⟨alone, -⟩ := reading_of_reads (reads_groups levels event.records.slot.value)
  cases named : pairsOf id event.members with
  | none =>
    have unnamed : ¬ ∀ m ∈ event.members, (Glyph.text? m.name).isSome := by
      rw [← @isSome_pairsOf _ id, named]
      simp
    rw [names_members] at unnamed
    refine iff_of_false (by simp [membersFrom]) ?_
    rintro ⟨groups, readAs, -⟩
    exact unnamed readAs.names
  | some pairs =>
    have names := event.names_members.mp (isSome_pairsOf.mp (Option.isSome_of_eq_some named))
    have texts := textsOf_pairsOf named "records"
    rw [event.filter_members] at texts
    have slot := @slotOf_none_iff (Dictionary (List Envelope))
      (Envelope.decoder.list.dictionary.reading (levels + 3)) "records" pairs
      (fun text groups => Envelope.decoder.list.dictionary.reading (levels + 3) text = some groups)
      Dictionary.empty (fun _ _ _ => .rfl)
    have groups_iff : ∀ groups, event.groups.mapM (groupOf levels) = some groups ↔
        event.IsReadAs groups := by
      intro groups
      rw [mapM_eq_some_iff]
      simp only [groupOf_eq_some_iff]
      exact ⟨fun each => ⟨names, each⟩, IsReadAs.each⟩
    rw [texts] at slot
    rw [membersFrom_fields, Option.map_map]
    constructor
    · intro read
      obtain ⟨d, found, rfl⟩ := Option.map_eq_some_iff.mp read
      cases (slot d).mp found with
      | single meaning =>
        obtain ⟨groups, each, rfl⟩ := Option.map_eq_some_iff.mp (alone.symm.trans meaning)
        exact ⟨groups, (groups_iff groups).mp each, rfl⟩
    · rintro ⟨groups, readAs, rfl⟩
      have each := (groups_iff groups).mpr readAs
      have meaning := alone.trans (congrArg (Option.map Dictionary.ofList) each)
      rw [(slot _).mpr (.single meaning)]
      rfl

theorem toOption_parse (event : EventText) (batch : Batch) :
    (Batch.decoder.parse (String.ofList event.chars)).toOption = some batch ↔
      ∃ groups, event.IsReadAs groups ∧ batch = ⟨Dictionary.ofList groups⟩ := by
  have reads : Reads (Batch.decoder.ofText maxLevels)
      (ObjectText.chars id ⟨Blank.none, event.members⟩)
      ((membersFrom fields 126 fields.blank (pairsOf id event.members)).bind
        fun r => some ⟨r.1⟩) :=
    reads_record rfl (by decide) (event.isLocal_members 123)
  rw [chars, toOption_parse_of_reads reads]
  rw [← event.members_iff 123 batch]
  cases membersFrom fields (123 + 3) fields.blank (pairsOf id event.members) <;> rfl

end Reading

section Removal

def message? (event : EventText) (i j : Nat) : Option (ObjectText ValueText) :=
  (event.groups[i]?).bind fun g => (g.slot.value.items[j]?).map Padded.value

def without (event : EventText) (i j : Nat) : EventText :=
  { event with
    records := event.records.map fun o =>
      { o with members := o.members.modify i (.map fun a => { a with items := a.items.eraseIdx j }) } }

private theorem exists_of_forall₂ {α β : Type} {R : α → β → Prop} {as : List α} {bs : List β}
    (each : List.Forall₂ R as bs) {i : Nat} {a : α} (there : as[i]? = some a) :
    ∃ front b back, bs = front ++ b :: back ∧ R a b ∧
      List.Forall₂ R (as.take i) front ∧ List.Forall₂ R (as.drop (i + 1)) back := by
  induction each generalizing i with
  | nil => simp at there
  | @cons c b as bs here others ih =>
    cases i with
    | zero =>
      obtain rfl : c = a := by simpa using there
      exact ⟨[], b, bs, rfl, here, .nil, others⟩
    | succ i =>
      obtain ⟨front, d, back, rfl, found, before, behind⟩ := ih (by simpa using there)
      exact ⟨b :: front, d, back, rfl, found, .cons here before, behind⟩

private theorem IsReadAs.without {event : EventText} {groups : List (String × List Envelope)}
    (readAs : event.IsReadAs groups) {i j : Nat} {o : ObjectText ValueText}
    (there : event.message? i j = some o) :
    ∃ front back key xs e ys, groups = front ++ (key, xs ++ e :: ys) :: back ∧ IsEnvelope o e ∧
      (event.without i j).IsReadAs (front ++ (key, xs ++ ys) :: back) := by
  obtain ⟨g, atGroup, there⟩ := Option.bind_eq_some_iff.mp there
  obtain ⟨p, atItem, rfl⟩ := Option.map_eq_some_iff.mp there
  obtain ⟨front, ⟨key, es⟩, back, rfl, ⟨named, messages⟩, before, behind⟩ :=
    exists_of_forall₂ readAs.each atGroup
  obtain ⟨xs, e, ys, rfl, means, former, later⟩ := exists_of_forall₂ messages atItem
  refine ⟨front, back, key, xs, e, ys, rfl, means, readAs.names, ?_⟩
  obtain ⟨inside, same⟩ := List.getElem?_eq_some_iff.mp atGroup
  have groups : (event.without i j).groups =
      event.groups.take i ++ event.groups[i].map (fun a => { a with items := a.items.eraseIdx j }) ::
        event.groups.drop (i + 1) := List.modify_eq_take_cons_drop inside
  have left : List.Forall₂ (fun p e => IsEnvelope p.value e) (g.slot.value.items.eraseIdx j)
      (xs ++ ys) := by
    rw [List.eraseIdx_eq_take_drop_succ]
    exact List.rel_append former later
  rw [groups, same]
  exact List.rel_append before (.cons ⟨named, left⟩ behind)

/-- A batch without one of its messages has all others where they are. -/
theorem parse_without {event : EventText} {batch : Batch}
    (read : (Batch.decoder.parse (String.ofList event.chars)).toOption = some batch) {i j : Nat}
    {o : ObjectText ValueText} (there : event.message? i j = some o) :
    ∃ less before own after,
      (Batch.decoder.parse (String.ofList (event.without i j).chars)).toOption = some less ∧
      batch.envelopes = before ++ own ++ after ∧ less.envelopes = before ++ after ∧
      (own = [] ∨ ∃ e, IsEnvelope o e ∧ own = [e]) := by
  obtain ⟨groups, readAs, rfl⟩ := (event.toOption_parse batch).mp read
  obtain ⟨front, back, key, xs, e, ys, rfl, means, others⟩ := readAs.without there
  have parsed := ((event.without i j).toOption_parse _).mpr ⟨_, others, rfl⟩
  obtain ⟨d, lost⟩ | ⟨before, after, place⟩ := Dictionary.ofList_cases front back key
  · refine ⟨_, d.values.flatten, [], [], parsed, ?_, ?_, .inl rfl⟩
    · simp [Batch.envelopes, lost]
    · simp [Batch.envelopes, lost]
  · refine ⟨_, (before.map Prod.snd).flatten ++ xs, [e], ys ++ (after.map Prod.snd).flatten, parsed,
      ?_, ?_, .inr ⟨e, means, rfl⟩⟩
    · simp [Batch.envelopes, Dictionary.values, place]
    · simp [Batch.envelopes, Dictionary.values, place]

end Removal

end EventText

end Stream

end Intake
