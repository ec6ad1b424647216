import Intake.Json.Reader
import Intake.Proofs.Json.Skip

set_option autoImplicit false

/-!
Reading what stands in arrays and objects. A reader that reads the values in them reads the whole, item
by item and member by member; one value or name that cannot be read is the end of it.
-/

namespace Intake.Json

/-- What a reader makes of a text, whatever white space is in front of it and whatever boundary is
behind. -/
def Reads {α : Type} (reader : List Char → Except Stop (Read α)) (text : List Char)
    (value : Option α) : Prop :=
  ∀ (before : Blank) (rest : List Char), IsBoundary rest →
    (reader (before.chars ++ (text ++ rest))).toOption = value.map (·, rest)

theorem toOption_bind {ε α β : Type} (x : Except ε α) (f : α → Except ε β) :
    (x >>= f).toOption = x.toOption.bind fun a => (f a).toOption := by
  cases x <;> rfl

theorem toOption_map {ε α β : Type} (f : α → β) (x : Except ε α) :
    (x.map f).toOption = x.toOption.map f := by
  cases x <;> rfl

theorem toOption_eq_some_iff {ε α : Type} {x : Except ε α} {a : α} :
    x.toOption = some a ↔ x = .ok a := by
  cases x with
  | error e => simp [Except.toOption]
  | ok b => simp [Except.toOption]

theorem Glyph.text?_eq_some_iff {glyphs : List Glyph} {text : String} :
    Glyph.text? glyphs = some text ↔
      ∃ chars, Glyph.meaning glyphs = .ok chars ∧ String.ofList chars = text := by
  rw [Glyph.text?, Option.map_eq_some_iff]
  simp only [toOption_eq_some_iff]

theorem mapM_eq_some_iff {α β : Type} {f : α → Option β} {as : List α} {bs : List β} :
    as.mapM f = some bs ↔ List.Forall₂ (fun a b => f a = some b) as bs := by
  constructor
  · intro read
    induction as generalizing bs with
    | nil =>
      obtain rfl : [] = bs := Option.some.inj read
      exact .nil
    | cons a as ih =>
      rw [List.mapM_cons] at read
      obtain ⟨b, here, read⟩ := Option.bind_eq_some_iff.mp read
      obtain ⟨others, behind, whole⟩ := Option.bind_eq_some_iff.mp read
      rw [← Option.some.inj whole]
      exact .cons here (ih behind)
  · intro each
    induction each with
    | nil => rfl
    | cons here _ ih =>
      rw [List.mapM_cons, here, ih]
      rfl

theorem exists_of_mem_forall₂ {α β : Type} {R : α → β → Prop} {as : List α} {bs : List β}
    (each : List.Forall₂ R as bs) : ∀ b ∈ bs, ∃ a ∈ as, R a b := by
  induction each with
  | nil => simp
  | @cons a b as bs here _ ih =>
    refine List.forall_mem_cons.mpr ⟨⟨a, List.mem_cons_self, here⟩, ?_⟩
    intro other there
    obtain ⟨c, member, related⟩ := ih other there
    exact ⟨c, List.mem_cons_of_mem a member, related⟩

theorem toOption_closed {α : Type} (close : List Char → Except Stop (List Char))
    (content : Except Stop (Read α)) :
    (closed close content).toOption =
      content.toOption.bind fun r => (close r.2).toOption.map (r.1, ·) := by
  cases content with
  | ok r => exact toOption_map _ _
  | error stop =>
    simp only [closed]
    split <;> rfl

theorem toOption_closed_bind {α β : Type} (close : List Char → Except Stop (List Char))
    (content : Except Stop β) (behind : β → Except Stop (Read α)) :
    (closed close (content.bind behind)).toOption =
      content.toOption.bind fun a => (closed close (behind a)).toOption := by
  cases content with
  | ok a => rfl
  | error stop =>
    simp only [Except.bind, closed]
    split <;> rfl

theorem closed_map {α β : Type} (close : List Char → Except Stop (List Char)) (f : α → β)
    (content : Except Stop (Read α)) :
    closed close (content.map fun r => (f r.1, r.2)) =
      (closed close content).map fun r => (f r.1, r.2) := by
  cases content with
  | ok r =>
    show (close r.2).map _ = ((close r.2).map _).map _
    cases close r.2 <;> rfl
  | error stop =>
    simp only [Except.map, closed]
    split <;> rfl

/-- A text begins with a character that is neither white space nor the end of a container. -/
def Begins (text : List Char) : Prop :=
  ∃ c more, text = c :: more ∧ isSpace c = false ∧ c ≠ ']' ∧ c ≠ '\x7d'

section Marks

variable (blank : Blank) (rest : List Char)

@[simp] private theorem endArray_blank : endArray (blank.chars ++ ']' :: rest) = .ok rest := by
  rw [endArray, skipSpace_blank]
  rfl

@[simp] theorem endObject_blank : endObject (blank.chars ++ '\x7d' :: rest) = .ok rest := by
  rw [endObject, skipSpace_blank]
  rfl

@[simp] theorem colon_blank : colon (blank.chars ++ ':' :: rest) = .ok rest := by
  rw [colon, skipSpace_blank]
  rfl

private theorem nextItem_end (first : Bool) :
    nextItem first (blank.chars ++ ']' :: rest) = .ok none := by
  rw [nextItem, skipSpace_blank]
  rfl

theorem nextKey_end (first : Bool) : nextKey first (blank.chars ++ '\x7d' :: rest) = .ok none := by
  rw [nextKey, skipSpace_blank]
  rfl

end Marks

/-- What stands in front of an item or a member: nothing in front of the first, and behind another
one its white space and a comma. -/
def leadChars : Option Blank → List Char
  | none => []
  | some after => after.chars ++ [',']

def remaining (lead : Option Blank) (fill : Blank) : List (List Char) → List Char
  | [] => (lead.getD fill).chars
  | first :: others => leadChars lead ++ (first ++ following others)

theorem enclosed_eq_remaining (fill : Blank) (texts : List (List Char)) :
    enclosed fill texts = remaining none fill texts := by
  cases texts <;> rfl

private theorem remaining_some (after fill : Blank) (texts : List (List Char)) :
    remaining (some after) fill texts = after.chars ++ following texts := by
  cases texts <;> simp [remaining, leadChars, following]

private theorem nextItem_lead (lead : Option Blank) (before : Blank) {value rest more : List Char}
    {c : Char} (front : value = c :: more) (solid : isSpace c = false) (other : c ≠ ']') :
    nextItem lead.isNone (leadChars lead ++ (before.chars ++ (value ++ rest))) =
      .ok (some (value ++ rest)) := by
  subst front
  cases lead with
  | none =>
    rw [leadChars, List.nil_append, nextItem, skipSpace_blank, List.cons_append,
      skipSpace_cons solid]
    simp [other]
  | some after =>
    rw [leadChars, List.append_assoc, nextItem, skipSpace_blank, List.singleton_append,
      skipSpace_cons (by decide)]
    simp [skipSpace_cons solid, other]

theorem nextKey_lead (lead : Option Blank) (before : Blank) (name : List Glyph) (rest : List Char) :
    nextKey lead.isNone (leadChars lead ++ (before.chars ++ (Glyph.quoted name ++ rest))) =
      (placed ((Glyph.meaning name).map String.ofList) rest).map some := by
  have text : Glyph.quoted name ++ rest = '"' :: (Glyph.spelled name ++ '"' :: rest) := by
    simp [Glyph.quoted]
  rw [← stringBody_spelled]
  cases lead with
  | none =>
    rw [leadChars, List.nil_append, nextKey, skipSpace_blank, text, skipSpace_cons (by decide)]
    simp
  | some after =>
    rw [leadChars, List.append_assoc, nextKey, skipSpace_blank, List.singleton_append,
      skipSpace_cons (by decide), text]
    simp [skipSpace_cons (c := '"') (by decide)]

theorem nextKey_of_text? (lead : Option Blank) (before : Blank) {name : List Glyph} {key : String}
    (named : Glyph.text? name = some key) (rest : List Char) :
    nextKey lead.isNone (leadChars lead ++ (before.chars ++ (Glyph.quoted name ++ rest))) =
      .ok (some (key, rest)) := by
  obtain ⟨chars, meant, rfl⟩ := Glyph.text?_eq_some_iff.mp named
  rw [nextKey_lead, meant]
  rfl

theorem nextKey_of_text?_none (lead : Option Blank) (before : Blank) {name : List Glyph}
    (unnamed : Glyph.text? name = none) (rest : List Char) : ∃ stop,
      nextKey lead.isNone (leadChars lead ++ (before.chars ++ (Glyph.quoted name ++ rest))) =
        .error stop := by
  rw [nextKey_lead]
  cases meant : Glyph.meaning name with
  | error stop => exact ⟨_, rfl⟩
  | ok chars => simp [Glyph.text?, meant, Except.toOption] at unnamed

private theorem length_le_enclosed (fill : Blank) {texts : List (List Char)}
    (nonempty : [] ∉ texts) : texts.length ≤ (enclosed fill texts).length := by
  have commas : ∀ others : List (List Char), others.length ≤ (following others).length := by
    intro others
    induction others with
    | nil => exact Nat.zero_le _
    | cons first others ih =>
      simp only [following, List.flatMap_cons, List.length_append, List.length_cons] at ih ⊢
      omega
  cases texts with
  | nil => exact Nat.zero_le _
  | cons first others =>
    have positive := List.length_pos_of_ne_nil (List.ne_of_not_mem_cons nonempty).symm
    have more := commas others
    simp only [enclosed, List.length_append, List.length_cons]
    omega

section Containers

variable {α β : Type} {render : β → List Char} {value : β → Option α}
  {reader : List Char → Except Stop (Read α)}

private theorem remaining_item (render : β → List Char) (lead : Option Blank) (fill : Blank)
    (p : Padded β) (ps : List (Padded β)) (rest : List Char) :
    remaining lead fill ((p :: ps).map (Padded.chars render)) ++ rest =
      leadChars lead ++ (p.before.chars ++ (render p.value ++
        (remaining (some p.after) fill (ps.map (Padded.chars render)) ++ rest))) := by
  rw [remaining_some]
  simp [remaining, Padded.chars]

theorem remaining_member (render : β → List Char) (lead : Option Blank) (fill : Blank)
    (m : MemberText β) (ms : List (MemberText β)) (rest : List Char) :
    remaining lead fill ((m :: ms).map (MemberText.chars render)) ++ rest =
      leadChars lead ++ (m.before.chars ++ (Glyph.quoted m.name ++ (m.between.chars ++
        ':' :: (m.slot.before.chars ++ (render m.slot.value ++
          (remaining (some m.slot.after) fill (ms.map (MemberText.chars render)) ++ rest)))))) := by
  rw [remaining_some]
  simp [remaining, MemberText.chars, Padded.chars]

theorem isBoundary_remaining (after fill : Blank) (texts : List (List Char)) {c : Char}
    (close : c = ']' ∨ c = '\x7d') (rest : List Char) :
    IsBoundary (remaining (some after) fill texts ++ c :: rest) := by
  rw [remaining_some, List.append_assoc]
  refine .blank_append after ?_
  cases texts with
  | nil => rcases close with rfl | rfl <;> simp [IsBoundary, following]
  | cons => exact isBoundary_comma _

private theorem toOption_items_step {fuel : Nat} {first : Bool} {text front : List Char}
    (next : nextItem first text = .ok (some front)) :
    (closed endArray (items reader (fuel + 1) first text)).toOption =
      (reader front).toOption.bind fun r =>
        (closed endArray (items reader fuel false r.2)).toOption.map fun s => (r.1 :: s.1, s.2) := by
  have step : items reader (fuel + 1) first text = (reader front).bind fun r =>
      (items reader fuel false r.2).map fun s => (r.1 :: s.1, s.2) := by
    rw [items, next]
    rfl
  rw [step, toOption_closed_bind]
  refine congrArg _ (funext fun r => ?_)
  rw [closed_map endArray (r.1 :: ·), toOption_map]

private theorem toOption_items {ps : List (Padded β)}
    (each : ∀ p ∈ ps, Begins (render p.value) ∧ Reads reader (render p.value) (value p.value))
    (lead : Option Blank) (fill : Blank) {fuel : Nat} (enough : ps.length < fuel)
    (rest : List Char) :
    (closed endArray (items reader fuel lead.isNone
        (remaining lead fill (ps.map (Padded.chars render)) ++ ']' :: rest))).toOption =
      (ps.mapM fun p => value p.value).map (·, rest) := by
  -- The lead is generalized: behind the first item there is a comma in front of the next.
  induction ps generalizing lead fuel with
  | nil =>
    obtain ⟨fuel, rfl⟩ := Nat.exists_eq_add_one.mpr enough
    rw [toOption_closed, List.map_nil, remaining, items, nextItem_end]
    show (endArray _).toOption.map _ = _
    rw [endArray_blank]
    rfl
  | cons p ps ih =>
    obtain ⟨fuel, rfl⟩ := Nat.exists_eq_add_one.mpr (Nat.zero_lt_of_lt enough)
    obtain ⟨⟨begins, reads⟩, others⟩ := List.forall_mem_cons.mp each
    obtain ⟨c, more, front, solid, other, -⟩ := begins
    have boundary := isBoundary_remaining p.after fill (ps.map (Padded.chars render)) (.inl rfl) rest
    have behind := ih others (some p.after) (Nat.lt_of_succ_lt_succ enough)
    rw [remaining_item, toOption_items_step (nextItem_lead lead p.before front solid other)]
    generalize remaining (some p.after) fill (ps.map (Padded.chars render)) ++ ']' :: rest = more
      at boundary behind
    have read : (reader (render p.value ++ more)).toOption = (value p.value).map (·, more) :=
      reads Blank.none more boundary
    have left : (closed endArray (items reader fuel false more)).toOption =
        (ps.mapM fun p => value p.value).map (·, rest) := behind
    rw [read, List.mapM_cons]
    cases value p.value with
    | none => rfl
    | some a =>
      show (closed endArray (items reader fuel false more)).toOption.map _ = _
      rw [left]
      cases ps.mapM fun p => value p.value <;> rfl

theorem toOption_items_enclosed {ps : List (Padded β)}
    (each : ∀ p ∈ ps, Begins (render p.value) ∧ Reads reader (render p.value) (value p.value))
    (fill : Blank) (rest : List Char) {content : List Char}
    (inside : enclosed fill (ps.map (Padded.chars render)) ++ ']' :: rest = content) :
    (closed endArray (items reader (content.length + 1) true content)).toOption =
      (ps.mapM fun p => value p.value).map (·, rest) := by
  have nonempty : [] ∉ ps.map (Padded.chars render) := by
    intro empty
    obtain ⟨p, there, chars⟩ := List.mem_map.mp empty
    obtain ⟨c, more, front, -⟩ := (each p there).1
    simp [Padded.chars, front] at chars
  have fits : ps.length < content.length + 1 := by
    have enough := length_le_enclosed fill nonempty
    rw [List.length_map] at enough
    rw [← inside, List.length_append]
    omega
  have read := toOption_items each none fill fits rest
  rwa [← enclosed_eq_remaining, inside] at read

private theorem toOption_members_step {fuel : Nat} {first : Bool} {text front behind : List Char}
    {key : String}
    (next : nextKey first text = .ok (some (key, front))) (after : colon front = .ok behind) :
    (closed endObject (members reader (fuel + 1) first text)).toOption =
      (reader behind).toOption.bind fun r =>
        (closed endObject (members reader fuel false r.2)).toOption.map
          fun s => ((key, r.1) :: s.1, s.2) := by
  have step : members reader (fuel + 1) first text = (reader behind).bind fun r =>
      (members reader fuel false r.2).map fun s => ((key, r.1) :: s.1, s.2) := by
    rw [members, next]
    simp only [bind, Except.bind, after]
    rfl
  rw [step, toOption_closed_bind]
  refine congrArg _ (funext fun r => ?_)
  rw [closed_map endObject ((key, r.1) :: ·), toOption_map]

private theorem toOption_members {ms : List (MemberText β)}
    (each : ∀ m ∈ ms, Reads reader (render m.slot.value) (value m.slot.value))
    (lead : Option Blank) (fill : Blank) {fuel : Nat} (enough : ms.length < fuel)
    (rest : List Char) :
    (closed endObject (members reader fuel lead.isNone
        (remaining lead fill (ms.map (MemberText.chars render)) ++ '\x7d' :: rest))).toOption =
      (ms.mapM fun m => (Glyph.text? m.name).bind fun key =>
        (value m.slot.value).map (key, ·)).map (·, rest) := by
  induction ms generalizing lead fuel with
  | nil =>
    obtain ⟨fuel, rfl⟩ := Nat.exists_eq_add_one.mpr enough
    rw [toOption_closed, List.map_nil, remaining, members, nextKey_end]
    show (endObject _).toOption.map _ = _
    rw [endObject_blank]
    rfl
  | cons m ms ih =>
    obtain ⟨fuel, rfl⟩ := Nat.exists_eq_add_one.mpr (Nat.zero_lt_of_lt enough)
    obtain ⟨reads, others⟩ := List.forall_mem_cons.mp each
    have boundary := isBoundary_remaining m.slot.after fill (ms.map (MemberText.chars render))
      (.inr rfl) rest
    have behind := ih others (some m.slot.after) (Nat.lt_of_succ_lt_succ enough)
    rw [remaining_member, List.mapM_cons]
    generalize remaining (some m.slot.after) fill (ms.map (MemberText.chars render)) ++
      '\x7d' :: rest = more
      at boundary behind ⊢
    cases named : Glyph.text? m.name with
    | none =>
      obtain ⟨stop, refused⟩ := nextKey_of_text?_none lead m.before named
        (m.between.chars ++ ':' :: (m.slot.before.chars ++ (render m.slot.value ++ more)))
      rw [toOption_closed, members, refused]
      rfl
    | some key =>
      have left : (closed endObject (members reader fuel false more)).toOption =
          (ms.mapM fun m => (Glyph.text? m.name).bind fun key =>
            (value m.slot.value).map (key, ·)).map (·, rest) := behind
      rw [toOption_members_step (nextKey_of_text? lead m.before named _) (colon_blank _ _),
        reads m.slot.before more boundary]
      cases value m.slot.value with
      | none => rfl
      | some a =>
        show (closed endObject (members reader fuel false more)).toOption.map _ = _
        rw [left]
        cases ms.mapM fun m => (Glyph.text? m.name).bind fun key =>
          (value m.slot.value).map (key, ·) <;> rfl

theorem length_lt_members (ms : List (MemberText β)) (fill : Blank) (rest : List Char)
    {content : List Char}
    (inside : enclosed fill (ms.map (MemberText.chars render)) ++ '\x7d' :: rest = content) :
    ms.length < content.length + 1 := by
  have nonempty : [] ∉ ms.map (MemberText.chars render) := by
    intro empty
    obtain ⟨m, there, chars⟩ := List.mem_map.mp empty
    simp [MemberText.chars, Glyph.quoted] at chars
  have enough := length_le_enclosed fill nonempty
  rw [List.length_map] at enough
  rw [← inside, List.length_append]
  omega

theorem toOption_members_enclosed {ms : List (MemberText β)}
    (each : ∀ m ∈ ms, Reads reader (render m.slot.value) (value m.slot.value))
    (fill : Blank) (rest : List Char) {content : List Char}
    (inside : enclosed fill (ms.map (MemberText.chars render)) ++ '\x7d' :: rest = content) :
    (closed endObject (members reader (content.length + 1) true content)).toOption =
      (ms.mapM fun m => (Glyph.text? m.name).bind fun key =>
        (value m.slot.value).map (key, ·)).map (·, rest) := by
  have read := toOption_members each none fill (length_lt_members ms fill rest inside) rest
  rwa [← enclosed_eq_remaining, inside] at read

end Containers

section Values

variable {β : Type} {render : β → List Char} {value : β → Option Json} {levels : Nat}

theorem reads_readValue_items {a : ArrayText β}
    (each : ∀ p ∈ a.items,
      Begins (render p.value) ∧ Reads (readValue levels) (render p.value) (value p.value)) :
    Reads (readValue (levels + 1)) (a.chars render)
      ((a.items.mapM fun p => value p.value).map .array) := by
  intro before rest _
  have text : a.chars render ++ rest =
      '[' :: (enclosed a.fill (a.items.map (Padded.chars render)) ++ ']' :: rest) := by
    simp [ArrayText.chars]
  have read := toOption_items_enclosed each a.fill rest rfl
  rw [text, readValue.eq_def]
  simp only [skipSpace_blank]
  show ((closed endArray _).map fun r => (Json.array r.1, r.2)).toOption = _
  rw [toOption_map]
  show (closed endArray _).toOption.map _ = _
  rw [read, Option.map_map, Option.map_map]
  rfl

theorem reads_readValue_members {o : ObjectText β}
    (each : ∀ m ∈ o.members, Reads (readValue levels) (render m.slot.value) (value m.slot.value)) :
    Reads (readValue (levels + 1)) (o.chars render)
      ((o.members.mapM fun m => (Glyph.text? m.name).bind fun key =>
        (value m.slot.value).map (key, ·)).map .object) := by
  intro before rest _
  have text : o.chars render ++ rest =
      '\x7b' :: (enclosed o.fill (o.members.map (MemberText.chars render)) ++ '\x7d' :: rest) := by
    simp [ObjectText.chars]
  have read := toOption_members_enclosed each o.fill rest rfl
  rw [text, readValue.eq_def]
  simp only [skipSpace_blank]
  show ((closed endObject _).map fun r => (Json.object r.1, r.2)).toOption = _
  rw [toOption_map]
  show (closed endObject _).toOption.map _ = _
  rw [read, Option.map_map, Option.map_map]
  rfl

theorem reads_readValue_none {c : Char} (opens : c = '[' ∨ c = '\x7b') (more : List Char) :
    Reads (readValue 0) (c :: more) none := by
  intro before rest _
  rw [List.cons_append, readValue.eq_def]
  simp only [skipSpace_blank]
  rcases opens with rfl | rfl <;> rfl

end Values

end Intake.Json
