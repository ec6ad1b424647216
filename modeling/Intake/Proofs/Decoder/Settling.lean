import Intake.Proofs.Decoder.Scalar
import Intake.Proofs.Json.Place

set_option autoImplicit false

/-!
Reading to the letter. What a decoder makes of a value, or the fault that it finds in it, does not
depend on what stands behind the value; so what is made of the members of an object is made of one
after the other.
-/

namespace Intake

open Intake.Json

namespace Json

section Faults

private theorem map_eq_error {ε α β : Type} {f : α → β} {x : Except ε α} {e : ε}
    (refused : x.map f = .error e) : x = .error e := by
  cases x with
  | ok a => cases refused
  | error other => exact congrArg Except.error (Except.error.inj refused)

private theorem Stop.IsIn.of_le {stop : Stop} {text longer : List Char} (inside : stop.IsIn text)
    (le : text.length ≤ longer.length) : stop.IsIn longer :=
  ⟨Nat.le_trans inside.length_le le, inside.near⟩

private theorem isIn_here (m : Malformed) (text : List Char) : (Stop.here m text).IsIn text :=
  ⟨Nat.le_refl _, by simp [Stop.here]⟩

private theorem isIn_next (m : Malformed) (text : List Char) : (Stop.next m text).IsIn text :=
  ⟨Nat.le_refl _, by simp [Stop.next]⟩

private theorem isIn_of_meaning (glyphs : List Glyph) {stop : Stop}
    (refused : Glyph.meaning glyphs = .error stop) :
    stop.IsIn (Glyph.spelled glyphs ++ ['"']) := by
  have later : ∀ {g : Glyph} {rest : List Glyph}, stop.IsIn (Glyph.spelled rest ++ ['"']) →
      stop.IsIn (Glyph.spelled (g :: rest) ++ ['"']) := by
    intro g rest inside
    refine inside.of_le ?_
    simp only [Glyph.spelled_cons, List.length_append]
    omega
  fun_induction Glyph.meaning glyphs with
  | case1 => cases refused
  | case2 c allowed rest ih => exact later (ih (map_eq_error refused))
  | case3 letter meant known rest ih => exact later (ih (map_eq_error refused))
  | case5 a b c d bits known rest low other ih => exact later (ih (map_eq_error refused))
  | case6 a b c d bits known low high a' b' c' d' second known' rest isLow ih =>
    exact later (later (ih (map_eq_error refused)))
  | case4 a b c d bits known rest low =>
    exact later (Except.error.inj refused ▸ isIn_here _ _)
  | case7 a b c d bits known low high a' b' c' d' second known' rest notLow =>
    exact later (later (Except.error.inj refused ▸ isIn_here _ _))
  | case8 a b c d bits known low high letter meant known' rest =>
    refine later (Except.error.inj refused ▸ (isIn_next _ _).of_le ?_)
    exact Nat.le_succ _
  | case9 a b c d bits known low high rest notHex notShort =>
    exact later (Except.error.inj refused ▸ isIn_next _ _)

private theorem Settles.map {α β : Type} {text : List Char}
    {read : List Char → Except Stop (Read α)} (settles : Settles text read) (f : α → β) :
    Settles text fun tail => (read tail).map fun r => (f r.1, r.2) := by
  obtain ⟨result, inside, same⟩ := settles
  refine ⟨result.map f, fun stop refused => inside stop (map_eq_error refused), ?_⟩
  intro tail boundary
  rw [placed_map, ← same tail boundary]

private theorem settles_quoted (glyphs : List Glyph) : Settles (Glyph.quoted glyphs) fun tail =>
    placed ((Glyph.meaning glyphs).map String.ofList) tail := by
  refine ⟨_, fun stop refused => ?_, fun tail _ => rfl⟩
  exact (isIn_of_meaning glyphs (map_eq_error refused)).of_le (Nat.le_succ _)

private theorem IsValue.readScalar_settles {value : List Char} (sound : IsValue value) :
    (∃ more, value = '[' :: more) ∨ (∃ more, value = '\x7b' :: more) ∨
      ∃ read, Settles value read ∧
        ∀ tail, IsBoundary tail → readScalar (value ++ tail) = some (read tail) := by
  cases sound with
  | word known =>
    simp only [valueWords, List.mem_cons, List.not_mem_nil, or_false] at known
    rcases known with rfl | rfl | rfl
    · exact .inr (.inr ⟨_, settles_ok _ .null, fun tail _ => rfl⟩)
    · exact .inr (.inr ⟨_, settles_ok _ (.bool true), fun tail _ => rfl⟩)
    · exact .inr (.inr ⟨_, settles_ok _ (.bool false), fun tail _ => rfl⟩)
  | number n =>
    have read := (settles_signedNumber n).map Json.number
    exact .inr (.inr ⟨_, read, fun tail _ => readScalar_numeral n tail⟩)
  | string glyphs =>
    have read := (settles_quoted glyphs).map Json.string
    exact .inr (.inr ⟨_, read, fun tail _ => readScalar_quoted glyphs tail⟩)
  | array a items => exact .inl ⟨_, rfl⟩
  | object o members => exact .inr (.inl ⟨_, rfl⟩)

end Faults

end Json

namespace Decoder

variable {α : Type} {expected : String} {accept : Json → Option (Except Mismatch α)}

/-- What a decoder of scalars makes of a text without white space in front of it. -/
def scalarHere (expected : String) (accept : Json → Option (Except Mismatch α)) : TextReader α :=
  fun text =>
    match readScalar text with
    | none => .error (mistyped expected text)
    | some (.error stop) => .error stop
    | some (.ok (json, rest)) =>
      match accept json with
      | some (.ok a) => .ok (a, rest)
      | some (.error m) => .error ((Stop.pending m rest).settle rest)
      | none => .error (mistyped expected text)

private theorem scalarOfText_eq (text : List Char) :
    scalarOfText expected accept text = scalarHere expected accept (skipSpace text) := rfl

private theorem settles_scalarOfText {value : List Char} (sound : IsValue value) :
    Settles value fun tail => scalarOfText expected accept (value ++ tail) := by
  have refused : ∀ {cause : Cause} {text : List Char}, text.length ≤ value.length →
      ∀ stop, (.error ⟨cause, text, some 0⟩ : Except Stop α) = .error stop → stop.IsIn value := by
    intro cause text le stop same
    rw [← Except.error.inj same]
    exact ⟨le, by simp⟩
  have front : ∀ tail, scalarOfText expected accept (value ++ tail) =
      scalarHere expected accept (value ++ tail) := by
    intro tail
    rw [scalarOfText_eq, sound.skipSpace_append]
  obtain ⟨more, rfl⟩ | ⟨more, rfl⟩ | ⟨read, ⟨result, inside, same⟩, scalar⟩ :=
    sound.readScalar_settles
  · refine ⟨.error ⟨.mismatch (.invalidType .sequence expected), '[' :: more, some 0⟩,
      refused (Nat.le_refl _), fun tail _ => ?_⟩
    exact front tail
  · refine ⟨.error ⟨.mismatch (.invalidType .map expected), '\x7b' :: more, some 0⟩,
      refused (Nat.le_refl _), fun tail _ => ?_⟩
    exact front tail
  · -- What has been read of the value is settled, so only the answer of the decoder is left.
    cases result with
    | error stop =>
      refine ⟨.error stop, ?_, fun tail boundary => ?_⟩
      · intro other again
        exact inside other (congrArg Except.error (Except.error.inj again))
      · simp only [front, scalarHere, scalar tail boundary, same tail boundary]
        rfl
    | ok json =>
      cases accepted : accept json with
      | none =>
        refine ⟨.error ⟨.mismatch (.invalidType (found json) expected), [], some 0⟩,
          refused (Nat.zero_le _), fun tail boundary => ?_⟩
        simp only [front, scalarHere, scalar tail boundary, same tail boundary, placed, accepted,
          mistyped]
        rfl
      | some answer =>
        cases answer with
        | error m =>
          refine ⟨.error ⟨.mismatch m, [], some 0⟩, refused (Nat.zero_le _), fun tail boundary => ?_⟩
          simp only [front, scalarHere, scalar tail boundary, same tail boundary, placed, accepted]
          rfl
        | ok a =>
          refine ⟨.ok a, by simp, fun tail boundary => ?_⟩
          simp only [front, scalarHere, scalar tail boundary, same tail boundary, placed, accepted]

section Readers

variable {β : Type} {reader : List Char → Except Stop (Read α)} {value : List Char}

/-- A reader reads a value to the letter, behind any white space and in front of any boundary. -/
def IsExact (reader : List Char → Except Stop (Read α)) (value : List Char) : Prop :=
  ∃ result : Except Stop α, (∀ stop, result = .error stop → stop.IsIn value) ∧
    ∀ (before : Blank) (tail : List Char), IsBoundary tail →
      reader (before.chars ++ (value ++ tail)) = placed result tail

/-- What a reader makes of a value alone. -/
def verdict (reader : List Char → Except Stop (Read α)) (value : List Char) : Except Stop α :=
  (reader value).map Prod.fst

private theorem IsExact.settled (exact : IsExact reader value) :
    (∀ stop, verdict reader value = .error stop → stop.IsIn value) ∧
      ∀ (before : Blank) (tail : List Char), IsBoundary tail →
        reader (before.chars ++ (value ++ tail)) = placed (verdict reader value) tail := by
  obtain ⟨result, inside, read⟩ := exact
  have alone : reader value = placed result [] := by
    have front := read Blank.none [] isBoundary_nil
    rwa [List.append_nil] at front
  have same : verdict reader value = result := by
    rw [verdict, alone]
    cases result with
    | ok a => rfl
    | error stop => simp [placed, Except.map, Stop.extend]
  rw [same]
  exact ⟨inside, read⟩

private theorem IsExact.map (exact : IsExact reader value) (f : α → β) :
    IsExact (f <$> reader : TextReader β) value := by
  obtain ⟨result, inside, read⟩ := exact
  refine ⟨result.map f, fun stop refused => inside stop (map_eq_error refused), ?_⟩
  intro before tail boundary
  show (reader (before.chars ++ (value ++ tail)) >>= fun r => pure (f r.1, r.2)) = _
  rw [read before tail boundary]
  cases result <;> rfl

theorem isExact_scalarOfText (sound : IsValue value) :
    IsExact (scalarOfText expected accept) value := by
  have settles : Settles value fun tail => scalarOfText expected accept (value ++ tail) :=
    settles_scalarOfText sound
  obtain ⟨result, inside, read⟩ := settles
  refine ⟨result, inside, fun before tail boundary => ?_⟩
  rw [← read tail boundary]
  simp only [scalarOfText, skipSpace_blank]

end Readers

namespace Fields

variable {ν σ : Type} {levels : Nat} {key : String} {value : List Char}

/-- The member of that name, if the record has it, is read to the letter. -/
def IsExact (levels : Nat) (key : String) (value : List Char) : {ν σ : Type} → Fields ν σ → Prop
  | _, _, .nil => True
  | _, _, .cons name d _ rest =>
    (key = name → Decoder.IsExact (d.ofText levels) value) ∧ rest.IsExact levels key value

private theorem isExact_of_member {fields : Fields ν σ} (exact : fields.IsExact levels key value)
    {slots : σ} {read : TextReader σ}
    (found : fields.member (fun d => d.ofText levels) key slots = .fresh read) :
    Decoder.IsExact read value := by
  induction fields with
  | nil => cases found
  | cons name d fallback rest ih =>
    obtain ⟨slot, slots⟩ := slots
    obtain ⟨here, others⟩ := exact
    by_cases same : key = name
    · simp only [member, if_pos same] at found
      cases slot with
      | some a => cases found
      | none =>
        cases found
        exact (here same).map _
    · simp only [member, if_neg same] at found
      cases behind : rest.member (fun d => d.ofText levels) key slots with
      | unknown => simp [behind] at found
      | repeated => simp [behind] at found
      | fresh inner =>
        simp only [behind, Member.fresh.injEq] at found
        rw [← found]
        exact (ih others behind).map _

end Fields

section Members

variable {ν σ : Type} {form : Form} {fields : Fields ν σ} {levels : Nat}

def behindName (m : MemberText ValueText) : List Char :=
  m.between.chars ++ ':' :: (m.slot.before.chars ++ m.slot.value.val)

def memberOutcome (fields : Fields ν σ) (levels : Nat) (slots : σ) (m : MemberText ValueText) :
    Except Stop σ :=
  match Glyph.meaning m.name with
  | .error stop => .error (stop.extend (behindName m))
  | .ok chars =>
    match fields.member (fun d => d.ofText levels) (String.ofList chars) slots with
    | .unknown => .ok slots
    | .repeated => .error (.pending (.duplicateField (String.ofList chars)) (behindName m))
    | .fresh read => verdict read m.slot.value.val

/-- What a record makes of the members of an object, one after the other. -/
def membersOutcome (fields : Fields ν σ) (levels : Nat) (fill : Blank) :
    σ → List (MemberText ValueText) → Except Stop σ
  | slots, [] => .ok slots
  | slots, m :: ms =>
    match memberOutcome fields levels slots m with
    | .ok slots => membersOutcome fields levels fill slots ms
    | .error stop => .error (stop.extend
      (remaining (some m.slot.after) fill (ms.map (MemberText.chars Subtype.val))))

theorem isIn_of_memberOutcome {m : MemberText ValueText} {slots : σ}
    (exact : ∀ key, fields.IsExact levels key m.slot.value.val) {stop : Stop}
    (refused : memberOutcome fields levels slots m = .error stop) :
    stop.IsIn (Glyph.quoted m.name ++ behindName m) := by
  rw [memberOutcome] at refused
  cases meant : Glyph.meaning m.name with
  | error inner =>
    rw [meant] at refused
    obtain ⟨length_le, near⟩ := isIn_of_meaning m.name meant
    rw [← Except.error.inj refused]
    refine ⟨?_, near⟩
    simp only [Stop.extend, Glyph.quoted, List.length_append, List.length_cons,
      List.length_nil] at length_le ⊢
    omega
  | ok chars =>
    simp only [meant] at refused
    cases found : fields.member (fun d => d.ofText levels) (String.ofList chars) slots with
    | unknown => simp only [found] at refused; cases refused
    | repeated =>
      simp only [found] at refused
      rw [← Except.error.inj refused]
      exact ⟨(List.suffix_append _ _).length_le, by simp [Stop.pending]⟩
    | fresh read =>
      simp only [found] at refused
      refine ((Fields.isExact_of_member (exact _) found).settled.1 stop refused).of_le ?_
      simp only [behindName, List.length_append, List.length_cons]
      omega

private theorem membersOfText_member (openForm : form.isClosed = false) (m : MemberText ValueText)
    (exact : ∀ key, fields.IsExact levels key m.slot.value.val) (slots : σ) (lead : Option Blank)
    (fuel : Nat) {more : List Char} (boundary : IsBoundary more) :
    membersOfText form fields levels (fuel + 1) lead.isNone slots
        (leadChars lead ++ (m.before.chars ++ (Glyph.quoted m.name ++ (m.between.chars ++
          ':' :: (m.slot.before.chars ++ (m.slot.value.val ++ more)))))) =
      match memberOutcome fields levels slots m with
      | .ok slots => membersOfText form fields levels fuel false slots more
      | .error stop => .error (stop.extend more) := by
  have next := nextKey_lead lead m.before m.name
    (m.between.chars ++ ':' :: (m.slot.before.chars ++ (m.slot.value.val ++ more)))
  have behind : behindName m ++ more =
      m.between.chars ++ ':' :: (m.slot.before.chars ++ (m.slot.value.val ++ more)) := by
    simp [behindName]
  rw [memberOutcome]
  cases meant : Glyph.meaning m.name with
  | error stop =>
    rw [meant] at next
    rw [membersOfText, next]
    show Except.error (stop.extend _) = Except.error ((stop.extend (behindName m)).extend more)
    rw [extend_extend, behind]
  | ok chars =>
    rw [meant] at next
    rw [membersOfText_cons openForm next (colon_blank _ _)]
    cases found : fields.member (fun d => d.ofText levels) (String.ofList chars) slots with
    | unknown =>
      simp only [skipValue_value m.slot.value.property m.slot.before boundary, found]
      rfl
    | repeated =>
      simp only [← behind, found]
      rfl
    | fresh read =>
      have settled := (Fields.isExact_of_member (exact _) found).settled
      simp only [settled.2 m.slot.before more boundary, found]
      cases verdict read m.slot.value.val <;> rfl

private theorem closed_membersOfText (openForm : form.isClosed = false)
    {ms : List (MemberText ValueText)}
    (exact : ∀ m ∈ ms, ∀ key, fields.IsExact levels key m.slot.value.val) (slots : σ)
    (lead : Option Blank) (fill : Blank) {fuel : Nat} (enough : ms.length < fuel)
    (rest : List Char) :
    closed endObject (membersOfText form fields levels fuel lead.isNone slots
        (remaining lead fill (ms.map (MemberText.chars Subtype.val)) ++ '\x7d' :: rest)) =
      match membersOutcome fields levels fill slots ms with
      | .error stop => .error (closeStop (stop.extend ('\x7d' :: rest)))
      | .ok slots =>
        match fields.complete slots with
        | .ok value => .ok (value, rest)
        | .error m => .error ⟨.mismatch m, rest, some 0⟩ := by
  induction ms generalizing slots lead fuel with
  | nil =>
    obtain ⟨fuel, rfl⟩ := Nat.exists_eq_add_one.mpr enough
    rw [List.map_nil, remaining, membersOfText, nextKey_end]
    simp only [bind, Except.bind, membersOutcome]
    cases fields.complete slots with
    | ok value =>
      show (endObject _).map _ = _
      rw [endObject_blank]
      rfl
    | error m =>
      simp only [skipSpace_blank, closed_error]
      rfl
  | cons m ms ih =>
    obtain ⟨fuel, rfl⟩ := Nat.exists_eq_add_one.mpr (Nat.zero_lt_of_lt enough)
    obtain ⟨here, others⟩ := List.forall_mem_cons.mp exact
    have boundary := isBoundary_remaining m.slot.after fill (ms.map (MemberText.chars Subtype.val))
      (.inr rfl) rest
    have behind := fun slots => ih others slots (some m.slot.after) (Nat.lt_of_succ_lt_succ enough)
    rw [remaining_member, membersOfText_member openForm m here slots lead fuel boundary,
      membersOutcome]
    cases memberOutcome fields levels slots m with
    | ok slots => exact behind slots
    | error stop =>
      simp only [closed_error, extend_extend]

/-- A record is read from an object to the letter. -/
theorem record_ofText (openForm : form.isClosed = false) (f : ν → α) {o : ObjectText ValueText}
    (exact : ∀ m ∈ o.members, ∀ key, fields.IsExact levels key m.slot.value.val)
    (before : Blank) (rest : List Char) :
    (record form fields fun value => .ok (f value)).ofText (levels + 1)
        (before.chars ++ (o.chars Subtype.val ++ rest)) =
      match membersOutcome fields levels o.fill fields.blank o.members with
      | .error stop => .error (closeStop (stop.extend ('\x7d' :: rest)))
      | .ok slots =>
        match fields.complete slots with
        | .ok value => .ok (f value, rest)
        | .error m => .error ⟨.mismatch m, rest, some 0⟩ := by
  have text : o.chars Subtype.val ++ rest = '\x7b' ::
      (enclosed o.fill (o.members.map (MemberText.chars Subtype.val)) ++ '\x7d' :: rest) := by
    simp [ObjectText.chars]
  generalize inside : enclosed o.fill (o.members.map (MemberText.chars Subtype.val)) ++
    '\x7d' :: rest = content at text
  have enough := length_lt_members o.members o.fill rest inside
  have read := closed_membersOfText openForm exact fields.blank none o.fill enough rest
  rw [← enclosed_eq_remaining, inside] at read
  have made := closed_map endObject f
    (membersOfText form fields levels (content.length + 1) true fields.blank content)
  simp only [text, record, skipSpace_blank]
  refine (congrArg (closed endObject) ?_).trans (made.trans ?_)
  · dsimp only
    cases membersOfText form fields levels (content.length + 1) true fields.blank content <;> rfl
  rw [show (true : Bool) = (none : Option Blank).isNone from rfl, read]
  cases membersOutcome fields levels o.fill fields.blank o.members with
  | error stop => rfl
  | ok slots =>
    simp only
    cases fields.complete slots <;> rfl

/-- What a document is read as that holds an object of which this has been made. -/
def documentOf (fields : Fields ν σ) (f : ν → α) (text after : List Char) :
    Except Stop σ → Except Fault α
  | .error stop => .error ((closeStop (stop.extend ('\x7d' :: after))).fault text)
  | .ok slots =>
    match fields.complete slots with
    | .ok value => .ok (f value)
    | .error m => .error (Stop.fault text ⟨.mismatch m, after, some 0⟩)

theorem record_parse (openForm : form.isClosed = false) (f : ν → α) {o : ObjectText ValueText}
    (exact : ∀ m ∈ o.members, ∀ key, fields.IsExact 126 key m.slot.value.val)
    (before after : Blank) {text : List Char}
    (whole : before.chars ++ (o.chars Subtype.val ++ after.chars) = text) :
    (record form fields fun value => .ok (f value)).parse (String.ofList text) =
      documentOf fields f text after.chars
        (membersOutcome fields 126 o.fill fields.blank o.members) := by
  have read := record_ofText openForm f exact before after.chars
  have behind := skipSpace_blank after []
  rw [List.append_nil] at behind
  rw [whole] at read
  rw [Decoder.parse, String.toList_ofList, Json.whole, show maxLevels = 126 + 1 from rfl, read]
  cases membersOutcome fields 126 o.fill fields.blank o.members with
  | error stop => rfl
  | ok slots =>
    simp only [documentOf]
    cases fields.complete slots with
    | error m => rfl
    | ok value =>
      simp only [behind]
      rfl

end Members

private theorem isLocal_json_scalar {text : List Char} (sound : IsValue text)
    {read : List Char → Except Stop (Read Json)} (settles : Settles text read)
    (scalar : ∀ tail, IsBoundary tail → readScalar (text ++ tail) = some (read tail))
    (levels : Nat) : json.IsLocal levels text := by
  obtain ⟨result, -, placed⟩ := settles
  have reads : Reads (json.ofText levels) text result.toOption := by
    intro before rest boundary
    show (readValue levels _).toOption = _
    rw [readValue.eq_def]
    simp only [skipSpace_blank, sound.skipSpace_append, scalar rest boundary, placed rest boundary]
    cases result <;> rfl
  exact (reading_of_reads reads).2

theorem isLocal_json {text : List Char} (sound : IsValue text) (levels : Nat) :
    json.IsLocal levels text := by
  induction sound generalizing levels with
  | @word chars known =>
    obtain ⟨more, rfl⟩ | ⟨more, rfl⟩ | ⟨read, settles, scalar⟩ := (IsValue.word known).readScalar_settles
    · simp [valueWords] at known
    · simp [valueWords] at known
    · exact isLocal_json_scalar (.word known) settles scalar levels
  | number n =>
    exact isLocal_json_scalar (.number n) ((settles_signedNumber n).map Json.number)
      (fun tail _ => readScalar_numeral n tail) levels
  | string glyphs =>
    exact isLocal_json_scalar (.string glyphs) ((settles_quoted glyphs).map Json.string)
      (fun tail _ => readScalar_quoted glyphs tail) levels
  | array a items ih =>
    cases levels with
    | zero => exact (reading_of_reads (reads_readValue_none (.inl rfl) _)).2
    | succ levels =>
      have each : ∀ p ∈ a.items, Begins (id p.value) ∧
          Reads (readValue levels) (id p.value) (json.reading levels p.value) :=
        fun p there => ⟨(items p there).exists_cons, ih p there levels⟩
      exact (reading_of_reads (reads_readValue_items each)).2
  | object o members ih =>
    cases levels with
    | zero => exact (reading_of_reads (reads_readValue_none (.inr rfl) _)).2
    | succ levels =>
      have each : ∀ m ∈ o.members,
          Reads (readValue levels) (id m.slot.value) (json.reading levels m.slot.value) :=
        fun m there => ih m there levels
      exact (reading_of_reads (reads_readValue_members each)).2

end Decoder

end Intake
