import Intake.Proofs.Decoder.Members
import Intake.Proofs.Relational.Secret

set_option autoImplicit false

/-!
The login that a secret holds. A secret that is an object holds one if host, name and password each
stand in it once, as texts, wherever they stand and whatever else does.
-/

namespace Intake.Relational

open Intake.Json Intake.Decoder

/-- An object has one member of a name, and that is a text. -/
def HoldsText (o : ObjectText ValueText) (name s : String) : Prop :=
  ∃ m, o.members.filter (fun m => Glyph.text? m.name = some name) = [m] ∧
    IsContent m.slot.value.val s

/-- What an object means as a login. -/
structure IsLogin (o : ObjectText ValueText) (login : Credentials) : Prop where
  names : ∀ m ∈ o.members, (Glyph.text? m.name).isSome
  host : HoldsText o "host" login.host
  username : HoldsText o "username" login.username
  password : HoldsText o "password" login.password

/-- A secret that is an object, with white space around it. -/
def secretOf (before : Blank) (o : ObjectText ValueText) (after : Blank) : String :=
  String.ofList (before.chars ++ (o.chars Subtype.val ++ after.chars))

section Members

variable (levels : Nat) {o : ObjectText ValueText} {pairs : List (String × List Char)}

private theorem slotOf_iff_holdsText (named : pairsOf Subtype.val o.members = some pairs)
    (name s : String) :
    slotOf (Decoder.string.reading levels) name none pairs = some (some s) ↔ HoldsText o name s := by
  rw [slotOf_none_eq_some_iff, textsOf_pairsOf named name]
  constructor
  · rintro ⟨text, single, read⟩
    obtain ⟨m, own, rfl⟩ := List.map_eq_singleton_iff.mp single
    exact ⟨m, own, ((string_iff levels m.slot.value.property).2 s).mp read⟩
  · rintro ⟨m, own, content⟩
    refine ⟨m.slot.value.val, ?_, ((string_iff levels m.slot.value.property).2 s).mpr content⟩
    rw [own]
    rfl

private theorem membersFrom_login (named : pairsOf Subtype.val o.members = some pairs)
    (login : Credentials) :
    (membersFrom Credentials.fields levels Credentials.fields.blank (some pairs)).map
        Credentials.ofFields = some login ↔
      HoldsText o "host" login.host ∧ HoldsText o "username" login.username ∧
        HoldsText o "password" login.password := by
  simp only [← slotOf_iff_holdsText levels named, membersFrom, Credentials.fields,
    Fields.blank, Fields.slotsOf, Option.bind_some]
  obtain ⟨host, username, password⟩ := login
  rcases slotOf (Decoder.string.reading levels) "host" none pairs with _ | _ | h <;>
    rcases slotOf (Decoder.string.reading levels) "username" none pairs with _ | _ | u <;>
    rcases slotOf (Decoder.string.reading levels) "password" none pairs with _ | _ | p <;>
    simp [Fields.complete, Credentials.ofFields, Except.toOption, bind, Except.bind, pure, Except.pure,
      Decoder.string, Decoder.scalar]

end Members

theorem Credentials.ofSecret_eq_ok_iff (before : Blank) (o : ObjectText ValueText) (after : Blank)
    (login : Credentials) : ofSecret (secretOf before o after) = .ok login ↔ IsLogin o login := by
  have text : ∀ m ∈ o.members, Decoder.string.IsLocal 126 m.slot.value.val := fun m _ =>
    (string_iff 126 m.slot.value.property).1
  have reads : Reads (decoder.ofText maxLevels) (o.chars Subtype.val)
      ((membersFrom fields 126 fields.blank (pairsOf Subtype.val o.members)).bind
        fun r => some (ofFields r)) := by
    refine reads_record rfl (by decide) ?_
    intro m there
    exact ⟨m.slot.value.property, fun key _ =>
      ⟨fun _ => text m there, fun _ => text m there, fun _ => text m there, trivial⟩⟩
  have parsed : ofSecret (secretOf before o after) = .ok login ↔
      (decoder.parse (secretOf before o after)).toOption = some login := by
    unfold ofSecret
    cases decoder.parse (secretOf before o after) <;> simp [Except.toOption]
  rw [parsed, secretOf, toOption_parse_of_reads reads before after]
  cases named : pairsOf Subtype.val o.members with
  | none =>
    refine iff_of_false (by simp [membersFrom]) ?_
    intro isLogin
    have all : (pairsOf Subtype.val o.members).isSome := isSome_pairsOf.mpr isLogin.names
    simp [named] at all
  | some pairs =>
    have names : ∀ m ∈ o.members, (Glyph.text? m.name).isSome :=
      isSome_pairsOf.mp (Option.isSome_of_eq_some named)
    have members := membersFrom_login 126 named login
    rw [Option.map_eq_bind] at members
    refine members.trans ?_
    constructor
    · rintro ⟨host, username, password⟩
      exact ⟨names, host, username, password⟩
    · intro isLogin
      exact ⟨isLogin.host, isLogin.username, isLogin.password⟩

end Intake.Relational
