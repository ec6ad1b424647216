import Intake.Proofs.Decoder.Settling
import Intake.Text.Blank

set_option autoImplicit false

/-!
What texts are read as. A container is read as what its values are read as. A number and the same
characters in quotes are read as that number, and as the text of its characters.
-/

namespace Intake.Json

open Intake.Text

/-- The value that a text is read as where that many containers may be opened. -/
def treeOf (levels : Nat) (v : ValueText) : Option Json := Decoder.json.reading levels v.val

def memberOf (levels : Nat) (m : MemberText ValueText) : Option (String × Json) :=
  (Glyph.text? m.name).bind fun key => (treeOf levels m.slot.value).map (key, ·)

theorem mapM_append_cons {α β : Type} (f : α → Option β) (front : List α) (a : α) (back : List α) :
    (front ++ a :: back).mapM f = (front.mapM f).bind fun fs =>
      (f a).bind fun b => (back.mapM f).map fun bs => fs ++ b :: bs := by
  rw [List.mapM_append, List.mapM_cons]
  cases front.mapM f with
  | none => rfl
  | some fs =>
    cases f a with
    | none => rfl
    | some b => cases back.mapM f <;> rfl

section Containers

variable {levels : Nat}

theorem memberOf_map {name : String} {member : MemberText Unit}
    (named : Glyph.text? member.name = some name) (v : ValueText) :
    memberOf levels (member.map fun _ => v) = (treeOf levels v).map (name, ·) := by
  rw [memberOf, MemberText.map, named]
  rfl

theorem name_ne_of_mapM {name : String} {ms : List (MemberText ValueText)}
    (other : ∀ m ∈ ms, Glyph.text? m.name ≠ some name) {members : List (String × Json)}
    (read : ms.mapM (memberOf levels) = some members) : ∀ e ∈ members, e.1 ≠ name := by
  intro e there same
  obtain ⟨m, member, made⟩ := exists_of_mem_forall₂ (mapM_eq_some_iff.mp read) e there
  obtain ⟨key, named, value⟩ := Option.bind_eq_some_iff.mp made
  obtain ⟨json, -, rfl⟩ := Option.map_eq_some_iff.mp value
  exact other m member (named.trans (congrArg some same))

theorem reads_treeOf (levels : Nat) (v : ValueText) : Reads (readValue levels) v.val (treeOf levels v) :=
  Decoder.isLocal_json v.property levels

def listText (ps : List (Padded ValueText)) : ValueText :=
  ⟨ArrayText.chars Subtype.val ⟨.none, ps⟩, isValue_array fun p _ => p.value.property⟩

def recordText (ms : List (MemberText ValueText)) : ValueText :=
  ⟨ObjectText.chars Subtype.val ⟨.none, ms⟩, isValue_object fun m _ => m.slot.value.property⟩

theorem treeOf_listText (ps : List (Padded ValueText)) : treeOf (levels + 1) (listText ps) =
    (ps.mapM fun p => treeOf levels p.value).map .array := by
  have each : ∀ p ∈ ps, Begins p.value.val ∧
      Reads (readValue levels) p.value.val (treeOf levels p.value) := fun p _ =>
    ⟨p.value.property.exists_cons, reads_treeOf levels p.value⟩
  have reads : Reads (Decoder.json.ofText (levels + 1)) (listText ps).val
      ((ps.mapM fun p => treeOf levels p.value).map .array) :=
    reads_readValue_items each
  exact (Decoder.reading_of_reads reads).1

theorem treeOf_recordText (ms : List (MemberText ValueText)) : treeOf (levels + 1) (recordText ms) =
    (ms.mapM (memberOf levels)).map .object := by
  have reads : Reads (Decoder.json.ofText (levels + 1)) (recordText ms).val
      ((ms.mapM (memberOf levels)).map .object) :=
    reads_readValue_members fun m _ => reads_treeOf levels m.slot.value
  exact (Decoder.reading_of_reads reads).1

end Containers

/-- A character of those that numbers are written with stands for itself in quotes, and shows. -/
structure IsLegible (c : Char) : Prop where
  low : 0x2B ≤ c.toNat
  high : c.toNat ≤ 0x65
  other : c ≠ '\\'

namespace IsLegible

variable {c : Char}

private theorem of_isDigit (digit : Digits.isDigit c = true) : IsLegible c := by
  simp only [Digits.isDigit, Bool.and_eq_true, decide_eq_true_iff] at digit
  obtain ⟨low, high⟩ := digit
  have lower : 48 ≤ c.toNat := low
  have upper : c.toNat ≤ 57 := high
  refine ⟨by omega, by omega, ?_⟩
  rintro rfl
  exact absurd upper (by decide)

private theorem allowed (legible : IsLegible c) : c ≠ '"' ∧ c ≠ '\\' ∧ 0x20 ≤ c.toNat := by
  refine ⟨?_, legible.other, Nat.le_trans (by decide) legible.low⟩
  rintro rfl
  exact absurd legible.low (by decide)

private theorem isBlank_eq_false (legible : IsLegible c) : Text.Blank.isBlank c = false := by
  have low := legible.low
  have high := legible.high
  simp only [Text.Blank.isBlank, Bool.or_eq_false_iff, Bool.and_eq_false_iff, decide_eq_false_iff_not]
  omega

end IsLegible

namespace Numeral

variable (n : Numeral)

private theorem isLegible_of_mem : ∀ c ∈ n.chars, IsLegible c := by
  have run : ∀ run : DigitRun, ∀ c ∈ run.chars, IsLegible c := fun run c there =>
    .of_isDigit (run.digits c there)
  have point : IsLegible '.' := ⟨by decide, by decide, by decide⟩
  refine List.forall_mem_append.mpr ⟨?_, List.forall_mem_append.mpr ⟨run n.whole,
    List.forall_mem_append.mpr ⟨?_, ?_⟩⟩⟩
  · unfold signChars
    split
    · exact List.forall_mem_singleton.mpr ⟨by decide, by decide, by decide⟩
    · exact List.forall_mem_nil _
  · cases fraction : n.fraction with
    | none => rw [fractionChars_none fraction]; exact List.forall_mem_nil _
    | some part =>
      rw [fractionChars_some fraction]
      exact List.forall_mem_cons.mpr ⟨point, run part⟩
  · cases exponent : n.exponent with
    | none => rw [exponentChars_none exponent]; exact List.forall_mem_nil _
    | some e =>
      rw [exponentChars_some exponent]
      refine List.forall_mem_cons.mpr ⟨?_, List.forall_mem_append.mpr ⟨?_, run e.run⟩⟩
      · rcases e.letter_eq with letter | letter <;> rw [letter] <;>
          exact ⟨by decide, by decide, by decide⟩
      · rcases e.sign_eq with sign | sign | sign <;> rw [sign]
        · exact List.forall_mem_nil _
        all_goals exact List.forall_mem_singleton.mpr ⟨by decide, by decide, by decide⟩

theorem trim_chars : Text.Blank.trim n.chars = n.chars := by
  have kept : ∀ text : List Char, (∀ c ∈ text, IsLegible c) → text.dropWhile Text.Blank.isBlank = text := by
    intro text legible
    cases text with
    | nil => rfl
    | cons c more =>
      exact List.dropWhile_cons_of_neg (by simp [(legible c List.mem_cons_self).isBlank_eq_false])
  have backwards : ∀ c ∈ n.chars.reverse, IsLegible c := fun c there =>
    n.isLegible_of_mem c (List.mem_reverse.mp there)
  rw [Text.Blank.trim, Text.Blank.trimStart, Text.Blank.trimEnd, kept _ n.isLegible_of_mem,
    kept _ backwards, List.reverse_reverse]

end Numeral

private theorem exists_glyphs {text : List Char} (legible : ∀ c ∈ text, IsLegible c) :
    ∃ glyphs, Glyph.spelled glyphs = text ∧ Glyph.meaning glyphs = .ok text := by
  induction text with
  | nil => exact ⟨[], rfl, rfl⟩
  | cons c text ih =>
    obtain ⟨here, others⟩ := List.forall_mem_cons.mp legible
    obtain ⟨glyphs, spelled, meaning⟩ := ih others
    refine ⟨.plain c here.allowed :: glyphs, ?_, ?_⟩
    · rw [Glyph.spelled_cons, spelled]
      rfl
    · rw [Glyph.meaning, meaning]
      rfl

namespace Numeral

variable (n : Numeral) (levels : Nat)

private theorem exists_quoted : ∃ glyphs, '"' :: (n.chars ++ ['"']) = Glyph.quoted glyphs ∧
    Glyph.text? glyphs = some (String.ofList n.chars) := by
  obtain ⟨glyphs, spelled, meaning⟩ := exists_glyphs n.isLegible_of_mem
  refine ⟨glyphs, ?_, ?_⟩
  · rw [Glyph.quoted, spelled]
  · rw [Glyph.text?, meaning]
    rfl

def asNumber : ValueText := ⟨n.chars, .number n⟩

def asText : ValueText := ⟨'"' :: (n.chars ++ ['"']), by
  obtain ⟨glyphs, quoted, -⟩ := n.exists_quoted
  exact quoted ▸ .string glyphs⟩

theorem treeOf_asNumber : treeOf levels n.asNumber =
    (signedNumber n.chars).toOption.map fun r => .number r.1 := by
  have front : skipSpace n.chars = n.chars := by
    have alone := (IsValue.number n).skipSpace_append []
    rwa [List.append_nil] at alone
  have scalar := readScalar_numeral n []
  rw [List.append_nil] at scalar
  show (readValue levels n.chars).toOption.map Prod.fst = _
  rw [readValue]
  simp only [front, scalar, toOption_map, Option.map_map]
  rfl

theorem treeOf_asText : treeOf levels n.asText = some (.string (String.ofList n.chars)) := by
  obtain ⟨glyphs, quoted, text⟩ := n.exists_quoted
  have front := (IsValue.string glyphs).skipSpace_append []
  have scalar := readScalar_quoted glyphs []
  rw [List.append_nil] at front scalar
  show (readValue levels ('"' :: (n.chars ++ ['"']))).toOption.map Prod.fst = _
  rw [quoted, readValue]
  simp only [front, scalar]
  obtain ⟨chars, meant, same⟩ := Glyph.text?_eq_some_iff.mp text
  rw [meant, ← same]
  rfl

theorem eq_nil_of_signedNumber {n : Numeral} {j : JsonNumber} {rest : List Char}
    (number : signedNumber n.chars = .ok (j, rest)) : rest = [] := by
  obtain ⟨result, -, same⟩ := settles_signedNumber n
  have alone := same [] isBoundary_nil
  simp only [List.append_nil, number] at alone
  cases result with
  | error stop => cases alone
  | ok other => exact (Prod.mk.inj (Except.ok.inj alone)).2

end Numeral

end Intake.Json
