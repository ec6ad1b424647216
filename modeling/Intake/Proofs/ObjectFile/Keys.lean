import Intake.ObjectFile.Notification
import Intake.Proofs.Text.Percent

set_option autoImplicit false

/-!
Keys of objects in notifications. A sender may write each character of a key as it is or as the escapes
of its bytes, and a space also as a plus sign; whichever way it takes, the key is found again. A text
is refused only if what is left of it, with plus signs turned into spaces and escapes resolved, is no
text.
-/

namespace Intake.ObjectFile

open Intake.Text Intake.Text.Percent

/-- The escape of a byte, with digits of either case. -/
def IsEscapeOf (b : UInt8) (text : List Char) : Prop :=
  ∃ high low, text = ['%', high, low] ∧ Digits.IsHex high (b.toNat / 16) ∧
    Digits.IsHex low (b.toNat % 16)

/-- The ways to write a character of a key. -/
inductive Writes (c : Char) : List Char → Prop where
  | itself (allowed : c ≠ '%' ∧ c ≠ '+' ∧ c ≠ ' ') : Writes c [c]
  | plus (space : c = ' ') : Writes c ['+']
  | escaped {escapes : List (List Char)}
      (each : List.Forall₂ IsEscapeOf (String.utf8EncodeChar c) escapes) : Writes c escapes.flatten

/-- A text is an encoding of a key: the characters of the key are written one after the other, each in
one of the ways. -/
def Encodes (key text : String) : Prop :=
  ∃ parts, List.Forall₂ Writes key.toList parts ∧ text.toList = parts.flatten

def spaced (text : List Char) : List Char := text.map fun c => if c = '+' then ' ' else c

section Encodings

variable {rest out : List UInt8} {c : Char}

private theorem spaced_append (front back : List Char) :
    spaced (front ++ back) = spaced front ++ spaced back :=
  List.map_append

private theorem spaced_singleton (other : c ≠ '+') : spaced [c] = [c] := by
  simp [spaced, other]

private theorem resolves_escape {b : UInt8} {text : List Char} (escape : IsEscapeOf b text)
    (behind : Resolves rest out) :
    Resolves (Utf8.encode (spaced text) ++ rest) (b :: out) := by
  obtain ⟨high, low, rfl, first, second⟩ := escape
  have written : Utf8.encode (spaced ['%', high, low]) ++ rest =
      0x25 :: UInt8.ofNat high.toNat :: UInt8.ofNat low.toNat :: rest := by
    have kept : spaced ['%', high, low] = ['%', high, low] := by
      simp [spaced, first.ne_plus, second.ne_plus]
    rw [kept]
    simp only [Utf8.encode_cons, Utf8.encode_nil, Utf8.encodeChar_one first.toNat_lt,
      Utf8.encodeChar_one second.toNat_lt]
    rfl
  rw [written]
  refine .escape ⟨?_, ?_⟩ behind
  · rwa [Utf8.ofNat_toNat_byte first.toNat_lt]
  · rwa [Utf8.ofNat_toNat_byte second.toNat_lt]

private theorem resolves_escapes {bytes : List UInt8} {escapes : List (List Char)}
    (each : List.Forall₂ IsEscapeOf bytes escapes) (behind : Resolves rest out) :
    Resolves (Utf8.encode (spaced escapes.flatten) ++ rest) (bytes ++ out) := by
  induction each with
  | nil => exact behind
  | @cons b text bytes escapes here _ ih =>
    rw [List.flatten_cons, spaced_append, Utf8.encode_append, List.append_assoc]
    exact resolves_escape here ih

private theorem resolves_writes {part : List Char} (writes : Writes c part)
    (behind : Resolves rest out) :
    Resolves (Utf8.encode (spaced part) ++ rest) (String.utf8EncodeChar c ++ out) := by
  cases writes with
  | itself allowed =>
    obtain ⟨percent, plus, -⟩ := allowed
    rw [spaced_singleton plus, Utf8.encode_cons, Utf8.encode_nil, List.append_nil]
    exact behind.append (notMem_encodeChar percent)
  | plus space =>
    subst space
    have space : 0x25 ∉ String.utf8EncodeChar ' ' := notMem_encodeChar (by decide)
    exact behind.append space
  | escaped each => exact resolves_escapes each behind

private theorem resolves_encoding {chars : List Char} {parts : List (List Char)}
    (each : List.Forall₂ Writes chars parts) :
    Resolves (Utf8.encode (spaced parts.flatten)) (Utf8.encode chars) := by
  induction each with
  | nil => exact .nil
  | @cons c part chars parts here _ ih =>
    rw [List.flatten_cons, spaced_append, Utf8.encode_append, Utf8.encode_cons]
    exact resolves_writes here ih

end Encodings

/-- The bytes that are left of a text are those of a key, which is the answer, or of no text at all. -/
theorem decodeKey_cases (raw : String) :
    (∃ key, Utf8.encode key.toList = unescape (Utf8.encode (spaced raw.toList)) ∧
      decodeKey raw = .ok key) ∨
    ((∀ chars, Utf8.encode chars ≠ unescape (Utf8.encode (spaced raw.toList))) ∧
      ∃ reason, decodeKey raw = .error (.invalidKey raw reason)) := by
  have left : ∀ outcome, Utf8.decode (unescape (Utf8.encode (spaced raw.toList))) = outcome →
      Percent.decode (raw.toList.map fun c => if c = '+' then ' ' else c) = outcome :=
    fun _ same => same
  cases read : Utf8.decode (unescape (Utf8.encode (spaced raw.toList))) with
  | ok chars =>
    refine .inl ⟨String.ofList chars, ?_, by rw [decodeKey, left _ read]⟩
    rw [String.toList_ofList]
    exact Utf8.decode_eq_ok_iff.mp read
  | error fault =>
    refine .inr ⟨?_, fault.message, by rw [decodeKey, left _ read]⟩
    intro chars same
    rw [Utf8.decode_eq_ok_iff.mpr same] at read
    cases read

/-- Decoding undoes every encoding of a key. Of any text determined bytes are left once its plus signs
are spaces and its escapes are resolved: they are the bytes of the key that is found, and the text is
refused, by name, exactly if they are the bytes of no text. -/
theorem decodeKey_undoes :
    (∀ key text, Encodes key text → decodeKey text = .ok key) ∧
    ∀ raw : String, ∃ left,
      (∀ bytes, Resolves (Utf8.encode (spaced raw.toList)) bytes ↔ bytes = left) ∧
      (∀ key, decodeKey raw = .ok key ↔ Utf8.encode key.toList = left) ∧
      ((∃ reason, decodeKey raw = .error (.invalidKey raw reason)) ↔
        ∀ chars, Utf8.encode chars ≠ left) := by
  have found : ∀ raw key : String,
      Utf8.encode key.toList = unescape (Utf8.encode (spaced raw.toList)) →
      decodeKey raw = .ok key := by
    intro raw key same
    rcases decodeKey_cases raw with ⟨other, left, read⟩ | ⟨nothing, -⟩
    · rw [read, String.toList_inj.mp (Utf8.encode_injective (left.trans same.symm))]
    · exact absurd same (nothing key.toList)
  constructor
  · rintro key text ⟨parts, each, written⟩
    apply found
    have left := resolves_iff.mp (resolves_encoding each)
    rwa [← written] at left
  · intro raw
    refine ⟨unescape (Utf8.encode (spaced raw.toList)), fun bytes => resolves_iff, ?_, ?_⟩
    · intro key
      refine ⟨fun read => ?_, found raw key⟩
      rcases decodeKey_cases raw with ⟨other, left, same⟩ | ⟨-, reason, refused⟩
      · rw [same] at read
        rwa [← Except.ok.inj read]
      · rw [refused] at read
        cases read
    · rcases decodeKey_cases raw with ⟨key, left, read⟩ | ⟨nothing, refused⟩
      · refine iff_of_false ?_ (fun nothing => nothing key.toList left)
        rintro ⟨reason, refused⟩
        rw [read] at refused
        cases refused
      · exact iff_of_true refused nothing

/-- A key with a character of two bytes, once escaped in both cases and once as it is, a space and a
plus sign; and a byte that no text holds. -/
theorem decodeKey_undoes_mixed :
    Encodes "ü +ü" "%c3%BC+%2bü" ∧ decodeKey "%c3%BC+%2bü" = .ok "ü +ü" ∧
      ∃ left, Resolves (Utf8.encode (spaced "%FF".toList)) left ∧
        ∃ reason, decodeKey "%FF" = .error (.invalidKey "%FF" reason) := by
  have twoBytes : Writes 'ü' [['%', 'c', '3'], ['%', 'B', 'C']].flatten :=
    .escaped (.cons ⟨'c', '3', rfl, by decide, by decide⟩
      (.cons ⟨'B', 'C', rfl, by decide, by decide⟩ .nil))
  have plusSign : Writes '+' [['%', '2', 'b']].flatten :=
    .escaped (.cons ⟨'2', 'b', rfl, by decide, by decide⟩ .nil)
  have encodes : Encodes "ü +ü" "%c3%BC+%2bü" :=
    ⟨[['%', 'c', '3', '%', 'B', 'C'], ['+'], ['%', '2', 'b'], ['ü']],
      .cons twoBytes (.cons (.plus rfl) (.cons plusSign (.cons (.itself (by decide)) .nil))), rfl⟩
  obtain ⟨undone, leaves⟩ := decodeKey_undoes
  refine ⟨encodes, undone _ _ encodes, ?_⟩
  obtain ⟨left, resolved, -, refused⟩ := leaves "%FF"
  have digits : IsEscape 0xFF 0x46 0x46 := ⟨by decide, by decide⟩
  have broken : Resolves (Utf8.encode (spaced "%FF".toList)) [0xFF] := .escape digits .nil
  obtain rfl := (resolved _).mp broken
  refine ⟨_, broken, refused.mpr ?_⟩
  intro chars same
  have nothing : Utf8.decode [0xFF] = .error ⟨0, some 1⟩ := rfl
  rw [Utf8.decode_eq_ok_iff.mpr same] at nothing
  cases nothing

end Intake.ObjectFile
