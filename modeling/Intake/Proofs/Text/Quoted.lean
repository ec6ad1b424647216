import Intake.Proofs.Text.Percent
import Intake.Text.Quoted
import Mathlib.Data.List.Forall2
import Mathlib.Data.Nat.Digits.Defs

set_option autoImplicit false

/-!
Quoted texts apart from any printer. Whatever is written in one of these forms can be told from any
rest that follows it, so a text, a list and a dictionary are determined by what is written.
-/

namespace Intake.Text

namespace Digits

/-- Digits of a number to the base sixteen, in either case and with any zeros in front. -/
def HexNumber (digits : List Char) (n : Nat) : Prop :=
  ∃ values, List.Forall₂ IsHex digits values ∧ Nat.ofDigits 16 values.reverse = n

private theorem isHex_char {d : Nat} (small : d < 16) : IsHex (char d) d := by
  have all : ∀ k : Fin 16, IsHex (char k.val) k.val := by decide
  exact all ⟨d, small⟩

private theorem hexNumber_hexadecimal (n : Nat) : HexNumber (hexadecimal n) n := by
  induction n using hexadecimal.induct with
  | case1 n small =>
    rw [hexadecimal, if_pos small]
    exact ⟨[n], .cons (isHex_char small) .nil, Nat.ofDigits_singleton⟩
  | case2 n large ih =>
    obtain ⟨values, digits, value⟩ := ih
    rw [hexadecimal, if_neg large]
    have last : IsHex (char (n % 16)) (n % 16) := isHex_char (Nat.mod_lt n (by decide))
    refine ⟨values ++ [n % 16], List.rel_append digits (.cons last .nil), ?_⟩
    rw [List.reverse_append, List.reverse_singleton, List.singleton_append, Nat.ofDigits_cons, value]
    exact Nat.mod_add_div n 16

private theorem IsHex.unique {c : Char} {d e : Nat} (first : IsHex c d) (second : IsHex c e) :
    d = e := by
  rw [← hexValue?_eq_some_iff] at first second
  exact Option.some.inj (first.symm.trans second)

private theorem IsHex.ne_brace {c : Char} {d : Nat} (hex : IsHex c d) : c ≠ '\x7d' := by
  rintro rfl
  rw [← hexValue?_eq_some_iff] at hex
  cases hex

private theorem values_unique {s t x y : List Char} {values others : List Nat}
    (first : List.Forall₂ IsHex s values) (second : List.Forall₂ IsHex t others)
    (same : s ++ '\x7d' :: x = t ++ '\x7d' :: y) : values = others ∧ x = y := by
  induction first generalizing t others with
  | nil =>
    cases second with
    | nil => exact ⟨rfl, (List.cons.inj same).2⟩
    | cons hex _ => exact absurd (List.cons.inj same).1.symm hex.ne_brace
  | cons hex _ ih =>
    cases second with
    | nil => exact absurd (List.cons.inj same).1 hex.ne_brace
    | cons hex' behind =>
      obtain ⟨rfl, rest⟩ := List.cons.inj same
      obtain ⟨rfl, rest⟩ := ih behind rest
      exact ⟨by rw [hex.unique hex'], rest⟩

private theorem HexNumber.unique {s t x y : List Char} {n m : Nat} (first : HexNumber s n)
    (second : HexNumber t m) (same : s ++ '\x7d' :: x = t ++ '\x7d' :: y) : n = m ∧ x = y := by
  obtain ⟨values, here, rfl⟩ := first
  obtain ⟨others, there, rfl⟩ := second
  obtain ⟨rfl, rest⟩ := values_unique here there same
  exact ⟨rfl, rest⟩

end Digits

namespace Quoted

open Digits

variable {α : Type}

/-- A character as it stands behind a backslash. -/
inductive Escapes : Char → List Char → Prop
  | nul : Escapes '\x00' ['0']
  | tab : Escapes '\t' ['t']
  | carriageReturn : Escapes '\r' ['r']
  | lineFeed : Escapes '\n' ['n']
  | quote : Escapes '"' ['"']
  | backslash : Escapes '\\' ['\\']
  | code {c : Char} {digits : List Char} (number : HexNumber digits c.toNat) :
      Escapes c ('u' :: '\x7b' :: (digits ++ ['\x7d']))

/-- A character as it stands between quotes. -/
inductive Stands : Char → List Char → Prop
  | itself {c : Char} (quote : c ≠ '"') (backslash : c ≠ '\\') : Stands c [c]
  | escaped {c : Char} {chars : List Char} (escapes : Escapes c chars) : Stands c ('\\' :: chars)

inductive Inside : List Char → List Char → Prop
  | nil : Inside [] []
  | cons {c : Char} {piece text chars : List Char} (stands : Stands c piece)
      (rest : Inside text chars) : Inside (c :: text) (piece ++ chars)

def Quotes (text : String) (chars : List Char) : Prop :=
  ∃ inner, Inside text.toList inner ∧ chars = '"' :: (inner ++ ['"'])

def Pairs (entry : String × String) (chars : List Char) : Prop :=
  ∃ key value, Quotes entry.1 key ∧ Quotes entry.2 value ∧ chars = key ++ ':' :: ' ' :: value

/-- Values with commas, between an opening and a closing character. -/
def Joins (opening closing : Char) (Shows : α → List Char → Prop) (items : List α)
    (chars : List Char) : Prop :=
  ∃ parts, List.Forall₂ Shows items parts ∧
    chars = opening :: ([',', ' '].intercalate parts ++ [closing])

private theorem stands_escapeChar (c : Char) : Stands c (escapeChar c) := by
  unfold escapeChar
  split
  next h => subst h; exact .escaped .nul
  split
  next h => subst h; exact .escaped .tab
  split
  next h => subst h; exact .escaped .carriageReturn
  split
  next h => subst h; exact .escaped .lineFeed
  split
  next h => subst h; exact .escaped .quote
  split
  next h => subst h; exact .escaped .backslash
  next quote backslash =>
    split
    · exact .escaped (.code (hexNumber_hexadecimal c.toNat))
    · exact .itself quote backslash

theorem quotes_quote (text : String) : Quotes text (quote text).toList := by
  have inside : ∀ chars : List Char, Inside chars (chars.flatMap escapeChar) := by
    intro chars
    induction chars with
    | nil => exact .nil
    | cons c chars ih => exact .cons (stands_escapeChar c) ih
  exact ⟨_, inside text.toList, String.toList_ofList⟩

private theorem joins_map (opening closing : Char) {Shows : α → List Char → Prop}
    {shown : α → String} (each : ∀ a, Shows a (shown a).toList) (items : List α) :
    Joins opening closing Shows items
      (opening :: ((", ".intercalate (items.map shown)).toList ++ [closing])) := by
  refine ⟨items.map fun a => (shown a).toList, ?_, ?_⟩
  · rw [List.forall₂_map_right_iff, List.forall₂_same]
    exact fun a _ => each a
  · rw [String.toList_intercalate, List.map_map]
    rfl

theorem joins_list {Shows : α → List Char → Prop} {shown : α → String}
    (each : ∀ a, Shows a (shown a).toList) (items : List α) :
    Joins '[' ']' Shows items (list shown items).toList := by
  have joined := joins_map '[' ']' each items
  rw [list, String.toList_append, String.toList_append]
  exact joined

theorem joins_dictionary (entries : List (String × String)) :
    Joins '\x7b' '\x7d' Pairs entries (dictionary entries).toList := by
  have each : ∀ entry : String × String,
      Pairs entry (quote entry.1 ++ ": " ++ quote entry.2).toList := by
    intro entry
    refine ⟨_, _, quotes_quote entry.1, quotes_quote entry.2, ?_⟩
    rw [String.toList_append, String.toList_append, List.append_assoc]
    rfl
  have joined := joins_map '\x7b' '\x7d' each entries
  rw [dictionary, String.toList_append, String.toList_append]
  exact joined

/-- What is written for a value can be told from any rest. -/
def Readable (Shows : α → List Char → Prop) : Prop :=
  ∀ ⦃a b : α⦄ ⦃s t x y : List Char⦄, Shows a s → Shows b t → s ++ x = t ++ y → a = b ∧ x = y

private theorem readable_escapes : Readable Escapes := by
  intro a b s t x y first second same
  cases first <;> cases second <;> simp_all
  case code.code digits number others number' =>
    obtain ⟨codes, rest⟩ := number.unique number' same
    exact ⟨Char.toNat_inj.mp codes, rest⟩

private theorem readable_stands : Readable Stands := by
  intro a b s t x y first second same
  cases first with
  | itself _ backslash =>
    cases second with
    | itself _ _ => exact List.cons.inj same
    | escaped _ => exact absurd (List.cons.inj same).1 backslash
  | escaped escapes =>
    cases second with
    | itself _ backslash => exact absurd (List.cons.inj same).1.symm backslash
    | escaped escapes' => exact readable_escapes escapes escapes' (List.cons.inj same).2

private theorem Stands.ne_quote {c d : Char} {piece chars x : List Char} (stands : Stands c piece)
    (same : piece ++ chars = d :: x) : d ≠ '"' := by
  cases stands with
  | itself quote _ => exact (List.cons.inj same).1 ▸ quote
  | escaped _ => exact (List.cons.inj same).1 ▸ (by decide)

private theorem readable_inside {s t a b x y : List Char} (first : Inside s a)
    (second : Inside t b) (same : a ++ '"' :: x = b ++ '"' :: y) : s = t ∧ x = y := by
  induction first generalizing t b with
  | nil =>
    cases second with
    | nil => exact ⟨rfl, (List.cons.inj same).2⟩
    | cons stands _ => exact absurd rfl (stands.ne_quote ((List.append_assoc ..).symm.trans same.symm))
  | cons stands _ ih =>
    cases second with
    | nil => exact absurd rfl (stands.ne_quote ((List.append_assoc ..).symm.trans same))
    | cons stands' others =>
      rw [List.append_assoc, List.append_assoc] at same
      obtain ⟨rfl, behind⟩ := readable_stands stands stands' same
      obtain ⟨rfl, rest⟩ := ih others behind
      exact ⟨rfl, rest⟩

private theorem readable_quotes : Readable Quotes := by
  rintro a b _ _ x y ⟨inner, inside, rfl⟩ ⟨inner', inside', rfl⟩ same
  simp only [List.cons_append, List.append_assoc, List.nil_append, List.cons.injEq, true_and] at same
  obtain ⟨texts, rest⟩ := readable_inside inside inside' same
  exact ⟨String.toList_inj.mp texts, rest⟩

theorem readable_pairs : Readable Pairs := by
  rintro ⟨a, b⟩ ⟨a', b'⟩ _ _ x y ⟨key, value, one, two, rfl⟩ ⟨key', value', one', two', rfl⟩ same
  simp only [List.append_assoc, List.cons_append] at same
  obtain ⟨rfl, behind⟩ := readable_quotes one one' same
  simp only [List.cons.injEq, true_and] at behind
  obtain ⟨rfl, rest⟩ := readable_quotes two two' behind
  exact ⟨rfl, rest⟩

private theorem intercalate_cons (sep part : List Char) (parts : List (List Char)) :
    sep.intercalate (part :: parts) = part ++ parts.flatMap (sep ++ ·) := by
  induction parts generalizing part with
  | nil => simp
  | cons next parts ih =>
    rw [List.intercalate_cons_cons, ih, List.flatMap_cons, List.append_assoc, List.append_assoc]

private theorem readable_further {closing : Char} {Shows : α → List Char → Prop}
    (readable : Readable Shows) (comma : closing ≠ ',') {items others : List α}
    {parts parts' : List (List Char)} {x y : List Char} (first : List.Forall₂ Shows items parts)
    (second : List.Forall₂ Shows others parts')
    (same : parts.flatMap ([',', ' '] ++ ·) ++ closing :: x =
      parts'.flatMap ([',', ' '] ++ ·) ++ closing :: y) : items = others ∧ x = y := by
  induction first generalizing others parts' with
  | nil =>
    cases second with
    | nil => exact ⟨rfl, (List.cons.inj same).2⟩
    | cons _ _ => exact absurd (List.cons.inj same).1 comma
  | cons shows _ ih =>
    cases second with
    | nil => exact absurd (List.cons.inj same).1.symm comma
    | cons shows' behind =>
      simp only [List.flatMap_cons, List.append_assoc, List.cons_append, List.nil_append,
        List.cons.injEq, true_and] at same
      obtain ⟨rfl, rest⟩ := readable shows shows' same
      obtain ⟨rfl, rest⟩ := ih behind rest
      exact ⟨rfl, rest⟩

/-- The closing character must not begin a value, or an empty list could go on. -/
theorem readable_joins {opening closing start : Char} {Shows : α → List Char → Prop}
    (readable : Readable Shows) (begins : ∀ {a s}, Shows a s → s.head? = some start)
    (apart : closing ≠ start) (comma : closing ≠ ',') :
    Readable (Joins opening closing Shows) := by
  rintro items others _ _ x y ⟨parts, first, rfl⟩ ⟨parts', second, rfl⟩ same
  simp only [List.cons_append, List.append_assoc, List.nil_append, List.cons.injEq, true_and] at same
  cases first with
  | nil =>
    cases second with
    | nil => exact ⟨rfl, (List.cons.inj same).2⟩
    | cons shows _ =>
      obtain ⟨rest, rfl⟩ := List.head?_eq_some_iff.mp (begins shows)
      rw [intercalate_cons] at same
      exact absurd (List.cons.inj same).1 apart
  | cons shows behind =>
    cases second with
    | nil =>
      obtain ⟨rest, rfl⟩ := List.head?_eq_some_iff.mp (begins shows)
      rw [intercalate_cons] at same
      exact absurd (List.cons.inj same).1.symm apart
    | cons shows' behind' =>
      rw [intercalate_cons, intercalate_cons, List.append_assoc, List.append_assoc] at same
      obtain ⟨rfl, rest⟩ := readable shows shows' same
      obtain ⟨rfl, rest⟩ := readable_further readable comma behind behind' rest
      exact ⟨rfl, rest⟩

theorem Pairs.head? {entry : String × String} {chars : List Char} (pairs : Pairs entry chars) :
    chars.head? = some '"' := by
  obtain ⟨key, value, ⟨inner, -, rfl⟩, -, rfl⟩ := pairs
  rfl

end Quoted

end Intake.Text
