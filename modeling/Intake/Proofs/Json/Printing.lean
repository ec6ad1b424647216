import Intake.Json.Printer
import Intake.Json.Reader
import Intake.Proofs.Decoder.Scalar
import Mathlib.Data.List.Forall2

set_option autoImplicit false

/-!
The compact notation of values, seen through the grammar. A text between quotes is written in pieces
that mean it again, a whole number as its numeral, and a container without white space; so a document
that holds no doubles is read as the one that was printed. No control character comes up in it.
-/

namespace Intake

open Intake.Text

namespace Text.Digits

private theorem isDigit_char {d : Nat} (small : d < 10) : isDigit (char d) = true := by
  have all : ∀ k : Fin 10, isDigit (char k.val) = true := by decide
  exact all ⟨d, small⟩

theorem isDigit_of_mem_decimal (n : Nat) : ∀ c ∈ decimal n, isDigit c = true := by
  induction n using decimal.induct with
  | case1 n small =>
    rw [decimal, if_pos small]
    exact List.forall_mem_singleton.mpr (isDigit_char small)
  | case2 n large ih =>
    rw [decimal, if_neg large]
    refine List.forall_mem_append.mpr ⟨ih, ?_⟩
    exact List.forall_mem_singleton.mpr (isDigit_char (Nat.mod_lt n (by decide)))

theorem decimal_ne_nil (n : Nat) : decimal n ≠ [] := by
  rw [decimal]
  split <;> simp

theorem decimal_leading (n : Nat) : decimal n = ['0'] ∨ (decimal n).head? ≠ some '0' := by
  rcases Nat.eq_zero_or_pos n with rfl | positive
  · exact .inl (by rw [decimal]; rfl)
  · right
    induction n using decimal.induct with
    | case1 n small =>
      have all : ∀ k : Fin 10, 0 < k.val → char k.val ≠ '0' := by decide
      rw [decimal, if_pos small]
      simpa using all ⟨n, small⟩ positive
    | case2 n large ih =>
      rw [decimal, if_neg large, List.head?_append_of_ne_nil _ (decimal_ne_nil _)]
      exact ih (by omega)

end Text.Digits

namespace Json

def glyphOf (c : Char) : Glyph :=
  if quote : c = '"' then .short '"' '"' rfl
  else if slash : c = '\\' then .short '\\' '\\' rfl
  else if c = '\x08' then .short 'b' '\x08' rfl
  else if c = '\t' then .short 't' '\t' rfl
  else if c = '\n' then .short 'n' '\n' rfl
  else if c = '\x0c' then .short 'f' '\x0c' rfl
  else if c = '\r' then .short 'r' '\r' rfl
  else if control : c.toNat < 0x20 then
    .hex '0' '0' (Digits.char (c.toNat / 16)) (Digits.char (c.toNat % 16)) c.toNat
      (have all : ∀ k : Fin 0x20, fourHex '0' '0' (Digits.char (k.val / 16))
          (Digits.char (k.val % 16)) = some k.val := by decide
        all ⟨c.toNat, control⟩)
  else .plain c ⟨quote, slash, Nat.not_lt.mp control⟩

private theorem chars_glyphOf (c : Char) : (glyphOf c).chars = escapeChar c := by
  unfold glyphOf escapeChar
  split_ifs <;> rfl

private theorem meaning_glyphOf (c : Char) (rest : List Glyph) :
    Glyph.meaning (glyphOf c :: rest) = (Glyph.meaning rest).map (c :: ·) := by
  unfold glyphOf
  split_ifs with quote slash back tab feed page return_ control
  · subst quote
    rfl
  · subst slash
    rfl
  · subst back
    rfl
  · subst tab
    rfl
  · subst feed
    rfl
  · subst page
    rfl
  · subst return_
    rfl
  · have low : Glyph.isLow c.toNat = false := by
      simp only [Glyph.isLow, Bool.and_eq_false_iff, decide_eq_false_iff_not]
      omega
    have high : Glyph.isHigh c.toNat = false := by
      simp only [Glyph.isHigh, Bool.and_eq_false_iff, decide_eq_false_iff_not]
      omega
    rw [Glyph.meaning.eq_def]
    simp [low, high]
  · rfl

def glyphsOf (s : String) : List Glyph := s.toList.map glyphOf

private theorem meaning_glyphs (chars : List Char) :
    Glyph.meaning (chars.map glyphOf) = .ok chars := by
  induction chars with
  | nil => rfl
  | cons c chars ih =>
    rw [List.map_cons, meaning_glyphOf, ih]
    rfl

@[simp] theorem text?_glyphsOf (s : String) : Glyph.text? (glyphsOf s) = some s := by
  rw [Glyph.text?, glyphsOf, meaning_glyphs]
  exact congrArg some String.ofList_toList

private theorem quoted_glyphsOf (s : String) : Glyph.quoted (glyphsOf s) = printString s := by
  have pieces : Glyph.spelled (glyphsOf s) = s.toList.flatMap escapeChar := by
    rw [Glyph.spelled, glyphsOf, List.flatMap_map]
    simp only [chars_glyphOf]
  rw [Glyph.quoted, pieces, printString]

def numeralOf (i : Int) : Numeral where
  negative := i < 0
  whole := ⟨Digits.decimal i.natAbs, Digits.isDigit_of_mem_decimal _, Digits.decimal_ne_nil _⟩
  fraction := none
  exponent := none
  leading := Digits.decimal_leading _

theorem chars_numeralOf (i : Int) : (numeralOf i).chars = Digits.integer i := by
  by_cases negative : i < 0
  · simp [Numeral.chars, Numeral.signChars, Numeral.fractionChars, Numeral.exponentChars, numeralOf,
      Digits.integer, negative]
  · simp [Numeral.chars, Numeral.signChars, Numeral.fractionChars, Numeral.exponentChars, numeralOf,
      Digits.integer, negative]

theorem integer?_numeralOf (i : Int) : (numeralOf i).integer? = some i := by
  have value : Digits.value (numeralOf i).whole.chars = i.natAbs := Digits.value_decimal _
  by_cases negative : i < 0
  · have sign : (numeralOf i).negative = true := decide_eq_true negative
    have nonzero : i.natAbs ≠ 0 := by omega
    simp only [Numeral.integer?, sign, value, nonzero, if_false, if_true]
    exact congrArg some (by omega)
  · have sign : (numeralOf i).negative = false := decide_eq_false negative
    simp only [Numeral.integer?, sign, value]
    exact congrArg some (by omega)

section Containers

variable {α : Type}

def tight (value : α) : Padded α := ⟨.none, value, .none⟩

def tightArray (items : List α) : ArrayText α := ⟨.none, items.map tight⟩

def tightObject (members : List (String × α)) : ObjectText α :=
  ⟨.none, members.map fun m => ⟨.none, glyphsOf m.1, .none, tight m.2⟩⟩

variable (toJson : α → Json)

private theorem chars_tight (a : α) :
    (tight a).chars (fun a => (toJson a).print) = (toJson a).print := by
  simp [tight, Padded.chars, Blank.none]

private theorem printItems_map (items : List α) : printItems (items.map toJson) =
    following (items.map fun a => (toJson a).print) ++ [']'] := by
  induction items with
  | nil => rfl
  | cons a items ih =>
    rw [List.map_cons, printItems, ih]
    simp [following]

theorem print_list (items : List α) : (Json.list toJson items).print =
    (tightArray items).chars fun a => (toJson a).print := by
  cases items with
  | nil => rfl
  | cons a items =>
    have others := printItems_map toJson items
    simp [Json.list, print, others, tightArray, ArrayText.chars, enclosed, chars_tight,
      Function.comp_def]

private theorem chars_tightMember (m : String × α) :
    MemberText.chars (fun a => (toJson a).print) ⟨.none, glyphsOf m.1, .none, tight m.2⟩ =
      printString m.1 ++ ':' :: (toJson m.2).print := by
  rw [MemberText.chars, chars_tight, quoted_glyphsOf]
  rfl

private theorem printMembers_map (members : List (String × α)) :
    printMembers (members.map fun m => (m.1, toJson m.2)) =
      following (members.map fun m => printString m.1 ++ ':' :: (toJson m.2).print) ++
        ['\x7d'] := by
  induction members with
  | nil => rfl
  | cons m members ih =>
    rw [List.map_cons, printMembers, ih]
    simp [following]

theorem print_members (members : List (String × α)) :
    print (.object (members.map fun m => (m.1, toJson m.2))) =
      (tightObject members).chars fun a => (toJson a).print := by
  cases members with
  | nil => rfl
  | cons m members =>
    have others := printMembers_map toJson members
    simp [print, others, tightObject, ObjectText.chars, enclosed, chars_tightMember,
      Function.comp_def]

end Containers

private theorem print_array (items : List Json) :
    print (.array items) = (tightArray items).chars print := by
  have list := print_list id items
  rwa [Json.list, List.map_id] at list

theorem print_object (members : List (String × Json)) :
    print (.object members) = (tightObject members).chars print := by
  have object := print_members id members
  rwa [show (members.map fun m => (m.1, id m.2)) = members from List.map_id members] at object

/-- Documents of so many levels that hold no doubles, and no whole numbers but those of sixty-four bits
with a sign. -/
inductive IsPlain : Nat → Json → Prop where
  | null (levels : Nat) : IsPlain levels .null
  | bool (levels : Nat) (b : Bool) : IsPlain levels (.bool b)
  | int (levels : Nat) {i : Int} (low : -(Number.Word.count 63 : Int) ≤ i)
      (high : i < Number.Word.count 63) : IsPlain levels (.int i)
  | string (levels : Nat) (s : String) : IsPlain levels (.string s)
  | array {levels : Nat} {items : List Json} (each : ∀ item ∈ items, IsPlain levels item) :
      IsPlain (levels + 1) (.array items)
  | object {levels : Nat} {members : List (String × Json)}
      (each : ∀ m ∈ members, IsPlain levels m.2) : IsPlain (levels + 1) (.object members)

section Plain

variable {levels : Nat} {json : Json}

private theorem print_int (i : Int) : (Json.int i).print = (numeralOf i).chars :=
  (chars_numeralOf i).symm

theorem IsPlain.isValue (plain : IsPlain levels json) : IsValue json.print := by
  induction plain with
  | null levels => exact .word (by decide)
  | bool levels b => cases b <;> exact .word (by decide)
  | @int levels i low high =>
    rw [print_int]
    exact .number _
  | string levels s =>
    rw [print, ← quoted_glyphsOf]
    exact .string _
  | array each ih =>
    rw [print_array]
    exact isValue_array (List.forall_mem_map.mpr ih)
  | object each ih =>
    rw [print_object]
    exact isValue_object (List.forall_mem_map.mpr ih)

theorem readScalar_string (s : String) (rest : List Char) :
    readScalar (print (.string s) ++ rest) = some (.ok (.string s, rest)) := by
  have meant : Glyph.meaning (glyphsOf s) = .ok s.toList := meaning_glyphs s.toList
  rw [print, ← quoted_glyphsOf, readScalar_quoted, meant]
  have text : String.ofList s.toList = s := String.ofList_toList
  show some (Except.ok (string (String.ofList s.toList), rest)) = _
  rw [text]

theorem readScalar_int {i : Int} (low : -(Number.Word.count 63 : Int) ≤ i) (high : i < Number.Word.count 63)
    {rest : List Char} (boundary : IsBoundary rest) :
    readScalar ((Json.int i).print ++ rest) = some (.ok (.int i, rest)) := by
  have exact_ := (signedNumber_numeral (numeralOf i) boundary).1 i (integer?_numeralOf i) low high
  rw [print_int, readScalar_numeral, exact_]
  rfl

private theorem reads_readValue_scalar {value : List Char} (sound : IsValue value)
    (read : ∀ rest, IsBoundary rest → readScalar (value ++ rest) = some (.ok (json, rest))) :
    Reads (readValue levels) value (some json) := by
  intro before rest boundary
  rw [readValue.eq_def]
  simp only [skipSpace_blank, sound.skipSpace_append, read rest boundary]
  rfl

theorem mapM_map_eq_some {α β γ : Type} {f : α → β} {g : β → Option γ} {h : α → γ} {as : List α}
    (each : ∀ a ∈ as, g (f a) = some (h a)) : (as.map f).mapM g = some (as.map h) := by
  rw [mapM_eq_some_iff, List.forall₂_map_left_iff, List.forall₂_map_right_iff, List.forall₂_same]
  exact each

private theorem reads_readValue_array {items : List Json}
    (each : ∀ item ∈ items, IsValue item.print ∧ Reads (readValue levels) item.print (some item)) :
    Reads (readValue (levels + 1)) (print (.array items)) (some (.array items)) := by
  have begins : ∀ p ∈ (tightArray items).items, Begins (print p.value) ∧
      Reads (readValue levels) (print p.value) (some p.value) := by
    intro p there
    obtain ⟨item, member, rfl⟩ := List.mem_map.mp there
    obtain ⟨sound, reads⟩ := each item member
    exact ⟨sound.exists_cons, reads⟩
  have values : ((tightArray items).items.mapM fun p => some p.value) = some (items.map id) :=
    mapM_map_eq_some fun _ _ => rfl
  have read := reads_readValue_items begins
  rwa [values, List.map_id, ← print_array] at read

private theorem reads_readValue_object {ms : List (String × Json)}
    (each : ∀ m ∈ ms, Reads (readValue levels) m.2.print (some m.2)) :
    Reads (readValue (levels + 1)) (print (.object ms)) (some (.object ms)) := by
  have inside : ∀ m ∈ (tightObject ms).members,
      Reads (readValue levels) (print m.slot.value) (some m.slot.value) :=
    List.forall_mem_map.mpr each
  have values : ((tightObject ms).members.mapM fun m => (Glyph.text? m.name).bind fun key =>
      (some m.slot.value).map (key, ·)) = some (ms.map id) := by
    refine mapM_map_eq_some fun m _ => ?_
    rw [text?_glyphsOf]
    rfl
  have read := reads_readValue_members inside
  rwa [values, List.map_id, ← print_object] at read

theorem IsPlain.reads (plain : IsPlain levels json) :
    Reads (readValue levels) json.print (some json) := by
  induction plain with
  | null levels => exact reads_readValue_scalar (IsPlain.null levels).isValue fun rest _ => rfl
  | bool levels b =>
    refine reads_readValue_scalar (IsPlain.bool levels b).isValue fun rest _ => ?_
    cases b <;> rfl
  | @int levels i low high =>
    exact reads_readValue_scalar (IsPlain.int levels low high).isValue fun rest boundary =>
      readScalar_int low high boundary
  | string levels s =>
    exact reads_readValue_scalar (IsPlain.string levels s).isValue fun rest _ =>
      readScalar_string s rest
  | array each ih =>
    exact reads_readValue_array fun item there => ⟨(each item there).isValue, ih item there⟩
  | object each ih => exact reads_readValue_object ih

end Plain

def IsVisible (chars : List Char) : Prop := ∀ c ∈ chars, 0x20 ≤ c.toNat

section Visible

@[simp] private theorem isVisible_nil : IsVisible [] := List.forall_mem_nil _

@[simp] private theorem isVisible_cons (c : Char) (chars : List Char) :
    IsVisible (c :: chars) ↔ 0x20 ≤ c.toNat ∧ IsVisible chars := List.forall_mem_cons

@[simp] private theorem isVisible_append (front back : List Char) :
    IsVisible (front ++ back) ↔ IsVisible front ∧ IsVisible back := List.forall_mem_append

private theorem isVisible_escapeChar (c : Char) : IsVisible (escapeChar c) := by
  have digits : ∀ k : Fin 0x20, 0x20 ≤ (Digits.char (k.val / 16)).toNat ∧
      0x20 ≤ (Digits.char (k.val % 16)).toNat := by decide
  unfold escapeChar
  split_ifs with quote slash back tab feed page return_ control
  · simp
  · simp
  · simp
  · simp
  · simp
  · simp
  · simp
  · obtain ⟨high, low⟩ := digits ⟨c.toNat, control⟩
    simp [high, low]
  · simpa using control

private theorem isVisible_printString (s : String) : IsVisible (printString s) := by
  have inside : IsVisible (s.toList.flatMap escapeChar) := by
    intro c there
    obtain ⟨d, -, piece⟩ := List.mem_flatMap.mp there
    exact isVisible_escapeChar d c piece
  simp [printString, inside]

private theorem isVisible_integer (i : Int) : IsVisible (Digits.integer i) := by
  have digits : IsVisible (Digits.decimal i.natAbs) := by
    intro c there
    have digit := Digits.isDigit_of_mem_decimal _ c there
    simp only [Digits.isDigit, Bool.and_eq_true, decide_eq_true_iff] at digit
    have least : '0'.toNat ≤ c.toNat := digit.1
    exact Nat.le_trans (by decide) least
  unfold Digits.integer
  split
  · simp [digits]
  · exact digits

variable {items : List Json} {members : List (String × Json)}

private theorem isVisible_printItems (each : ∀ item ∈ items, IsVisible item.print) :
    IsVisible (printItems items) := by
  induction items with
  | nil => simp [printItems]
  | cons item items ih =>
    obtain ⟨here, others⟩ := List.forall_mem_cons.mp each
    simp [printItems, here, ih others]

private theorem isVisible_printMembers (each : ∀ m ∈ members, IsVisible m.2.print) :
    IsVisible (printMembers members) := by
  induction members with
  | nil => simp [printMembers]
  | cons m members ih =>
    obtain ⟨here, others⟩ := List.forall_mem_cons.mp each
    simp [printMembers, isVisible_printString, here, ih others]

theorem IsPlain.isVisible {levels : Nat} {json : Json} (plain : IsPlain levels json) :
    IsVisible json.print := by
  induction plain with
  | null levels => simp [print]
  | bool levels b => cases b <;> simp [print]
  | @int levels i low high => exact isVisible_integer i
  | string levels s => exact isVisible_printString s
  | @array levels items each ih =>
    cases items with
    | nil => simp [print]
    | cons item items =>
      obtain ⟨here, others⟩ := List.forall_mem_cons.mp ih
      simp [print, here, isVisible_printItems others]
  | @object levels members each ih =>
    cases members with
    | nil => simp [print]
    | cons m members =>
      obtain ⟨here, others⟩ := List.forall_mem_cons.mp ih
      simp [print, isVisible_printString, here, isVisible_printMembers others]

end Visible

end Json

end Intake
