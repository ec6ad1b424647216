import Intake.Sql.Identifier
import Mathlib.Data.List.Basic
import Mathlib.Data.String.Basic

set_option autoImplicit false

/-!
Statements that are made of names. A name that is accepted has no quote and no dollar sign in it, so
the statement that inserts a row can be taken apart: between its quotes stand the names, behind its
dollar signs the numbers of the parameters.
-/

namespace Intake.Sql

open Intake.Text

/-! ## Names -/

/-- A text of 1 to 63 bytes: ASCII letters, digits and underscores, the first of them no digit. -/
structure IsIdentifier (name : String) : Prop where
  nonempty : 1 ≤ name.utf8ByteSize
  short : name.utf8ByteSize ≤ 63
  start : ∃ c ∈ name.toList.head?, c.isAlpha = true ∨ c = '_'
  characters : ∀ c ∈ name.toList, c.isAlphanum = true ∨ c = '_'

private theorem isNameStart_iff {c : Char} : isNameStart c = true ↔ c.isAlpha = true ∨ c = '_' := by
  have letter : c.isAlpha =
      (decide ('A' ≤ c ∧ c ≤ 'Z') || (decide ('a' ≤ c) && decide (c ≤ 'z'))) := rfl
  simp only [isNameStart, letter, Bool.or_eq_true, Bool.and_eq_true, decide_eq_true_iff]
  tauto

private theorem isNameChar_iff {c : Char} :
    isNameChar c = true ↔ c.isAlphanum = true ∨ c = '_' := by
  have digit : Digits.isDigit c = c.isDigit := rfl
  simp only [isNameChar, Bool.or_eq_true, isNameStart_iff, digit, Char.isAlphanum]
  tauto

private theorem one_le_utf8ByteSize_iff {name : String} :
    1 ≤ name.utf8ByteSize ↔ name.toList ≠ [] := by
  rw [Nat.one_le_iff_ne_zero, Ne, String.utf8ByteSize_eq_zero_iff, Ne, String.toList_eq_nil_iff]

private theorem isIdentifier_iff {name : String} {c : Char} {rest : List Char}
    (letters : name.toList = c :: rest) :
    IsIdentifier name ↔
      name.utf8ByteSize ≤ maxIdentifierLength ∧ isNameStart c = true ∧
        ∀ d ∈ rest, isNameChar d = true := by
  constructor
  · intro h
    obtain ⟨first, here, letter⟩ := h.start
    rw [letters, List.head?_cons, Option.mem_some_iff] at here
    refine ⟨h.short, isNameStart_iff.mpr (here ▸ letter), fun d there => ?_⟩
    exact isNameChar_iff.mpr (h.characters d (letters ▸ List.mem_cons_of_mem c there))
  · rintro ⟨short, start, characters⟩
    have nonempty : name.toList ≠ [] := letters ▸ List.cons_ne_nil c rest
    refine ⟨one_le_utf8ByteSize_iff.mpr nonempty, short, ⟨c, ?_, isNameStart_iff.mp start⟩, ?_⟩
    · rw [letters]
      rfl
    · rw [letters]
      refine List.forall_mem_cons.mpr ⟨isNameChar_iff.mp ?_, fun d there => ?_⟩
      · rw [isNameChar, start, Bool.true_or]
      · exact isNameChar_iff.mp (characters d there)

private theorem checkIdentifier_eq_ok_iff {name : String} :
    checkIdentifier name = .ok () ↔ IsIdentifier name := by
  unfold checkIdentifier
  cases letters : name.toList with
  | nil =>
    rw [eq_false (nofun : ¬ Except.error IdentifierFault.empty = Except.ok ()), false_iff]
    exact fun h => one_le_utf8ByteSize_iff.mp h.nonempty letters
  | cons c rest =>
    rw [isIdentifier_iff letters]
    by_cases long : maxIdentifierLength < name.utf8ByteSize
    · have tooLong : ¬ name.utf8ByteSize ≤ maxIdentifierLength := Nat.not_le.mpr long
      simp [long, tooLong]
    · have short : name.utf8ByteSize ≤ maxIdentifierLength := Nat.not_lt.mp long
      by_cases start : isNameStart c = true
      · cases found : rest.find? (!isNameChar ·) with
        | none =>
          have characters := List.find?_eq_none.mp found
          simpa [long, short, start, found] using characters
        | some bad =>
          have wrong : ¬ isNameChar bad = true := by simpa using List.find?_some found
          have refused : ¬ ∀ d ∈ rest, isNameChar d = true := fun all =>
            wrong (all bad (List.mem_of_find?_eq_some found))
          simp [long, start, found, refused]
      · simp [long, start]

private theorem IsIdentifier.notMem {name : String} (identifier : IsIdentifier name) {c : Char}
    (foreign : c.isAlphanum = false ∧ c ≠ '_') : c ∉ name.toList := by
  intro there
  rcases identifier.characters c there with letter | rfl
  · simp [foreign.1] at letter
  · exact foreign.2 rfl

/-! ## The statement -/

def insertText (table : String) (columns : List String) : String :=
  "INSERT INTO " ++ quoteIdentifier table ++ " (" ++
    ", ".intercalate (columns.map quoteIdentifier) ++ ") VALUES (" ++
      ", ".intercalate ((List.range columns.length).map (placeholder <| · + 1)) ++ ")"

private theorem bind_eq_ok_iff {α : Type} {first : Except IdentifierFault Unit}
    {next : Unit → Except IdentifierFault α} {a : α} :
    (first >>= next) = .ok a ↔ first = .ok () ∧ next () = .ok a := by
  cases first <;> simp [bind, Except.bind]

private theorem forM_checkIdentifier_eq_ok_iff {columns : List String} :
    columns.forM checkIdentifier = .ok () ↔ ∀ c ∈ columns, IsIdentifier c := by
  induction columns with
  | nil => simp [pure, Except.pure]
  | cons c rest ih =>
    have step : (c :: rest).forM checkIdentifier =
        checkIdentifier c >>= fun _ => rest.forM checkIdentifier := rfl
    rw [List.forall_mem_cons, ← checkIdentifier_eq_ok_iff, ← ih, step]
    exact bind_eq_ok_iff

/-- The table is looked at first, then whether there are columns, and then each of them. -/
theorem insertStatement_eq (table : String) (columns : List String) :
    insertStatement table columns =
      checkIdentifier table >>= fun _ =>
        if columns.isEmpty then .error .noColumns
        else columns.forM checkIdentifier >>= fun _ => .ok (insertText table columns) := rfl

private theorem insertStatement_eq_ok_iff {table statement : String} {columns : List String} :
    insertStatement table columns = .ok statement ↔
      (columns ≠ [] ∧ IsIdentifier table ∧ ∀ c ∈ columns, IsIdentifier c) ∧
        statement = insertText table columns := by
  rw [insertStatement_eq, bind_eq_ok_iff, checkIdentifier_eq_ok_iff]
  by_cases empty : columns = []
  · simp [empty]
  · rw [if_neg (by simpa using empty), bind_eq_ok_iff, forM_checkIdentifier_eq_ok_iff,
      Except.ok.injEq, eq_comm]
    tauto

def nameList (names : List String) : List Char :=
  List.intercalate [',', ' '] (names.map fun name => '"' :: (name.toList ++ ['"']))

/-- The first so many numbers behind dollar signs, separated by commas. -/
def parameterList (count : Nat) : List Char :=
  List.intercalate [',', ' '] ((List.range count).map fun i => '$' :: Nat.toDigits 10 (i + 1))

private theorem toList_insertText (table : String) (columns : List String) :
    (insertText table columns).toList =
      "INSERT INTO ".toList ++ '"' :: (table.toList ++ '"' :: (" (".toList ++
        (nameList columns ++ (") VALUES (".toList ++ (parameterList columns.length ++ [')']))))) := by
  have quoted : (columns.map quoteIdentifier).map String.toList =
      columns.map fun c => '"' :: (c.toList ++ ['"']) := by
    simp [quoteIdentifier, Function.comp_def]
  have numbered : ((List.range columns.length).map (placeholder <| · + 1)).map String.toList =
      (List.range columns.length).map fun i => '$' :: Nat.toDigits 10 (i + 1) := by
    simp [placeholder, Digits.text, Digits.decimal_eq_toDigits, Function.comp_def]
  -- Only the name is opened: an equation for it would be checked through the literals.
  delta insertText
  simp [String.toList_intercalate, quoted, numbered, quoteIdentifier, nameList, parameterList]

/-! ## Taking the statement apart -/

/-- Every second element of a list, the first one left out. -/
def everySecond {α : Type} : List α → List α
  | _ :: second :: rest => second :: everySecond rest
  | _ => []

def quotedIn (statement : String) : List String :=
  (everySecond (statement.toList.splitOn '"')).map String.ofList

/-- The dollar signs of a text, each with the digits behind it. -/
def dollarsIn : List Char → List String
  | [] => []
  | '$' :: rest => String.ofList ('$' :: rest.takeWhile Char.isDigit) :: dollarsIn rest
  | _ :: rest => dollarsIn rest

private theorem notMem_intercalate {c : Char} {separator : List Char} (between : c ∉ separator)
    {pieces : List (List Char)} (inside : ∀ piece ∈ pieces, c ∉ piece) :
    c ∉ List.intercalate separator pieces := by
  induction pieces with
  | nil => simp
  | cons piece rest ih =>
    obtain ⟨own, others⟩ := List.forall_mem_cons.mp inside
    cases rest with
    | nil => simpa using own
    | cons next more =>
      rw [List.intercalate_cons_cons, List.mem_append, List.mem_append]
      rintro ((here | here) | later)
      · exact own here
      · exact between here
      · exact ih others later

private theorem everySecond_splitOn {front name : List Char} (outside : '"' ∉ front)
    (inside : '"' ∉ name) (rest : List Char) :
    everySecond ((front ++ '"' :: (name ++ '"' :: rest)).splitOn '"') =
      name :: everySecond (rest.splitOn '"') := by
  rw [List.splitOn_append_cons_self_of_not_mem outside,
    List.splitOn_append_cons_self_of_not_mem inside, everySecond]

private theorem everySecond_splitOn_of_notMem {text : List Char} (outside : '"' ∉ text) :
    everySecond (text.splitOn '"') = [] := by
  rw [List.splitOn_eq_singleton outside]
  rfl

/-- Quoted names in a row are cut out one after the other. -/
theorem everySecond_splitOn_nameList {names : List String}
    (inside : ∀ name ∈ names, '"' ∉ name.toList) {front back : List Char}
    (before : '"' ∉ front) (behind : '"' ∉ back) :
    everySecond ((front ++ (nameList names ++ back)).splitOn '"') = names.map String.toList := by
  induction names generalizing front with
  | nil =>
    refine everySecond_splitOn_of_notMem ?_
    simp [nameList, before, behind]
  | cons name rest ih =>
    obtain ⟨own, others⟩ := List.forall_mem_cons.mp inside
    cases rest with
    | nil =>
      have cut := everySecond_splitOn before own back
      rw [everySecond_splitOn_of_notMem behind] at cut
      simpa [nameList] using cut
    | cons next more =>
      have cut := everySecond_splitOn before own ([',', ' '] ++ (nameList (next :: more) ++ back))
      rw [ih others (by decide)] at cut
      simpa [nameList] using cut

private theorem dollarsIn_append {front : List Char} (outside : '$' ∉ front) (rest : List Char) :
    dollarsIn (front ++ rest) = dollarsIn rest := by
  induction front with
  | nil => rfl
  | cons c front ih =>
    obtain ⟨other, outside⟩ := not_or.mp (mt List.mem_cons.mpr outside)
    rw [List.cons_append, dollarsIn, ih outside]
    exact fun same => other same.symm

private theorem dollarsIn_numbered {digits : List Char} (all : ∀ c ∈ digits, c.isDigit = true)
    (rest : List Char) (ends : ∀ c ∈ rest.head?, c.isDigit = false) :
    dollarsIn ('$' :: (digits ++ rest)) = String.ofList ('$' :: digits) :: dollarsIn rest := by
  have taken : (digits ++ rest).takeWhile Char.isDigit = digits := by
    rw [List.takeWhile_append_of_pos all]
    cases rest with
    | nil => simp
    | cons c rest => simp [ends c rfl]
  have outside : '$' ∉ digits := fun there => absurd (all '$' there) (by decide)
  rw [dollarsIn, taken, dollarsIn_append outside]

private theorem dollarsIn_intercalate {numbers : List (List Char)}
    (all : ∀ digits ∈ numbers, ∀ c ∈ digits, c.isDigit = true) {back : List Char}
    (behind : '$' ∉ back) (ends : ∀ c ∈ back.head?, c.isDigit = false) :
    dollarsIn (List.intercalate [',', ' '] (numbers.map ('$' :: ·)) ++ back) =
      numbers.map fun digits => String.ofList ('$' :: digits) := by
  have nothing : dollarsIn back = [] := by
    simpa [dollarsIn] using dollarsIn_append behind []
  induction numbers with
  | nil => simpa using nothing
  | cons digits rest ih =>
    obtain ⟨own, others⟩ := List.forall_mem_cons.mp all
    cases rest with
    | nil =>
      have first := dollarsIn_numbered own back ends
      rw [nothing] at first
      simpa using first
    | cons next more =>
      have first := dollarsIn_numbered own ([',', ' '] ++
        (List.intercalate [',', ' '] ((next :: more).map ('$' :: ·)) ++ back)) (by simp)
      rw [dollarsIn_append (by decide), ih others] at first
      simpa using first

private theorem dollarsIn_parameterList {back : List Char} (behind : '$' ∉ back)
    (ends : ∀ c ∈ back.head?, c.isDigit = false) (count : Nat) :
    dollarsIn (parameterList count ++ back) =
      (List.range count).map fun i => "$" ++ toString (i + 1) := by
  have numbers : ∀ digits ∈ (List.range count).map fun i => Nat.toDigits 10 (i + 1),
      ∀ c ∈ digits, c.isDigit = true :=
    List.forall_mem_map.mpr fun i _ c there =>
      Nat.isDigit_of_mem_toDigits (by decide) (by decide) there
  have read := dollarsIn_intercalate numbers behind ends
  rw [List.map_map, List.map_map] at read
  refine read.trans (List.map_congr_left fun i _ => ?_)
  exact String.toList_injective (by simp)

private theorem quote_notMem_parameterList (count : Nat) : '"' ∉ parameterList count := by
  refine notMem_intercalate (by decide) (List.forall_mem_map.mpr fun i _ => ?_)
  refine List.not_mem_cons_of_ne_of_not_mem (by decide) fun there => ?_
  exact absurd (Nat.isDigit_of_mem_toDigits (by decide) (by decide) there) (by decide)

private theorem dollar_notMem_nameList {names : List String}
    (inside : ∀ name ∈ names, '$' ∉ name.toList) : '$' ∉ nameList names := by
  refine notMem_intercalate (by decide) (List.forall_mem_map.mpr fun name there => ?_)
  simp [inside name there]

section InsertText

variable {table : String} {columns : List String}

private theorem quotedIn_insertText (identifier : IsIdentifier table)
    (identifiers : ∀ c ∈ columns, IsIdentifier c) :
    quotedIn (insertText table columns) = table :: columns := by
  have own : '"' ∉ table.toList := identifier.notMem (by decide)
  have inside : ∀ c ∈ columns, '"' ∉ c.toList := fun c there =>
    (identifiers c there).notMem (by decide)
  have behind : '"' ∉ ") VALUES (".toList ++ (parameterList columns.length ++ [')']) := by
    simp [quote_notMem_parameterList]
  rw [quotedIn, toList_insertText, everySecond_splitOn (by decide) own,
    everySecond_splitOn_nameList inside (by decide) behind]
  simp

private theorem dollarsIn_insertText (identifier : IsIdentifier table)
    (identifiers : ∀ c ∈ columns, IsIdentifier c) :
    dollarsIn (insertText table columns).toList =
      (List.range columns.length).map fun i => "$" ++ toString (i + 1) := by
  have own : '$' ∉ table.toList := identifier.notMem (by decide)
  have names : '$' ∉ nameList columns :=
    dollar_notMem_nameList fun c there => (identifiers c there).notMem (by decide)
  have front : '$' ∉ "INSERT INTO ".toList ++ '"' :: (table.toList ++ '"' :: (" (".toList ++
      (nameList columns ++ ") VALUES (".toList))) := by
    simp [own, names]
  have cut : (insertText table columns).toList = ("INSERT INTO ".toList ++ '"' :: (table.toList ++
      '"' :: (" (".toList ++ (nameList columns ++ ") VALUES (".toList)))) ++
        (parameterList columns.length ++ [')']) := by
    simp [toList_insertText]
  rw [cut, dollarsIn_append front, dollarsIn_parameterList (by decide) (by simp)]

end InsertText

/-- A statement is made exactly of names for a table and at least one column. It can be taken apart
into just these names and one parameter for each column, so no other names make the same one. -/
theorem insertStatement_unambiguous (table : String) (columns : List String) :
    ((∃ statement, insertStatement table columns = .ok statement) ↔
        columns ≠ [] ∧ IsIdentifier table ∧ ∀ c ∈ columns, IsIdentifier c) ∧
      ∀ statement, insertStatement table columns = .ok statement →
        quotedIn statement = table :: columns ∧
        dollarsIn statement.toList =
          (List.range columns.length).map (fun i => "$" ++ toString (i + 1)) ∧
        ∀ table' columns', insertStatement table' columns' = .ok statement →
          table' = table ∧ columns' = columns := by
  refine ⟨?_, fun statement made => ?_⟩
  · simp only [insertStatement_eq_ok_iff, exists_and_left, exists_eq, and_true]
  · obtain ⟨⟨-, named, all⟩, rfl⟩ := insertStatement_eq_ok_iff.mp made
    have names := quotedIn_insertText named all
    refine ⟨names, dollarsIn_insertText named all, fun table' columns' also => ?_⟩
    obtain ⟨⟨-, named', all'⟩, same⟩ := insertStatement_eq_ok_iff.mp also
    have names' := quotedIn_insertText named' all'
    rw [← same, names] at names'
    exact ⟨(List.cons.inj names').1.symm, (List.cons.inj names').2.symm⟩

end Intake.Sql
