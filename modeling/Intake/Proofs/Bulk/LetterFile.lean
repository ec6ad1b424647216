import Intake.Proofs.Bulk.Surfacing
import Intake.Proofs.Decoder.Printed
import Intake.Proofs.Text.Utf8

set_option autoImplicit false

/-!
Letters in a file. No line feed comes up inside a letter, so the file falls apart into the letters it
took in, in their order, and each of its lines is read as the letter that was written.
-/

namespace Intake.Bulk

open Intake.Json Intake.Number Intake.Text Intake.Time

private theorem PutRequest.restores (levels : Nat) (r : PutRequest) :
    PutRequest.decoder.Restores (levels + 2) r.toJson r := by
  have item : (Decoder.dictionary .string).Restores (levels + 1) (.texts r.item) r.item :=
    Decoder.restores_dictionary fun e _ => Decoder.restores_string levels e.2
  exact Decoder.restores_record rfl (by decide)
    (Decoder.Fields.restores_cons item (Decoder.Fields.restores_nil _)) rfl

namespace DeadLetter

private theorem restores_instant (levels : Nat) {i : Instant}
    (dated : Rfc3339.read i.text.toList = .ok i) :
    instantDecoder.Restores levels (.string i.text) i := by
  apply Decoder.restores_parsed
  rw [dated]

theorem restores (levels : Nat) {l : DeadLetter} (counted : l.attempts < Word.count 32)
    (dated : Rfc3339.read l.failedAt.text.toList = .ok l.failedAt) :
    decoder.Restores (levels + 4) l.toJson l := by
  have records : (Decoder.list PutRequest.decoder).Restores (levels + 3)
      (.list PutRequest.toJson l.records) l.records :=
    Decoder.restores_list fun r _ => PutRequest.restores levels r
  exact Decoder.restores_record rfl (by decide)
    (Decoder.Fields.restores_cons (Decoder.restores_string _ l.table)
      (Decoder.Fields.restores_cons (Decoder.restores_nat _ "u32" (by decide) counted)
        (Decoder.Fields.restores_cons (restores_instant _ dated)
          (Decoder.Fields.restores_cons (Decoder.restores_optionString _ l.lastError)
            (Decoder.Fields.restores_cons records (Decoder.Fields.restores_nil _)))))) rfl

end DeadLetter

namespace LetterFile

/-- A line is the text of a document that is read as the letter. -/
def ReadsBack (bytes : List UInt8) (l : DeadLetter) : Prop :=
  ∃ text, Utf8.decode bytes = .ok text ∧
    (DeadLetter.decoder.parse (String.ofList text)).toOption = some l

def body (l : DeadLetter) : List UInt8 := Utf8.encode l.toJson.print

theorem line_eq (l : DeadLetter) : line l = body l ++ [10] := Utf8.encode_append _ _

theorem body_readsBack {l : DeadLetter}
    (restores : DeadLetter.decoder.Restores maxLevels l.toJson l) : ReadsBack (body l) l :=
  ⟨l.toJson.print, Utf8.decode_eq_ok_iff.mpr rfl, restores.parse_text⟩

theorem lineFeed_notMem_encode {chars : List Char} (visible : IsVisible chars) :
    10 ∉ Utf8.encode chars := by
  intro there
  obtain ⟨c, member, byte⟩ := List.mem_flatMap.mp there
  have large : 0x20 ≤ c.toNat := visible c member
  have small : (10 : UInt8).toNat = 10 := rfl
  rcases Utf8.toNat_of_mem_encodeChar byte with same | high
  · omega
  · omega

theorem cut_line {bytes : List UInt8} (closed : 10 ∉ bytes) (rest : List UInt8) :
    cut (bytes ++ 10 :: rest) = (bytes :: (cut rest).1, (cut rest).2) := by
  induction bytes with
  | nil => rfl
  | cons b bytes ih =>
    obtain ⟨other, closed⟩ := not_or.mp (mt List.mem_cons.mpr closed)
    rw [List.cons_append, cut, ih closed]
    exact if_neg (Ne.symm other)

private theorem cut_lines {letters : List DeadLetter} (closed : ∀ l ∈ letters, 10 ∉ body l) :
    cut (letters.flatMap line) = (letters.map body, []) := by
  induction letters with
  | nil => rfl
  | cons l letters ih =>
    obtain ⟨here, others⟩ := List.forall_mem_cons.mp closed
    rw [List.flatMap_cons, line_eq, List.append_assoc, List.singleton_append, cut_line here,
      ih others]
    rfl

section Reports

variable {path : String} {outcome : Nat → AppendOutcome}

/-- A letter that is not refused stands behind all others, as a whole. -/
theorem content_report {f : LetterFile} {l : DeadLetter}
    (taken : ((sink path outcome).report f l).fault = none) :
    ((sink path outcome).report f l).state.content = f.content ++ line l := by
  simp only [sink] at taken ⊢
  split at taken
  next => rfl
  next => simp at taken

private theorem content_of_answers {role : SinkRole} {offers : List Offer} {first last : LetterFile}
    (answers : (sink path outcome).Answers role first offers last)
    (taken : ∀ o ∈ offers, o.fault = none) :
    last.content = first.content ++ (offers.map Offer.letter).flatMap line := by
  induction answers with
  | nil => simp
  | cons _ ih =>
    obtain ⟨here, others⟩ := List.forall_mem_cons.mp taken
    rw [ih others, content_report here, List.map_cons, List.flatMap_cons, List.append_assoc]

end Reports

/-- The letters that a fresh file took in are its lines, in their order and with nothing behind them,
and each line is read as its letter. -/
theorem lines_readBack {path : String} {outcome : Nat → AppendOutcome} {role : SinkRole}
    {offers : List Offer} {last : LetterFile}
    (answers : (sink path outcome).Answers role empty offers last)
    (taken : ∀ o ∈ offers, o.fault = none)
    (counted : ∀ o ∈ offers, o.letter.attempts < Word.count 32)
    (dated : ∀ o ∈ offers, Rfc3339.read o.letter.failedAt.text.toList = .ok o.letter.failedAt) :
    ∃ lines, cut last.content = (lines, []) ∧
      List.Forall₂ ReadsBack lines (offers.map Offer.letter) := by
  have restored : ∀ o ∈ offers,
      DeadLetter.decoder.Restores maxLevels o.letter.toJson o.letter := fun o there =>
    DeadLetter.restores 123 (counted o there) (dated o there)
  have closed : ∀ l ∈ offers.map Offer.letter, 10 ∉ body l :=
    List.forall_mem_map.mpr fun o there => lineFeed_notMem_encode (restored o there).plain.isVisible
  have content : last.content = (offers.map Offer.letter).flatMap line :=
    content_of_answers answers taken
  refine ⟨(offers.map Offer.letter).map body, ?_, ?_⟩
  · rw [content]
    exact cut_lines closed
  · rw [List.forall₂_map_left_iff, List.forall₂_same]
    exact List.forall_mem_map.mpr fun o there => body_readsBack (restored o there)

/-- A letter full of characters that no printed text holds as they are, and without an error. -/
def awkward : DeadLetter where
  table := "audit\n\"log\"\\"
  attempts := 4294967295
  failedAt := ⟨1700000000, 120000000⟩
  lastError := none
  records := [⟨.ofList [("\x00\n", "\x1f\r\n\t\"\\"), ("", "ü😀\u2028")]⟩, ⟨.empty⟩]

def hollow : DeadLetter where
  table := ""
  attempts := 0
  failedAt := ⟨1700000000, 120000000⟩
  lastError := some "throttled\nnull"
  records := []

theorem read_failedAt :
    Rfc3339.read (Instant.text ⟨1700000000, 120000000⟩).toList = .ok ⟨1700000000, 120000000⟩ := by
  have text : (Instant.text ⟨1700000000, 120000000⟩).toList =
      "2023-11-14T22:13:20.120Z".toList := by
    simp [Instant.text, Instant.toDateTime, DateTime.text, DateTime.clockChars, Date.ofDays,
      Date.toChars, fractionChars, Digits.padded, Digits.padLeft, Digits.decimal, Digits.char]
  rw [text]
  rfl

/-- Both letters in a file, the awkward one first. -/
theorem lines_readBack_awkward :
    (sink "letters" fun _ => .whole).Answers .primary empty
        [⟨.primary, awkward, none⟩, ⟨.primary, hollow, none⟩] ⟨line awkward ++ line hollow, 2⟩ ∧
      ∃ lines, cut (line awkward ++ line hollow) = (lines, []) ∧
        List.Forall₂ ReadsBack lines [awkward, hollow] := by
  have answers : (sink "letters" fun _ => .whole).Answers .primary empty
      [⟨.primary, awkward, none⟩, ⟨.primary, hollow, none⟩] ⟨line awkward ++ line hollow, 2⟩ :=
    .cons (.cons (.nil _))
  refine ⟨answers, lines_readBack answers (by simp) (by decide) ?_⟩
  exact List.forall_mem_cons.mpr ⟨read_failedAt, List.forall_mem_singleton.mpr read_failedAt⟩

end LetterFile

end Intake.Bulk
