import Intake.Proofs.Bulk.LetterFile

set_option autoImplicit false

/-!
Letters behind reports that failed. What a failed append wrote of its line stays in the file without a
line feed, so that the next letter that is taken in stands behind it on one line. That letter is not
found again; the letters after it are, and no failed report spoils more than one letter.
-/

namespace Intake.Bulk.LetterFile

open Intake.Json Intake.Number Intake.Text Intake.Time

section Cutting

private theorem cut_lineFeed (bytes : List UInt8) :
    cut (10 :: bytes) = ([] :: (cut bytes).1, (cut bytes).2) := rfl

private theorem cut_cons {b : UInt8} (other : b ≠ 10) (bytes : List UInt8) :
    cut (b :: bytes) = match (cut bytes).1 with
      | [] => ([], b :: (cut bytes).2)
      | first :: others => ((b :: first) :: others, (cut bytes).2) :=
  if_neg other

private theorem lineFeed_notMem_rest (content : List UInt8) : 10 ∉ (cut content).2 := by
  induction content with
  | nil => exact List.not_mem_nil
  | cons b content ih =>
    by_cases feed : b = 10
    · rw [feed, cut_lineFeed]
      exact ih
    · rw [cut_cons feed]
      cases split : (cut content).1 with
      | nil => simpa [split, Ne.symm feed] using ih
      | cons first others => simpa [split] using ih

private theorem cut_open {bytes : List UInt8} (closed : 10 ∉ bytes) : cut bytes = ([], bytes) := by
  induction bytes with
  | nil => rfl
  | cons b bytes ih =>
    obtain ⟨other, closed⟩ := not_or.mp (mt List.mem_cons.mpr closed)
    rw [cut_cons (Ne.symm other), ih closed]

private theorem cut_append (front back : List UInt8) : cut (front ++ back) =
    ((cut front).1 ++ (cut ((cut front).2 ++ back)).1, (cut ((cut front).2 ++ back)).2) := by
  induction front with
  | nil => rfl
  | cons b front ih =>
    rw [List.cons_append]
    by_cases feed : b = 10
    · rw [feed, cut_lineFeed, cut_lineFeed, ih]
      rfl
    · rw [cut_cons feed, cut_cons feed, ih]
      cases split : (cut front).1 with
      | nil =>
        simp only [List.nil_append, List.cons_append]
        rw [cut_cons feed]
      | cons first others => rfl

private theorem lineFeed_notMem_rest_append (content : List UInt8) {part : List UInt8}
    (closed : 10 ∉ part) : 10 ∉ (cut content).2 ++ part := by
  rw [List.mem_append]
  exact not_or.mpr ⟨lineFeed_notMem_rest content, closed⟩

private theorem cut_append_open (content : List UInt8) {part : List UInt8} (closed : 10 ∉ part) :
    cut (content ++ part) = ((cut content).1, (cut content).2 ++ part) := by
  rw [cut_append, cut_open (lineFeed_notMem_rest_append content closed), List.append_nil]

private theorem cut_append_line (content : List UInt8) {l : DeadLetter} (closed : 10 ∉ body l) :
    cut (content ++ line l) = ((cut content).1 ++ [(cut content).2 ++ body l], []) := by
  rw [cut_append, line_eq, ← List.append_assoc,
    cut_line (lineFeed_notMem_rest_append content closed) []]
  rfl

end Cutting

/-- What an append leaves of a letter without ending the line. -/
def scrap (l : DeadLetter) : AppendOutcome → List UInt8
  | .whole => []
  | .torn written _ => (line l).take (min written ((line l).length - 1))

/-- The letters that are taken in, each with the scraps of the letters that were refused since the one
before it. The scraps at hand stand in front of the first of them, and `n` counts the reports. -/
def behindScraps (outcome : Nat → AppendOutcome) (n : Nat) (scraps : List UInt8) :
    List DeadLetter → List (List UInt8 × DeadLetter)
  | [] => []
  | l :: letters =>
    match outcome n with
    | .whole => (scraps, l) :: behindScraps outcome (n + 1) [] letters
    | .torn written fault =>
      behindScraps outcome (n + 1) (scraps ++ scrap l (.torn written fault)) letters

section Reports

private theorem lineFeed_notMem_scrap {l : DeadLetter} (closed : 10 ∉ body l) (o : AppendOutcome) :
    10 ∉ scrap l o := by
  cases o with
  | whole => exact List.not_mem_nil
  | torn written fault =>
    have short : min written ((line l).length - 1) ≤ (body l).length := by
      have length : (line l).length = (body l).length + 1 := by simp [line_eq]
      omega
    have inside : scrap l (.torn written fault) <+: body l := by
      rw [line_eq] at short
      rw [scrap, line_eq, List.take_append_of_le_length short]
      exact List.take_prefix _ _
    intro there
    exact closed (inside.subset there)

variable (path : String) (outcome : Nat → AppendOutcome)

private theorem report_cases (f : LetterFile) (l : DeadLetter) :
    (outcome f.reports = .whole ∧ ((sink path outcome).report f l).fault = none ∧
      ((sink path outcome).report f l).state = ⟨f.content ++ line l, f.reports + 1⟩) ∨
    ∃ written fault, outcome f.reports = .torn written fault ∧
      ((sink path outcome).report f l).fault = some (.io fault) ∧
      ((sink path outcome).report f l).state =
        ⟨f.content ++ scrap l (.torn written fault), f.reports + 1⟩ := by
  cases found : outcome f.reports with
  | whole => exact .inl ⟨rfl, by simp [sink, found], by simp [sink, found]⟩
  | torn written fault =>
    exact .inr ⟨written, fault, rfl, by simp [sink, found], by simp [sink, found, scrap]⟩

variable {path outcome}

/-- What the file falls apart into, and who was taken in, from any point of a run on. -/
theorem cut_of_answers {role : SinkRole} {offers : List Offer} {first last : LetterFile}
    (answers : (sink path outcome).Answers role first offers last)
    (closed : ∀ o ∈ offers, 10 ∉ body o.letter) :
    (cut last.content).1 = (cut first.content).1 ++
        (behindScraps outcome first.reports (cut first.content).2 (offers.map Offer.letter)).map
          (fun t => t.1 ++ body t.2) ∧
      (behindScraps outcome first.reports (cut first.content).2 (offers.map Offer.letter)).map
        Prod.snd = (offers.filter (·.fault.isNone)).map Offer.letter := by
  induction answers with
  | nil => simp [behindScraps]
  | @cons f last l offers _ ih =>
    obtain ⟨here, others⟩ := List.forall_mem_cons.mp closed
    obtain ⟨lines, letters⟩ := ih others
    rcases report_cases path outcome f l with
      ⟨whole, taken, next⟩ | ⟨written, fault, torn, refused, next⟩
    · rw [next] at lines letters
      simp only [cut_append_line f.content here] at lines letters
      simp only [List.map_cons, behindScraps, whole, taken]
      refine ⟨?_, ?_⟩
      · rw [lines, List.append_assoc, List.singleton_append]
      · rw [letters, List.filter_cons_of_pos rfl, List.map_cons]
    · rw [next] at lines letters
      simp only [cut_append_open f.content (lineFeed_notMem_scrap here _)] at lines letters
      simp only [List.map_cons, behindScraps, torn, refused]
      exact ⟨lines, letters⟩

private theorem length_spoiled_le {role : SinkRole} {offers : List Offer} {first last : LetterFile}
    (answers : (sink path outcome).Answers role first offers last) (scraps : List UInt8) :
    ((behindScraps outcome first.reports scraps (offers.map Offer.letter)).filter
        (fun t => t.1 ≠ [])).length ≤
      (offers.filter (·.fault.isSome)).length + if scraps = [] then 0 else 1 := by
  induction answers generalizing scraps with
  | nil => simp [behindScraps]
  | @cons f last l offers _ ih =>
    rcases report_cases path outcome f l with
      ⟨whole, taken, next⟩ | ⟨written, fault, torn, refused, next⟩
    · have behind := ih []
      rw [next, if_pos rfl, Nat.add_zero] at behind
      have answered : (Offer.mk role l none :: offers).filter (·.fault.isSome) =
          offers.filter (·.fault.isSome) := rfl
      rw [List.map_cons, behindScraps, whole, taken, answered]
      by_cases clean : scraps = []
      · rw [List.filter_cons_of_neg (by simpa using clean), if_pos clean]
        exact behind
      · rw [List.filter_cons_of_pos (by simpa using clean), if_neg clean, List.length_cons]
        exact Nat.succ_le_succ behind
    · have behind := ih (scraps ++ scrap l (.torn written fault))
      simp only [next] at behind
      simp only [List.map_cons, behindScraps, torn, refused, Option.isSome_some,
        List.filter_cons_of_pos, List.length_cons]
      split at behind
      · omega
      · omega

end Reports

/-- Of a fresh file, every letter that was taken in is the end of a complete line, in the order of the
reports. The line is the letter alone, and is read as the letter, unless a report in front of it, since
the last letter that was taken in, left a scrap; so no failed report spoils more than one letter. -/
theorem lines_behindScraps {path : String} {outcome : Nat → AppendOutcome} {role : SinkRole}
    {offers : List Offer} {last : LetterFile}
    (answers : (sink path outcome).Answers role empty offers last)
    (counted : ∀ o ∈ offers, o.letter.attempts < Word.count 32)
    (dated : ∀ o ∈ offers, Rfc3339.read o.letter.failedAt.text.toList = .ok o.letter.failedAt) :
    ∃ pieces, pieces = behindScraps outcome 0 [] (offers.map Offer.letter) ∧
      pieces.map Prod.snd = (offers.filter (·.fault.isNone)).map Offer.letter ∧
      last.lines = pieces.map (fun t => t.1 ++ body t.2) ∧
      (last.lines = pieces.map (fun t => body t.2) ↔ ∀ t ∈ pieces, t.1 = []) ∧
      (∀ t ∈ pieces, ReadsBack (body t.2) t.2) ∧
      (pieces.filter (fun t => t.1 ≠ [])).length ≤
        (offers.filter (·.fault.isSome)).length := by
  have restored : ∀ o ∈ offers,
      DeadLetter.decoder.Restores maxLevels o.letter.toJson o.letter := fun o there =>
    DeadLetter.restores 123 (counted o there) (dated o there)
  have closed : ∀ o ∈ offers, 10 ∉ body o.letter := fun o there =>
    lineFeed_notMem_encode (restored o there).plain.isVisible
  obtain ⟨lines, letters⟩ := cut_of_answers answers closed
  have behind : last.lines =
      (behindScraps outcome 0 [] (offers.map Offer.letter)).map (fun t => t.1 ++ body t.2) := lines
  refine ⟨_, rfl, letters, behind, ?_, ?_, ?_⟩
  · rw [behind, List.map_inj_left]
    simp
  · intro t there
    have taken : t.2 ∈ (offers.filter (·.fault.isNone)).map Offer.letter :=
      letters ▸ List.mem_map_of_mem there
    obtain ⟨o, member, same⟩ := List.mem_map.mp taken
    rw [← same]
    exact body_readsBack (restored o (List.mem_filter.mp member).1)
  · have spoiled := length_spoiled_le answers []
    rwa [if_pos rfl, Nat.add_zero] at spoiled

private theorem parse_doubledBrace (rest : List Char) :
    (DeadLetter.decoder.parse (String.ofList ('\x7b' :: '\x7b' :: rest))).toOption = none := by
  rw [Decoder.parse, String.toList_ofList]
  rfl

private theorem not_readsBack_behindByte (l other : DeadLetter) :
    ¬ ReadsBack (123 :: body l) other := by
  rintro ⟨text, decoded, parsed⟩
  have start : ∃ rest, l.toJson.print = '\x7b' :: rest := ⟨_, rfl⟩
  obtain ⟨rest, print⟩ := start
  have encoded : Utf8.encode ('\x7b' :: '\x7b' :: rest) = 123 :: body l := by
    rw [body, print]
    rfl
  have braces : text = '\x7b' :: '\x7b' :: rest :=
    Utf8.encode_injective ((Utf8.decode_eq_ok_iff.mp decoded).trans encoded.symm)
  rw [braces, parse_doubledBrace] at parsed
  cases parsed

/-- The disk is full for one report, the first, after `written` bytes of it. -/
def fullOnce (written : Nat) (n : Nat) : AppendOutcome :=
  if n = 0 then .torn written "No space left on device (os error 28)" else .whole

/-- Three letters of which the first is refused: the second stands behind what is left of the first. -/
theorem lines_behindScraps_fullOnce :
    (sink "letters" (fullOnce 9)).Answers .primary empty
        [⟨.primary, awkward, some (.io "No space left on device (os error 28)")⟩,
          ⟨.primary, hollow, none⟩, ⟨.primary, awkward, none⟩]
        ⟨scrap awkward (fullOnce 9 0) ++ line hollow ++ line awkward, 3⟩ ∧
      ∃ pieces, pieces = [(scrap awkward (fullOnce 9 0), hollow), ([], awkward)] ∧
        pieces.map Prod.snd = [hollow, awkward] ∧
        lines ⟨scrap awkward (fullOnce 9 0) ++ line hollow ++ line awkward, 3⟩ =
          pieces.map (fun t => t.1 ++ body t.2) ∧
        (∀ t ∈ pieces, ReadsBack (body t.2) t.2) ∧
        (pieces.filter (fun t => t.1 ≠ [])).length ≤ 1 := by
  have answers : (sink "letters" (fullOnce 9)).Answers .primary empty
      [⟨.primary, awkward, some (.io "No space left on device (os error 28)")⟩,
        ⟨.primary, hollow, none⟩, ⟨.primary, awkward, none⟩]
      ⟨scrap awkward (fullOnce 9 0) ++ line hollow ++ line awkward, 3⟩ :=
    .cons (.cons (.cons (.nil _)))
  obtain ⟨pieces, same, letters, lines, -, reads, spoiled⟩ := lines_behindScraps answers (by decide)
    (by simpa [awkward, hollow] using read_failedAt)
  exact ⟨answers, pieces, same, letters, lines, reads, spoiled⟩

/-- Two letters, the first of them refused after its first byte: the second, although it was taken in,
can be read of no line of the file. -/
theorem not_readsBack_of_torn :
    (sink "letters" (fullOnce 1)).Answers .primary empty
        [⟨.primary, hollow, some (.io "No space left on device (os error 28)")⟩,
          ⟨.primary, hollow, none⟩]
        ⟨123 :: line hollow, 2⟩ ∧
      ∀ bytes ∈ lines ⟨123 :: line hollow, 2⟩, ¬ ReadsBack bytes hollow := by
  have answers : (sink "letters" (fullOnce 1)).Answers .primary empty
      [⟨.primary, hollow, some (.io "No space left on device (os error 28)")⟩,
        ⟨.primary, hollow, none⟩]
      ⟨123 :: line hollow, 2⟩ :=
    .cons (.cons (.nil _))
  have restored : DeadLetter.decoder.Restores maxLevels hollow.toJson hollow :=
    DeadLetter.restores 123 (by decide) read_failedAt
  have closed : 10 ∉ 123 :: body hollow :=
    List.not_mem_cons_of_ne_of_not_mem (by decide) (lineFeed_notMem_encode restored.plain.isVisible)
  have single : lines ⟨123 :: line hollow, 2⟩ = [123 :: body hollow] := by
    rw [lines, line_eq, ← List.cons_append, cut_line closed []]
    rfl
  refine ⟨answers, ?_⟩
  rw [single]
  exact List.forall_mem_singleton.mpr (not_readsBack_behindByte hollow hollow)

end Intake.Bulk.LetterFile
