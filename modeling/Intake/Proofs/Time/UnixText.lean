import Intake.Proofs.Number.FloatText
import Intake.Time.Calendar
import Mathlib.Algebra.Order.Floor.Ring
import Mathlib.Data.Rat.Floor

set_option autoImplicit false

/-!
What the Unix text of an instant denotes. Seconds and microseconds are written one after the other,
and the sign of the seconds is read for both: the text is the instant, down to a microsecond, for the
instants that are not in a leap second and not between two whole seconds before 1970.
-/

namespace Intake

open Intake.Text

namespace Text.Digits

private theorem length_decimal_le_iff {k n : Nat} (positive : 0 < k) :
    (decimal n).length ≤ k ↔ n < 10 ^ k := by
  rcases Nat.eq_zero_or_pos n with rfl | some_
  · have one : (decimal 0).length = 1 := by simp [decimal]
    rw [one]
    exact iff_of_true positive (Nat.pow_pos (by decide))
  · have upper := (length_decimal some_).2
    refine ⟨?_, Number.FloatText.length_decimal_le some_⟩
    intro short
    exact Nat.lt_of_lt_of_le upper (Nat.pow_le_pow_right (by decide) short)

private theorem length_padded_eq_iff {k n : Nat} (positive : 0 < k) :
    (padded k n).length = k ↔ n < 10 ^ k := by
  rw [← length_decimal_le_iff positive, padded, padLeft, List.length_append, List.length_replicate]
  omega

private theorem value_padded (k n : Nat) : value (padded k n) = n := by
  rw [padded, padLeft, Number.FloatText.value_zeros_append, value_decimal]

private theorem notMem_of_digits {c : Char} (other : isDigit c = false) {digits : List Char}
    (all : ∀ d ∈ digits, isDigit d = true) : c ∉ digits := by
  intro there
  rw [all c there] at other
  cases other

private theorem isDigit_of_mem_padded (k n : Nat) : ∀ c ∈ padded k n, isDigit c = true :=
  List.forall_mem_append.mpr ⟨Number.FloatText.isDigit_zeros _, isDigit_of_mem_decimal n⟩

end Text.Digits

namespace Time

/-- An optional minus sign, digits, a point and six digits. -/
structure SixPlaces where
  negative : Bool
  whole : List Char
  fraction : List Char
  some_ : whole ≠ []
  wholeDigits : ∀ c ∈ whole, Digits.isDigit c = true
  six : fraction.length = 6
  fractionDigits : ∀ c ∈ fraction, Digits.isDigit c = true

namespace SixPlaces

def signed (t : SixPlaces) : List Char := if t.negative then '-' :: t.whole else t.whole

def chars (t : SixPlaces) : List Char := t.signed ++ '.' :: t.fraction

def millionths (t : SixPlaces) : Int :=
  let size : Int := Digits.value t.whole * 10 ^ 6 + Digits.value t.fraction
  if t.negative then -size else size

def number (t : SixPlaces) : ℚ := t.millionths / 10 ^ 6

private theorem number_eq_iff {t : SixPlaces} {n : Int} :
    t.number = (n : ℚ) / 10 ^ 6 ↔ t.millionths = n := by
  rw [number, div_left_inj' (by norm_num), Int.cast_inj]

end SixPlaces

namespace Instant

/-- Unix seconds. In a leap second the nanoseconds are added to the second as they stand. -/
def unix (i : Instant) : ℚ := i.seconds + i.nanosecond / 10 ^ 9

/-- A text is read as the Unix seconds of the instant, rounded down to a microsecond. -/
def IsDenotedBy (i : Instant) (text : String) : Prop :=
  ∃ t : SixPlaces, t.chars = text.toList ∧ t.number = (⌊i.unix * 10 ^ 6⌋ : ℤ) / 10 ^ 6

/-- The instant is outside of leap seconds, and not after a whole second before 1970. -/
def IsPlain (i : Instant) : Prop :=
  i.nanosecond < 10 ^ 9 ∧ (0 ≤ i.seconds ∨ i.nanosecond < 1000)

private theorem floor_unix (i : Instant) :
    ⌊i.unix * 10 ^ 6⌋ = i.seconds * 10 ^ 6 + (i.nanosecond / 1000 : Nat) := by
  have parts : i.unix * 10 ^ 6 =
      ((i.seconds * 10 ^ 6 : Int) : ℚ) + (i.nanosecond : ℚ) / ((1000 : Nat) : ℚ) := by
    rw [unix]
    push_cast
    ring
  rw [parts, Int.floor_intCast_add]
  congr 1
  exact_mod_cast Rat.floor_natCast_div_natCast i.nanosecond 1000

theorem toList_unixText (i : Instant) : i.unixText.toList =
    Digits.integer i.seconds ++ '.' :: Digits.padded 6 (i.nanosecond / 1000) := by
  rw [unixText, String.toList_ofList]

section Reading

variable {i : Instant} {t : SixPlaces}

private theorem signed_eq_integer_iff {k : Int} : t.signed = Digits.integer k ↔
    t.negative = decide (k < 0) ∧ t.whole = Digits.decimal k.natAbs := by
  have first : '-' ∉ t.whole := Digits.notMem_of_digits rfl t.wholeDigits
  have second : '-' ∉ Digits.decimal k.natAbs :=
    Digits.notMem_of_digits rfl (Digits.isDigit_of_mem_decimal _)
  rw [SixPlaces.signed, Digits.integer]
  by_cases before : k < 0
  · cases negative : t.negative with
    | true => simp [before]
    | false =>
      have other : t.whole ≠ '-' :: Digits.decimal k.natAbs := by
        intro same
        exact first (same ▸ List.mem_cons_self)
      simp [before, other]
  · cases negative : t.negative with
    | true =>
      have other : '-' :: t.whole ≠ Digits.decimal k.natAbs := by
        intro same
        exact second (same ▸ List.mem_cons_self)
      simp [before, other]
    | false => simp [before]

private theorem chars_eq_unixText_iff : t.chars = i.unixText.toList ↔
    t.negative = decide (i.seconds < 0) ∧ t.whole = Digits.decimal i.seconds.natAbs ∧
      t.fraction = Digits.padded 6 (i.nanosecond / 1000) := by
  have unsigned : '.' ∉ t.signed := by
    have inside : '.' ∉ t.whole := Digits.notMem_of_digits rfl t.wholeDigits
    rw [SixPlaces.signed]
    split
    · exact List.not_mem_cons_of_ne_of_not_mem (by decide) inside
    · exact inside
  have behind : '.' ∉ t.fraction := Digits.notMem_of_digits rfl t.fractionDigits
  rw [SixPlaces.chars, toList_unixText, List.append_cons_inj_of_notMem unsigned behind,
    signed_eq_integer_iff, and_assoc]
  simp only [true_and]

private theorem millionths_of_chars (same : t.chars = i.unixText.toList) : t.millionths =
    i.seconds * 10 ^ 6 + (if i.seconds < 0 then -1 else 1) * (i.nanosecond / 1000 : Nat) := by
  obtain ⟨sign, whole, fraction⟩ := chars_eq_unixText_iff.mp same
  rw [SixPlaces.millionths, sign, whole, fraction, Digits.value_decimal, Digits.value_padded]
  by_cases before : i.seconds < 0
  · simp only [before, decide_true, if_true]
    omega
  · simp only [before, decide_false, Bool.false_eq_true, if_false]
    omega

private theorem exists_reading_iff :
    (∃ t : SixPlaces, t.chars = i.unixText.toList) ↔ i.nanosecond < 10 ^ 9 := by
  have room : i.nanosecond < 10 ^ 9 ↔ i.nanosecond / 1000 < 10 ^ 6 := by omega
  rw [room, ← Digits.length_padded_eq_iff (by decide)]
  constructor
  · rintro ⟨t, same⟩
    rw [← (chars_eq_unixText_iff.mp same).2.2]
    exact t.six
  · intro six
    exact ⟨⟨decide (i.seconds < 0), Digits.decimal i.seconds.natAbs,
      Digits.padded 6 (i.nanosecond / 1000), Digits.decimal_ne_nil _,
      Digits.isDigit_of_mem_decimal _, six, Digits.isDigit_of_mem_padded 6 _⟩,
      chars_eq_unixText_iff.mpr ⟨rfl, rfl, rfl⟩⟩

private theorem number_eq_floor_iff (same : t.chars = i.unixText.toList) :
    t.number = (⌊i.unix * 10 ^ 6⌋ : ℤ) / 10 ^ 6 ↔ 0 ≤ i.seconds ∨ i.nanosecond < 1000 := by
  rw [SixPlaces.number_eq_iff, millionths_of_chars same, floor_unix]
  split
  · omega
  · omega

private theorem isDenotedBy_iff : i.IsDenotedBy i.unixText ↔ i.IsPlain := by
  constructor
  · rintro ⟨t, same, number⟩
    exact ⟨exists_reading_iff.mp ⟨t, same⟩, (number_eq_floor_iff same).mp number⟩
  · rintro ⟨ended, sign⟩
    obtain ⟨t, same⟩ := exists_reading_iff.mpr ended
    exact ⟨t, same, (number_eq_floor_iff same).mpr sign⟩

/-- A microsecond or more stays a microsecond or more. -/
theorem number_lt_number {j : Instant} {s : SixPlaces} (first : t.chars = i.unixText.toList)
    (second : s.chars = j.unixText.toList) (plain : i.IsPlain) (plain' : j.IsPlain)
    (apart : i.unix + 1 / 10 ^ 6 ≤ j.unix) : t.number < s.number := by
  have later : i.unix * 10 ^ 6 + 1 ≤ j.unix * 10 ^ 6 := by linarith
  have below : ⌊i.unix * 10 ^ 6⌋ + 1 ≤ ⌊j.unix * 10 ^ 6⌋ := by
    rw [← Int.floor_add_one]
    exact Int.floor_le_floor later
  rw [(number_eq_floor_iff first).mpr plain.2, (number_eq_floor_iff second).mpr plain'.2]
  gcongr
  exact below

end Reading

/-- The text of an instant denotes it, down to a microsecond, exactly if the instant is plain; and the
texts of plain instants order those that are a microsecond or more apart. -/
theorem unixText_denotes (i : Instant) :
    (i.IsDenotedBy i.unixText ↔ i.nanosecond < 10 ^ 9 ∧ (0 ≤ i.seconds ∨ i.nanosecond < 1000)) ∧
    ∀ (j : Instant) (t s : SixPlaces), i.IsPlain → j.IsPlain →
      t.chars = i.unixText.toList → s.chars = j.unixText.toList →
      i.unix + 1 / 10 ^ 6 ≤ j.unix → t.number < s.number := by
  constructor
  · exact isDenotedBy_iff
  · intro j t s plain plain' first second apart
    exact number_lt_number first second plain plain' apart

/-- The second before 1970 and a microsecond after it began. -/
theorem unixText_denotes_acrossEpoch :
    IsDenotedBy ⟨-1, 999⟩ "-1.000000" ∧ IsDenotedBy ⟨0, 1999⟩ "0.000001" ∧
      ∃ t s : SixPlaces, t.chars = "-1.000000".toList ∧ s.chars = "0.000001".toList ∧
        t.number < s.number := by
  have first : unixText ⟨-1, 999⟩ = "-1.000000" := by decide +kernel
  have second : unixText ⟨0, 1999⟩ = "0.000001" := by decide +kernel
  obtain ⟨denoted, ordered⟩ := unixText_denotes ⟨-1, 999⟩
  have before : IsDenotedBy ⟨-1, 999⟩ "-1.000000" := first ▸ denoted.mpr (by decide)
  have after : IsDenotedBy ⟨0, 1999⟩ "0.000001" :=
    second ▸ (unixText_denotes ⟨0, 1999⟩).1.mpr (by decide)
  refine ⟨before, after, ?_⟩
  obtain ⟨t, chars, -⟩ := before
  obtain ⟨s, chars', -⟩ := after
  refine ⟨t, s, chars, chars', ordered ⟨0, 1999⟩ t s ?_ ?_ ?_ ?_ ?_⟩
  · exact ⟨by decide, .inr (by decide)⟩
  · exact ⟨by decide, .inl (by decide)⟩
  · rw [first, chars]
  · rw [second, chars']
  · norm_num [unix]

/-- Half a second before 1970 is written as a second and a half before it, and the end of a leap second
is written with seven digits. -/
theorem not_isDenotedBy_halfSecond :
    unixText ⟨-1, 500000000⟩ = "-1.500000" ∧ unix ⟨-1, 500000000⟩ = -1 / 2 ∧
      ¬IsDenotedBy ⟨-1, 500000000⟩ "-1.500000" ∧
      unixText ⟨1483228799, 1500000000⟩ = "1483228799.1500000" ∧
      ¬IsDenotedBy ⟨1483228799, 1500000000⟩ "1483228799.1500000" := by
  have half : unixText ⟨-1, 500000000⟩ = "-1.500000" := by decide +kernel
  have leap : unixText ⟨1483228799, 1500000000⟩ = "1483228799.1500000" := by decide +kernel
  refine ⟨half, by norm_num [unix], ?_, leap, ?_⟩
  · rw [← half, isDenotedBy_iff]
    rintro ⟨-, sign⟩
    revert sign
    decide
  · rw [← leap, isDenotedBy_iff]
    rintro ⟨ended, -⟩
    revert ended
    decide

end Instant

end Time

end Intake
