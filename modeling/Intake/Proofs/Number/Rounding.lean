import Intake.Number.Shortest
import Mathlib

set_option autoImplicit false

/-!
Rounding to the nearest double. The whole part of a quotient, with one bit for the half and one for
what is left, is shifted until it has fifty-three bits; that comes to rounding the quotient once, a half
going to the even neighbour. `RoundsTo` says so in terms of the numbers that lie around a double.
-/

namespace Intake.Number.Shortest

def Interval.Includes (i : Interval) (unit : Int) (v : ℚ) : Prop :=
  if i.closed then i.low * (2 : ℚ) ^ unit ≤ v ∧ v ≤ i.high * (2 : ℚ) ^ unit
  else i.low * (2 : ℚ) ^ unit < v ∧ v < i.high * (2 : ℚ) ^ unit

end Intake.Number.Shortest

namespace Intake.Number.Binary64

open Intake.Number.Shortest
open Float.Model Float.Model.UnpackedFloat

/-- A number rounds to `m · 2 ^ e`. -/
def RoundsTo (v : ℚ) (m : Nat) (e : Int) : Prop := (Interval.around m e).Includes (e - 2) v

/-- The whole part of a quotient with what rounding has to know of its fraction. -/
def extended (numerator denominator : Nat) : ExtendedMantissa :=
  ⟨numerator / denominator, denominator ≤ 2 * (numerator % denominator),
    2 * numerator % denominator ≠ 0⟩

variable {numerator denominator : Nat}

private theorem mod_double (numerator : Nat) {denominator : Nat} (positive : 0 < denominator) :
    2 * numerator % denominator =
      if denominator ≤ 2 * (numerator % denominator) then
        2 * (numerator % denominator) - denominator
      else 2 * (numerator % denominator) := by
  have below := Nat.mod_lt numerator positive
  rw [← Nat.mul_mod_mod]
  split
  next large => rw [Nat.mod_eq_sub_mod large, Nat.mod_eq_of_lt (by omega)]
  next small => rw [Nat.mod_eq_of_lt (by omega)]

private theorem extended_of_fraction (positive : 0 < denominator) :
    ExtendedMantissa.ofMantissaAndAccuracy (numerator / denominator)
        (accuracyOfFraction (numerator % denominator) denominator) =
      extended numerator denominator := by
  have double := mod_double numerator positive
  unfold accuracyOfFraction extended
  by_cases none : numerator % denominator = 0
  · simp [none, double, positive.ne', ExtendedMantissa.ofMantissaAndAccuracy]
  · rw [if_neg none, double]
    rcases Nat.lt_trichotomy (2 * (numerator % denominator)) denominator with less | same | more
    · simp [Nat.compare_eq_lt.mpr less, ExtendedMantissa.ofMantissaAndAccuracy, none,
        Nat.not_le_of_lt less]
    · simp [same, ExtendedMantissa.ofMantissaAndAccuracy]
    · simp [Nat.compare_eq_gt.mpr more, ExtendedMantissa.ofMantissaAndAccuracy, Nat.le_of_lt more,
        Nat.sub_ne_zero_of_lt more]

private theorem shiftRightOne_extended (positive : 0 < denominator) :
    (extended numerator denominator).shiftRightOne = extended numerator (denominator * 2) := by
  have below := Nat.mod_lt numerator positive
  have split : numerator % (denominator * 2) =
      numerator % denominator + denominator * (numerator / denominator % 2) := Nat.mod_mul
  have double := mod_double numerator positive
  have twice : 2 * numerator % (denominator * 2) = 2 * (numerator % denominator) := by
    rw [Nat.mul_comm denominator, Nat.mul_mod_mul_left]
  simp only [extended, ExtendedMantissa.shiftRightOne, ExtendedMantissa.mk.injEq,
    Nat.div_div_eq_div_mul, true_and]
  constructor
  · rcases Nat.mod_two_eq_zero_or_one (numerator / denominator) with even | odd
    · rw [even] at split ⊢
      simp
      omega
    · rw [odd] at split ⊢
      simp
      omega
  · rw [twice, double]
    simp only [← Bool.decide_or, decide_eq_decide]
    split <;> omega

private theorem shiftRight_extended (positive : 0 < denominator) (places : Nat) :
    extended numerator denominator >>> places = extended numerator (denominator * 2 ^ places) := by
  induction places with
  | zero => simp [HShiftRight.hShiftRight, Nat.repeat]
  | succ places ih =>
    show (extended numerator denominator >>> places).shiftRightOne = _
    rw [ih, shiftRightOne_extended (Nat.mul_pos positive (Nat.two_pow_pos places)), Nat.mul_assoc,
      Nat.pow_succ]

private theorem roundedMantissa_extended (positive : 0 < denominator) :
    (extended numerator denominator).roundedMantissa = roundHalfEven numerator denominator := by
  have double := mod_double numerator positive
  unfold roundHalfEven ExtendedMantissa.roundedMantissa extended
  simp only
  rcases Nat.lt_trichotomy (2 * (numerator % denominator)) denominator with less | same | more
  · rw [if_pos less, double, if_neg (Nat.not_le_of_lt less)]
    by_cases none : numerator % denominator = 0
    · simp [none, Nat.not_le_of_lt positive, ExtendedMantissa.accuracy, Accuracy.roundToNearestEven]
    · simp [none, Nat.not_le_of_lt less, ExtendedMantissa.accuracy, Accuracy.roundToNearestEven]
  · rw [if_neg (Nat.not_lt_of_le same.ge), if_neg (Nat.not_lt_of_le same.le), double,
      if_pos same.ge, same, Nat.sub_self]
    simp [ExtendedMantissa.accuracy, Accuracy.roundToNearestEven]
    rcases Nat.mod_two_eq_zero_or_one (numerator / denominator) with even | odd
    · simp [even]
    · simp [odd]
  · rw [if_neg (Nat.not_lt_of_le more.le), if_pos more, double, if_pos more.le]
    simp [more.le, Nat.sub_ne_zero_of_lt more, ExtendedMantissa.accuracy,
      Accuracy.roundToNearestEven]

theorem targetExponent_eq (mantissa : Nat) (exponent : Int) :
    Format.binary64.targetExponent (totalExponent mantissa exponent) =
      max (mantissa.log2 + exponent - 52) (-1074) := by
  simp only [Format.targetExponent, totalExponent, Format.mantissaBits, Format.minExponent]
  norm_num
  omega

private theorem shift_exact {mantissa : Nat} {exponent : Int} (upper : mantissa < 2 ^ 53)
    (low : -1074 ≤ exponent) :
    shiftToTargetExponent Format.binary64 mantissa exponent .exact =
      (⟨mantissa, false, false⟩, exponent) := by
  have short : mantissa.log2 ≤ 52 := by
    by_cases none : mantissa = 0
    · simp [none]
    · have := (Nat.log2_lt none).mpr upper
      omega
  have still : (Format.binary64.targetExponent (totalExponent mantissa exponent) - exponent).toNat
      = 0 := by
    rw [targetExponent_eq]
    omega
  simp [shiftToTargetExponent, shiftToExponent, still, HShiftRight.hShiftRight, Nat.repeat,
    ExtendedMantissa.ofMantissaAndAccuracy]

private theorem shift_carry {exponent : Int} (low : -1074 ≤ exponent) :
    shiftToTargetExponent Format.binary64 (2 ^ 53) exponent .exact =
      (⟨2 ^ 52, false, false⟩, exponent + 1) := by
  have once : (Format.binary64.targetExponent (totalExponent (2 ^ 53) exponent) - exponent).toNat
      = 1 := by
    rw [targetExponent_eq, Nat.log2_two_pow]
    omega
  simp only [shiftToTargetExponent, shiftToExponent, once]
  rfl

private theorem roundHalfEven_near (numerator : Nat) {denominator : Nat}
    (positive : 0 < denominator) : let rounded := roundHalfEven numerator denominator
    2 * numerator ≤ (2 * rounded + 1) * denominator ∧
      2 * rounded * denominator ≤ 2 * numerator + denominator ∧
      (rounded % 2 = 1 → 2 * numerator < (2 * rounded + 1) * denominator ∧
        2 * rounded * denominator < 2 * numerator + denominator) := by
  have whole := Nat.div_add_mod numerator denominator
  have below := Nat.mod_lt numerator positive
  simp only [roundHalfEven]
  generalize numerator / denominator = q at whole ⊢
  generalize numerator % denominator = r at whole below ⊢
  subst whole
  have parts : 2 * q * denominator = 2 * (denominator * q) := by ring
  split
  · refine ⟨?_, ?_, fun _ => ⟨?_, ?_⟩⟩ <;> nlinarith
  · split
    · refine ⟨?_, ?_, fun _ => ⟨?_, ?_⟩⟩ <;> nlinarith
    · split
      · refine ⟨?_, ?_, fun odd => ?_⟩
        · nlinarith
        · nlinarith
        · omega
      · refine ⟨?_, ?_, fun odd => ?_⟩
        · nlinarith
        · nlinarith
        · omega

private theorem le_roundHalfEven (numerator denominator : Nat) :
    numerator / denominator ≤ roundHalfEven numerator denominator := by
  unfold roundHalfEven
  grind

private theorem roundHalfEven_le (numerator denominator : Nat) :
    roundHalfEven numerator denominator ≤ numerator / denominator + 1 := by
  unfold roundHalfEven
  grind

private theorem roundHalfEven_mul (whole : Nat) {denominator : Nat} (positive : 0 < denominator) :
    roundHalfEven (whole * denominator) denominator = whole := by
  simp [roundHalfEven, positive]

private theorem shift_quotient (positive : 0 < denominator) {places : Nat}
    (lower : 2 ^ (52 + places) ≤ numerator / denominator)
    (upper : numerator / denominator < 2 ^ (53 + places)) {exponent : Int}
    (low : -1074 ≤ exponent + places) :
    shiftToTargetExponent Format.binary64 (numerator / denominator) exponent
        (accuracyOfFraction (numerator % denominator) denominator) =
      (extended numerator (denominator * 2 ^ places), exponent + places) := by
  have log : (numerator / denominator).log2 = 52 + places := by
    rw [Nat.log2_eq_iff (by have := Nat.two_pow_pos (52 + places); omega)]
    exact ⟨lower, by rwa [Nat.add_right_comm]⟩
  have amount : (Format.binary64.targetExponent
      (totalExponent (numerator / denominator) exponent) - exponent).toNat = places := by
    rw [targetExponent_eq, log]
    omega
  simp only [shiftToTargetExponent, shiftToExponent, amount]
  rw [extended_of_fraction positive, shiftRight_extended positive]

private theorem roundHalfEven_inside {places : Nat}
    (lower : 2 ^ (52 + places) ≤ numerator / denominator)
    (upper : numerator / denominator < 2 ^ (53 + places)) :
    2 ^ 52 ≤ roundHalfEven numerator (denominator * 2 ^ places) ∧
      roundHalfEven numerator (denominator * 2 ^ places) ≤ 2 ^ 53 := by
  have shrunk : numerator / (denominator * 2 ^ places) =
      numerator / denominator / 2 ^ places := (Nat.div_div_eq_div_mul _ _ _).symm
  have floor : 2 ^ 52 ≤ numerator / (denominator * 2 ^ places) := by
    rw [shrunk, Nat.le_div_iff_mul_le (Nat.two_pow_pos places), ← Nat.pow_add]
    exact lower
  have ceiling : numerator / (denominator * 2 ^ places) < 2 ^ 53 := by
    rw [shrunk, Nat.div_lt_iff_lt_mul (Nat.two_pow_pos places), ← Nat.pow_add]
    exact upper
  exact ⟨Nat.le_trans floor (le_roundHalfEven _ _),
    Nat.le_trans (roundHalfEven_le _ _) (Nat.succ_le_of_lt ceiling)⟩

private theorem roundWithAccuracy_eq (s : Sign) (positive : 0 < denominator) {places : Nat}
    (lower : 2 ^ (52 + places) ≤ numerator / denominator)
    (upper : numerator / denominator < 2 ^ (53 + places)) {exponent : Int}
    (low : -1074 ≤ exponent + places) :
    ∃ m e h, roundWithAccuracy Format.binary64 s (numerator / denominator) exponent
        (accuracyOfFraction (numerator % denominator) denominator) = .finite s m e h ∧
      2 ^ 52 ≤ m ∧ m < 2 ^ 53 ∧
      (m = roundHalfEven numerator (denominator * 2 ^ places) ∧ e = exponent + places ∨
        roundHalfEven numerator (denominator * 2 ^ places) = 2 ^ 53 ∧ m = 2 ^ 52 ∧
          e = exponent + places + 1) := by
  have first := shift_quotient positive lower upper low
  have scaled : 0 < denominator * 2 ^ places := Nat.mul_pos positive (Nat.two_pow_pos places)
  have rounded : (extended numerator (denominator * 2 ^ places)).roundedMantissa =
      roundHalfEven numerator (denominator * 2 ^ places) := roundedMantissa_extended scaled
  have inside := roundHalfEven_inside lower upper
  simp only [roundWithAccuracy, first, rounded]
  rcases Nat.lt_or_eq_of_le inside.2 with short | carry
  · have some_ : roundHalfEven numerator (denominator * 2 ^ places) ≠ 0 := by omega
    refine ⟨_, _, Nat.pos_of_ne_zero some_, ?_, inside.1, short, .inl ⟨rfl, rfl⟩⟩
    simp only [shift_exact short low, dif_neg some_]
  · refine ⟨2 ^ 52, _, by decide, ?_, by decide, by decide, .inr ⟨carry, rfl, rfl⟩⟩
    simp only [carry, shift_carry low]
    rfl

/-- A significand and an exponent of a double that is neither zero nor close to it. -/
structure IsNormal (m : Nat) (e : Int) : Prop where
  lower : 2 ^ 52 ≤ m
  upper : m < 2 ^ 53
  low : -1074 ≤ e
  high : e ≤ 971

namespace IsNormal

variable {m : Nat} {e : Int}

theorem pos (normal : IsNormal m e) : 0 < m := Nat.lt_of_lt_of_le (by decide) normal.lower

theorem log2_eq (normal : IsNormal m e) : m.log2 = 52 :=
  (Nat.log2_eq_iff normal.pos.ne').mpr ⟨normal.lower, normal.upper⟩

theorem round_exact (normal : IsNormal m e) (s : Sign) (places : Nat) {exponent : Int}
    (behind : exponent + places = e) :
    roundWithAccuracy Format.binary64 s (m * 2 ^ places) exponent .exact =
      .finite s m e normal.pos := by
  obtain ⟨lower, upper, low, high⟩ := normal
  have exact_ : accuracyOfFraction (m * 2 ^ places % 1) 1 = .exact := by
    rw [Nat.mod_one]
    rfl
  have lower' : 2 ^ (52 + places) ≤ m * 2 ^ places / 1 := by
    rw [Nat.div_one, Nat.pow_add]
    exact Nat.mul_le_mul_right _ lower
  have upper' : m * 2 ^ places / 1 < 2 ^ (53 + places) := by
    rw [Nat.div_one, Nat.pow_add]
    exact Nat.mul_lt_mul_of_pos_right upper (Nat.two_pow_pos places)
  have low' : -1074 ≤ exponent + places := by omega
  obtain ⟨p, g, h, rounded, -, -, place⟩ :=
    roundWithAccuracy_eq s Nat.one_pos lower' upper' low'
  rw [Nat.one_mul, roundHalfEven_mul m (Nat.two_pow_pos places)] at place
  rw [exact_, Nat.div_one] at rounded
  rcases place with ⟨rfl, rfl⟩ | ⟨carry, -⟩
  · subst behind
    exact rounded
  · omega

end IsNormal

section Nearest

variable {v : ℚ}

private theorem zpow_sub_two (e : Int) : (2 : ℚ) ^ (e - 2) = 2 ^ e / 4 := by
  rw [zpow_sub₀ two_ne_zero]
  norm_num

private theorem roundsTo_of_near {v : ℚ} {m : Nat} {e : Int} (lower : 2 ^ 52 ≤ m)
    (below : v ≤ (m + 1 / 2) * 2 ^ e) (above : (m - 1 / 2) * 2 ^ e ≤ v)
    (strict : m % 2 = 1 → v < (m + 1 / 2) * 2 ^ e ∧ (m - 1 / 2) * 2 ^ e < v)
    (boundary : m = 2 ^ 52 → (m - 1 / 4) * 2 ^ e ≤ v) : RoundsTo v m e := by
  have high : ((4 * m + 2 : Nat) : ℚ) * (2 ^ e / 4) = (m + 1 / 2) * 2 ^ e := by
    push_cast
    ring
  have low : ((4 * m - 2 : Nat) : ℚ) * (2 ^ e / 4) = (m - 1 / 2) * 2 ^ e := by
    rw [Nat.cast_sub (by omega)]
    push_cast
    ring
  have low' : ((4 * m - 1 : Nat) : ℚ) * (2 ^ e / 4) = (m - 1 / 4) * 2 ^ e := by
    rw [Nat.cast_sub (by omega)]
    push_cast
    ring
  unfold RoundsTo Interval.Includes Interval.around
  simp only [zpow_sub_two]
  rcases Nat.mod_two_eq_zero_or_one m with even | odd
  · rw [if_pos (by simp [even]), high]
    refine ⟨?_, below⟩
    split
    next first => exact low' ▸ boundary first.1
    next => exact low ▸ above
  · have other : ¬(m = Word.count 52 ∧ e ≠ -1074) := by
      rintro ⟨rfl, -⟩
      exact absurd odd (by decide)
    rw [if_neg (by simp [odd]), high, if_neg other, low]
    exact ⟨(strict odd).2, (strict odd).1⟩

theorem RoundsTo.bounds {m : Nat} {e : Int} (rounds : RoundsTo v m e) (lower : 2 ^ 52 ≤ m) :
    (m - 1 / 2) * 2 ^ e ≤ v ∧ v ≤ (m + 1 / 2) * 2 ^ e := by
  have weight : (0 : ℚ) < 2 ^ e := by positivity
  have low : ((4 * m - 2 : Nat) : ℚ) ≤ (Interval.around m e).low := by
    unfold Interval.around
    simp only
    split
    · exact_mod_cast Nat.sub_le_sub_left (by decide) _
    · exact le_rfl
  rw [Nat.cast_sub (by omega)] at low
  push_cast at low
  have high : ((Interval.around m e).high : ℚ) = 4 * m + 2 := by
    unfold Interval.around
    push_cast
    ring
  have ends : (Interval.around m e).low * (2 : ℚ) ^ (e - 2) ≤ v ∧
      v ≤ (Interval.around m e).high * (2 : ℚ) ^ (e - 2) := by
    unfold RoundsTo Interval.Includes at rounds
    split at rounds
    · exact rounds
    · exact ⟨rounds.1.le, rounds.2.le⟩
  rw [zpow_sub_two, high] at ends
  constructor
  · nlinarith [ends.1]
  · nlinarith [ends.2]

theorem roundsTo_self {m : Nat} (lower : 2 ^ 52 ≤ m) (e : Int) : RoundsTo (m * 2 ^ e) m e := by
  have weight : (0 : ℚ) < 2 ^ e := by positivity
  refine roundsTo_of_near lower ?_ ?_ (fun _ => ⟨?_, ?_⟩) fun _ => ?_ <;> nlinarith

theorem RoundsTo.between {w x : ℚ} {m : Nat} {e : Int} (first : RoundsTo v m e)
    (last : RoundsTo x m e) (le : v ≤ w) (ge : w ≤ x) : RoundsTo w m e := by
  unfold RoundsTo Interval.Includes at first last ⊢
  split at first
  next closed =>
    rw [if_pos closed] at last ⊢
    exact ⟨first.1.trans le, ge.trans last.2⟩
  next open_ =>
    rw [if_neg open_] at last ⊢
    exact ⟨first.1.trans_le le, ge.trans_lt last.2⟩

private theorem roundsTo_roundHalfEven (positive : 0 < denominator)
    (large : 2 ^ 52 ≤ numerator / denominator) (e : Int) :
    RoundsTo ((numerator : ℚ) / denominator * 2 ^ e) (roundHalfEven numerator denominator) e := by
  have positive' : (0 : ℚ) < denominator := by exact_mod_cast positive
  have weight : (0 : ℚ) < 2 ^ e := by positivity
  have floor : 2 ^ 52 * denominator ≤ numerator := (Nat.le_div_iff_mul_le positive).mp large
  have floor' : (2 : ℚ) ^ 52 ≤ (numerator : ℚ) / denominator := by
    rw [le_div_iff₀ positive']
    exact_mod_cast floor
  obtain ⟨below, above, strict⟩ := roundHalfEven_near numerator positive
  have inside := Nat.le_trans large (le_roundHalfEven numerator denominator)
  generalize roundHalfEven numerator denominator = r at below above strict inside ⊢
  refine roundsTo_of_near inside ?_ ?_ (fun odd => ⟨?_, ?_⟩) fun first => ?_
  · refine mul_le_mul_of_nonneg_right ?_ weight.le
    rw [div_le_iff₀ positive']
    have : (2 * numerator : ℚ) ≤ (2 * r + 1) * denominator := by exact_mod_cast below
    linarith
  · refine mul_le_mul_of_nonneg_right ?_ weight.le
    rw [le_div_iff₀ positive']
    have : (2 * r * denominator : ℚ) ≤ 2 * numerator + denominator := by exact_mod_cast above
    linarith
  · refine mul_lt_mul_of_pos_right ?_ weight
    rw [div_lt_iff₀ positive']
    have : (2 * numerator : ℚ) < (2 * r + 1) * denominator := by exact_mod_cast (strict odd).1
    linarith
  · refine mul_lt_mul_of_pos_right ?_ weight
    rw [lt_div_iff₀ positive']
    have : (2 * r * denominator : ℚ) < 2 * numerator + denominator := by
      exact_mod_cast (strict odd).2
    linarith
  · refine mul_le_mul_of_nonneg_right ?_ weight.le
    rw [first]
    push_cast
    linarith

private theorem RoundsTo.carry {v : ℚ} {e : Int} (rounds : RoundsTo v (2 ^ 53) e) :
    RoundsTo v (2 ^ 52) (e + 1) := by
  have double : (2 : ℚ) ^ (e + 1) = 2 ^ e * 2 := zpow_add_one₀ two_ne_zero e
  have weight : (0 : ℚ) < 2 ^ e := by positivity
  have even : (2 : Nat) ^ 53 % 2 = 0 := rfl
  have other : ¬((2 : Nat) ^ 53 = Word.count 52 ∧ e ≠ -1074) := by
    rintro ⟨same, -⟩
    exact absurd same (by decide)
  unfold RoundsTo Interval.Includes Interval.around at rounds
  simp only [even, decide_true, if_true, other, if_false, zpow_sub_two] at rounds
  obtain ⟨above, below⟩ := rounds
  push_cast at above below
  refine roundsTo_of_near (Nat.le_refl _) ?_ ?_ (fun odd => absurd odd (by decide)) fun _ => ?_ <;>
    · rw [double]
      push_cast
      linarith

/-- Rounding a quotient gives the double that it rounds to. -/
theorem exists_roundWithAccuracy (s : Sign) (positive : 0 < denominator) {q : Nat} {a : Accuracy}
    (whole : numerator / denominator = q)
    (fraction : accuracyOfFraction (numerator % denominator) denominator = a)
    (large : 2 ^ 52 ≤ q) (exponent : Int) (low : -1022 ≤ exponent + q.log2)
    (high : exponent + q.log2 < 1023) :
    ∃ m e, ∃ normal : IsNormal m e,
      roundWithAccuracy Format.binary64 s q exponent a = .finite s m e normal.pos ∧
      RoundsTo ((numerator : ℚ) / denominator * 2 ^ exponent) m e := by
  have some_ : q ≠ 0 := by omega
  obtain ⟨places, size⟩ := Nat.exists_eq_add_of_le ((Nat.le_log2 some_).mpr large)
  have lower : 2 ^ (52 + places) ≤ numerator / denominator := by
    rw [whole, ← size]
    exact Nat.log2_self_le some_
  have upper : numerator / denominator < 2 ^ (53 + places) := by
    rw [whole, Nat.add_right_comm 52 1, ← size]
    exact Nat.lt_log2_self
  have low' : -1074 ≤ exponent + places := by omega
  have high' : exponent + places < 971 := by omega
  obtain ⟨m, e, h, rounded, lower', upper', place⟩ :=
    roundWithAccuracy_eq s positive lower upper low'
  rw [whole, fraction] at rounded
  have scaled : 0 < denominator * 2 ^ places := Nat.mul_pos positive (Nat.two_pow_pos places)
  have large' : 2 ^ 52 ≤ numerator / (denominator * 2 ^ places) := by
    rw [← Nat.div_div_eq_div_mul, Nat.le_div_iff_mul_le (Nat.two_pow_pos places), ← Nat.pow_add]
    exact lower
  have near := roundsTo_roundHalfEven scaled large' (exponent + places)
  have value : (numerator : ℚ) / (denominator * 2 ^ places : Nat) * 2 ^ (exponent + places) =
      numerator / denominator * 2 ^ exponent := by
    rw [zpow_add₀ two_ne_zero, zpow_natCast]
    push_cast
    field_simp
  rw [value] at near
  rcases place with ⟨rfl, rfl⟩ | ⟨carry, rfl, rfl⟩
  · exact ⟨_, _, ⟨lower', upper', low', high'.le⟩, rounded, near⟩
  · rw [carry] at near
    exact ⟨_, _, ⟨lower', upper', by omega, by omega⟩, rounded, near.carry⟩

end Nearest

end Intake.Number.Binary64
