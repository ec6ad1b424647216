import Intake.Json.Lexeme
import Intake.Proofs.Number.Rounding

set_option autoImplicit false

/-!
Arithmetic of doubles. A double in canonical form is packed and taken apart without loss, products and
quotients are what the exact ones round to, and whole numbers and powers of ten that are not too large
are exact; so a significand scaled by a power of ten is rounded only once.
-/

namespace Intake.Number.Binary64

open Float.Model Float.Model.UnpackedFloat

private theorem unpackSign_packComponents (s : Sign) (field : BitVec 11) (fraction : BitVec 52) :
    Sign.ofBitVec (unpackSign (packComponents Format.binary64 s field fraction)) = s := by
  simp only [unpackSign, packComponents, BitVec.extractLsb]
  rw [BitVec.extractLsb'_append_eq_of_le (by omega), BitVec.extractLsb'_append_eq_of_le (by omega)]
  cases s <;> rfl

namespace IsNormal

variable {m : Nat} {e : Int}

private theorem pack_eq (normal : IsNormal m e) (s : Sign) :
    UnpackedFloat.pack Format.binary64 (.finite s m e normal.pos) =
      packComponents Format.binary64 s (BitVec.ofNat 11 (e + 1075).toNat) (BitVec.ofNat 52 m) := by
  have log := normal.log2_eq
  obtain ⟨lower, upper, low, high⟩ := normal
  have field : (e + Format.binary64.exponentBias +
      Format.binary64.mantissaBitsWithoutImplicit).toNat = (e + 1075).toNat := by
    show (e + (2 ^ (11 - 1) - 1 : Nat) + (52 : Nat)).toNat = (e + 1075).toNat
    omega
  rw [UnpackedFloat.pack]
  simp only [log, field]
  rw [if_neg (by omega), if_pos (by simp [Format.mantissaBits])]

private theorem unpack_pack (normal : IsNormal m e) (s : Sign) :
    (Float.Model.pack (.finite s m e normal.pos)).unpack = .finite s m e normal.pos := by
  show UnpackedFloat.unpack Format.binary64 (UnpackedFloat.pack Format.binary64 _) = _
  rw [normal.pack_eq, UnpackedFloat.unpack]
  obtain ⟨lower, upper, low, high⟩ := normal
  simp only [unpackMantissa_packComponents, unpackExponent_packComponents,
    unpackSign_packComponents]
  have finite : BitVec.ofNat 11 (e + 1075).toNat ≠ -1#11 := by
    intro same
    have := congrArg BitVec.toNat same
    simp [BitVec.toNat_ofNat] at this
    omega
  have large : BitVec.ofNat 11 (e + 1075).toNat ≠ 0#11 := by
    intro same
    have := congrArg BitVec.toNat same
    simp [BitVec.toNat_ofNat] at this
    omega
  have significand : (1#1 ++ BitVec.ofNat 52 m).toNat = m := by
    rw [BitVec.toNat_append, ← Nat.shiftLeft_add_eq_or_of_lt (BitVec.ofNat 52 m).isLt,
      BitVec.toNat_ofNat, Nat.shiftLeft_eq]
    simp [BitVec.toNat_ofNat]
    omega
  have bias : ((Format.binary64.exponentBias : Nat) : Int) = 1023 := rfl
  rw [if_neg finite, if_neg large]
  simp [significand, BitVec.toNat_ofNat, bias]
  omega

end IsNormal

/-- A double that is `± m · 2 ^ e`. -/
structure Holds (x : Float) (s : Sign) (m : Nat) (e : Int) : Prop where
  normal : IsNormal m e
  toModel_eq : x.toModel = .pack (.finite s m e normal.pos)

namespace Holds

variable {x y : Float} {s t : Sign} {m n : Nat} {e f : Int}

private theorem unpack_eq (holds : Holds x s m e) :
    x.toModel.unpack = .finite s m e holds.normal.pos := by
  rw [holds.toModel_eq, holds.normal.unpack_pack]

private theorem toNat_toBits (holds : Holds x s m e) :
    x.toBits.toNat = s.toBitVec.toNat * 2 ^ 63 + (e + 1075).toNat * 2 ^ 52 + (m - 2 ^ 52) := by
  have packed : x.toBits.toBitVec =
      packComponents Format.binary64 s (BitVec.ofNat 11 (e + 1075).toNat) (BitVec.ofNat 52 m) := by
    rw [← holds.normal.pack_eq]
    show x.toModel.toBits.toBitVec = _
    rw [holds.toModel_eq]
    rfl
  obtain ⟨lower, upper, low, high⟩ := holds.normal
  show x.toBits.toBitVec.toNat = _
  rw [packed, packComponents, BitVec.toNat_append,
    ← Nat.shiftLeft_add_eq_or_of_lt (BitVec.ofNat 52 m).isLt, BitVec.toNat_append,
    ← Nat.shiftLeft_add_eq_or_of_lt (BitVec.ofNat 11 _).isLt, BitVec.toNat_ofNat,
    BitVec.toNat_ofNat, Nat.shiftLeft_eq, Nat.shiftLeft_eq]
  omega

theorem parts_eq (holds : Holds x s m e) : parts x = .finite (s == .negative) m e := by
  have bits := holds.toNat_toBits
  obtain ⟨lower, upper, low, high⟩ := holds.normal
  have bit : s.toBitVec.toNat = if s == .negative then 1 else 0 := by cases s <;> rfl
  have fraction : x.toBits.toNat % Word.count 52 = m - 2 ^ 52 := by
    show x.toBits.toNat % 2 ^ 52 = m - 2 ^ 52
    omega
  have field : x.toBits.toNat / Word.count 52 % 2048 = (e + 1075).toNat := by
    show x.toBits.toNat / 2 ^ 52 % 2048 = (e + 1075).toNat
    omega
  have negative : (x.toBits.toNat / Word.count 63 == 1) = (s == .negative) := by
    have first : x.toBits.toNat / Word.count 63 = s.toBitVec.toNat := by
      show x.toBits.toNat / 2 ^ 63 = s.toBitVec.toNat
      omega
    rw [first, bit]
    cases s <;> rfl
  have significand : m - 2 ^ 52 + Word.count 52 = m := Nat.sub_add_cancel lower
  simp only [parts, fraction, field, negative, significand]
  rw [if_neg (by omega), if_neg (by omega)]
  congr 1
  omega

theorem neg (holds : Holds x s m e) : Holds (-x) (-s) m e := by
  refine ⟨holds.normal, ?_⟩
  show Float.Model.pack x.toModel.unpack.neg = _
  rw [holds.unpack_eq]
  rfl

private theorem mul_toModel (first : Holds x s m e) (second : Holds y t n f) :
    (x * y).toModel = .pack (roundWithAccuracy Format.binary64 (s * t) (m * n) (e + f) .exact) := by
  show Float.Model.pack (UnpackedFloat.mul Format.binary64 x.toModel.unpack y.toModel.unpack) = _
  rw [first.unpack_eq, second.unpack_eq]
  rfl

private theorem exists_mul (first : Holds x s m e) (second : Holds y t n f) (low : -1126 ≤ e + f)
    (high : e + f ≤ 917) :
    ∃ p g, Holds (x * y) (s * t) p g ∧ RoundsTo ((m * 2 ^ e) * (n * 2 ^ f)) p g := by
  have lower : 2 ^ 52 * 2 ^ 52 ≤ m * n := Nat.mul_le_mul first.normal.lower second.normal.lower
  have upper : m * n < 2 ^ 53 * 2 ^ 53 :=
    Nat.mul_lt_mul'' first.normal.upper second.normal.upper
  have some_ : m * n ≠ 0 := by omega
  have atLeast := (Nat.le_log2 some_).mpr (Nat.pow_add 2 52 52 ▸ lower)
  have atMost := (Nat.log2_lt some_).mpr (Nat.pow_add 2 53 53 ▸ upper)
  have exact_ : accuracyOfFraction (m * n % 1) 1 = .exact := by
    rw [Nat.mod_one]
    rfl
  obtain ⟨p, g, normal, rounded, near⟩ :=
    exists_roundWithAccuracy (s * t) Nat.one_pos (Nat.div_one (m * n)) exact_ (by omega)
      (e + f) (by omega) (by omega)
  refine ⟨p, g, ⟨normal, ?_⟩, ?_⟩
  · rw [first.mul_toModel second, rounded]
  · convert near using 1
    rw [zpow_add₀ two_ne_zero]
    push_cast
    ring

private theorem divCore_eq (first : IsNormal m e) (second : IsNormal n f) (low : -1021 ≤ e - f) :
    divCore Format.binary64 m e n f =
      (m * 2 ^ 53 / n, e - f - 53, accuracyOfFraction (m * 2 ^ 53 % n) n) := by
  have target : min (e - f) (Format.binary64.targetExponent
      (totalExponent m e - totalExponent n f)) = e - f - 53 := by
    simp only [Format.targetExponent, totalExponent, Format.mantissaBits, Format.minExponent,
      first.log2_eq, second.log2_eq]
    norm_num
    omega
  have amount : (e - f - (e - f - 53)).toNat = 53 := by omega
  simp only [divCore, target, amount, Nat.shiftLeft_eq]

private theorem exists_div (first : Holds x s m e) (second : Holds y t n f) (low : -1021 ≤ e - f)
    (high : e - f ≤ 1022) :
    ∃ p g, Holds (x / y) (s / t) p g ∧ RoundsTo ((m * 2 ^ e) / (n * 2 ^ f)) p g := by
  have positive := second.normal.pos
  have lower : 2 ^ 52 ≤ m * 2 ^ 53 / n := by
    have := first.normal.lower
    have := second.normal.upper
    rw [Nat.le_div_iff_mul_le positive]
    nlinarith
  have upper : m * 2 ^ 53 / n < 2 ^ 54 := by
    have := first.normal.upper
    have := second.normal.lower
    rw [Nat.div_lt_iff_lt_mul positive]
    nlinarith
  have some_ : m * 2 ^ 53 / n ≠ 0 := by omega
  have atLeast := (Nat.le_log2 some_).mpr lower
  have atMost := (Nat.log2_lt some_).mpr upper
  obtain ⟨p, g, normal, rounded, near⟩ :=
    exists_roundWithAccuracy (s / t) positive rfl rfl lower (e - f - 53) (by omega)
      (by omega)
  refine ⟨p, g, ⟨normal, ?_⟩, ?_⟩
  · show Float.Model.pack (UnpackedFloat.div Format.binary64 x.toModel.unpack y.toModel.unpack) = _
    rw [first.unpack_eq, second.unpack_eq]
    simp only [UnpackedFloat.div, divCore_eq first.normal second.normal low, rounded]
  · convert near using 1
    rw [zpow_sub₀ two_ne_zero, zpow_sub₀ two_ne_zero]
    push_cast
    field_simp

private theorem mul_one (first : Holds x s m e) (second : Holds y .positive (2 ^ 52) (-52)) :
    Holds (x * y) s m e := by
  have same : s * .positive = s := by cases s <;> rfl
  refine ⟨first.normal, ?_⟩
  rw [first.mul_toModel second, same, first.normal.round_exact s 52 (by omega)]

end Holds

private theorem holds_toFloat {n places : Nat} (small : n < 2 ^ 53) (size : 52 = n.log2 + places)
    (normal : IsNormal (n * 2 ^ places) (-places)) :
    Holds n.toUInt64.toFloat .positive (n * 2 ^ places) (-places) := by
  have positive : n ≠ 0 := by
    rintro rfl
    simpa using normal.lower
  have target : Format.binary64.targetExponent (totalExponent n 0) = -places := by
    rw [targetExponent_eq]
    omega
  have word : n.toUInt64.toNat = n := Nat.mod_eq_of_lt (by omega)
  refine ⟨normal, ?_⟩
  show Float.Model.pack (UnpackedFloat.ofUInt64 Format.binary64 n.toUInt64) = _
  have order : compare (n : Int) 0 = .gt := Int.compare_eq_gt.mpr (by omega)
  have rounded := normal.round_exact .positive 0 (Int.add_zero _)
  simp only [UnpackedFloat.ofUInt64, UnpackedFloat.ofNat, UnpackedFloat.ofInt, word,
    UnpackedFloat.normalize, order, Int.toNat_natCast, UnpackedFloat.round, target,
    decreaseExponent]
  rw [Int.zero_sub, Int.neg_neg, Int.toNat_natCast, Nat.shiftLeft_eq]
  simpa using congrArg Float.Model.pack rounded

private theorem exists_ofScientific {n : Nat} (positive : 0 < n) (small : n < 2 ^ 53) :
    ∃ m e, Holds (Float.ofScientific n false 0) .positive m e ∧ (m * 2 ^ e : ℚ) = n ∧
      -52 ≤ e ∧ e ≤ 0 := by
  have log : n.log2 ≤ 52 := by
    have := (Nat.log2_lt positive.ne').mpr small
    omega
  obtain ⟨places, size⟩ := Nat.exists_eq_add_of_le log
  have lower : 2 ^ 52 ≤ n * 2 ^ places := by
    rw [size, Nat.pow_add]
    exact Nat.mul_le_mul_right _ (Nat.log2_self_le positive.ne')
  have upper : n * 2 ^ places < 2 ^ 53 := by
    have : n < 2 ^ (n.log2 + 1) := Nat.lt_log2_self
    calc n * 2 ^ places < 2 ^ (n.log2 + 1) * 2 ^ places :=
          Nat.mul_lt_mul_of_pos_right this (Nat.two_pow_pos places)
      _ = 2 ^ 53 := by rw [← Nat.pow_add]; congr 1; omega
  have normal : IsNormal (n * 2 ^ places) (-places) := ⟨lower, upper, by omega, by omega⟩
  have one : Holds (Float.ofBits 0x3FF0000000000000) .positive (2 ^ 52) (-52) :=
    ⟨⟨by decide, by decide, by decide, by decide⟩, by decide +kernel⟩
  refine ⟨n * 2 ^ places, -places, ?_, ?_, by omega, by omega⟩
  · unfold Float.ofScientific
    rw [dif_pos ⟨small, Nat.zero_le _⟩]
    exact (holds_toFloat small size normal).mul_one one
  · rw [zpow_neg, zpow_natCast]
    push_cast
    field_simp

def tenSignificand (k : Nat) : Nat := 10 ^ k * 2 ^ 52 / 2 ^ (10 ^ k).log2

private theorem exists_powerOfTen {k : Nat} (small : k ≤ 22) :
    ∃ m e, Holds (powerOfTen k) .positive m e ∧ (m * 2 ^ e : ℚ) = 10 ^ k ∧ -52 ≤ e ∧ e ≤ 21 := by
  have table : ∀ k : Fin 23, (2 ^ 52 ≤ tenSignificand k ∧ tenSignificand k < 2 ^ 53 ∧
      (10 ^ k.val).log2 ≤ 73 ∧ tenSignificand k * 2 ^ (10 ^ k.val).log2 = 10 ^ k.val * 2 ^ 52) ∧
      ∃ h, (powerOfTen k).toModel =
        .pack (.finite .positive (tenSignificand k) ((10 ^ k.val).log2 - 52) h) := by
    decide +kernel
  obtain ⟨⟨lower, upper, log, value⟩, h, model⟩ := table ⟨k, by omega⟩
  simp only at lower upper log value model
  refine ⟨tenSignificand k, (10 ^ k).log2 - 52, ⟨⟨lower, upper, by omega, by omega⟩, model⟩, ?_,
    by omega, by omega⟩
  have value' : (tenSignificand k * 2 ^ (10 ^ k).log2 : ℚ) = 10 ^ k * 2 ^ 52 := by
    exact_mod_cast value
  rw [zpow_sub₀ two_ne_zero, zpow_natCast, ← mul_div_assoc, value']
  norm_num

private theorem scaled_cases {n : Nat} {power : Int} (low : -22 ≤ power) (high : power ≤ 22)
    {x : Float} (made : Json.scaled n power = some x) :
    (power = -(power.natAbs : Int) ∧
      x = Float.ofScientific n false 0 / powerOfTen power.natAbs) ∨
    (power = (power.natAbs : Int) ∧
      x = Float.ofScientific n false 0 * powerOfTen power.natAbs) := by
  unfold Json.scaled at made
  simp only at made
  split at made
  next negative =>
    have short : power.natAbs ≤ 308 := by omega
    rw [Json.scaleDown, if_pos short] at made
    exact .inl ⟨by omega, (Option.some.inj made).symm⟩
  next positive =>
    have same : power.toNat = power.natAbs := by omega
    rw [if_neg (by omega), same] at made
    split at made
    next => cases made
    next => exact .inr ⟨by omega, (Option.some.inj made).symm⟩

theorem exists_scaled {n : Nat} (positive : 0 < n) (small : n < 2 ^ 53) {power : Int}
    (low : -22 ≤ power) (high : power ≤ 22) {x : Float} (made : Json.scaled n power = some x) :
    ∃ m e, Holds x .positive m e ∧ RoundsTo (n * 10 ^ power) m e := by
  obtain ⟨m, e, first, value, least, most⟩ := exists_ofScientific positive small
  obtain ⟨p, f, second, value', least', most'⟩ :=
    exists_powerOfTen (k := power.natAbs) (by omega)
  rcases scaled_cases low high made with ⟨down, rfl⟩ | ⟨up, rfl⟩
  · obtain ⟨q, g, quotient, rounds⟩ := first.exists_div second (by omega) (by omega)
    refine ⟨q, g, quotient, ?_⟩
    rw [value, value'] at rounds
    rw [down, zpow_neg, zpow_natCast, ← div_eq_mul_inv]
    exact rounds
  · obtain ⟨q, g, product, rounds⟩ := first.exists_mul second (by omega) (by omega)
    refine ⟨q, g, product, ?_⟩
    rw [value, value'] at rounds
    rw [up, zpow_natCast]
    exact rounds

theorem parts_scaled_zero {power : Int} (low : -22 ≤ power) (high : power ≤ 22) {x : Float}
    (made : Json.scaled 0 power = some x) (negative : Bool) :
    parts (Json.signed negative x) = .finite negative 0 (-1074) := by
  have table : ∀ (k : Fin 23) (b : Bool),
      parts (Json.signed b (Float.ofScientific 0 false 0 / powerOfTen k)) = .finite b 0 (-1074) ∧
      parts (Json.signed b (Float.ofScientific 0 false 0 * powerOfTen k)) = .finite b 0 (-1074) := by
    decide +kernel
  have entry := table ⟨power.natAbs, by omega⟩ negative
  rcases scaled_cases low high made with ⟨-, rfl⟩ | ⟨-, rfl⟩
  · exact entry.1
  · exact entry.2

end Intake.Number.Binary64
