import Intake.Proofs.Number.Rounding

set_option autoImplicit false

/-!
The shortest digits of a double. Of the decimals that round to one double at most one has less than
`2 ^ 52` units on its grid, so a decimal of at most fifteen digits is found by the search for the
shortest one: it is what its double is written as.
-/

namespace Intake.Text.Digits

theorem length_decimal_pos (n : Nat) : 0 < (decimal n).length := by
  unfold decimal
  split <;> simp

theorem length_decimal {n : Nat} (positive : 0 < n) :
    10 ^ ((decimal n).length - 1) ≤ n ∧ n < 10 ^ (decimal n).length := by
  induction n using decimal.induct with
  | case1 n short =>
    rw [decimal, if_pos short]
    exact ⟨positive, short⟩
  | case2 n long ih =>
    obtain ⟨lower, upper⟩ := ih (by omega)
    have some_ := length_decimal_pos (n / 10)
    rw [decimal, if_neg long, List.length_append, List.length_singleton, Nat.add_sub_cancel]
    obtain ⟨k, length⟩ := Nat.exists_eq_add_one.mpr some_
    rw [length, Nat.add_sub_cancel] at lower
    rw [length] at upper ⊢
    rw [Nat.pow_succ] at upper ⊢
    rw [Nat.pow_succ, Nat.pow_succ]
    omega

private theorem decimal_mul_ten {n : Nat} (positive : 0 < n) :
    decimal (n * 10) = decimal n ++ ['0'] := by
  rw [decimal, if_neg (by omega), Nat.mul_div_cancel n (by decide), Nat.mul_mod_left]
  rfl

private theorem decimal_mul_pow {n : Nat} (positive : 0 < n) (k : Nat) :
    decimal (n * 10 ^ k) = decimal n ++ List.replicate k '0' := by
  induction k with
  | zero => simp
  | succ k ih =>
    have some_ : 0 < n * 10 ^ k := Nat.mul_pos positive (Nat.pow_pos (by decide))
    rw [Nat.pow_succ, ← Nat.mul_assoc, decimal_mul_ten some_, ih, List.append_assoc,
      List.replicate_succ']

private theorem exists_decimal_concat (n : Nat) :
    ∃ front, decimal n = front ++ [char (n % 10)] := by
  by_cases short : n < 10
  · refine ⟨[], ?_⟩
    rw [decimal, if_pos short, Nat.mod_eq_of_lt short]
    rfl
  · exact ⟨decimal (n / 10), by rw [decimal, if_neg short]⟩

end Intake.Text.Digits

namespace Intake.Number.Shortest

open Intake.Text Intake.Number.Binary64

theorem exists_mul_pow {n : Nat} (positive : 0 < n) :
    ∃ d k, n = d * 10 ^ k ∧ d % 10 ≠ 0 := by
  induction n using Nat.strongRecOn with
  | ind n ih =>
    by_cases zero : n % 10 = 0
    · obtain ⟨d, k, same, ends⟩ := ih (n / 10) (by omega) (by omega)
      refine ⟨d, k + 1, ?_, ends⟩
      rw [Nat.pow_succ, ← Nat.mul_assoc, ← same]
      omega
    · exact ⟨n, 0, by simp, zero⟩

private theorem trim_decimal {d : Nat} (ends : d % 10 ≠ 0) (k : Nat) :
    trim (Digits.decimal (d * 10 ^ k)) = Digits.decimal d := by
  have other : Digits.char (d % 10) ≠ '0' := by
    have table : ∀ i : Fin 10, i.val ≠ 0 → Digits.char i.val ≠ '0' := by decide
    exact table ⟨d % 10, Nat.mod_lt d (by decide)⟩ ends
  obtain ⟨front, digits⟩ := Digits.exists_decimal_concat d
  rw [Digits.decimal_mul_pow (by omega), digits]
  have kept : ((front ++ [Digits.char (d % 10)] ++ List.replicate k '0').reverse.dropWhile
      (· = '0')).reverse = front ++ [Digits.char (d % 10)] := by
    rw [List.reverse_append, List.reverse_replicate, List.dropWhile_append_of_pos (by simp),
      List.reverse_append, List.reverse_singleton, List.singleton_append,
      List.dropWhile_cons_of_neg (by simpa using other), List.reverse_cons, List.reverse_reverse]
  unfold trim
  rw [kept]
  cases front <;> rfl

private theorem eq_of_mul_zpow_eq {a b : Nat} {p q : Int} (ends : a % 10 ≠ 0) (ends' : b % 10 ≠ 0)
    (same : (a * 10 ^ p : ℚ) = b * 10 ^ q) : a = b ∧ p = q := by
  have main : ∀ {a b : Nat} {p q : Int}, a % 10 ≠ 0 → p ≤ q → (a * 10 ^ p : ℚ) = b * 10 ^ q →
      a = b ∧ p = q := by
    intro a b p q ends le same
    obtain ⟨k, rfl⟩ := Int.exists_add_of_le le
    rw [zpow_add₀ (by norm_num), zpow_natCast, mul_left_comm, ← mul_comm (10 ^ p : ℚ)] at same
    have same' : (a : ℚ) = b * 10 ^ k := mul_left_cancel₀ (by positivity) same
    have whole : a = b * 10 ^ k := by exact_mod_cast same'
    cases k with
    | zero => simpa using whole
    | succ k =>
      rw [Nat.pow_succ, ← Nat.mul_assoc] at whole
      omega
  rcases le_total p q with le | le
  · exact main ends le same
  · obtain ⟨rfl, rfl⟩ := main ends' le same.symm
    exact ⟨rfl, rfl⟩

section Grid

variable {tie : Tie} {i : Interval} {unit place : Int} {n : Nat}

private theorem zpow_eq_div (b : ℚ) (z : Int) :
    b ^ z = b ^ z.toNat / b ^ (-z).toNat := by
  rcases le_total 0 z with up | down
  · obtain ⟨k, rfl⟩ := Int.eq_ofNat_of_zero_le up
    simp
  · obtain ⟨k, same⟩ := Int.eq_ofNat_of_zero_le (Int.neg_nonneg.mpr down)
    obtain rfl : z = -(k : Int) := by omega
    simp

/-- How many units of `2 ^ unit` and of `10 ^ place` make a common measure of both. -/
def gridScale (unit place : Int) : Nat := 2 ^ unit.toNat * 10 ^ (-place).toNat

def gridWeight (unit place : Int) : Nat := 10 ^ place.toNat * 2 ^ (-unit).toNat

private theorem gridWeight_pos (unit place : Int) : 0 < gridWeight unit place := by
  unfold gridWeight
  positivity

private theorem mul_zpow_le_iff (a b : Nat) (unit place : Int) :
    (a * 2 ^ unit : ℚ) ≤ b * 10 ^ place ↔ a * gridScale unit place ≤ b * gridWeight unit place := by
  rw [zpow_eq_div 2, zpow_eq_div 10, ← mul_div_assoc,
    ← mul_div_assoc, div_le_div_iff₀ (by positivity) (by positivity)]
  unfold gridScale gridWeight
  rw [← Nat.mul_assoc, ← Nat.mul_assoc]
  exact_mod_cast Iff.rfl

private theorem zpow_mul_le_iff (a b : Nat) (unit place : Int) :
    (b * 10 ^ place : ℚ) ≤ a * 2 ^ unit ↔ b * gridWeight unit place ≤ a * gridScale unit place := by
  rw [zpow_eq_div 2, zpow_eq_div 10, ← mul_div_assoc,
    ← mul_div_assoc, div_le_div_iff₀ (by positivity) (by positivity)]
  unfold gridScale gridWeight
  rw [← Nat.mul_assoc, ← Nat.mul_assoc]
  exact_mod_cast Iff.rfl

private theorem contains_iff (i : Interval) (unit place : Int) (n : Nat) :
    i.contains (gridScale unit place) (n * gridWeight unit place) = true ↔
      i.Includes unit (n * 10 ^ place) := by
  unfold Interval.contains Interval.Includes
  split
  · rw [Bool.and_eq_true, decide_eq_true_iff, decide_eq_true_iff, mul_zpow_le_iff, zpow_mul_le_iff]
  · rw [Bool.and_eq_true, decide_eq_true_iff, decide_eq_true_iff, ← not_le, ← not_le, ← not_le,
      ← not_le, mul_zpow_le_iff, zpow_mul_le_iff]

private theorem Interval.contains_between {scale x y z : Nat} (first : i.contains scale x = true)
    (last : i.contains scale z = true) (le : x ≤ y) (ge : y ≤ z) : i.contains scale y = true := by
  unfold Interval.contains at first last ⊢
  split at first <;> simp_all <;> omega

private theorem onGrid_eq (tie : Tie) (i : Interval) (unit place : Int) :
    onGrid tie i unit place =
      let scale := gridScale unit place
      let weight := gridWeight unit place
      let below := i.value * scale / weight
      let rest := i.value * scale % weight
      let lower := i.contains scale (below * weight)
      let upper := i.contains scale ((below + 1) * weight)
      if lower && upper then
        if 2 * rest < weight then some below
        else if weight < 2 * rest then some (below + 1)
        else match tie with
          | .toEven => if below % 2 = 0 then some below else some (below + 1)
          | .up => some (below + 1)
      else if lower then some below
      else if upper then some (below + 1)
      else none := rfl

private theorem includes_of_onGrid (found : onGrid tie i unit place = some n) :
    i.Includes unit (n * 10 ^ place) := by
  rw [← contains_iff]
  rw [onGrid_eq] at found
  simp only at found
  grind

private theorem onGrid_ne_none (inside : i.low < i.value ∧ i.value < i.high)
    (there : i.Includes unit (n * 10 ^ place)) : onGrid tie i unit place ≠ none := by
  rw [← contains_iff] at there
  have positive := gridWeight_pos unit place
  have scale : 0 < gridScale unit place := by unfold gridScale; positivity
  have centre : i.contains (gridScale unit place) (i.value * gridScale unit place) = true := by
    have := Nat.mul_lt_mul_of_pos_right inside.1 scale
    have := Nat.mul_lt_mul_of_pos_right inside.2 scale
    unfold Interval.contains
    split <;> simp <;> omega
  have low := Nat.div_mul_le_self (i.value * gridScale unit place) (gridWeight unit place)
  have high := Nat.lt_mul_div_succ (i.value * gridScale unit place) positive
  rw [Nat.mul_comm (gridWeight unit place)] at high
  have near : i.contains (gridScale unit place) (i.value * gridScale unit place /
        gridWeight unit place * gridWeight unit place) = true ∨
      i.contains (gridScale unit place) ((i.value * gridScale unit place /
        gridWeight unit place + 1) * gridWeight unit place) = true := by
    rcases Nat.lt_or_ge (i.value * gridScale unit place / gridWeight unit place) n with above | below
    · exact .inr (Interval.contains_between centre there high.le (Nat.mul_le_mul_right _ above))
    · exact .inl (Interval.contains_between there centre (Nat.mul_le_mul_right _ below) low)
  rw [onGrid_eq]
  simp only
  grind

end Grid

section Leading

variable {numerator denominator : Nat}

private theorem scaled_le_iff (positive : 0 < denominator) (t : Int) :
    denominator * Nat.pow 10 t.toNat ≤ numerator * Nat.pow 10 (-t).toNat ↔
      (10 : ℚ) ^ t ≤ numerator / denominator := by
  have positive' : (0 : ℚ) < denominator := by exact_mod_cast positive
  rw [zpow_eq_div 10, div_le_div_iff₀ (by positivity) positive', mul_comm denominator]
  show 10 ^ t.toNat * denominator ≤ numerator * 10 ^ (-t).toNat ↔ _
  exact_mod_cast Iff.rfl

private theorem div_lt_zpow {n d : Nat} (upper : numerator < 10 ^ (n + 1))
    (lower : 10 ^ d ≤ denominator) : (numerator / denominator : ℚ) < 10 ^ (n - d + 1 : Int) := by
  have positive : (0 : ℚ) < denominator := by
    exact_mod_cast (Nat.pow_pos (by decide : 0 < 10)).trans_le lower
  rw [div_lt_iff₀ positive]
  calc (numerator : ℚ) < 10 ^ (n + 1) := by exact_mod_cast upper
    _ = 10 ^ (n - d + 1 : Int) * 10 ^ d := by
      rw [← zpow_natCast, ← zpow_natCast, ← zpow_add₀ (by norm_num)]
      congr 1
      push_cast
      ring
    _ ≤ 10 ^ (n - d + 1 : Int) * denominator := by
      refine mul_le_mul_of_nonneg_left ?_ (by positivity)
      exact_mod_cast lower

private theorem zpow_le_div {n d : Nat} (positive : 0 < denominator) (lower : 10 ^ n ≤ numerator)
    (upper : denominator < 10 ^ (d + 1)) :
    (10 : ℚ) ^ (n - d - 1 : Int) ≤ numerator / denominator := by
  have positive' : (0 : ℚ) < denominator := by exact_mod_cast positive
  rw [le_div_iff₀ positive']
  calc (10 : ℚ) ^ (n - d - 1 : Int) * denominator ≤ 10 ^ (n - d - 1 : Int) * 10 ^ (d + 1) := by
        refine mul_le_mul_of_nonneg_left ?_ (by positivity)
        exact_mod_cast upper.le
    _ = 10 ^ n := by
      rw [← zpow_natCast, ← zpow_natCast, ← zpow_add₀ (by norm_num)]
      congr 1
      push_cast
      ring
    _ ≤ numerator := by exact_mod_cast lower

private theorem leadingExponent_spec (some_ : 0 < numerator) (positive : 0 < denominator) :
    (10 : ℚ) ^ leadingExponent numerator denominator ≤ numerator / denominator ∧
      (numerator / denominator : ℚ) < 10 ^ (leadingExponent numerator denominator + 1) := by
  obtain ⟨lower, upper⟩ := Digits.length_decimal some_
  obtain ⟨lower', upper'⟩ := Digits.length_decimal positive
  obtain ⟨n, length⟩ := Nat.exists_eq_add_one.mpr (Digits.length_decimal_pos numerator)
  obtain ⟨d, length'⟩ := Nat.exists_eq_add_one.mpr (Digits.length_decimal_pos denominator)
  rw [length, Nat.add_sub_cancel] at lower
  rw [length] at upper
  rw [length', Nat.add_sub_cancel] at lower'
  rw [length'] at upper'
  have guess : ((n + 1 : Nat) : Int) - (d + 1 : Nat) = n - d := by omega
  unfold leadingExponent
  simp only [length, length', guess]
  split
  next small => exact ⟨(scaled_le_iff positive _).mp small, div_lt_zpow upper lower'⟩
  next large =>
    rw [sub_add_cancel]
    exact ⟨zpow_le_div positive lower upper', lt_of_not_ge ((scaled_le_iff positive _).not.mp large)⟩

end Leading

section Search

variable {m : Nat} {e : Int} {v : ℚ}

private theorem around_inside (lower : 2 ^ 52 ≤ m) (e : Int) :
    (Interval.around m e).low < (Interval.around m e).value ∧
      (Interval.around m e).value < (Interval.around m e).high := by
  unfold Interval.around
  simp only
  split <;> omega

/-- Of the decimals on a grid that round to one double, none is above one of less than `2 ^ 52`
units. -/
theorem le_of_roundsTo (lower : 2 ^ 52 ≤ m) {place : Int} {a b : Nat} (small : a < 2 ^ 52)
    (first : RoundsTo (a * 10 ^ place) m e) (second : RoundsTo (b * 10 ^ place) m e) : b ≤ a := by
  refine Nat.le_of_not_lt fun above => ?_
  obtain ⟨low, -⟩ := first.bounds lower
  obtain ⟨-, high⟩ := second.bounds lower
  have weight : (0 : ℚ) < 2 ^ e := by positivity
  have unit : (0 : ℚ) < 10 ^ place := by positivity
  have next : (a + 1 : ℚ) ≤ b := by exact_mod_cast above
  -- Two decimals of the grid in the interval are no further apart than the interval is wide.
  have narrow : (10 : ℚ) ^ place ≤ 2 ^ e := by nlinarith
  have most : (a : ℚ) ≤ m - 1 := by
    have : a + 1 ≤ m := by omega
    have : (a + 1 : ℚ) ≤ m := by exact_mod_cast this
    linarith
  nlinarith

private theorem exists_search (tie : Tie) (fuel : Nat) {i : Interval} {unit leading : Int}
    (inside : i.low < i.value ∧ i.value < i.high) {n : Nat}
    (there : i.Includes unit (n * 10 ^ (leading - 14))) {count : Nat} (begun : 1 ≤ count)
    (short : count ≤ 15) (enough : 16 ≤ count + fuel) :
    ∃ (found : Nat) (place : Int), leading - 14 ≤ place ∧ i.Includes unit (found * 10 ^ place) ∧
      search tie i unit leading fuel count =
        ⟨trim (Digits.decimal found), place + ((Digits.decimal found).length - 1 : Nat)⟩ := by
  induction fuel generalizing count with
  | zero => omega
  | succ fuel ih =>
    rw [search]
    cases here : onGrid tie i unit (leading - (count - 1 : Nat)) with
    | some found =>
      exact ⟨found, leading - (count - 1 : Nat), by omega, includes_of_onGrid here, rfl⟩
    | none =>
      have more : count ≠ 15 := by
        rintro rfl
        exact onGrid_ne_none inside there here
      exact ih (by omega) (by omega) (by omega)

private theorem mul_zpow_eq_grid (n : Nat) {place grid : Int} (le : grid ≤ place) :
    (n * 10 ^ place : ℚ) = (n * 10 ^ (place - grid).toNat : Nat) * 10 ^ grid := by
  obtain ⟨k, rfl⟩ := Int.exists_add_of_le le
  rw [add_sub_cancel_left, Int.toNat_natCast, zpow_add₀ (by norm_num), zpow_natCast]
  push_cast
  ring

private theorem exists_grid (lower : 2 ^ 52 ≤ m) {d : Nat} {q leading : Int} (short : d < 10 ^ 15)
    (rounds : RoundsTo (d * 10 ^ q) m e) (least : (10 : ℚ) ^ leading ≤ m * 2 ^ e)
    (most : (m * 2 ^ e : ℚ) < 10 ^ (leading + 1)) :
    ∃ n : Nat, (d * 10 ^ q : ℚ) = n * 10 ^ (leading - 14) ∧ n ≤ 10 ^ 15 := by
  have self := roundsTo_self lower e
  have coarse : leading - 14 ≤ q := by
    refine le_of_not_gt fun fine => ?_
    have power : (10 : ℚ) ^ leading = (10 ^ (leading - q).toNat : Nat) * 10 ^ q := by
      have finer : q ≤ leading := by omega
      have same := mul_zpow_eq_grid 1 finer
      simpa using same
    have far : 10 ^ 15 ≤ 10 ^ (leading - q).toNat := Nat.pow_le_pow_right (by decide) (by omega)
    have below : (d * 10 ^ q : ℚ) ≤ 10 ^ leading := by
      rw [power]
      refine mul_le_mul_of_nonneg_right ?_ (by positivity)
      exact_mod_cast (short.trans_le far).le
    have between := rounds.between self below least
    rw [power] at between
    have := le_of_roundsTo lower (by omega) rounds between
    omega
  refine ⟨d * 10 ^ (q - (leading - 14)).toNat, mul_zpow_eq_grid d coarse, ?_⟩
  refine Nat.le_of_not_lt fun large => ?_
  rw [mul_zpow_eq_grid d coarse] at rounds
  have power : (10 : ℚ) ^ (leading + 1) = (10 ^ 15 : Nat) * 10 ^ (leading - 14) := by
    have finer : leading - 14 ≤ leading + 1 := by omega
    have same := mul_zpow_eq_grid 1 finer
    have fifteen : (leading + 1 - (leading - 14)).toNat = 15 := by omega
    rw [fifteen] at same
    simpa using same
  have above : (10 : ℚ) ^ (leading + 1) ≤
      (d * 10 ^ (q - (leading - 14)).toNat : Nat) * 10 ^ (leading - 14) := by
    rw [power]
    refine mul_le_mul_of_nonneg_right ?_ (by positivity)
    exact_mod_cast large.le
  have between := self.between rounds most.le above
  rw [power] at between
  have := le_of_roundsTo lower (by norm_num) between rounds
  omega

private theorem exists_leading (tie : Tie) (lower : 2 ^ 52 ≤ m) (e : Int) : ∃ leading : Int,
    (10 : ℚ) ^ leading ≤ m * 2 ^ e ∧ (m * 2 ^ e : ℚ) < 10 ^ (leading + 1) ∧
      ofParts tie m e = search tie (Interval.around m e) (e - 2) leading 17 1 := by
  have value : (Interval.around m e).value = 4 * m := rfl
  have positive : 0 < (Interval.around m e).value * 2 ^ (e - 2).toNat := by
    have := Nat.two_pow_pos (e - 2).toNat
    rw [value]
    positivity
  have quarter : (((Interval.around m e).value * 2 ^ (e - 2).toNat : Nat) : ℚ) /
      (2 ^ (-(e - 2)).toNat : Nat) = m * 2 ^ e := by
    rw [value]
    push_cast
    rw [mul_div_assoc, ← zpow_eq_div, zpow_sub₀ two_ne_zero]
    ring
  obtain ⟨least, most⟩ := leadingExponent_spec positive (Nat.two_pow_pos (-(e - 2)).toNat)
  rw [quarter] at least most
  exact ⟨_, least, most, rfl⟩

private theorem exists_found (tie : Tie) (lower : 2 ^ 52 ≤ m) {d : Nat} {q : Int}
    (short : d < 10 ^ 15) (rounds : RoundsTo (d * 10 ^ q) m e) :
    ∃ (found : Nat) (place : Int), (found * 10 ^ place : ℚ) = d * 10 ^ q ∧
      ofParts tie m e =
        ⟨trim (Digits.decimal found), place + ((Digits.decimal found).length - 1 : Nat)⟩ := by
  obtain ⟨leading, least, most, search_⟩ := exists_leading tie lower e
  obtain ⟨n, same, bound⟩ := exists_grid lower short rounds least most
  have there := rounds
  rw [same] at there
  obtain ⟨found, place, fine, includes, result⟩ :=
    exists_search tie 17 (around_inside lower e) there (le_refl 1) (by decide) (by decide)
  have found_ : RoundsTo (found * 10 ^ place) m e := includes
  rw [mul_zpow_eq_grid found fine] at found_
  have above := le_of_roundsTo lower (by omega) there found_
  have below := le_of_roundsTo lower (by omega) found_ there
  refine ⟨found, place, ?_, search_.trans result⟩
  rw [mul_zpow_eq_grid found fine, same, le_antisymm above below]

/-- Without the zeros at their end, the digits of one value are the same. -/
theorem digits_of_mul_zpow_eq {d found : Nat} {q place : Int} (ends : d % 10 ≠ 0)
    (equal : (found * 10 ^ place : ℚ) = d * 10 ^ q) :
    trim (Digits.decimal found) = Digits.decimal d ∧
      place + ((Digits.decimal found).length - 1 : Nat) =
        q + ((Digits.decimal d).length - 1 : Nat) := by
  have some_ : 0 < found := by
    refine Nat.pos_of_ne_zero ?_
    rintro rfl
    have nothing : (d : ℚ) = 0 := by
      rw [Nat.cast_zero, zero_mul, eq_comm] at equal
      exact (mul_eq_zero.mp equal).resolve_right (by positivity)
    have : d = 0 := by exact_mod_cast nothing
    omega
  obtain ⟨d', k, rfl, ends'⟩ := exists_mul_pow some_
  have split : ((d' * 10 ^ k : Nat) * 10 ^ place : ℚ) = d' * 10 ^ (place + k) := by
    rw [zpow_add₀ (by norm_num), zpow_natCast]
    push_cast
    ring
  rw [split] at equal
  obtain ⟨rfl, rfl⟩ := eq_of_mul_zpow_eq ends' ends equal
  have digits := Digits.length_decimal_pos d'
  rw [trim_decimal ends', Digits.decimal_mul_pow (by omega), List.length_append,
    List.length_replicate]
  exact ⟨rfl, by omega⟩

theorem ofParts_of_roundsTo (tie : Tie) (lower : 2 ^ 52 ≤ m) {d : Nat} {q : Int}
    (ends : d % 10 ≠ 0) (short : d < 10 ^ 15) (rounds : RoundsTo (d * 10 ^ q) m e) :
    ofParts tie m e = ⟨Digits.decimal d, q + ((Digits.decimal d).length - 1 : Nat)⟩ := by
  obtain ⟨found, place, equal, result⟩ := exists_found tie lower short rounds
  obtain ⟨digits, leading⟩ := digits_of_mul_zpow_eq ends equal
  rw [result, digits, leading]

end Search

end Intake.Number.Shortest
