import Intake.Proofs.Text.Utf8
import Intake.Text.Percent

set_option autoImplicit false

/-!
Percent escapes apart from any reader: a percent sign and the two hexadecimal digits of a byte stand
for that byte, any other byte for itself. Resolving the escapes of a text computes this and nothing
else, so the bytes that are left are determined by the text.
-/

namespace Intake.Text

namespace Digits

/-- A hexadecimal digit of that value, in either case. -/
def IsHex (c : Char) (d : Nat) : Prop :=
  d < 16 ∧ (c = Nat.digitChar d ∨ c = (Nat.digitChar d).toUpper)

instance (c : Char) (d : Nat) : Decidable (IsHex c d) :=
  inferInstanceAs (Decidable (_ ∧ _))

private theorem toNat_lt_of_hexValue? {c : Char} {d : Nat} (known : hexValue? c = some d) :
    c.toNat < 128 := by
  unfold hexValue? at known
  simp only [Bool.and_eq_true, decide_eq_true_eq] at known
  have upper : ∀ last : Char, c ≤ last → c.toNat ≤ last.toNat := fun last le => le
  have nine : '9'.toNat = 57 := rfl
  have lowerF : 'f'.toNat = 102 := rfl
  have upperF : 'F'.toNat = 70 := rfl
  split at known
  next digit => have := upper '9' digit.2; omega
  split at known
  next letter => have := upper 'f' letter.2; omega
  split at known
  next letter => have := upper 'F' letter.2; omega
  next => cases known

theorem hexValue?_eq_some_iff {c : Char} {d : Nat} : hexValue? c = some d ↔ IsHex c d := by
  constructor
  · intro known
    have all : ∀ k : Fin 128, ∀ e ∈ hexValue? (Char.ofNat k.val), IsHex (Char.ofNat k.val) e := by
      decide +kernel
    have here := all ⟨c.toNat, toNat_lt_of_hexValue? known⟩ d
    rw [Char.ofNat_toNat] at here
    exact here known
  · rintro ⟨small, same⟩
    have all : ∀ k : Fin 16, hexValue? (Nat.digitChar k.val) = some k.val ∧
        hexValue? (Nat.digitChar k.val).toUpper = some k.val := by
      decide +kernel
    have here := all ⟨d, small⟩
    rcases same with rfl | rfl
    · exact here.1
    · exact here.2

theorem IsHex.toNat_lt {c : Char} {d : Nat} (hex : IsHex c d) : c.toNat < 128 :=
  toNat_lt_of_hexValue? (hexValue?_eq_some_iff.mpr hex)

theorem IsHex.ne_plus {c : Char} {d : Nat} (hex : IsHex c d) : c ≠ '+' := by
  rintro rfl
  have nothing : hexValue? '+' = none := by decide
  rw [← hexValue?_eq_some_iff, nothing] at hex
  cases hex

end Digits

namespace Percent

open Digits

def IsEscape (value high low : UInt8) : Prop :=
  IsHex (Char.ofNat high.toNat) (value.toNat / 16) ∧
    IsHex (Char.ofNat low.toNat) (value.toNat % 16)

/-- What is left of bytes when every well-formed escape in them is resolved, from left to right. -/
inductive Resolves : List UInt8 → List UInt8 → Prop where
  | nil : Resolves [] []
  | escape {value high low : UInt8} {rest out : List UInt8} (digits : IsEscape value high low)
      (behind : Resolves rest out) : Resolves (0x25 :: high :: low :: rest) (value :: out)
  | plain {b : UInt8} {rest out : List UInt8}
      (alone : ∀ value high low more, b = 0x25 → rest = high :: low :: more →
        ¬IsEscape value high low)
      (behind : Resolves rest out) : Resolves (b :: rest) (b :: out)

section Resolving

variable {b value : UInt8} {bytes rest out : List UInt8}

private theorem eq_ofNat_iff {h l : Nat} (high : h < 16) (low : l < 16) :
    UInt8.ofNat (16 * h + l) = value ↔ h = value.toNat / 16 ∧ l = value.toNat % 16 := by
  have bound := value.toNat_lt
  rw [← UInt8.toNat_inj, Utf8.toNat_byte (by omega)]
  omega

private theorem escaped?_eq_some_iff : escaped? b rest = some value ↔
    ∃ high low more, b = 0x25 ∧ rest = high :: low :: more ∧ IsEscape value high low := by
  constructor
  · intro found
    unfold escaped? at found
    split at found
    next high low more =>
      split at found
      next percent =>
        obtain ⟨h, first, found⟩ := Option.bind_eq_some_iff.mp found
        obtain ⟨l, second, same⟩ := Option.bind_eq_some_iff.mp found
        rw [hexValue?_eq_some_iff] at first second
        obtain ⟨rfl, rfl⟩ := (eq_ofNat_iff first.1 second.1).mp (Option.some.inj same)
        exact ⟨high, low, more, beq_iff_eq.mp percent, rfl, first, second⟩
      next => cases found
    next => cases found
  · rintro ⟨high, low, more, rfl, rfl, first, second⟩
    have same : UInt8.ofNat (16 * (value.toNat / 16) + value.toNat % 16) = value :=
      (eq_ofNat_iff first.1 second.1).mpr ⟨rfl, rfl⟩
    rw [← hexValue?_eq_some_iff] at first second
    simp only [escaped?, first, second, beq_self_eq_true, if_true, Option.bind_eq_bind,
      Option.bind_some, same]
    rfl

private theorem unescape_of_resolves (resolves : Resolves bytes out) : unescape bytes = out := by
  induction resolves with
  | nil => rw [unescape]
  | @escape value high low rest out digits _ ih =>
    have found : escaped? 0x25 (high :: low :: rest) = some value :=
      escaped?_eq_some_iff.mpr ⟨high, low, rest, rfl, rfl, digits⟩
    rw [unescape, found]
    simp only [List.drop_succ_cons, List.drop_zero, ih]
  | @plain b rest out alone _ ih =>
    have nothing : escaped? b rest = none := by
      rw [Option.eq_none_iff_forall_ne_some]
      intro value found
      obtain ⟨high, low, more, percent, cut, digits⟩ := escaped?_eq_some_iff.mp found
      exact alone value high low more percent cut digits
    rw [unescape, nothing]
    simp only [ih]

private theorem resolves_unescape (bytes : List UInt8) : Resolves bytes (unescape bytes) := by
  fun_induction unescape bytes with
  | case1 => exact .nil
  | case2 b rest value found ih =>
    obtain ⟨high, low, more, rfl, rfl, digits⟩ := escaped?_eq_some_iff.mp found
    exact .escape digits ih
  | case3 b rest nothing ih =>
    refine .plain ?_ ih
    intro value high low more percent cut digits
    have found := escaped?_eq_some_iff.mpr ⟨high, low, more, percent, cut, digits⟩
    rw [nothing] at found
    cases found

theorem resolves_iff : Resolves bytes out ↔ out = unescape bytes := by
  constructor
  · intro resolves
    exact (unescape_of_resolves resolves).symm
  · rintro rfl
    exact resolves_unescape bytes

theorem Resolves.append {front : List UInt8} (plain : 0x25 ∉ front) (behind : Resolves rest out) :
    Resolves (front ++ rest) (front ++ out) := by
  induction front with
  | nil => exact behind
  | cons b front ih =>
    obtain ⟨other, plain⟩ := not_or.mp (mt List.mem_cons.mpr plain)
    refine .plain ?_ (ih plain)
    intro value high low more percent
    exact absurd percent.symm other

end Resolving

theorem notMem_encodeChar {c : Char} (other : c ≠ '%') : 0x25 ∉ String.utf8EncodeChar c := by
  intro there
  have percent : (0x25 : UInt8).toNat = '%'.toNat := rfl
  rcases Utf8.toNat_of_mem_encodeChar there with same | high
  · exact other (Char.toNat_inj.mp (same.symm.trans percent))
  · exact absurd high (by decide)

end Percent

end Intake.Text
