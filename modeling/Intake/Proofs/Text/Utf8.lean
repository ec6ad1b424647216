import Intake.Text.Utf8
import Mathlib.Data.List.Basic

set_option autoImplicit false

/-!
Reading bytes as text and writing text as bytes undo each other: bytes are read as some characters
exactly if they are what those characters are written as.
-/

namespace Intake.Text.Utf8

private theorem isTail_iff (b : UInt8) : isTail b = true ↔ 128 ≤ b.toNat ∧ b.toNat ≤ 191 := by
  simp [isTail, UInt8.le_iff_toNat_le]

private theorem secondOfThree_iff (lead b : UInt8) : secondOfThree lead b = true ↔
    128 ≤ b.toNat ∧ b.toNat ≤ 191 ∧ (lead.toNat = 224 → 160 ≤ b.toNat) ∧
      (lead.toNat = 237 → b.toNat ≤ 159) := by
  have low : lead = 0xE0 ↔ lead.toNat = 224 := UInt8.toNat_inj.symm
  have high : lead = 0xED ↔ lead.toNat = 237 := UInt8.toNat_inj.symm
  unfold secondOfThree
  simp only [beq_iff_eq, low, high]
  split
  · simp [UInt8.le_iff_toNat_le]
    omega
  · split
    · simp [UInt8.le_iff_toNat_le]
      omega
    · rw [isTail_iff]
      omega

private theorem secondOfFour_iff (lead b : UInt8) : secondOfFour lead b = true ↔
    128 ≤ b.toNat ∧ b.toNat ≤ 191 ∧ (lead.toNat = 240 → 144 ≤ b.toNat) ∧
      (lead.toNat = 244 → b.toNat ≤ 143) := by
  have low : lead = 0xF0 ↔ lead.toNat = 240 := UInt8.toNat_inj.symm
  have high : lead = 0xF4 ↔ lead.toNat = 244 := UInt8.toNat_inj.symm
  unfold secondOfFour
  simp only [beq_iff_eq, low, high]
  split
  · simp [UInt8.le_iff_toNat_le]
    omega
  · split
    · simp [UInt8.le_iff_toNat_le]
      omega
    · rw [isTail_iff]
      omega

/-- What a reading step finds at the front of bytes. -/
inductive Front : UInt8 → List UInt8 → Char → List UInt8 → Prop where
  | one {a : UInt8} (rest : List UInt8) (first : a.toNat < 128) :
      Front a rest (Char.ofNat a.toNat) rest
  | two {a b : UInt8} (rest : List UInt8) (first : 194 ≤ a.toNat ∧ a.toNat ≤ 223)
      (second : isTail b = true) :
      Front a (b :: rest) (Char.ofNat (a.toNat % 32 * 64 + tailBits b)) rest
  | three {a b c : UInt8} (rest : List UInt8) (first : 224 ≤ a.toNat ∧ a.toNat ≤ 239)
      (second : secondOfThree a b = true) (third : isTail c = true) :
      Front a (b :: c :: rest)
        (Char.ofNat (a.toNat % 16 * 4096 + tailBits b * 64 + tailBits c)) rest
  | four {a b c d : UInt8} (rest : List UInt8) (first : 240 ≤ a.toNat ∧ a.toNat ≤ 244)
      (second : secondOfFour a b = true) (third : isTail c = true) (fourth : isTail d = true) :
      Front a (b :: c :: d :: rest)
        (Char.ofNat (a.toNat % 8 * 262144 + tailBits b * 4096 + tailBits c * 64 + tailBits d)) rest

section Step

variable {lead : UInt8} {bytes rest : List UInt8} {c : Char}

private theorem step_eq (lead : UInt8) (bytes : List UInt8) : step lead bytes =
    if lead.toNat < 128 then .char (Char.ofNat lead.toNat) bytes
    else if 194 ≤ lead.toNat ∧ lead.toNat ≤ 223 then twoBytes lead bytes
    else if 224 ≤ lead.toNat ∧ lead.toNat ≤ 239 then threeBytes lead bytes
    else if 240 ≤ lead.toNat ∧ lead.toNat ≤ 244 then fourBytes lead bytes
    else .wrong 1 := by
  unfold step
  simp only [UInt8.lt_iff_toNat_lt, UInt8.le_iff_toNat_le, Bool.and_eq_true, decide_eq_true_iff]
  rfl

private theorem front_of_step (found : step lead bytes = .char c rest) :
    Front lead bytes c rest := by
  rw [step_eq] at found
  split at found
  next first =>
    obtain ⟨rfl, rfl⟩ := Step.char.inj found
    exact .one bytes first
  split at found
  next first =>
    unfold twoBytes at found
    split at found
    · cases found
    · split at found
      · obtain ⟨rfl, rfl⟩ := Step.char.inj found
        exact .two _ first ‹_›
      · cases found
  split at found
  next first =>
    unfold threeBytes at found
    split at found
    · cases found
    · split at found
      · cases found
      · split at found
        · cases found
        · split at found
          · obtain ⟨rfl, rfl⟩ := Step.char.inj found
            exact .three _ first (by simp_all) ‹_›
          · cases found
  split at found
  next first =>
    unfold fourBytes at found
    split at found
    · cases found
    · split at found
      · cases found
      · split at found
        · cases found
        · split at found
          · cases found
          · split at found
            · cases found
            · split at found
              · obtain ⟨rfl, rfl⟩ := Step.char.inj found
                exact .four _ first (by simp_all) (by simp_all) ‹_›
              · cases found
  next => cases found

private theorem step_of_front (front : Front lead bytes c rest) :
    step lead bytes = .char c rest := by
  rw [step_eq]
  cases front with
  | one rest first => exact if_pos first
  | two rest first second =>
    rw [if_neg (show ¬ lead.toNat < 128 by omega), if_pos first, twoBytes, if_pos second]
  | three rest first second third =>
    rw [if_neg (show ¬ lead.toNat < 128 by omega),
      if_neg (show ¬ (194 ≤ lead.toNat ∧ lead.toNat ≤ 223) by omega), if_pos first]
    simp [threeBytes, second, third]
  | four rest first second third fourth =>
    rw [if_neg (show ¬ lead.toNat < 128 by omega),
      if_neg (show ¬ (194 ≤ lead.toNat ∧ lead.toNat ≤ 223) by omega),
      if_neg (show ¬ (224 ≤ lead.toNat ∧ lead.toNat ≤ 239) by omega), if_pos first]
    simp [fourBytes, second, third, fourth]

end Step

section Writing

private theorem toNat_ofNat {n : Nat} (valid : n.isValidChar) : (Char.ofNat n).val.toNat = n := by
  rw [Char.ofNat, dif_pos valid]
  rfl

private theorem ofNat_eq {n : Nat} {a : UInt8} (same : n = a.toNat) : UInt8.ofNat n = a := by
  rw [same, UInt8.ofNat_toNat]

private theorem encodeChar_two {n : Nat} (large : 127 < n) (small : n ≤ 2047) :
    String.utf8EncodeChar (Char.ofNat n) =
      [.ofNat (n / 64 % 32 + 192), .ofNat (n % 64 + 128)] := by
  have number := toNat_ofNat (n := n) (.inl (by omega))
  simp only [String.utf8EncodeChar, number]
  rw [if_neg (by omega), if_pos small]

private theorem encodeChar_three {n : Nat} (valid : n.isValidChar) (large : 2047 < n)
    (small : n ≤ 65535) : String.utf8EncodeChar (Char.ofNat n) =
      [.ofNat (n / 4096 % 16 + 224), .ofNat (n / 64 % 64 + 128), .ofNat (n % 64 + 128)] := by
  simp only [String.utf8EncodeChar, toNat_ofNat valid]
  rw [if_neg (by omega), if_neg (by omega), if_pos small]

private theorem encodeChar_four {n : Nat} (valid : n.isValidChar) (large : 65535 < n) :
    String.utf8EncodeChar (Char.ofNat n) =
      [.ofNat (n / 262144 % 8 + 240), .ofNat (n / 4096 % 64 + 128), .ofNat (n / 64 % 64 + 128),
        .ofNat (n % 64 + 128)] := by
  simp only [String.utf8EncodeChar, toNat_ofNat valid]
  rw [if_neg (by omega), if_neg (by omega), if_neg (by omega)]

private theorem encode_of_front {lead : UInt8} {bytes rest : List UInt8} {c : Char}
    (front : Front lead bytes c rest) : lead :: bytes = String.utf8EncodeChar c ++ rest := by
  cases front with
  | one rest first =>
    have number := toNat_ofNat (n := lead.toNat) (.inl (by omega))
    simp only [String.utf8EncodeChar, number]
    rw [if_pos (by omega), ofNat_eq rfl]
    rfl
  | @two b _ first second =>
    rw [isTail_iff] at second
    rw [tailBits, encodeChar_two (by omega) (by omega), ofNat_eq (a := lead) (by omega),
      ofNat_eq (a := b) (by omega)]
    rfl
  | @three b c _ first second third =>
    rw [secondOfThree_iff] at second
    rw [isTail_iff] at third
    rw [tailBits, tailBits, encodeChar_three (by unfold Nat.isValidChar; omega) (by omega) (by omega),
      ofNat_eq (a := lead) (by omega), ofNat_eq (a := b) (by omega), ofNat_eq (a := c) (by omega)]
    rfl
  | @four b c d _ first second third fourth =>
    rw [secondOfFour_iff] at second
    rw [isTail_iff] at third fourth
    rw [tailBits, tailBits, tailBits,
      encodeChar_four (by unfold Nat.isValidChar; omega) (by omega), ofNat_eq (a := lead) (by omega),
      ofNat_eq (a := b) (by omega), ofNat_eq (a := c) (by omega), ofNat_eq (a := d) (by omega)]
    rfl

theorem toNat_byte {n : Nat} (small : n < 256) : (UInt8.ofNat n).toNat = n :=
  UInt8.toNat_ofNat_of_lt' small

private theorem exists_front (c : Char) (rest : List UInt8) :
    ∃ lead bytes, String.utf8EncodeChar c ++ rest = lead :: bytes ∧ Front lead bytes c rest := by
  obtain ⟨n, valid, rfl⟩ : ∃ n, n.isValidChar ∧ c = Char.ofNat n :=
    ⟨c.toNat, c.valid, (Char.ofNat_toNat c).symm⟩
  have bound : n < 55296 ∨ 57343 < n ∧ n < 1114112 := valid
  by_cases one : n ≤ 127
  · have byte := toNat_byte (n := n) (by omega)
    have front : Front (.ofNat n) rest (Char.ofNat (UInt8.ofNat n).toNat) rest :=
      .one rest (by omega)
    rw [byte] at front
    refine ⟨.ofNat n, rest, ?_, front⟩
    simp only [String.utf8EncodeChar, toNat_ofNat valid]
    rw [if_pos one]
    rfl
  by_cases two : n ≤ 2047
  · have first := toNat_byte (n := n / 64 % 32 + 192) (by omega)
    have second := toNat_byte (n := n % 64 + 128) (by omega)
    have front := Front.two (a := .ofNat (n / 64 % 32 + 192)) (b := .ofNat (n % 64 + 128)) rest
      (by omega) ((isTail_iff _).mpr (by omega))
    rw [first, tailBits, second, show (n / 64 % 32 + 192) % 32 * 64 + (n % 64 + 128) % 64 = n by
      omega] at front
    rw [encodeChar_two (by omega) two]
    exact ⟨_, _, rfl, front⟩
  by_cases three : n ≤ 65535
  · have first := toNat_byte (n := n / 4096 % 16 + 224) (by omega)
    have second := toNat_byte (n := n / 64 % 64 + 128) (by omega)
    have third := toNat_byte (n := n % 64 + 128) (by omega)
    have front := Front.three (a := .ofNat (n / 4096 % 16 + 224)) (b := .ofNat (n / 64 % 64 + 128))
      (c := .ofNat (n % 64 + 128)) rest (by omega) ((secondOfThree_iff _ _).mpr (by omega))
      ((isTail_iff _).mpr (by omega))
    rw [first, tailBits, tailBits, second, third, show (n / 4096 % 16 + 224) % 16 * 4096 +
      (n / 64 % 64 + 128) % 64 * 64 + (n % 64 + 128) % 64 = n by omega] at front
    rw [encodeChar_three valid (by omega) three]
    exact ⟨_, _, rfl, front⟩
  · have first := toNat_byte (n := n / 262144 % 8 + 240) (by omega)
    have second := toNat_byte (n := n / 4096 % 64 + 128) (by omega)
    have third := toNat_byte (n := n / 64 % 64 + 128) (by omega)
    have fourth := toNat_byte (n := n % 64 + 128) (by omega)
    have front := Front.four (a := .ofNat (n / 262144 % 8 + 240))
      (b := .ofNat (n / 4096 % 64 + 128)) (c := .ofNat (n / 64 % 64 + 128))
      (d := .ofNat (n % 64 + 128)) rest (by omega) ((secondOfFour_iff _ _).mpr (by omega))
      ((isTail_iff _).mpr (by omega)) ((isTail_iff _).mpr (by omega))
    rw [first, tailBits, tailBits, tailBits, second, third, fourth,
      show (n / 262144 % 8 + 240) % 8 * 262144 + (n / 4096 % 64 + 128) % 64 * 4096 +
        (n / 64 % 64 + 128) % 64 * 64 + (n % 64 + 128) % 64 = n by omega] at front
    rw [encodeChar_four valid (by omega)]
    exact ⟨_, _, rfl, front⟩

theorem encodeChar_one {c : Char} (small : c.toNat < 128) :
    String.utf8EncodeChar c = [UInt8.ofNat c.toNat] := by
  have first : c.val.toNat ≤ 127 := Nat.le_of_lt_succ small
  simp only [String.utf8EncodeChar, first, if_true]
  rfl

theorem ofNat_toNat_byte {c : Char} (small : c.toNat < 128) :
    Char.ofNat (UInt8.ofNat c.toNat).toNat = c := by
  rw [toNat_byte (by omega), Char.ofNat_toNat]

theorem toNat_of_mem_encodeChar {c : Char} {b : UInt8} (there : b ∈ String.utf8EncodeChar c) :
    b.toNat = c.toNat ∨ 128 ≤ b.toNat := by
  obtain ⟨n, valid, rfl⟩ : ∃ n, n.isValidChar ∧ c = Char.ofNat n :=
    ⟨c.toNat, c.valid, (Char.ofNat_toNat c).symm⟩
  by_cases one : n ≤ 127
  · left
    simp only [String.utf8EncodeChar, toNat_ofNat valid, if_pos one, List.mem_singleton] at there
    rw [there, toNat_byte (by omega)]
    exact (toNat_ofNat valid).symm
  right
  by_cases two : n ≤ 2047
  · rw [encodeChar_two (by omega) two] at there
    rcases List.mem_pair.mp there with rfl | rfl <;> rw [toNat_byte (by omega)] <;> omega
  by_cases three : n ≤ 65535
  · rw [encodeChar_three valid (by omega) three] at there
    simp only [List.mem_cons, List.not_mem_nil, or_false] at there
    rcases there with rfl | rfl | rfl <;> rw [toNat_byte (by omega)] <;> omega
  · rw [encodeChar_four valid (by omega)] at there
    simp only [List.mem_cons, List.not_mem_nil, or_false] at there
    rcases there with rfl | rfl | rfl | rfl <;> rw [toNat_byte (by omega)] <;> omega

end Writing

section Decoding

@[simp] theorem encode_nil : encode [] = [] := rfl

@[simp] theorem encode_cons (c : Char) (chars : List Char) :
    encode (c :: chars) = String.utf8EncodeChar c ++ encode chars :=
  List.flatMap_cons

theorem encode_append (front back : List Char) :
    encode (front ++ back) = encode front ++ encode back :=
  List.flatMap_append

private theorem encode_of_decodeFrom {fuel index : Nat} {bytes : List UInt8} {chars : List Char}
    (read : decodeFrom fuel index bytes = .ok chars) : encode chars = bytes := by
  induction fuel generalizing index bytes chars with
  | zero =>
    cases bytes with
    | nil =>
      obtain rfl := Except.ok.inj read
      rfl
    | cons lead bytes => cases read
  | succ fuel ih =>
    cases bytes with
    | nil =>
      obtain rfl := Except.ok.inj read
      rfl
    | cons lead bytes =>
      rw [decodeFrom] at read
      cases found : step lead bytes with
      | char c rest =>
        rw [found] at read
        cases behind : decodeFrom fuel (index + c.utf8Size) rest with
        | error fault =>
          simp only [behind] at read
          cases read
        | ok others =>
          simp only [behind] at read
          obtain rfl : c :: others = chars := Except.ok.inj read
          rw [encode_cons, ih behind, encode_of_front (front_of_step found)]
      | wrong count =>
        rw [found] at read
        cases read
      | incomplete =>
        rw [found] at read
        cases read

private theorem decodeFrom_encode {fuel index : Nat} {chars : List Char}
    (enough : (encode chars).length ≤ fuel) : decodeFrom fuel index (encode chars) = .ok chars := by
  induction chars generalizing fuel index with
  | nil => cases fuel <;> rfl
  | cons c chars ih =>
    obtain ⟨lead, bytes, written, front⟩ := exists_front c (encode chars)
    have longer : (encode chars).length ≤ bytes.length := by
      cases front with
      | one rest first => exact Nat.le_refl _
      | two rest first second => simp only [List.length_cons]; omega
      | three rest first second third => simp only [List.length_cons]; omega
      | four rest first second third fourth => simp only [List.length_cons]; omega
    rw [encode_cons, written] at enough ⊢
    cases fuel with
    | zero => exact absurd enough (Nat.not_succ_le_zero _)
    | succ fuel =>
      have behind : (encode chars).length ≤ fuel :=
        Nat.le_trans longer (Nat.le_of_succ_le_succ enough)
      rw [decodeFrom, step_of_front front]
      simp only [ih behind]
      rfl

/-- Bytes are read as the characters that are written as them. -/
theorem decode_eq_ok_iff {bytes : List UInt8} {chars : List Char} :
    decode bytes = .ok chars ↔ encode chars = bytes := by
  constructor
  · exact encode_of_decodeFrom
  · rintro rfl
    exact decodeFrom_encode (Nat.le_refl _)

theorem encode_injective : Function.Injective encode := by
  intro front back same
  have read := decode_eq_ok_iff.mpr same
  rw [decode_eq_ok_iff.mpr rfl] at read
  exact (Except.ok.inj read).symm

end Decoding

end Intake.Text.Utf8
