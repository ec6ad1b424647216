import Intake.Json.Skip
import Intake.Proofs.Json.Grammar

set_option autoImplicit false

/-!
Reading a text in quotes. Its pieces are read up to the closing quote, whatever comes behind it, or to
the fault that stands among them; passing over it looks for the quote only.
-/

namespace Intake.Json

open Intake.Text

def Stop.extend (stop : Stop) (tail : List Char) : Stop := { stop with rest := stop.rest ++ tail }

/-- A result and the text behind it, or a stop that is followed by that text. -/
def placed {α : Type} (result : Except Stop α) (tail : List Char) : Except Stop (Read α) :=
  match result with
  | .ok a => .ok (a, tail)
  | .error stop => .error (stop.extend tail)

theorem placed_map {α β : Type} (f : α → β) (result : Except Stop α) (tail : List Char) :
    placed (result.map f) tail = (placed result tail).map fun r => (f r.1, r.2) := by
  cases result <;> rfl

namespace Glyph

@[simp] theorem spelled_nil : spelled [] = [] := rfl

@[simp] theorem spelled_cons (g : Glyph) (rest : List Glyph) :
    spelled (g :: rest) = g.chars ++ spelled rest := rfl

end Glyph

open Glyph

private theorem hexEscape_known {a b c d : Char} {bits : Nat} (known : fourHex a b c d = some bits)
    (rest : List Char) : hexEscape (a :: b :: c :: d :: rest) = .ok (bits, rest) := by
  simp only [hexEscape, known]

private theorem unicodeEscape_known {a b c d : Char} {bits : Nat}
    (known : fourHex a b c d = some bits)
    (rest : List Char) : unicodeEscape (a :: b :: c :: d :: rest) =
      if isLow bits then .error (.here .loneSurrogate rest)
      else if !isHigh bits then .ok (Char.ofNat bits, rest)
      else match rest with
        | [] => .error (.here .endInString [])
        | '\\' :: 'u' :: rest => do
          let (m, rest) ← hexEscape rest
          if isLow m then return (joined bits m, rest) else .error (.here .loneSurrogate rest)
        | '\\' :: rest =>
          match rest with
          | [] => .error (.here .endInString [])
          | _ => .error (.next .endOfEscape rest)
        | _ => .error (.next .endOfEscape rest) := by
  rw [unicodeEscape, hexEscape_known known]
  have high : (!isHigh bits) = (decide (bits < 0xD800) || decide (0xDBFF < bits)) := by
    simp only [isHigh, Bool.not_and, ← decide_not, Nat.not_le]
  simp only [isLow, joined, high, Bool.or_eq_true, decide_eq_true_iff, Bool.and_eq_true]
  rfl

private theorem ne_of_shortEscape {letter meant : Char} (known : shortEscape letter = some meant) :
    letter ≠ 'u' := by
  rintro rfl
  have unknown : shortEscape 'u' = none := rfl
  exact Option.some_ne_none meant (known.symm.trans unknown)

section Steps

variable {fuel : Nat} {rest behind : List Char} {c : Char}

private theorem stringChars_quote : stringChars (fuel + 1) ('"' :: rest) = .ok ([], rest) := by
  simp [stringChars]

private theorem stringChars_plain (allowed : c ≠ '"' ∧ c ≠ '\\' ∧ 0x20 ≤ c.toNat) :
    stringChars (fuel + 1) (c :: rest) =
      (stringChars fuel rest).map fun r => (c :: r.1, r.2) := by
  obtain ⟨quote, backslash, printable⟩ := allowed
  rw [stringChars, if_neg quote, if_neg backslash, if_neg (by omega)]
  cases stringChars fuel rest <;> rfl

private theorem stringChars_escape (read : escape rest = .ok (c, behind)) :
    stringChars (fuel + 1) ('\\' :: rest) =
      (stringChars fuel behind).map fun r => (c :: r.1, r.2) := by
  rw [stringChars, if_neg (by decide), if_pos rfl, read]
  simp only [bind, Except.bind]
  cases stringChars fuel behind <;> rfl

private theorem stringChars_escape_error {stop : Stop} (refused : escape rest = .error stop) :
    stringChars (fuel + 1) ('\\' :: rest) = .error stop := by
  rw [stringChars, if_neg (by decide), if_pos rfl, refused]
  rfl

private theorem escape_short {letter : Char} (known : shortEscape letter = some c) :
    escape (letter :: rest) = .ok (c, rest) := by
  rw [escape]
  · rw [known]
  · exact ne_of_shortEscape known

end Steps

private theorem escape_hex {a b c d : Char} {bits : Nat} (known : fourHex a b c d = some bits)
    (rest : List Char) : escape ('u' :: a :: b :: c :: d :: rest) =
      if isLow bits then .error (.here .loneSurrogate rest)
      else if !isHigh bits then .ok (Char.ofNat bits, rest)
      else match rest with
        | [] => .error (.here .endInString [])
        | '\\' :: 'u' :: rest => do
          let (m, rest) ← hexEscape rest
          if isLow m then return (joined bits m, rest) else .error (.here .loneSurrogate rest)
        | '\\' :: rest =>
          match rest with
          | [] => .error (.here .endInString [])
          | _ => .error (.next .endOfEscape rest)
        | _ => .error (.next .endOfEscape rest) :=
  unicodeEscape_known known rest

private theorem escape_lone {a b c d : Char} {bits : Nat} (known : fourHex a b c d = some bits)
    (high : isHigh bits = true) (low : ¬ isLow bits = true) {front : Char} (rest : List Char)
    (solid : front ≠ '\\') :
    escape ('u' :: a :: b :: c :: d :: front :: rest) =
      .error (.next .endOfEscape (front :: rest)) := by
  rw [escape_hex known, if_neg low, if_neg (by simp [high])]
  split
  next impossible => exact absurd impossible (List.cons_ne_nil _ _)
  next same => exact absurd (List.cons.inj same).1 solid
  next _ same => exact absurd (List.cons.inj same).1 solid
  next => rfl

private theorem escape_lone_short {a b c d : Char} {bits : Nat}
    (known : fourHex a b c d = some bits)
    (high : isHigh bits = true) (low : ¬ isLow bits = true) {letter : Char} (rest : List Char)
    (other : letter ≠ 'u') :
    escape ('u' :: a :: b :: c :: d :: '\\' :: letter :: rest) =
      .error (.next .endOfEscape (letter :: rest)) := by
  rw [escape_hex known, if_neg low, if_neg (by simp [high])]
  split
  next impossible => exact absurd impossible (List.cons_ne_nil _ _)
  next same => exact absurd (List.cons.inj (List.cons.inj same).2).1 other
  next _ same =>
    rw [← (List.cons.inj same).2]
  next _ _ none => exact (none _ rfl).elim

@[simp] private theorem length_chars_pos (g : Glyph) : 0 < g.chars.length := by
  cases g <;> simp [Glyph.chars]

private theorem escape_pair {a b c d a' b' c' d' : Char} {bits second : Nat}
    (known : fourHex a b c d = some bits) (high : ¬ (!isHigh bits) = true)
    (low : ¬ isLow bits = true) (known' : fourHex a' b' c' d' = some second) (rest : List Char) :
    escape ('u' :: a :: b :: c :: d :: '\\' :: 'u' :: a' :: b' :: c' :: d' :: rest) =
      if isLow second then .ok (joined bits second, rest) else .error (.here .loneSurrogate rest) := by
  rw [escape_hex known, if_neg low, if_neg high]
  show (hexEscape (a' :: b' :: c' :: d' :: rest) >>= _) = _
  rw [hexEscape_known known']
  rfl

private theorem exists_front {rest : List Glyph}
    (notHex : ∀ a b c d bits known more, rest = hex a b c d bits known :: more → False)
    (notShort : ∀ letter meant known more, rest = short letter meant known :: more → False) :
    ∃ front more, front ≠ '\\' ∧ spelled rest ++ ['"'] = front :: more := by
  cases rest with
  | nil => exact ⟨'"', [], by decide, rfl⟩
  | cons g more =>
    cases g with
    | plain c allowed => exact ⟨c, _, allowed.2.1, rfl⟩
    | short letter meant known => exact (notShort letter meant known more rfl).elim
    | hex a b c d bits known => exact (notHex a b c d bits known more rfl).elim

private theorem exists_fuel {g : Glyph} {rest : List Glyph} {fuel : Nat}
    (enough : (spelled (g :: rest)).length ≤ fuel) :
    ∃ n, fuel = n + 1 ∧ (spelled rest).length ≤ n := by
  have positive := length_chars_pos g
  rw [spelled_cons, List.length_append] at enough
  exact ⟨fuel - 1, by omega, by omega⟩

private theorem stringChars_spelled (glyphs : List Glyph) (tail : List Char) {fuel : Nat}
    (enough : (spelled glyphs).length ≤ fuel) :
    stringChars (fuel + 1) (spelled glyphs ++ '"' :: tail) = placed (meaning glyphs) tail := by
  fun_induction meaning glyphs generalizing fuel with
  | case1 => exact stringChars_quote
  | case2 c allowed rest ih =>
    obtain ⟨fuel, rfl, less⟩ := exists_fuel enough
    rw [placed_map, ← ih less]
    exact stringChars_plain allowed
  | case3 letter meant known rest ih =>
    obtain ⟨fuel, rfl, less⟩ := exists_fuel enough
    rw [placed_map, ← ih less]
    exact stringChars_escape (escape_short known)
  | case4 a b c d bits known rest low =>
    refine stringChars_escape_error ((escape_hex known (spelled rest ++ '"' :: tail)).trans ?_)
    rw [if_pos low]
    simp [Stop.here, Stop.extend]
  | case5 a b c d bits known rest low other ih =>
    obtain ⟨fuel, rfl, less⟩ := exists_fuel enough
    rw [placed_map, ← ih less]
    refine stringChars_escape ((escape_hex known _).trans ?_)
    rw [if_neg low, if_pos other]
    rfl
  | case6 a b c d bits known low high a' b' c' d' second known' rest isLow ih =>
    -- Two pieces are read at once, so the fuel is counted down twice.
    obtain ⟨fuel, rfl, less⟩ := exists_fuel enough
    obtain ⟨fuel, rfl, least⟩ := exists_fuel less
    rw [placed_map, ← ih (Nat.le_succ_of_le least)]
    have pair := escape_pair known high low known' (spelled rest ++ '"' :: tail)
    exact stringChars_escape (pair.trans (if_pos isLow))
  | case7 a b c d bits known low high a' b' c' d' second known' rest notLow =>
    have pair := escape_pair known high low known' (spelled rest ++ '"' :: tail)
    refine stringChars_escape_error ((pair.trans (if_neg notLow)).trans ?_)
    simp [Stop.here, Stop.extend]
  | case8 a b c d bits known low high letter meant known' rest =>
    have other := ne_of_shortEscape known'
    have half : isHigh bits = true := by simpa using high
    have lone := escape_lone_short known half low (spelled rest ++ '"' :: tail) other
    refine stringChars_escape_error (lone.trans ?_)
    simp [Stop.next, Stop.extend]
  | case9 a b c d bits known low high rest notHex notShort =>
    obtain ⟨front, more, solid, text⟩ := exists_front notHex notShort
    have whole : spelled rest ++ '"' :: tail = front :: (more ++ tail) := by
      rw [List.append_cons, text, List.cons_append]
    have half : isHigh bits = true := by simpa using high
    have lone := escape_lone known half low (more ++ tail) solid
    rw [← whole] at lone
    refine stringChars_escape_error (lone.trans ?_)
    simp [Stop.next, Stop.extend]

theorem stringBody_spelled (glyphs : List Glyph) (tail : List Char) :
    stringBody (spelled glyphs ++ '"' :: tail) =
      placed ((meaning glyphs).map String.ofList) tail := by
  have enough : (spelled glyphs).length ≤ (spelled glyphs ++ '"' :: tail).length := by
    rw [List.length_append]
    exact Nat.le_add_right _ _
  rw [stringBody, stringChars_spelled glyphs tail enough, placed_map]

private theorem skipEscape_short {letter meant : Char} (known : shortEscape letter = some meant)
    (rest : List Char) : skipEscape (letter :: rest) = .ok rest := by
  rw [skipEscape]
  · rw [known]
    rfl
  · exact ne_of_shortEscape known

theorem skipString_spelled (glyphs : List Glyph) (tail : List Char) {fuel : Nat}
    (enough : (spelled glyphs).length ≤ fuel) :
    skipString (fuel + 1) (spelled glyphs ++ '"' :: tail) = .ok tail := by
  induction glyphs generalizing fuel with
  | nil => simp [skipString]
  | cons g rest ih =>
    have positive := length_chars_pos g
    rw [spelled_cons, List.length_append] at enough
    obtain ⟨fuel, rfl⟩ : ∃ n, fuel = n + 1 := ⟨fuel - 1, by omega⟩
    have shorter := @ih fuel (by omega)
    cases g with
    | plain c allowed =>
      obtain ⟨quote, backslash, printable⟩ := allowed
      show skipString (fuel + 1 + 1) (c :: (spelled rest ++ '"' :: tail)) = _
      rw [skipString, if_neg quote, if_neg backslash, if_neg (by omega), shorter]
    | short letter meant known =>
      show skipString (fuel + 1 + 1) ('\\' :: letter :: (spelled rest ++ '"' :: tail)) = _
      rw [skipString, if_neg (by decide), if_pos rfl, skipEscape_short known]
      exact shorter
    | hex a b c d bits known =>
      show skipString (fuel + 1 + 1)
        ('\\' :: 'u' :: a :: b :: c :: d :: (spelled rest ++ '"' :: tail)) = _
      rw [skipString, if_neg (by decide), if_pos rfl, skipEscape, hexEscape_known known]
      exact shorter

end Intake.Json
