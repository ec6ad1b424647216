import Intake.Json.Layout
import Intake.Proofs.Json.Settling
import Mathlib.Data.List.TakeWhile

set_option autoImplicit false

/-!
The places of faults. A place is told from what stands in front of it: what stands behind counts only
as far as the fault is in it.
-/

namespace Intake.Json

theorem extend_extend (stop : Stop) (front back : List Char) :
    (stop.extend front).extend back = stop.extend (front ++ back) := by
  simp [Stop.extend]

/-- A stop inside an object gets its place where the search for the end of the object leaves off. -/
def closeStop (stop : Stop) : Stop :=
  match endObject stop.rest with
  | .ok rest => stop.settle rest
  | .error other => stop.settle other.rest

theorem closed_error {α : Type} (stop : Stop) :
    closed endObject (.error stop : Except Stop (Read α)) = .error (closeStop stop) := by
  rw [closed, closeStop]
  cases endObject stop.rest <;> rfl

theorem closeStop_of_ahead (cause : Cause) (rest : List Char) (n : Nat) :
    closeStop ⟨cause, rest, some n⟩ = ⟨cause, rest, some n⟩ := by
  rw [closeStop]
  split <;> rfl

theorem skipSpace_ne_nil {text : List Char} {c : Char} (there : c ∈ text) (solid : isSpace c = false) :
    skipSpace text ≠ [] := by
  intro blank
  have spaces := List.dropWhile_eq_nil_iff.mp blank c there
  exact Bool.false_ne_true (solid.symm.trans spaces)

theorem skipSpace_append_ne_nil (front : List Char) {back : List Char} (solid : skipSpace back ≠ []) :
    skipSpace (front ++ back) ≠ [] := by
  intro blank
  have spaces := List.dropWhile_eq_nil_iff.mp blank
  exact solid (List.dropWhile_eq_nil_iff.mpr fun c there =>
    spaces c (List.mem_append_right front there))

private theorem skipSpace_append {front : List Char} (solid : skipSpace front ≠ [])
    (rest : List Char) : skipSpace (front ++ rest) = skipSpace front ++ rest := by
  rw [skipSpace, skipSpace, List.dropWhile_append]
  rw [skipSpace] at solid
  simp [List.isEmpty_iff, solid]

theorem closeStop_length_le (stop : Stop) : (closeStop stop).rest.length ≤ stop.rest.length := by
  obtain ⟨cause, rest, ahead⟩ := stop
  cases ahead with
  | some n =>
    rw [closeStop_of_ahead]
  | none =>
    have spaces : (skipSpace rest).length ≤ rest.length :=
      (List.dropWhile_sublist isSpace).length_le
    simp only [closeStop, endObject]
    cases skipped : skipSpace rest with
    | nil => exact Nat.zero_le _
    | cons c more =>
      rw [skipped, List.length_cons] at spaces
      by_cases ended : c = '\x7d'
      · simp only [if_pos ended]
        exact Nat.le_of_succ_le spaces
      · simp only [if_neg ended]
        exact spaces

theorem exists_closeStop (cause : Cause) {front : List Char} (solid : skipSpace front ≠ [])
    {ahead : Option Nat} (near : ∀ n ∈ ahead, n ≤ 1) :
    ∃ left n, (n = 0 ∨ n ≤ 1 ∧ left ≠ []) ∧
      ∀ rest, closeStop ⟨cause, front ++ rest, ahead⟩ = ⟨cause, left ++ rest, some n⟩ := by
  cases ahead with
  | some n =>
    refine ⟨front, n, .inr ⟨near n rfl, ?_⟩, fun rest => closeStop_of_ahead cause _ n⟩
    rintro rfl
    exact solid rfl
  | none =>
    obtain ⟨c, more, skipped⟩ := List.exists_cons_of_ne_nil solid
    by_cases ended : c = '\x7d'
    · refine ⟨more, 0, .inl rfl, fun rest => ?_⟩
      have found : endObject (front ++ rest) = .ok (more ++ rest) := by
        rw [endObject, skipSpace_append solid, skipped, ended]
        rfl
      simp only [closeStop, found]
      rfl
    · refine ⟨c :: more, 0, .inl rfl, fun rest => ?_⟩
      have found : ∃ m, endObject (front ++ rest) = .error (.next m (c :: (more ++ rest))) := by
        rw [endObject, skipSpace_append solid, skipped]
        exact ⟨_, if_neg ended⟩
      obtain ⟨m, found⟩ := found
      simp only [closeStop, found]
      rfl

private theorem advance_cons (p : Position) {n : Nat} (near : n ≤ 1) (c : Char)
    (front back : List Char) : p.advance n (c :: front) = p.advance n (c :: back) := by
  cases n with
  | zero => simp [Position.advance]
  | succ n =>
    have alone : n + 1 - c.utf8Size = 0 := by
      have positive := c.utf8Size_pos
      omega
    simp [Position.advance, alone]

theorem fault_append (cause : Cause) (front left : List Char) {n : Nat}
    (near : n = 0 ∨ n ≤ 1 ∧ left ≠ []) (rest other : List Char) :
    Stop.fault (front ++ rest) ⟨cause, left ++ rest, some n⟩ =
      Stop.fault (front ++ other) ⟨cause, left ++ other, some n⟩ := by
  have consumed : ∀ rest : List Char,
      (front ++ rest).take ((front ++ rest).length - (left ++ rest).length) =
        front.take (front.length - left.length) := by
    intro rest
    rw [List.length_append, List.length_append, Nat.add_sub_add_right]
    exact List.take_append_of_le_length (Nat.sub_le _ _)
  simp only [Stop.fault, consumed, Option.map_some]
  obtain rfl | ⟨near, nonempty⟩ := near
  · simp [Position.advance]
  · obtain ⟨c, more, rfl⟩ := List.exists_cons_of_ne_nil nonempty
    rw [List.cons_append, List.cons_append, advance_cons _ near]

theorem fault_append_append (stop : Stop) (front : List Char) {value other rest : List Char}
    (level : ∀ p : Position, value.foldl Position.step p = other.foldl Position.step p)
    (inside : stop.rest.length ≤ rest.length) :
    Stop.fault (front ++ (value ++ rest)) stop = Stop.fault (front ++ (other ++ rest)) stop := by
  have consumed : ∀ value : List Char,
      (front ++ (value ++ rest)).take ((front ++ (value ++ rest)).length - stop.rest.length) =
        front ++ (value ++ rest.take (rest.length - stop.rest.length)) := by
    intro value
    have count : (front ++ (value ++ rest)).length - stop.rest.length =
        front.length + (value.length + (rest.length - stop.rest.length)) := by
      simp only [List.length_append]
      omega
    rw [count, List.take_length_add_append, List.take_length_add_append]
  simp only [Stop.fault, consumed, List.foldl_append, level]

theorem foldl_step {text : List Char} (single : '\n' ∉ text) (p : Position) :
    text.foldl Position.step p = ⟨p.line, p.column + (String.ofList text).utf8ByteSize⟩ := by
  induction text generalizing p with
  | nil => rfl
  | cons c more ih =>
    obtain ⟨other, single⟩ := not_or.mp (mt List.mem_cons.mpr single)
    rw [List.foldl_cons, ih single, Position.step, if_neg (Ne.symm other), String.ofList_cons,
      String.utf8ByteSize_append, String.utf8ByteSize_singleton, Nat.add_assoc]

end Intake.Json
