import Intake.Bulk.Chunking
import Mathlib.Data.Nat.Basic

set_option autoImplicit false

/-!
Laws of the chunks that are taken one by one from what is left of a list: together they are the
list, none is empty or longer than the limit, and there are as many as the count says.
-/

namespace Intake.Bulk.Chunker

variable {α : Type} (c : Chunker)

@[simp] theorem split_nil : c.split ([] : List α) = [] := by rw [split]

theorem split_of_ne_nil {items : List α} (nonempty : items ≠ []) :
    c.split items = items.take c.limit :: c.split (items.drop c.limit) := by
  cases items with
  | nil => exact absurd rfl nonempty
  | cons item rest => rw [split]

private theorem length_drop_limit_lt {items : List α} (nonempty : items ≠ []) :
    (items.drop c.limit).length < items.length := by
  have positive := c.limit_pos
  have present := List.length_pos_iff.mpr nonempty
  rw [List.length_drop]
  omega

theorem split_induction {motive : List α → Prop} (nil : motive [])
    (chunk : ∀ items, items ≠ [] → motive (items.drop c.limit) → motive items)
    (items : List α) : motive items := by
  induction size : items.length using Nat.strong_induction_on generalizing items with
  | _ size ih =>
    by_cases empty : items = []
    · exact empty ▸ nil
    · exact chunk items empty (ih _ (size ▸ c.length_drop_limit_lt empty) _ rfl)

@[simp] theorem flatten_split (items : List α) : (c.split items).flatten = items := by
  induction items using c.split_induction with
  | nil => rw [split_nil, List.flatten_nil]
  | chunk items nonempty ih =>
    rw [c.split_of_ne_nil nonempty, List.flatten_cons, ih, List.take_append_drop]

theorem length_of_mem_split {items chunk : List α} (h : chunk ∈ c.split items) :
    1 ≤ chunk.length ∧ chunk.length ≤ c.limit := by
  induction items using c.split_induction with
  | nil => rw [split_nil] at h; exact absurd h List.not_mem_nil
  | chunk items nonempty ih =>
    rw [c.split_of_ne_nil nonempty] at h
    rcases List.mem_cons.mp h with rfl | later
    · have positive := c.limit_pos
      have present := List.length_pos_iff.mpr nonempty
      rw [List.length_take]
      omega
    · exact ih later

theorem ne_nil_of_mem_split {items chunk : List α} (h : chunk ∈ c.split items) : chunk ≠ [] :=
  List.length_pos_iff.mp (c.length_of_mem_split h).1

theorem count_zero : c.count 0 = 0 := by
  have positive := c.limit_pos
  exact Nat.div_eq_of_lt (by omega)

theorem count_of_pos {length : Nat} (present : 0 < length) :
    c.count length = c.count (length - c.limit) + 1 := by
  have positive := c.limit_pos
  rw [count, count]
  by_cases fits : length ≤ c.limit
  · have zero : (length - c.limit + c.limit - 1) / c.limit = 0 := Nat.div_eq_of_lt (by omega)
    have one : (length + c.limit - 1) / c.limit = 1 := Nat.div_eq_of_lt_le (by omega) (by omega)
    rw [zero, one]
  · have shifted : length + c.limit - 1 = length - c.limit + c.limit - 1 + c.limit := by omega
    rw [shifted, Nat.add_div_right _ positive]

theorem length_split (items : List α) : (c.split items).length = c.count items.length := by
  induction items using c.split_induction with
  | nil => rw [split_nil, List.length_nil, List.length_nil, count_zero]
  | chunk items nonempty ih =>
    rw [c.split_of_ne_nil nonempty, List.length_cons, ih, List.length_drop,
      c.count_of_pos (List.length_pos_iff.mpr nonempty)]

end Intake.Bulk.Chunker
