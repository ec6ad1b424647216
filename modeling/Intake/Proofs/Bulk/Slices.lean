import Intake.Proofs.Bulk.Chunking
import Mathlib.Algebra.Order.Floor.Semiring
import Mathlib.Algebra.Order.Field.Rat
import Mathlib.Data.Rat.Floor

set_option autoImplicit false

/-!
The three ways of cutting a list into chunks agree: by place, one by one from what is left, and on
request. All but the last chunk are full, and a list that fills its chunks can be cut apart from
what follows it.
-/

namespace Intake.Bulk.Chunker

variable {α : Type} (c : Chunker)

/-! ## Chunks by place -/

private theorem slices_nil : c.slices ([] : List α) = [] := by
  rw [slices, List.length_nil, count_zero]
  rfl

private theorem slices_of_ne_nil {items : List α} (nonempty : items ≠ []) :
    c.slices items = items.take c.limit :: c.slices (items.drop c.limit) := by
  have shifted : ∀ i, items.drop ((i + 1) * c.limit) = (items.drop c.limit).drop (i * c.limit) := by
    intro i
    rw [List.drop_drop, Nat.succ_mul, Nat.add_comm]
  rw [slices, c.count_of_pos (List.length_pos_iff.mpr nonempty), List.range_succ_eq_map,
    List.map_cons, List.map_map, Nat.zero_mul, List.drop_zero, slices, List.length_drop]
  refine congrArg _ (List.map_congr_left fun i _ => ?_)
  rw [Function.comp_apply, shifted]

private theorem split_eq_slices (items : List α) : c.split items = c.slices items := by
  induction items using c.split_induction with
  | nil => rw [split_nil, slices_nil]
  | chunk items nonempty ih => rw [c.split_of_ne_nil nonempty, c.slices_of_ne_nil nonempty, ih]

/-! ## Chunks on request -/

private theorem serve_of_ne_nil {items : List α} (nonempty : items ≠ []) :
    c.serve items = (some (items.take c.limit), items.drop c.limit) := by
  cases items with
  | nil => exact absurd rfl nonempty
  | cons item rest => rfl

private theorem served_nil (requests : Nat) :
    c.served requests ([] : List α) = List.replicate requests none := by
  induction requests with
  | zero => rfl
  | succ requests ih => rw [served, serve, ih, List.replicate_succ]

/-- The n-th request is answered by the n-th chunk, if there are that many. -/
theorem served_eq (requests : Nat) (items : List α) :
    c.served requests items = (List.range requests).map fun n => (c.split items)[n]? := by
  induction requests generalizing items with
  | zero => rfl
  | succ requests ih =>
    by_cases empty : items = []
    · subst empty
      simp [served_nil]
    · rw [served, c.serve_of_ne_nil empty, ih, c.split_of_ne_nil empty, List.range_succ_eq_map,
        List.map_cons, List.map_map]
      rfl

/-! ## Sizes -/

private theorem length_of_mem_dropLast_split {items chunk : List α}
    (there : chunk ∈ (c.split items).dropLast) : chunk.length = c.limit := by
  induction items using c.split_induction with
  | nil => simp at there
  | chunk items nonempty ih =>
    rw [c.split_of_ne_nil nonempty] at there
    by_cases last : items.drop c.limit = []
    · simp [last] at there
    · have more : c.split (items.drop c.limit) ≠ [] := by
        rw [c.split_of_ne_nil last]
        exact List.cons_ne_nil _ _
      rw [List.dropLast_cons_of_ne_nil more] at there
      rcases List.mem_cons.mp there with rfl | later
      · have longer : c.limit < items.length := by
          rwa [List.drop_eq_nil_iff, not_le] at last
        rw [List.length_take, min_eq_left longer.le]
      · exact ih later

private theorem count_eq_ceil (length : Nat) : c.count length = ⌈(length : ℚ) / c.limit⌉₊ := by
  have positive := c.limit_pos
  have positive' : (0 : ℚ) < c.limit := Nat.cast_pos.mpr positive
  refine eq_of_forall_ge_iff fun chunks => ?_
  rw [Nat.ceil_le, div_le_iff₀ positive', count, ← Nat.cast_mul, Nat.cast_le,
    Nat.div_le_iff_le_mul_add_pred positive]
  have swap : c.limit * chunks = chunks * c.limit := Nat.mul_comm _ _
  omega

/-! ## Lists one behind the other -/

private theorem split_append {front : List α} (full : c.limit ∣ front.length) (back : List α) :
    c.split (front ++ back) = c.split front ++ c.split back := by
  induction front using c.split_induction with
  | nil => rw [split_nil, List.nil_append, List.nil_append]
  | chunk front nonempty ih =>
    have fits : c.limit ≤ front.length :=
      Nat.le_of_dvd (List.length_pos_iff.mpr nonempty) full
    have rest : c.limit ∣ (front.drop c.limit).length := by
      rw [List.length_drop]
      exact Nat.dvd_sub full (dvd_refl _)
    rw [c.split_of_ne_nil (List.append_ne_nil_of_left_ne_nil nonempty back),
      c.split_of_ne_nil nonempty, List.take_append_of_le_length fits,
      List.drop_append_of_le_length fits, ih rest, List.cons_append]

/-! ## The whole -/

/-- A list cut into chunks of a limited size: in order, none of them empty, and all full but perhaps
the last. -/
structure Partitions (limit : Nat) (items : List α) (chunks : List (List α)) : Prop where
  joined : chunks.flatten = items
  nonempty : ∀ chunk ∈ chunks, chunk ≠ []
  full : ∀ chunk ∈ chunks.dropLast, chunk.length = limit
  last : ∀ chunk ∈ chunks.getLast?, chunk.length ≤ limit
  counted : chunks.length = ⌈(items.length : ℚ) / limit⌉₊

private theorem partitions_split (items : List α) : Partitions c.limit items (c.split items) where
  joined := c.flatten_split items
  nonempty _ there := c.ne_nil_of_mem_split there
  full _ there := c.length_of_mem_dropLast_split there
  last _ there := (c.length_of_mem_split (List.mem_of_getLast? there)).2
  counted := (c.length_split items).trans (c.count_eq_ceil items.length)

private theorem limit_of_ofLimit {limit : Nat} {c : Chunker} (accepted : ofLimit limit = .ok c) :
    c.limit = limit := by
  unfold ofLimit at accepted
  split at accepted
  · simp at accepted
  · split at accepted
    · rw [← Except.ok.inj accepted]
    · simp at accepted

/-- A limit that is accepted cuts every list into the same chunks by place, one by one and on
request; they are as many as the count says, and those of a list that fills its chunks are not
changed by what follows it. -/
theorem chunks_agree {limit : Nat} {c : Chunker} (accepted : ofLimit limit = .ok c)
    (items : List α) :
    c.split items = c.slices items ∧
      (∀ requests, c.served requests items =
        (List.range requests).map fun n => (c.slices items)[n]?) ∧
      Partitions limit items (c.split items) ∧
      (c.split items).length = c.count items.length ∧
      (limit ∣ items.length →
        ∀ more, c.split (items ++ more) = c.split items ++ c.split more) := by
  obtain rfl := limit_of_ofLimit accepted
  refine ⟨?_, ?_, ?_, ?_, ?_⟩
  · exact c.split_eq_slices items
  · intro requests
    rw [served_eq, split_eq_slices]
  · exact c.partitions_split items
  · exact c.length_split items
  · exact fun full more => c.split_append full more

def pairs : Chunker := ⟨2, by decide, by decide⟩

/-- Five items in chunks of two, of which the first four fill theirs. -/
theorem chunks_agree_pairs :
    ofLimit 2 = .ok pairs ∧
      pairs.split [1, 2, 3, 4, 5] = [[1, 2], [3, 4], [5]] ∧
      pairs.served 4 [1, 2, 3, 4, 5] = [some [1, 2], some [3, 4], some [5], none] ∧
      Partitions 2 [1, 2, 3, 4, 5] (pairs.split [1, 2, 3, 4, 5]) ∧
      2 ∣ [1, 2, 3, 4].length ∧
      pairs.split ([1, 2, 3, 4] ++ [5]) = pairs.split [1, 2, 3, 4] ++ pairs.split [5] := by
  have accepted : ofLimit 2 = .ok pairs := rfl
  obtain ⟨alike, answers, parts, -, -⟩ := chunks_agree accepted [1, 2, 3, 4, 5]
  obtain ⟨-, -, -, -, apart⟩ := chunks_agree accepted [1, 2, 3, 4]
  have full : 2 ∣ [1, 2, 3, 4].length := by decide
  exact ⟨accepted, alike.trans rfl, (answers 4).trans rfl, parts, full, apart full [5]⟩

end Intake.Bulk.Chunker
