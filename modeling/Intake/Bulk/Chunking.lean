import Intake.Bulk.Fault

set_option autoImplicit false

/-!
Cutting a list into contiguous chunks of limited size. Chunks are cut out of a list by their place
in it (`slices`) or taken one by one from what is left of it (`split`); only the last one may be
shorter than the limit. A supply makes a chunk only when it is asked for one (`serve`).
-/

namespace Intake.Bulk

/-- The most requests that the store takes at once. -/
def batchLimit : Nat := 25

inductive LimitFault where
  | zero
  | tooLarge (limit : Nat)
  deriving DecidableEq, Repr, Inhabited

def LimitFault.message : LimitFault → String
  | .zero => "batch limit must be at least 1"
  | .tooLarge limit => s!"batch limit {limit} exceeds the store maximum of {batchLimit}"

def LimitFault.toFault (f : LimitFault) : Fault := .configuration f.message

/-- A limit on the size of a chunk. -/
structure Chunker where
  limit : Nat
  limit_pos : 0 < limit := by decide
  limit_le : limit ≤ batchLimit := by decide
  deriving DecidableEq, Repr

namespace Chunker

def full : Chunker := ⟨batchLimit, by decide, by decide⟩

instance : Inhabited Chunker := ⟨full⟩

def ofLimit (limit : Nat) : Except LimitFault Chunker :=
  if h : limit = 0 then .error .zero
  else if g : limit ≤ batchLimit then .ok ⟨limit, Nat.pos_of_ne_zero h, g⟩
  else .error (.tooLarge limit)

variable {α : Type}

def count (c : Chunker) (length : Nat) : Nat := (length + c.limit - 1) / c.limit

def slices (c : Chunker) (items : List α) : List (List α) :=
  (List.range (c.count items.length)).map fun i => (items.drop (i * c.limit)).take c.limit

/-- The chunks of a list, each taken from what the ones before it leave. -/
def split (c : Chunker) (items : List α) : List (List α) :=
  match items with
  | [] => []
  | item :: rest =>
    ((item :: rest).take c.limit) :: c.split ((item :: rest).drop c.limit)
  termination_by items.length
  decreasing_by
    have := c.limit_pos
    simp only [List.length_drop, List.length_cons]
    omega

/-- The answer to one request for a chunk, and the items that the supply has left: there is a chunk
as long as there is an item. -/
def serve (c : Chunker) : List α → Option (List α) × List α
  | [] => (none, [])
  | item :: rest => (some ((item :: rest).take c.limit), (item :: rest).drop c.limit)

/-- The answers to so many requests, each to a supply of what the one before it has left. -/
def served (c : Chunker) : Nat → List α → List (Option (List α))
  | 0, _ => []
  | requests + 1, items => (c.serve items).1 :: c.served requests (c.serve items).2

end Chunker

end Intake.Bulk
