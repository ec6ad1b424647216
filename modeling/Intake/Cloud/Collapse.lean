import Intake.Bulk.Store

set_option autoImplicit false

/-!
Batches without repeated keys: of the requests with one key only the last is kept, at the place of
the first. A table that takes the puts one after the other ends up the same. A pass that notes the
place of every key finds the request to replace without a search.
-/

namespace Intake.Cloud

open Intake.Bulk

/-- Puts a request in the place of the one with its key, or else behind all. -/
def placeRequest (kept : List PutRequest) (r : PutRequest) : List PutRequest :=
  match r.key? with
  | none => kept ++ [r]
  | some key =>
    if kept.any (·.key? = some key) then kept.map fun k => if k.key? = some key then r else k
    else kept ++ [r]

/-- The requests without those whose key comes again. -/
def collapse (requests : List PutRequest) : List PutRequest := requests.foldl placeRequest []

/-- The requests that are kept so far, and the place among them that is noted for a key. -/
structure Placement where
  kept : List PutRequest
  places : Dictionary Nat

namespace Placement

def empty : Placement := ⟨[], .empty⟩

/-- Puts a request in the place noted for its key, or else behind all and notes that place. Nothing
comes of it if what is noted is no place of a request. -/
def put? (p : Placement) (r : PutRequest) : Option Placement :=
  match r.key? with
  | none => some { p with kept := p.kept ++ [r] }
  | some key =>
    match p.places.get? key with
    | none => some ⟨p.kept ++ [r], p.places.insert key p.kept.length⟩
    | some place =>
      if place < p.kept.length then some { p with kept := p.kept.set place r } else none

end Placement

def collapseByPlaces? (requests : List PutRequest) : Option (List PutRequest) :=
  (requests.foldlM Placement.put? .empty).map Placement.kept

def collapsing {σ : Type} (inner : Store σ) : Store σ :=
  ⟨fun state table requests => inner.write state table (collapse requests)⟩

end Intake.Cloud
