import Intake.Proofs.Cloud.Collapse
import Intake.Proofs.Dictionary
import Mathlib.Data.List.Basic

set_option autoImplicit false

/-!
Where the requests of a batch stand once it is collapsed. A request without a key keeps its place,
and the last request with a key stands where the first one with it stood; a pass that notes the
place of every key always finds a request there.
-/

namespace Intake.Cloud

open Intake.Bulk

/-! ## The order of what is kept -/

/-- The request at a place has no key, or none before it has its key. -/
def leads (requests : List PutRequest) (place : Nat) : Bool :=
  match requests[place]?.bind PutRequest.key? with
  | none => true
  | some key => key ∉ keysOf (requests.take place)

/-- The places of the requests without a key and of the first ones with a key, in their order. -/
def leadingPlaces (requests : List PutRequest) : List Nat :=
  (List.range requests.length).filter (leads requests)

/-- The last request with the key of the one at a place; that one itself if it has no key. -/
def newestAt? (requests : List PutRequest) (place : Nat) : Option PutRequest :=
  requests[place]?.bind fun r =>
    match r.key? with
    | none => some r
    | some key => lastPut? key requests

section Concat

variable {requests : List PutRequest} {x : PutRequest} {place : Nat}

private theorem getElem?_concat_of_lt (before : place < requests.length) :
    (requests ++ [x])[place]? = requests[place]? := List.getElem?_append_left before

private theorem leads_concat_of_lt (before : place < requests.length) :
    leads (requests ++ [x]) place = leads requests place := by
  unfold leads
  rw [getElem?_concat_of_lt before, List.take_append_of_le_length before.le]

private theorem leads_concat_length :
    leads (requests ++ [x]) requests.length =
      match x.key? with
      | none => true
      | some key => key ∉ keysOf requests := by
  unfold leads
  rw [List.getElem?_concat_length, List.take_left]
  rfl

private theorem leadingPlaces_concat :
    leadingPlaces (requests ++ [x]) =
      leadingPlaces requests ++
        if leads (requests ++ [x]) requests.length then [requests.length] else [] := by
  have same : (List.range requests.length).filter (leads (requests ++ [x])) =
      (List.range requests.length).filter (leads requests) :=
    List.filter_congr fun place there => leads_concat_of_lt (List.mem_range.mp there)
  rw [leadingPlaces, List.length_append, List.length_singleton, List.range_succ,
    List.filter_append, same, leadingPlaces, List.filter_cons, List.filter_nil]

private theorem lt_of_mem_leadingPlaces (there : place ∈ leadingPlaces requests) :
    place < requests.length := List.mem_range.mp (List.mem_filter.mp there).1

private theorem newestAt?_concat_of_key {key : String} (named : x.key? = some key)
    (before : place < requests.length) :
    newestAt? (requests ++ [x]) place =
      (newestAt? requests place).map fun k => if k.key? = some key then x else k := by
  unfold newestAt?
  rw [getElem?_concat_of_lt before, List.getElem?_eq_getElem before]
  have there : requests[place] ∈ requests := List.getElem_mem before
  cases own : requests[place].key? with
  | none => simp [own]
  | some other =>
    obtain ⟨last, found⟩ := Option.isSome_iff_exists.mp
      (lastPut?_isSome_iff.mpr (mem_keysOf.mpr ⟨_, there, own⟩))
    simp only [Option.bind_some, own, lastPut?_concat, found, Option.map_some,
      key?_of_lastPut? found, named, Option.some.injEq]
    by_cases same : key = other
    · rw [if_pos same, if_pos same.symm]
    · rw [if_neg same, if_neg (Ne.symm same)]

private theorem newestAt?_concat_of_keyless (keyless : x.key? = none)
    (before : place < requests.length) :
    newestAt? (requests ++ [x]) place = newestAt? requests place := by
  have apart : ∀ key, ¬ x.key? = some key := fun key h =>
    Option.some_ne_none key (h.symm.trans keyless)
  unfold newestAt?
  simp only [getElem?_concat_of_lt before, lastPut?_concat, if_neg (apart _)]

private theorem newestAt?_concat_length : newestAt? (requests ++ [x]) requests.length = some x := by
  cases named : x.key? <;> simp [newestAt?, named, lastPut?_concat]

end Concat

/-- What is kept stands in the order of the requests without a key and of the first ones with a key,
and the last one with a key stands for the first. -/
theorem map_newestAt?_leadingPlaces (requests : List PutRequest) :
    (leadingPlaces requests).map (newestAt? requests) = (collapse requests).map some := by
  induction requests using List.reverseRecOn with
  | nil => rfl
  | append_singleton requests x ih =>
    rw [collapse_concat, leadingPlaces_concat, List.map_append, leads_concat_length]
    cases named : x.key? with
    | none =>
      have same : (leadingPlaces requests).map (newestAt? (requests ++ [x])) =
          (collapse requests).map some := by
        rw [← ih]
        exact List.map_congr_left fun place there =>
          newestAt?_concat_of_keyless named (lt_of_mem_leadingPlaces there)
      have fresh : ∀ key, x.key? = some key → key ∉ keysOf (collapse requests) := by
        simp [named]
      rw [placeRequest_of_fresh fresh, same]
      simp [newestAt?_concat_length]
    | some key =>
      have replaced : (leadingPlaces requests).map (newestAt? (requests ++ [x])) =
          ((collapse requests).map some).map (Option.map fun k =>
            if k.key? = some key then x else k) := by
        rw [← ih, List.map_map]
        exact List.map_congr_left fun place there =>
          newestAt?_concat_of_key named (lt_of_mem_leadingPlaces there)
      rw [replaced]
      by_cases taken : key ∈ keysOf requests
      · rw [placeRequest_of_taken named (mem_keysOf_collapse.mpr taken)]
        simp [taken]
      · have absent : key ∉ keysOf (collapse requests) := mt mem_keysOf_collapse.mp taken
        have fresh : ∀ other, x.key? = some other → other ∉ keysOf (collapse requests) := by
          intro other same
          rwa [← Option.some.inj (named.symm.trans same)]
        have stays : ∀ k ∈ collapse requests, (if k.key? = some key then x else k) = k :=
          fun k there => if_neg fun same => absent (mem_keysOf.mpr ⟨k, there, same⟩)
        rw [placeRequest_of_fresh fresh]
        simpa [taken, newestAt?_concat_length] using stays

/-! ## Requests by key -/

section Keyed

variable {requests kept : List PutRequest} {r : PutRequest} {key : String}

private theorem filter_key_eq_singleton (distinct : (keysOf kept).Nodup) (there : r ∈ kept)
    (named : r.key? = some key) : kept.filter (·.key? = some key) = [r] := by
  obtain ⟨front, back, rfl⟩ := List.append_of_mem there
  obtain ⟨notBefore, notBehind⟩ := notMem_keysOf_around distinct named
  have without : ∀ {others : List PutRequest}, key ∉ keysOf others →
      others.filter (·.key? = some key) = [] := by
    intro others absent
    refine List.filter_eq_nil_iff.mpr fun k there => ?_
    simpa using fun same => absent (mem_keysOf.mpr ⟨k, there, same⟩)
  rw [List.filter_append, List.filter_cons_of_pos (by simpa using named), without notBefore,
    without notBehind, List.nil_append]

private theorem filter_key_collapse (key : String) (requests : List PutRequest) :
    (collapse requests).filter (·.key? = some key) = (lastPut? key requests).toList := by
  cases last : lastPut? key requests with
  | some r =>
    have named := key?_of_lastPut? last
    exact filter_key_eq_singleton (collapse_distinct requests).1
      ((mem_collapse_iff_lastPut? named).mpr last) named
  | none =>
    refine List.filter_eq_nil_iff.mpr fun k there => ?_
    simpa using lastPut?_eq_none_iff.mp last k (collapse_subset requests there)

private theorem filter_keyless_collapse (requests : List PutRequest) :
    (collapse requests).filter (·.key? = none) = requests.filter (·.key? = none) := by
  induction requests using List.reverseRecOn with
  | nil => rfl
  | append_singleton requests x ih =>
    rw [collapse_concat, List.filter_append, ← ih]
    cases named : x.key? with
    | none => rw [placeRequest_of_fresh (by simp [named]), List.filter_append]
    | some key =>
      have distinct := (collapse_distinct requests).1
      rcases placeRequest_eq_or (x := x) distinct with
        ⟨placed, -⟩ | ⟨front, old, back, before, same, placed⟩
      · rw [placed, List.filter_append]
      · rw [placed, before]
        simp [same, named]

end Keyed

private theorem collapse_eq_self_iff {requests : List PutRequest} :
    collapse requests = requests ↔ (keysOf requests).Nodup := by
  constructor
  · intro same
    exact same ▸ (collapse_distinct requests).1
  · intro distinct
    induction requests using List.reverseRecOn with
    | nil => rfl
    | append_singleton requests x ih =>
      rw [keysOf_append, List.nodup_append] at distinct
      obtain ⟨before, -, apart⟩ := distinct
      have fresh : ∀ key, x.key? = some key → key ∉ keysOf requests := by
        intro key named there
        exact apart key there key (mem_keysOf.mpr ⟨x, List.mem_singleton_self x, named⟩) rfl
      rw [collapse_concat, ih before, placeRequest_of_fresh fresh]

private theorem lastPut?_collapse (key : String) (requests : List PutRequest) :
    lastPut? key (collapse requests) = lastPut? key requests := by
  cases last : lastPut? key requests with
  | none =>
    refine lastPut?_eq_none_iff.mpr fun r there => ?_
    exact lastPut?_eq_none_iff.mp last r (collapse_subset requests there)
  | some r =>
    have named := key?_of_lastPut? last
    rw [← mem_collapse_iff_lastPut? named, collapse_eq_self_iff.mpr (collapse_distinct requests).1]
    exact (mem_collapse_iff_lastPut? named).mpr last

private theorem Contents.putAll_collapse (contents : Contents) (requests : List PutRequest) :
    contents.putAll (collapse requests) = contents.putAll requests := by
  ext1 key
  rw [putAll_apply, putAll_apply, lastPut?_collapse]

/-! ## The pass that notes places -/

private theorem getElem?_concat_eq_some_iff {requests : List PutRequest} {x r : PutRequest}
    {place : Nat} : (requests ++ [x])[place]? = some r ↔
      requests[place]? = some r ∨ place = requests.length ∧ r = x := by
  constructor
  · intro there
    by_cases before : place < requests.length
    · exact .inl ((getElem?_concat_of_lt before).symm.trans there)
    · have last : place = requests.length := by
        have within := (List.getElem?_eq_some_iff.mp there).1
        rw [List.length_append, List.length_singleton] at within
        omega
      subst last
      rw [List.getElem?_concat_length, Option.some.injEq] at there
      exact .inr ⟨rfl, there.symm⟩
  · rintro (there | ⟨rfl, rfl⟩)
    · exact (getElem?_concat_of_lt (List.getElem?_eq_some_iff.mp there).1).trans there
    · exact List.getElem?_concat_length

/-- A place is noted for a key exactly if a request with it stands there. -/
def Placement.IsSound (p : Placement) : Prop :=
  ∀ key place, p.places.get? key = some place ↔ ∃ r, p.kept[place]? = some r ∧ r.key? = some key

namespace Placement.IsSound

variable {p : Placement} {r : PutRequest} {key : String} {place : Nat}

private theorem empty : Placement.empty.IsSound := by
  intro key place
  simp [Placement.empty]

private theorem lt_length (sound : p.IsSound) (noted : p.places.get? key = some place) :
    place < p.kept.length := by
  obtain ⟨r, there, -⟩ := (sound key place).mp noted
  exact (List.getElem?_eq_some_iff.mp there).1

private theorem get?_eq_none (sound : p.IsSound) (absent : p.places.get? key = none) :
    key ∉ keysOf p.kept := by
  rw [mem_keysOf]
  rintro ⟨r, there, named⟩
  obtain ⟨place, found⟩ := List.mem_iff_getElem?.mp there
  have noted := (sound key place).mpr ⟨r, found, named⟩
  exact Option.some_ne_none place (noted.symm.trans absent)

private theorem set_eq_map (sound : p.IsSound) (noted : p.places.get? key = some place) :
    p.kept.set place r = p.kept.map fun k => if k.key? = some key then r else k := by
  obtain ⟨old, there, named⟩ := (sound key place).mp noted
  refine List.ext_getElem? fun i => ?_
  rw [List.getElem?_map, List.getElem?_set]
  -- At any other place a request with the key would be noted there, and a key is noted once.
  by_cases here : place = i
  · subst here
    rw [if_pos rfl, if_pos (sound.lt_length noted), there, Option.map_some, if_pos named]
  · rw [if_neg here]
    cases found : p.kept[i]? with
    | none => rfl
    | some k =>
      have other : ¬ k.key? = some key := by
        intro same
        have also := (sound key i).mpr ⟨k, found, same⟩
        exact here (Option.some.inj (noted.symm.trans also))
      rw [Option.map_some, if_neg other]

private theorem concat_keyless (sound : p.IsSound) (keyless : r.key? = none) :
    IsSound { p with kept := p.kept ++ [r] } := by
  intro key place
  rw [sound key place]
  refine exists_congr fun k => ?_
  rw [getElem?_concat_eq_some_iff]
  constructor
  · rintro ⟨there, named⟩
    exact ⟨.inl there, named⟩
  · rintro ⟨there | ⟨-, rfl⟩, named⟩
    · exact ⟨there, named⟩
    · exact absurd (named.symm.trans keyless) (Option.some_ne_none key)

private theorem concat_fresh (sound : p.IsSound) (named : r.key? = some key)
    (fresh : key ∉ keysOf p.kept) :
    IsSound ⟨p.kept ++ [r], p.places.insert key p.kept.length⟩ := by
  intro other place
  simp only [getElem?_concat_eq_some_iff]
  rw [Dictionary.get?_insert]
  by_cases same : other = key
  · subst same
    rw [if_pos rfl, Option.some.injEq]
    constructor
    · rintro rfl
      exact ⟨r, .inr ⟨rfl, rfl⟩, named⟩
    · rintro ⟨k, there | ⟨here, -⟩, also⟩
      · exact absurd (mem_keysOf.mpr ⟨k, List.mem_of_getElem? there, also⟩) fresh
      · exact here.symm
  · rw [if_neg same, sound other place]
    constructor
    · rintro ⟨k, there, also⟩
      exact ⟨k, .inl there, also⟩
    · rintro ⟨k, there | ⟨-, rfl⟩, also⟩
      · exact ⟨k, there, also⟩
      · exact absurd (Option.some.inj (also.symm.trans named)) same

private theorem set (sound : p.IsSound) (named : r.key? = some key)
    (noted : p.places.get? key = some place) :
    IsSound { p with kept := p.kept.set place r } := by
  intro other i
  rw [sound other i]
  obtain ⟨old, there, same⟩ := (sound key place).mp noted
  by_cases here : place = i
  · subst here
    rw [there, List.getElem?_set_self (sound.lt_length noted)]
    simp [same, named]
  · rw [List.getElem?_set_ne here]

private theorem put? (sound : p.IsSound) (r : PutRequest) :
    ∃ q, p.put? r = some q ∧ q.kept = placeRequest p.kept r ∧ q.IsSound := by
  cases named : r.key? with
  | none =>
    refine ⟨{ p with kept := p.kept ++ [r] }, ?_, ?_, sound.concat_keyless named⟩
    · simp only [Placement.put?, named]
    · exact (placeRequest_of_fresh (by simp [named])).symm
  | some key =>
    cases noted : p.places.get? key with
    | none =>
      have fresh := sound.get?_eq_none noted
      refine ⟨⟨p.kept ++ [r], p.places.insert key p.kept.length⟩, ?_, ?_,
        sound.concat_fresh named fresh⟩
      · simp only [Placement.put?, named, noted]
      · refine (placeRequest_of_fresh fun other same => ?_).symm
        rwa [← Option.some.inj (named.symm.trans same)]
    | some place =>
      obtain ⟨old, there, same⟩ := (sound key place).mp noted
      have taken : key ∈ keysOf p.kept :=
        mem_keysOf.mpr ⟨old, List.mem_of_getElem? there, same⟩
      refine ⟨{ p with kept := p.kept.set place r }, ?_, ?_, sound.set named noted⟩
      · simp only [Placement.put?, named, noted, if_pos (sound.lt_length noted)]
      · exact (sound.set_eq_map noted).trans (placeRequest_of_taken named taken).symm

private theorem foldlM (sound : p.IsSound) (requests : List PutRequest) :
    ∃ q, requests.foldlM Placement.put? p = some q ∧
      q.kept = requests.foldl placeRequest p.kept := by
  induction requests generalizing p with
  | nil => exact ⟨p, rfl, rfl⟩
  | cons r rest ih =>
    obtain ⟨next, step, kept, sound⟩ := sound.put? r
    obtain ⟨q, run, result⟩ := ih sound
    refine ⟨q, ?_, ?_⟩
    · rw [List.foldlM_cons, step]
      exact run
    · rw [result, kept, List.foldl_cons]

end Placement.IsSound

private theorem collapseByPlaces?_eq (requests : List PutRequest) :
    collapseByPlaces? requests = some (collapse requests) := by
  obtain ⟨q, run, kept⟩ := Placement.IsSound.empty.foldlM requests
  rw [collapseByPlaces?, run, Option.map_some, kept]
  rfl

/-! ## The whole -/

/-- What collapsing makes of requests: those without a key are kept as they are, of those with one
the last is kept, once, where the first one stood. -/
structure CollapsesTo (requests kept : List PutRequest) : Prop where
  keyless : kept.filter (·.key? = none) = requests.filter (·.key? = none)
  keyed : ∀ key, kept.filter (·.key? = some key) = (lastPut? key requests).toList
  ordered : (leadingPlaces requests).map (newestAt? requests) = kept.map some

/-- Collapsing keeps the last request with each key at the place of the first. The pass that notes
places reaches the same without missing one; requests without repeated keys are left as they are, so
that collapsing again changes nothing; and every table ends up as with all requests. -/
theorem collapse_exact (requests : List PutRequest) :
    CollapsesTo requests (collapse requests) ∧
      collapseByPlaces? requests = some (collapse requests) ∧
      (collapse requests = requests ↔ (keysOf requests).Nodup) ∧
      collapse (collapse requests) = collapse requests ∧
      ∀ contents : Contents, contents.putAll (collapse requests) = contents.putAll requests := by
  refine ⟨⟨?_, ?_, ?_⟩, ?_, ?_, ?_, ?_⟩
  · exact filter_keyless_collapse requests
  · exact fun key => filter_key_collapse key requests
  · exact map_newestAt?_leadingPlaces requests
  · exact collapseByPlaces?_eq requests
  · exact collapse_eq_self_iff
  · exact collapse_eq_self_iff.mpr (collapse_distinct requests).1
  · exact fun contents => contents.putAll_collapse requests

end Intake.Cloud
