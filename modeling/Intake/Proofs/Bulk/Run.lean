import Intake.Proofs.Bulk.Chunking
import Intake.Proofs.Bulk.Conservation

set_option autoImplicit false

/-!
Runs chunk by chunk. Writing many requests is writing their chunks one after the other, each from
the places that the one before left; the totals count the outcomes of the chunks.
-/

namespace Intake.Bulk

structure ChunkRun (σ τ υ : Type) where
  chunk : List PutRequest
  run : Run σ τ υ ChunkOutcome

def Summary.ofOutcomes (submitted : Nat) (outcomes : List ChunkOutcome) : Summary where
  chunks := outcomes.length
  submitted := submitted
  accepted := (outcomes.map ChunkOutcome.accepted).sum
  failed := (outcomes.map fun o => o.residual.length).sum
  exhaustedChunks := outcomes.countP fun o => !o.isSuccess

private theorem Summary.add_ofOutcomes (submitted : Nat) (outcomes : List ChunkOutcome)
    (outcome : ChunkOutcome) :
    (ofOutcomes submitted outcomes).add outcome = ofOutcomes submitted (outcomes ++ [outcome]) := by
  cases outcome <;> simp [ofOutcomes, add, ChunkOutcome.isSuccess]

variable {σ τ υ : Type} {table : String}

namespace Writer

/-- Chunks are written one after the other, from the places before to the places behind them. -/
inductive WritesEach (w : Writer σ τ υ) (table : String) :
    Places σ τ υ → List (ChunkRun σ τ υ) → Places σ τ υ → Prop where
  | nil (places : Places σ τ υ) : w.WritesEach table places [] places
  | cons {places last : Places σ τ υ} {chunk : List PutRequest} {run : Run σ τ υ ChunkOutcome}
      {others : List (ChunkRun σ τ υ)} (first : w.writeChunk table chunk places = some run)
      (rest : w.WritesEach table run.places others last) :
      w.WritesEach table places (⟨chunk, run⟩ :: others) last

private theorem exists_writesEach (w : Writer σ τ υ) (table : String)
    (representable : w.policy.IsRepresentable) {chunks : List (List PutRequest)}
    (nonempty : ∀ chunk ∈ chunks, chunk ≠ []) (places : Places σ τ υ) :
    ∃ runs last, runs.map ChunkRun.chunk = chunks ∧ w.WritesEach table places runs last := by
  induction chunks generalizing places with
  | nil => exact ⟨[], places, rfl, .nil places⟩
  | cons chunk chunks ih =>
    obtain ⟨here, others⟩ := List.forall_mem_cons.mp nonempty
    obtain ⟨d, -, written⟩ := exists_writeChunk w table representable here places
    obtain ⟨runs, last, cut, rest⟩ := ih others (w.conclude table places d).places
    exact ⟨⟨chunk, _⟩ :: runs, last, by rw [List.map_cons, cut], .cons written rest⟩

theorem writeChunks_eq {w : Writer σ τ υ} {places last : Places σ τ υ}
    {runs : List (ChunkRun σ τ υ)} (each : w.WritesEach table places runs last) (submitted : Nat)
    (before : List ChunkOutcome) :
    w.writeChunks table (.ofOutcomes submitted before) places (runs.map ChunkRun.chunk) =
      some ⟨.ofOutcomes submitted (before ++ runs.map fun r => r.run.value),
        runs.flatMap fun r => r.run.effects, last⟩ := by
  induction each generalizing before with
  | nil => simp [writeChunks]
  | cons first _ ih =>
    simp only [List.map_cons, writeChunks, first, Option.bind_eq_bind, Option.bind_some,
      Summary.add_ofOutcomes, ih, List.flatMap_cons, List.append_assoc, List.singleton_append]
    rfl

/-- A run that has all its delays writes the chunks of the list in turn, adds up their outcomes and
says so at the end. -/
theorem exists_write (w : Writer σ τ υ) (table : String)
    (representable : w.policy.IsRepresentable) (requests : List PutRequest)
    (places : Places σ τ υ) :
    ∃ runs last summary, runs.map ChunkRun.chunk = w.chunker.split requests ∧
      w.WritesEach table places runs last ∧
      summary = .ofOutcomes requests.length (runs.map fun r => r.run.value) ∧
      w.write table requests places = some ⟨summary,
        (runs.flatMap fun r => r.run.effects) ++ [.logged (finished table summary)], last⟩ := by
  obtain ⟨runs, last, cut, each⟩ := exists_writesEach w table representable
    (fun _ => w.chunker.ne_nil_of_mem_split) places
  refine ⟨runs, last, _, cut, each, rfl, ?_⟩
  have written := writeChunks_eq each requests.length []
  rw [List.nil_append, cut] at written
  show (w.writeChunks table (.ofOutcomes requests.length []) places
    (w.chunker.split requests)).map _ = _
  rw [written, Option.map_some]

theorem nonempty_of_split {w : Writer σ τ υ} {runs : List (ChunkRun σ τ υ)}
    {requests : List PutRequest} (cut : runs.map ChunkRun.chunk = w.chunker.split requests) :
    ∀ r ∈ runs, r.chunk ≠ [] := by
  intro r member
  exact w.chunker.ne_nil_of_mem_split (cut ▸ List.mem_map_of_mem member)

namespace WritesEach

variable {w : Writer σ τ υ} {places last : Places σ τ υ} {runs : List (ChunkRun σ τ υ)}

theorem exchanges_flatMap (runs : List (ChunkRun σ τ υ)) :
    Effect.exchanges (runs.flatMap fun r => r.run.effects) =
      runs.flatMap fun r => Effect.exchanges r.run.effects := by
  induction runs with
  | nil => rfl
  | cons r runs ih => rw [List.flatMap_cons, List.flatMap_cons, Effect.exchanges_append, ih]

theorem written (each : w.WritesEach table places runs last) :
    ∀ r ∈ runs, ∃ places, w.writeChunk table r.chunk places = some r.run := by
  induction each with
  | nil => simp
  | cons first _ ih => exact List.forall_mem_cons.mpr ⟨⟨_, first⟩, ih⟩

theorem account (each : w.WritesEach table places runs last)
    (representable : w.policy.IsRepresentable) (submitted : w.store.LeavesSubmitted table)
    (nonempty : ∀ r ∈ runs, r.chunk ≠ []) :
    ∀ r ∈ runs, ChunkAccount w.policy table r.chunk (Effect.exchanges r.run.effects)
      r.run.value := by
  intro r member
  obtain ⟨places, first⟩ := each.written r member
  exact (account_of_writeChunk representable submitted (nonempty r member) first).2

theorem answers (each : w.WritesEach table places runs last)
    (representable : w.policy.IsRepresentable) (nonempty : ∀ r ∈ runs, r.chunk ≠ []) :
    w.store.Answers places.store (runs.flatMap fun r => Effect.exchanges r.run.effects)
      last.store := by
  induction each with
  | nil => exact .nil _
  | @cons places last chunk run others first _ ih =>
    obtain ⟨here, behind⟩ := List.forall_mem_cons.mp nonempty
    obtain ⟨d, delivers, rfl⟩ := delivers_of_writeChunk representable here first
    have answered := delivers.answers
    rw [List.flatMap_cons]
    refine Store.Answers.append ?_ (ih behind)
    rwa [exchanges_conclude, store_conclude]

end WritesEach

end Writer

end Intake.Bulk
