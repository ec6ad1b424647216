import Intake.Proofs.Bulk.Surfacing
import Intake.Proofs.Json.Layout

set_option autoImplicit false

/-!
When a run waits. Its calls, its delays and the letters it offers are the beats of a run. Every chunk
keeps the schedule of the policy from its first delay on: one delay directly behind each call that
failed or left something, none behind one that left nothing, and the letter about a chunk that is given
up only when the whole schedule has been waited for.
-/

namespace Intake.Bulk

open Intake.Time

/-- Something in a run that takes its place in time: a call, a delay, or a letter that is offered. -/
inductive Beat where
  | called (call : Exchange)
  | slept (delay : Span)
  | offered (offer : Offer)

def Beat.delay? : Beat → Option Span
  | .slept delay => some delay
  | _ => none

namespace Effect

/-- The beat that an effect is: all but what is logged. -/
def beat? : Effect → Option Beat
  | .submitted table requests answer => some (.called ⟨table, requests, answer⟩)
  | .slept delay => some (.slept delay)
  | .offered sink letter fault => some (.offered ⟨sink, letter, fault⟩)
  | .logged _ => none

def beats (effects : List Effect) : List Beat := effects.filterMap beat?

private theorem delays_eq_filterMap_beats (effects : List Effect) :
    delays effects = (beats effects).filterMap Beat.delay? := by
  rw [beats, List.filterMap_filterMap, delays]
  congr 1
  funext effect
  cases effect <;> rfl

@[simp] private theorem beats_append (front back : List Effect) :
    beats (front ++ back) = beats front ++ beats back :=
  List.filterMap_append

@[simp] theorem beats_logged (event : LogEvent) (effects : List Effect) :
    beats (.logged event :: effects) = beats effects := rfl

@[simp] theorem beats_offered (sink : SinkRole) (letter : DeadLetter) (fault : Option Fault)
    (effects : List Effect) :
    beats (.offered sink letter fault :: effects) = .offered ⟨sink, letter, fault⟩ :: beats effects :=
  rfl

@[simp] theorem beats_nil : beats [] = [] := rfl

@[simp] private theorem beats_map_logged (events : List LogEvent) :
    beats (events.map .logged) = [] := by
  simp [beats, beat?]

end Effect

def paced (calls : List Exchange) (delays : List Span) : List Beat :=
  (calls.zip delays).flatMap fun (call, delay) => [.called call, .slept delay]

@[simp] theorem paced_nil (delays : List Span) : paced [] delays = [] := rfl

@[simp] private theorem paced_cons (call : Exchange) (calls : List Exchange) (delay : Span)
    (delays : List Span) :
    paced (call :: calls) (delay :: delays) = .called call :: .slept delay :: paced calls delays :=
  rfl

private theorem delays_paced (calls : List Exchange) (delays : List Span) :
    (paced calls delays).filterMap Beat.delay? = delays.take calls.length := by
  induction calls generalizing delays with
  | nil => rfl
  | cons call calls ih =>
    cases delays with
    | nil => rfl
    | cons delay delays =>
      rw [List.length_cons, List.take_succ_cons, ← ih]
      rfl

private theorem delays_offers (offers : List Offer) :
    (offers.map Beat.offered).filterMap Beat.delay? = [] := by
  simp [Beat.delay?]

/-- The run of a chunk keeps a schedule, `failed` being its calls that failed or left something. -/
structure Paces {σ τ υ : Type} (schedule : List Span) (failed : List Exchange)
    (r : ChunkRun σ τ υ) : Prop where
  incomplete : ∀ call ∈ failed, ¬ call.IsComplete
  /-- No delay is behind the call that leaves nothing. -/
  succeeded : r.run.value.isSuccess = true → failed.length < schedule.length ∧
    ∃ last, last.IsComplete ∧
      Effect.beats r.run.effects = paced failed schedule ++ [.called last]
  /-- The last delay comes before the letter. -/
  exhausted : r.run.value.isSuccess = false → failed.length = schedule.length ∧
    Effect.offers r.run.effects ≠ [] ∧
      Effect.beats r.run.effects =
        paced failed schedule ++ (Effect.offers r.run.effects).map .offered

/-- What a chunk waits for altogether. -/
structure Waits {σ τ υ : Type} (policy : RetryPolicy) (schedule : List Span)
    (failed : List Exchange) (r : ChunkRun σ τ υ) : Prop where
  delays_eq : Effect.delays r.run.effects = schedule.take failed.length
  exhausted_iff : r.run.value.isSuccess = false ↔ failed.length = policy.maxRetries.toNat
  /-- The sum has no value on either side if it cannot be represented. -/
  sum_exhausted : r.run.value.isSuccess = false →
    Span.sum? (Effect.delays r.run.effects) = policy.total?
  proper_success : r.run.value.isSuccess = true →
    Effect.delays r.run.effects <+: schedule ∧ Effect.delays r.run.effects ≠ schedule

namespace RetryPolicy

/-- A schedule lists the delays of a policy: behind the first failure, behind the second, and so on. -/
structure Schedules (p : RetryPolicy) (schedule : List Span) : Prop where
  schedule_eq : p.schedule? = some schedule
  length_eq : schedule.length = p.maxRetries.toNat
  delay_eq : ∀ (i : Nat) (h : i < schedule.length), p.delay? (i + 1) = some schedule[i]

private theorem schedules_of_eq {p : RetryPolicy} {schedule : List Span}
    (listed : p.schedule? = some schedule) : p.Schedules schedule := by
  have each := Json.mapM_eq_some_iff.mp listed
  have length := each.length_eq
  rw [List.length_range] at length
  refine ⟨listed, length.symm, fun i within => ?_⟩
  have here := each.get (by rw [List.length_range]; omega) within
  simpa using here

private theorem exists_schedules {p : RetryPolicy} (representable : p.IsRepresentable) :
    ∃ schedule, p.Schedules schedule := by
  refine ⟨(List.range p.maxRetries.toNat).map fun i => (p.delay? (i + 1)).getD .zero,
    schedules_of_eq (Json.mapM_eq_some_iff.mpr ?_)⟩
  rw [List.forall₂_map_right_iff, List.forall₂_same]
  intro i there
  have within := List.mem_range.mp there
  obtain ⟨delay, here⟩ := representable (i + 1) (by omega) (by unfold budget; omega)
  rw [here, Option.getD_some]

end RetryPolicy

variable {σ τ υ : Type} {table : String} {policy : RetryPolicy} {schedule : List Span}

/-- Behind `n` failures a delivery keeps what is left of the schedule then. -/
theorem Delivers.paces {store : Store σ} {n accepted : Nat} {pending : List PutRequest} {state : σ}
    {d : Delivery σ} (h : Delivers store policy table n accepted pending state d)
    (schedules : policy.Schedules schedule) (whole : schedule.length = policy.budget)
    (within : n < policy.budget) :
    ∃ failed, (∀ call ∈ failed, ¬ call.IsComplete) ∧
      (d.outcome.isSuccess = true → n + failed.length < schedule.length ∧
        ∃ last, last.IsComplete ∧
          Effect.beats d.effects = paced failed (schedule.drop n) ++ [.called last]) ∧
      (d.outcome.isSuccess = false → n + failed.length = schedule.length ∧
        Effect.beats d.effects = paced failed (schedule.drop n)) := by
  induction h with
  | @done n accepted pending state complete =>
    refine ⟨[], by simp, fun _ => ⟨by simpa [whole] using within, _, complete, rfl⟩, ?_⟩
    exact fun given => absurd given.symm Bool.false_ne_true
  | @spent n accepted pending state delay incomplete waits last =>
    have short : n < schedule.length := by omega
    have due := (schedules.delay_eq n short).symm.trans waits
    refine ⟨[store.call table pending state], by simpa using incomplete, ?_, fun _ => ⟨?_, ?_⟩⟩
    · exact fun success => absurd success Bool.false_ne_true
    · rw [List.length_singleton, last, whole]
    · rw [List.drop_eq_getElem_cons short, Option.some.inj due]
      rfl
  | @again n accepted pending state delay d incomplete waits more _ ih =>
    have short : n < schedule.length := by omega
    have due := Option.some.inj ((schedules.delay_eq n short).symm.trans waits)
    have behind : ∀ failed, paced (store.call table pending state :: failed) (schedule.drop n) =
        .called (store.call table pending state) :: .slept delay ::
          paced failed (schedule.drop (n + 1)) := by
      intro failed
      rw [List.drop_eq_getElem_cons short, due, paced_cons]
    obtain ⟨failed, open_, success, given⟩ := ih more
    refine ⟨_ :: failed, List.forall_mem_cons.mpr ⟨incomplete, open_⟩, fun ended => ?_,
      fun ended => ?_⟩
    · obtain ⟨fewer, last, complete, beats⟩ := success ended
      refine ⟨by simp only [List.length_cons]; omega, last, complete, ?_⟩
      rw [behind, Delivery.after, Effect.beats_append, beats]
      rfl
    · obtain ⟨all, beats⟩ := given ended
      refine ⟨by simp only [List.length_cons]; omega, ?_⟩
      rw [behind, Delivery.after, Effect.beats_append, beats]
      rfl

private theorem Surfaces.beats_eq {letter : DeadLetter} {effects : List Effect}
    (surfaces : Surfaces letter effects) :
    Effect.offers effects ≠ [] ∧
      Effect.beats effects = (Effect.offers effects).map .offered := by
  cases surfaces <;> simp

namespace Paces

variable {failed : List Exchange} {r : ChunkRun σ τ υ}

private theorem waits (paces : Paces schedule failed r) (schedules : policy.Schedules schedule) :
    Waits policy schedule failed r := by
  have delays : Effect.delays r.run.effects = schedule.take failed.length := by
    cases ended : r.run.value.isSuccess with
    | true =>
      obtain ⟨-, last, -, beats⟩ := paces.succeeded ended
      rw [Effect.delays_eq_filterMap_beats, beats, List.filterMap_append, delays_paced]
      exact List.append_nil _
    | false =>
      obtain ⟨-, -, beats⟩ := paces.exhausted ended
      rw [Effect.delays_eq_filterMap_beats, beats, List.filterMap_append, delays_paced, delays_offers,
        List.append_nil]
  refine ⟨delays, ⟨fun ended => ?_, fun all => ?_⟩, fun ended => ?_, fun ended => ?_⟩
  · rw [(paces.exhausted ended).1, schedules.length_eq]
  · by_contra ended
    have fewer := (paces.succeeded (Bool.eq_true_of_not_eq_false ended)).1
    rw [all, schedules.length_eq] at fewer
    exact lt_irrefl _ fewer
  · rw [delays, (paces.exhausted ended).1, List.take_length, RetryPolicy.total?,
      schedules.schedule_eq, Option.bind_some]
  · have fewer := (paces.succeeded ended).1
    rw [delays]
    refine ⟨List.take_prefix _ _, fun all => ?_⟩
    have length := congrArg List.length all
    rw [List.length_take] at length
    omega

end Paces

namespace Writer

private theorem exists_paces_of_writeChunk {w : Writer σ τ υ}
    (representable : w.policy.IsRepresentable)
    (schedules : w.policy.Schedules schedule) (retries : 1 ≤ w.policy.maxRetries.toNat)
    {r : ChunkRun σ τ υ} (nonempty : r.chunk ≠ []) {places : Places σ τ υ}
    (written : w.writeChunk table r.chunk places = some r.run) :
    ∃ failed, Paces schedule failed r := by
  obtain ⟨d, delivers, concluded⟩ := delivers_of_writeChunk representable nonempty written
  have whole : schedule.length = w.policy.budget := by
    rw [schedules.length_eq, RetryPolicy.budget, max_eq_right retries]
  obtain ⟨failed, incomplete, success, given⟩ :=
    delivers.paces schedules whole w.policy.budget_pos
  have outcome : r.run.value = d.outcome := by rw [← concluded, value_conclude]
  rw [Nat.zero_add, List.drop_zero] at success given
  refine ⟨failed, incomplete, fun ended => ?_, fun ended => ?_⟩
  · rw [outcome] at ended
    have told : r.run.effects = d.effects := by
      rw [← concluded, conclude, letter?]
      cases how : d.outcome with
      | success attempts accepted => rfl
      | exhausted attempts accepted residual =>
        rw [how] at ended
        exact absurd ended Bool.false_ne_true
    rw [told]
    exact success ended
  · rw [outcome] at ended
    obtain ⟨letter, told⟩ : ∃ letter, r.run.effects =
        d.effects ++ (w.report letter { places with store := d.store }).1 := by
      rw [← concluded, conclude, letter?]
      cases how : d.outcome with
      | success attempts accepted =>
        rw [how] at ended
        exact absurd ended.symm Bool.false_ne_true
      | exhausted attempts accepted residual => exact ⟨_, rfl⟩
    obtain ⟨offered, beats⟩ := (w.surfaces_report letter { places with store := d.store }).beats_eq
    obtain ⟨all, paced⟩ := given ended
    rw [told, Effect.offers_append, delivers.offers_eq_nil, List.nil_append, Effect.beats_append,
      paced, beats]
    exact ⟨all, offered, rfl⟩

/-- Every chunk of a run waits by the schedule of the policy, from its start on, and the beats of the
run are those of its chunks in turn. -/
theorem write_paces (w : Writer σ τ υ) (table : String) (requests : List PutRequest)
    (places : Places σ τ υ) (representable : w.policy.IsRepresentable)
    (retries : 1 ≤ w.policy.maxRetries.toNat) :
    ∃ run runs schedule, w.write table requests places = some run ∧
      runs.map ChunkRun.chunk = w.chunker.split requests ∧
      w.WritesEach table places runs run.places ∧
      w.policy.Schedules schedule ∧
      Effect.beats run.effects = (runs.flatMap fun r => Effect.beats r.run.effects) ∧
      ∀ r ∈ runs, ∃ failed, Paces schedule failed r ∧ Waits w.policy schedule failed r := by
  obtain ⟨runs, last, summary, cut, each, -, written⟩ :=
    w.exists_write table representable requests places
  obtain ⟨schedule, schedules⟩ := RetryPolicy.exists_schedules representable
  refine ⟨_, runs, schedule, written, cut, each, schedules, ?_, fun r member => ?_⟩
  · rw [Effect.beats_append, Effect.beats, List.filterMap_flatMap]
    exact List.append_nil _
  · obtain ⟨places, first⟩ := each.written r member
    obtain ⟨failed, paces⟩ := exists_paces_of_writeChunk representable schedules retries
      (nonempty_of_split cut r member) first
    exact ⟨failed, paces, paces.waits schedules⟩

end Writer

/-- Two requests that no call takes: the whole schedule of five delays is waited for. -/
theorem write_paces_unheard :
    RetryPolicy.standard.IsRepresentable ∧ 1 ≤ RetryPolicy.standard.maxRetries.toNat ∧
      ∃ run runs schedule, unheardWriter.write "audit" [.ofKey "a", .ofKey "b"] ⟨0, [], []⟩ =
          some run ∧
        unheardWriter.WritesEach "audit" ⟨0, [], []⟩ runs run.places ∧
        runs.map ChunkRun.chunk = unheardWriter.chunker.split [.ofKey "a", .ofKey "b"] ∧
        RetryPolicy.standard.Schedules schedule ∧ schedule.length = 5 ∧
        Effect.beats run.effects = (runs.flatMap fun r => Effect.beats r.run.effects) ∧
        ∀ r ∈ runs, ∃ failed, Paces schedule failed r ∧ Waits .standard schedule failed r := by
  obtain ⟨run, runs, schedule, written, cut, writes, schedules, beats, each⟩ :=
    unheardWriter.write_paces "audit" [.ofKey "a", .ofKey "b"] ⟨0, [], []⟩
      RetryPolicy.standard_isRepresentable (by decide)
  exact ⟨RetryPolicy.standard_isRepresentable, by decide, run, runs, schedule, written,
    writes, cut, schedules, schedules.length_eq, beats, each⟩

end Intake.Bulk
