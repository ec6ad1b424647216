import Intake.Proofs.Bulk.Run
import Intake.Proofs.Text.Quoted

set_option autoImplicit false

/-!
How chunks that are given up come to light. Each is told in one letter, which is offered to the first
sink and, if that sink refuses it, to the second; what both refuse is spelled out in the log. The
sinks decide about nothing else: the calls and the totals of a run are the same whatever they answer.
-/

namespace Intake.Bulk

open Intake.Text

/-- A letter that was offered to a sink, and why the sink refused it if it did. -/
structure Offer where
  sink : SinkRole
  letter : DeadLetter
  fault : Option Fault

namespace Effect

def offer? : Effect → Option Offer
  | .offered sink letter fault => some ⟨sink, letter, fault⟩
  | _ => none

def offers (effects : List Effect) : List Offer := effects.filterMap offer?

@[simp] theorem offers_nil : offers [] = [] := rfl

@[simp] theorem offers_append (front back : List Effect) :
    offers (front ++ back) = offers front ++ offers back :=
  List.filterMap_append

@[simp] theorem offers_offered (sink : SinkRole) (letter : DeadLetter) (fault : Option Fault)
    (effects : List Effect) :
    offers (.offered sink letter fault :: effects) = ⟨sink, letter, fault⟩ :: offers effects := rfl

@[simp] theorem offers_logged (event : LogEvent) (effects : List Effect) :
    offers (.logged event :: effects) = offers effects := rfl

@[simp] theorem offers_map_logged (events : List LogEvent) : offers (events.map .logged) = [] := by
  simp [offers, offer?]

def offersTo (role : SinkRole) (effects : List Effect) : List Offer :=
  (offers effects).filter fun o => o.sink = role

theorem offersTo_of_offers_nil {effects : List Effect} (role : SinkRole)
    (nothing : offers effects = []) : offersTo role effects = [] := by
  rw [offersTo, nothing, List.filter_nil]

private theorem offersTo_append (role : SinkRole) (front back : List Effect) :
    offersTo role (front ++ back) = offersTo role front ++ offersTo role back := by
  simp [offersTo]

/-- The letters that are reported: every one is offered to the first sink first. -/
def reported (effects : List Effect) : List DeadLetter :=
  (offersTo .primary effects).map Offer.letter

theorem reported_append (front back : List Effect) :
    reported (front ++ back) = reported front ++ reported back := by
  simp [reported, offersTo_append]

end Effect

/-- A sink answers the offers that are made to it one after the other and ends in a state. -/
inductive Sink.Answers {τ : Type} (sink : Sink τ) (role : SinkRole) : τ → List Offer → τ → Prop where
  | nil (state : τ) : sink.Answers role state [] state
  | cons {state last : τ} {letter : DeadLetter} {offers : List Offer}
      (rest : sink.Answers role (sink.report state letter).state offers last) :
      sink.Answers role state (⟨role, letter, (sink.report state letter).fault⟩ :: offers) last

private theorem Sink.Answers.append {τ : Type} {sink : Sink τ} {role : SinkRole}
    {first middle last : τ}
    {front back : List Offer} (before : sink.Answers role first front middle)
    (after : sink.Answers role middle back last) : sink.Answers role first (front ++ back) last := by
  induction before with
  | nil => exact after
  | cons _ ih => exact .cons (ih after)

/-- A request in a log: its item as a dictionary with every name and every value quoted. -/
def ShowsPut (request : PutRequest) (chars : List Char) : Prop :=
  ∃ item, Quoted.Joins '\x7b' '\x7d' Quoted.Pairs request.item.entries item ∧
    chars = "PutRequest \x7b item: ".toList ++ (item ++ " \x7d".toList)

/-- The event about a letter that the first sink refused. -/
structure Complains (event : LogEvent) (letter : DeadLetter) (fault : Fault) : Prop where
  level_eq : event.level = .error
  table : event.fields.lookup "table" = some letter.table
  count : event.fields.lookup "count" = some (toString letter.records.length)
  error : event.fields.lookup "error" = some fault.message

/-- The event about a letter that no sink took. It carries the letter: the key of every item that has
one, and every item with all its attributes, in the order of the letter. -/
structure SpellsOut (event : LogEvent) (letter : DeadLetter) (fault : Fault) : Prop where
  level_eq : event.level = .error
  table : event.fields.lookup "table" = some letter.table
  error : event.fields.lookup "error" = some fault.message
  keys : ∃ shown, event.fields.lookup "keys" = some shown ∧
    Quoted.Joins '[' ']' Quoted.Quotes (letter.records.filterMap fun r => r.item.get? "log_id")
      shown.toList
  records : ∃ shown, event.fields.lookup "records" = some shown ∧
    Quoted.Joins '[' ']' ShowsPut letter.records shown.toList

private theorem readable_showsPut : Quoted.Readable ShowsPut := by
  rintro ⟨⟨entries, _⟩⟩ ⟨⟨entries', _⟩⟩ _ _ x y ⟨item, shows, rfl⟩ ⟨item', shows', rfl⟩ same
  simp only [List.append_assoc, List.append_cancel_left_eq] at same
  have readable : Quoted.Readable (Quoted.Joins '\x7b' '\x7d' Quoted.Pairs) :=
    Quoted.readable_joins Quoted.readable_pairs Quoted.Pairs.head? (by decide) (by decide)
  obtain ⟨rfl, behind⟩ := readable shows shows' same
  exact ⟨rfl, List.append_cancel_left behind⟩

private theorem ShowsPut.head? {request : PutRequest} {chars : List Char}
    (shows : ShowsPut request chars) : chars.head? = some 'P' := by
  obtain ⟨item, -, rfl⟩ := shows
  rfl

/-- The requests of a letter that no sink took can be recovered from the event about it. -/
theorem SpellsOut.records_inj {event : LogEvent} {letter other : DeadLetter} {fault last : Fault}
    (first : SpellsOut event letter fault) (second : SpellsOut event other last) :
    letter.records = other.records := by
  obtain ⟨shown, found, shows⟩ := first.records
  obtain ⟨shown', found', shows'⟩ := second.records
  obtain rfl := Option.some.inj (found.symm.trans found')
  have readable : Quoted.Readable (Quoted.Joins '[' ']' ShowsPut) :=
    Quoted.readable_joins readable_showsPut ShowsPut.head? (by decide) (by decide)
  have same : shown.toList ++ [] = shown.toList ++ [] := rfl
  exact (readable shows shows' same).1

/-- What happens when a letter is reported. What a sink logs on its own stands in front of its
answer. -/
inductive Surfaces (letter : DeadLetter) : List Effect → Prop where
  | taken (log : List LogEvent) :
      Surfaces letter (log.map .logged ++ [.offered .primary letter none])
  | passedOn (log others : List LogEvent) (fault : Fault) (refused : LogEvent)
      (complains : Complains refused letter fault) :
      Surfaces letter (log.map .logged ++ [.offered .primary letter (some fault), .logged refused] ++
        (others.map .logged ++ [.offered .fallback letter none]))
  | spelledOut (log others : List LogEvent) (fault last : Fault) (refused event : LogEvent)
      (complains : Complains refused letter fault) (complete : SpellsOut event letter last) :
      Surfaces letter (log.map .logged ++ [.offered .primary letter (some fault), .logged refused] ++
        (others.map .logged ++ [.offered .fallback letter (some last), .logged event]))

/-- The text of a fault. -/
inductive StoreFault.ReadsAs : StoreFault → String → Prop
  | throttled (detail : String) : ReadsAs ⟨.throttled, detail⟩ ("throttled: " ++ detail)
  | transport (detail : String) : ReadsAs ⟨.transport, detail⟩ ("transport error: " ++ detail)
  | service (detail : String) : ReadsAs ⟨.service, detail⟩ ("service error: " ++ detail)

/-- A letter tells how the calls for a chunk ended. -/
structure Tells (letter : DeadLetter) (table : String) (chunk : List PutRequest)
    (calls : List Exchange) : Prop where
  table_eq : letter.table = table
  attempts_eq : letter.attempts = calls.length
  records_eq : letter.records = leftAfter chunk calls
  /-- Only a last call that failed as a whole has an error. -/
  lastError_eq : letter.lastError =
    (calls.getLast?.bind Exchange.fault?).map StoreFault.message
  lastError_words : ∀ fault ∈ calls.getLast?.bind Exchange.fault?,
    ∃ text, letter.lastError = some text ∧ fault.ReadsAs text

/-- What is reported about a chunk: nothing if it succeeded, and otherwise one letter, behind all its
calls. -/
structure ChunkSurfaces {σ τ υ : Type} (table : String) (r : ChunkRun σ τ υ) : Prop where
  silent : r.run.value.isSuccess = true → Effect.offers r.run.effects = []
  told : r.run.value.isSuccess = false → ∃ letter front back,
    r.run.effects = front ++ back ∧ Effect.offers front = [] ∧ Surfaces letter back ∧
      letter.records = r.run.value.residual ∧
      Tells letter table r.chunk (Effect.exchanges r.run.effects)

/-- What is reported about all chunks of a run. -/
structure RunSurfaces {σ τ υ : Type} (table : String) (runs : List (ChunkRun σ τ υ))
    (summary : Summary) (effects : List Effect) : Prop where
  each : ∀ r ∈ runs, ChunkSurfaces table r
  /-- Nothing is offered but the letters of the chunks, in turn. -/
  offers_eq : Effect.offers effects = runs.flatMap fun r => Effect.offers r.run.effects
  letters_length : (Effect.reported effects).length = summary.exhaustedChunks
  records_sum : ((Effect.reported effects).map fun l => l.records.length).sum = summary.failed

variable {σ τ υ : Type} {table : String}

theorem Surfaces.reported_eq {letter : DeadLetter} {effects : List Effect}
    (surfaces : Surfaces letter effects) : Effect.reported effects = [letter] := by
  cases surfaces <;> simp [Effect.reported, Effect.offersTo]

private theorem StoreFault.readsAs_message : ∀ fault : StoreFault, fault.ReadsAs fault.message
  | ⟨.throttled, detail⟩ => .throttled detail
  | ⟨.transport, detail⟩ => .transport detail
  | ⟨.service, detail⟩ => .service detail

private theorem Exchange.fault?_of_isComplete {e : Exchange} (complete : e.IsComplete) :
    e.fault? = none := by
  obtain ⟨reply, answered, -⟩ := complete
  simp only [fault?, answered]

namespace Delivers

variable {store : Store σ} {policy : RetryPolicy} {n accepted : Nat} {pending : List PutRequest}
  {state : σ} {d : Delivery σ}

theorem offers_eq_nil (h : Delivers store policy table n accepted pending state d) :
    Effect.offers d.effects = [] := by
  induction h with
  | done _ => rfl
  | spent _ _ _ => rfl
  | again _ _ _ _ ih =>
    simp only [Delivery.after, Effect.offers_append, ih]
    rfl

private theorem exchanges_ne_nil (h : Delivers store policy table n accepted pending state d) :
    Effect.exchanges d.effects ≠ [] := by
  cases h with
  | done _ => exact List.cons_ne_nil _ _
  | spent _ _ _ => exact List.cons_ne_nil _ _
  | again _ _ _ _ =>
    rw [exchanges_after]
    exact List.cons_ne_nil _ _

private theorem lastFault_eq (h : Delivers store policy table n accepted pending state d) :
    d.lastFault = (Effect.exchanges d.effects).getLast?.bind Exchange.fault? := by
  induction h with
  | done complete => exact (Exchange.fault?_of_isComplete complete).symm
  | spent _ _ _ => rfl
  | again _ _ _ rest ih =>
    obtain ⟨call, others, calls⟩ := List.exists_cons_of_ne_nil rest.exchanges_ne_nil
    rw [exchanges_after, calls, List.getLast?_cons_cons, ← calls]
    exact ih

end Delivers

namespace Writer

def SinksAnswer (w : Writer σ τ υ) (first : Places σ τ υ) (effects : List Effect)
    (last : Places σ τ υ) : Prop :=
  w.primary.Answers .primary first.primary (Effect.offersTo .primary effects) last.primary ∧
    w.fallback.Answers .fallback first.fallback (Effect.offersTo .fallback effects) last.fallback

private theorem SinksAnswer.append {w : Writer σ τ υ} {first middle last : Places σ τ υ}
    {front back : List Effect} (before : w.SinksAnswer first front middle)
    (after : w.SinksAnswer middle back last) : w.SinksAnswer first (front ++ back) last := by
  unfold SinksAnswer
  rw [Effect.offersTo_append, Effect.offersTo_append]
  exact ⟨before.1.append after.1, before.2.append after.2⟩

private theorem sinksAnswer_of_offers_nil (w : Writer σ τ υ) (places : Places σ τ υ) (state : σ)
    {effects : List Effect} (nothing : Effect.offers effects = []) :
    w.SinksAnswer places effects { places with store := state } := by
  unfold SinksAnswer
  rw [Effect.offersTo_of_offers_nil _ nothing, Effect.offersTo_of_offers_nil _ nothing]
  exact ⟨.nil _, .nil _⟩

def refusal (letter : DeadLetter) (fault : Fault) : LogEvent :=
  ⟨.error, "Failed to report dead letter, using fallback sink",
    [("table", letter.table), ("count", Digits.text letter.records.length),
      ("error", fault.message)]⟩

def unreported (letter : DeadLetter) (fault : Fault) : LogEvent :=
  ⟨.error, "Fallback dead-letter sink failed",
    [("table", letter.table), ("error", fault.message),
      ("keys", Quoted.list Quoted.quote letter.keys),
      ("records", Quoted.list PutRequest.shown letter.records)]⟩

private theorem complains_refusal (letter : DeadLetter) (fault : Fault) :
    Complains (refusal letter fault) letter fault where
  level_eq := rfl
  table := rfl
  count := congrArg some (Digits.text_eq_toString letter.records.length)
  error := rfl

private theorem showsPut_shown (request : PutRequest) : ShowsPut request request.shown.toList := by
  refine ⟨_, Quoted.joins_dictionary request.item.entries, ?_⟩
  rw [PutRequest.shown, Quoted.record]
  simp [String.toList_append]

private theorem spellsOut_unreported (letter : DeadLetter) (fault : Fault) :
    SpellsOut (unreported letter fault) letter fault where
  level_eq := rfl
  table := rfl
  error := rfl
  keys := ⟨_, rfl, Quoted.joins_list Quoted.quotes_quote letter.keys⟩
  records := ⟨_, rfl, Quoted.joins_list showsPut_shown letter.records⟩

section Report

variable (w : Writer σ τ υ) {letter : DeadLetter} {places : Places σ τ υ}

private theorem report_of_taken (first : (w.primary.report places.primary letter).fault = none) :
    w.report letter places =
      ((w.primary.report places.primary letter).log.map .logged ++ [.offered .primary letter none],
        { places with primary := (w.primary.report places.primary letter).state }) := by
  unfold report
  simp only [first]

private theorem report_of_refused {fault : Fault}
    (first : (w.primary.report places.primary letter).fault = some fault) :
    w.report letter places =
      ((w.primary.report places.primary letter).log.map .logged ++
          [.offered .primary letter (some fault), .logged (refusal letter fault)] ++
        ((w.fallback.report places.fallback letter).log.map .logged ++
          .offered .fallback letter (w.fallback.report places.fallback letter).fault ::
            ((w.fallback.report places.fallback letter).fault.map fun last =>
              Effect.logged (unreported letter last)).toList),
        { places with
          primary := (w.primary.report places.primary letter).state
          fallback := (w.fallback.report places.fallback letter).state }) := by
  unfold report
  simp only [first, List.append_assoc, List.cons_append, List.nil_append, refusal]
  cases (w.fallback.report places.fallback letter).fault <;> rfl

variable (letter places)

theorem surfaces_report : Surfaces letter (w.report letter places).1 := by
  cases first : (w.primary.report places.primary letter).fault with
  | none =>
    rw [w.report_of_taken first]
    exact .taken _
  | some fault =>
    rw [w.report_of_refused first]
    cases (w.fallback.report places.fallback letter).fault with
    | none => exact .passedOn _ _ fault _ (complains_refusal letter fault)
    | some last =>
      exact .spelledOut _ _ fault last _ _ (complains_refusal letter fault)
        (spellsOut_unreported letter last)

private theorem sinksAnswer_report :
    w.SinksAnswer places (w.report letter places).1 (w.report letter places).2 := by
  have asked : w.primary.Answers .primary places.primary
      [⟨.primary, letter, (w.primary.report places.primary letter).fault⟩]
      (w.primary.report places.primary letter).state := .cons (.nil _)
  have askedToo : w.fallback.Answers .fallback places.fallback
      [⟨.fallback, letter, (w.fallback.report places.fallback letter).fault⟩]
      (w.fallback.report places.fallback letter).state := .cons (.nil _)
  cases first : (w.primary.report places.primary letter).fault with
  | none =>
    rw [first] at asked
    rw [w.report_of_taken first]
    constructor
    · simpa [Effect.offersTo] using asked
    · have untouched : w.fallback.Answers .fallback places.fallback [] places.fallback := .nil _
      simpa [Effect.offersTo] using untouched
  | some fault =>
    rw [first] at asked
    rw [w.report_of_refused first]
    have quiet : Effect.offers ((w.fallback.report places.fallback letter).fault.map fun last =>
        Effect.logged (unreported letter last)).toList = [] := by
      cases (w.fallback.report places.fallback letter).fault <;> rfl
    constructor
    · simpa [Effect.offersTo, quiet] using asked
    · simpa [Effect.offersTo, quiet] using askedToo

end Report

theorem surfaces_of_writeChunk {w : Writer σ τ υ} (representable : w.policy.IsRepresentable)
    {r : ChunkRun σ τ υ} (nonempty : r.chunk ≠ []) {places : Places σ τ υ}
    (written : w.writeChunk table r.chunk places = some r.run) : ChunkSurfaces table r := by
  obtain ⟨d, delivers, concluded⟩ := delivers_of_writeChunk representable nonempty written
  have outcome : r.run.value = d.outcome := by rw [← concluded, value_conclude]
  have calls : Effect.exchanges r.run.effects = Effect.exchanges d.effects := by
    rw [← concluded, exchanges_conclude]
  have attempts := delivers.attempts_eq
  have residual := delivers.residual_eq
  constructor
  · intro success
    rw [outcome] at success
    cases ended : d.outcome with
    | success attempts accepted =>
      rw [← concluded, conclude, letter?, ended]
      exact delivers.offers_eq_nil
    | exhausted attempts accepted residual =>
      rw [ended] at success
      exact absurd success.symm Bool.false_ne_true.symm
  · intro given
    rw [outcome] at given
    cases ended : d.outcome with
    | success attempts accepted =>
      rw [ended] at given
      exact absurd given.symm Bool.false_ne_true
    | exhausted count accepted left =>
      rw [ended] at attempts residual
      let letter : DeadLetter :=
        ⟨table, count, w.stamp, d.lastFault.map StoreFault.message, left⟩
      have reported : r.run.effects =
          d.effects ++ (w.report letter { places with store := d.store }).1 := by
        rw [← concluded, conclude, letter?, ended]
      have tells : Tells letter table r.chunk (Effect.exchanges r.run.effects) := by
        rw [calls]
        exact
          { table_eq := rfl
            attempts_eq := attempts.trans (Nat.zero_add _)
            records_eq := residual
            lastError_eq := congrArg (Option.map StoreFault.message) delivers.lastFault_eq
            lastError_words := by
              intro fault last
              rw [← delivers.lastFault_eq] at last
              exact ⟨fault.message, congrArg (Option.map StoreFault.message) last,
                fault.readsAs_message⟩ }
      refine ⟨letter, d.effects, _, reported, delivers.offers_eq_nil, w.surfaces_report _ _, ?_, tells⟩
      rw [outcome, ended]
      rfl

private theorem sinksAnswer_of_writeChunk {w : Writer σ τ υ}
    (representable : w.policy.IsRepresentable)
    {chunk : List PutRequest} (nonempty : chunk ≠ []) {places : Places σ τ υ}
    {run : Run σ τ υ ChunkOutcome} (written : w.writeChunk table chunk places = some run) :
    w.SinksAnswer places run.effects run.places := by
  obtain ⟨d, delivers, rfl⟩ := delivers_of_writeChunk representable nonempty written
  have quiet := w.sinksAnswer_of_offers_nil places d.store delivers.offers_eq_nil
  unfold conclude
  split
  · exact quiet
  · exact quiet.append (w.sinksAnswer_report _ _)

private theorem WritesEach.sinksAnswer {w : Writer σ τ υ} {places last : Places σ τ υ}
    {runs : List (ChunkRun σ τ υ)} (each : w.WritesEach table places runs last)
    (representable : w.policy.IsRepresentable) (nonempty : ∀ r ∈ runs, r.chunk ≠ []) :
    w.SinksAnswer places (runs.flatMap fun r => r.run.effects) last := by
  induction each with
  | nil places => exact ⟨.nil _, .nil _⟩
  | cons first _ ih =>
    obtain ⟨here, behind⟩ := List.forall_mem_cons.mp nonempty
    rw [List.flatMap_cons]
    exact (sinksAnswer_of_writeChunk representable here first).append (ih behind)

end Writer

section Totals

variable {runs : List (ChunkRun σ τ υ)}

private theorem ChunkSurfaces.counts {r : ChunkRun σ τ υ} (surfaces : ChunkSurfaces table r) :
    (Effect.reported r.run.effects).length = (if r.run.value.isSuccess then 0 else 1) ∧
      ((Effect.reported r.run.effects).map fun l => l.records.length).sum =
        r.run.value.residual.length := by
  cases ended : r.run.value.isSuccess with
  | true =>
    have nothing : Effect.reported r.run.effects = [] := by
      rw [Effect.reported, Effect.offersTo_of_offers_nil _ (surfaces.silent ended), List.map_nil]
    rw [nothing, ChunkOutcome.residual_of_isSuccess ended]
    exact ⟨rfl, rfl⟩
  | false =>
    obtain ⟨letter, front, back, cut, before, behind, records, -⟩ := surfaces.told ended
    have one : Effect.reported r.run.effects = [letter] := by
      rw [cut, Effect.reported_append, behind.reported_eq, Effect.reported,
        Effect.offersTo_of_offers_nil _ before]
      rfl
    rw [one, ← records]
    exact ⟨rfl, Nat.add_zero _⟩

private theorem counts_of_surfaces (each : ∀ r ∈ runs, ChunkSurfaces table r) :
    (Effect.reported (runs.flatMap fun r => r.run.effects)).length =
        runs.countP (fun r => !r.run.value.isSuccess) ∧
      ((Effect.reported (runs.flatMap fun r => r.run.effects)).map fun l => l.records.length).sum =
        (runs.map fun r => r.run.value.residual.length).sum := by
  induction runs with
  | nil => exact ⟨rfl, rfl⟩
  | cons r runs ih =>
    obtain ⟨here, others⟩ := List.forall_mem_cons.mp each
    obtain ⟨letters, records⟩ := here.counts
    obtain ⟨letters', records'⟩ := ih others
    rw [List.flatMap_cons, Effect.reported_append]
    constructor
    · rw [List.length_append, letters, letters', List.countP_cons]
      cases r.run.value.isSuccess <;> simp [Nat.add_comm]
    · rw [List.map_append, List.sum_append, records, records', List.map_cons, List.sum_cons]

end Totals

namespace Writer

def withSinks {τ' υ' : Type} (w : Writer σ τ υ) (primary : Sink τ') (fallback : Sink υ') :
    Writer σ τ' υ' where
  store := w.store
  primary := primary
  fallback := fallback
  policy := w.policy
  chunker := w.chunker
  stamp := w.stamp

variable {τ' υ' : Type}

/-- Other sinks leave the delivery of a chunk as it is, and with it its calls and its outcome. -/
theorem writeChunk_withSinks (w : Writer σ τ υ) (primary : Sink τ') (fallback : Sink υ')
    {chunk : List PutRequest} {places : Places σ τ υ} {run : Run σ τ υ ChunkOutcome}
    (written : w.writeChunk table chunk places = some run) (other : Places σ τ' υ')
    (same : other.store = places.store) :
    ∃ run', (w.withSinks primary fallback).writeChunk table chunk other = some run' ∧
      run'.value = run.value ∧ Effect.exchanges run'.effects = Effect.exchanges run.effects ∧
      run'.places.store = run.places.store := by
  unfold writeChunk at written ⊢
  split at written
  next empty =>
    obtain rfl := Option.some.inj written
    rw [if_pos empty]
    exact ⟨_, rfl, rfl, rfl, same⟩
  next nonempty =>
    obtain ⟨d, delivered, concluded⟩ := Option.map_eq_some_iff.mp written
    refine ⟨(w.withSinks primary fallback).conclude table other d, ?_, ?_, ?_, ?_⟩
    · rw [if_neg nonempty, same]
      exact Option.map_eq_some_iff.mpr ⟨d, delivered, rfl⟩
    · rw [← concluded, value_conclude, value_conclude]
    · rw [← concluded, exchanges_conclude, exchanges_conclude]
    · rw [← concluded, store_conclude, store_conclude]

private theorem WritesEach.withSinks {w : Writer σ τ υ} {places last : Places σ τ υ}
    {runs : List (ChunkRun σ τ υ)} (each : w.WritesEach table places runs last)
    (primary : Sink τ') (fallback : Sink υ') (other : Places σ τ' υ')
    (same : other.store = places.store) :
    ∃ runs' last', (w.withSinks primary fallback).WritesEach table other runs' last' ∧
      runs'.map ChunkRun.chunk = runs.map ChunkRun.chunk ∧
      (runs'.map fun r => r.run.value) = (runs.map fun r => r.run.value) ∧
      (runs'.flatMap fun r => Effect.exchanges r.run.effects) =
        runs.flatMap fun r => Effect.exchanges r.run.effects := by
  induction each generalizing other with
  | nil places => exact ⟨[], other, .nil other, rfl, rfl, rfl⟩
  | @cons places last chunk run others first _ ih =>
    obtain ⟨run', written, value, calls, stored⟩ :=
      w.writeChunk_withSinks primary fallback first other same
    obtain ⟨runs', last', rest, chunks, values, exchanges⟩ := ih run'.places stored
    refine ⟨⟨chunk, run'⟩ :: runs', last', .cons written rest, ?_, ?_, ?_⟩
    · rw [List.map_cons, List.map_cons, chunks]
    · rw [List.map_cons, List.map_cons, value, values]
    · rw [List.flatMap_cons, List.flatMap_cons, calls, exchanges]

/-- Every chunk that is given up surfaces in one letter, and no other does; the sinks are asked for
each offer once, and what they answer changes neither the totals nor the calls. -/
theorem write_surfaces (w : Writer σ τ υ) (table : String) (requests : List PutRequest)
    (places : Places σ τ υ) (representable : w.policy.IsRepresentable) :
    ∃ run runs, w.write table requests places = some run ∧
      runs.map ChunkRun.chunk = w.chunker.split requests ∧
      w.WritesEach table places runs run.places ∧
      run.effects = (runs.flatMap fun r => r.run.effects) ++ [.logged (finished table run.value)] ∧
      w.store.Answers places.store (Effect.exchanges run.effects) run.places.store ∧
      w.SinksAnswer places run.effects run.places ∧
      RunSurfaces table runs run.value run.effects ∧
      ∀ {τ' υ' : Type} (primary : Sink τ') (fallback : Sink υ') (first : τ') (second : υ'),
        ∃ run', (w.withSinks primary fallback).write table requests ⟨places.store, first, second⟩ =
            some run' ∧
          run'.value = run.value ∧
          Effect.exchanges run'.effects = Effect.exchanges run.effects := by
  obtain ⟨runs, last, summary, cut, writes, totals, written⟩ :=
    w.exists_write table representable requests places
  have nonempty := nonempty_of_split cut
  have each : ∀ r ∈ runs, ChunkSurfaces table r := by
    intro r member
    obtain ⟨places, first⟩ := writes.written r member
    exact surfaces_of_writeChunk representable (nonempty r member) first
  obtain ⟨letters, records⟩ := counts_of_surfaces each
  have offers : ∀ runs : List (ChunkRun σ τ υ), Effect.offers (runs.flatMap fun r => r.run.effects) =
      runs.flatMap fun r => Effect.offers r.run.effects := by
    intro runs
    rw [Effect.offers, List.filterMap_flatMap]
    rfl
  have given_up : summary.exhaustedChunks = runs.countP fun r => !r.run.value.isSuccess := by
    rw [totals]
    exact List.countP_map
  have failed : summary.failed = (runs.map fun r => r.run.value.residual.length).sum := by
    rw [totals]
    exact congrArg List.sum List.map_map
  refine ⟨_, runs, written, cut, writes, rfl, ?_, ?_, ?_, ?_⟩
  · rw [Effect.exchanges_append, WritesEach.exchanges_flatMap]
    simpa using writes.answers representable nonempty
  · exact (writes.sinksAnswer representable nonempty).append
      (w.sinksAnswer_of_offers_nil last last.store rfl)
  · have quiet : Effect.reported ((runs.flatMap fun r => r.run.effects) ++
        [.logged (finished table summary)]) =
          Effect.reported (runs.flatMap fun r => r.run.effects) := by
      rw [Effect.reported_append]
      exact List.append_nil _
    refine
      { each := each
        offers_eq := ?_
        letters_length := ?_
        records_sum := ?_ }
    · rw [Effect.offers_append, offers]
      exact List.append_nil _
    · rw [quiet, letters, given_up]
    · rw [quiet, records, failed]
  · intro τ' υ' primary fallback first second
    -- The totals are a function of the outcomes, and these do not change with the sinks.
    obtain ⟨runs', last', writes', chunks, values, calls⟩ :=
      writes.withSinks primary fallback ⟨places.store, first, second⟩ rfl
    have again := writeChunks_eq writes' requests.length []
    rw [List.nil_append, chunks, values, cut, ← totals] at again
    refine ⟨_, congrArg (Option.map _) again, rfl, ?_⟩
    simp only [Effect.exchanges_append, WritesEach.exchanges_flatMap, calls]

end Writer

/-- A store that refuses its first four calls for a chunk and then leaves everything. -/
def Store.stubborn : Store Nat where
  write calls table requests :=
    (if calls % 5 < 4 then .error ⟨.transport, "reset"⟩ else .ok (.ofUnprocessed table requests),
      calls + 1)

def unheardWriter : Writer Nat (List DeadLetter) (List DeadLetter) where
  store := .stubborn
  primary := .memory (some "disk full")
  fallback := .memory (some "closed")
  stamp := ⟨0, 0⟩

/-- Two requests that no call takes, and two sinks that take no letter. -/
theorem write_surfaces_unheard :
    RetryPolicy.standard.IsRepresentable ∧
      ∃ run runs, unheardWriter.write "audit" [.ofKey "a", .ofKey "b"] ⟨0, [], []⟩ = some run ∧
        runs.map ChunkRun.chunk = unheardWriter.chunker.split [.ofKey "a", .ofKey "b"] ∧
        unheardWriter.WritesEach "audit" ⟨0, [], []⟩ runs run.places ∧
        Store.stubborn.Answers 0 (Effect.exchanges run.effects) run.places.store ∧
        unheardWriter.SinksAnswer ⟨0, [], []⟩ run.effects run.places ∧
        RunSurfaces "audit" runs run.value run.effects ∧
        run.value = ⟨1, 2, 0, 2, 1⟩ ∧
        Effect.reported run.effects =
          [⟨"audit", 5, ⟨0, 0⟩, none, [.ofKey "a", .ofKey "b"]⟩] ∧
        (Effect.log run.effects).filter (fun event => event.level = .error) =
          [⟨.error, "Failed to report dead letter, using fallback sink",
              [("table", "audit"), ("count", "2"), ("error", "IO error: disk full")]⟩,
            ⟨.error, "Fallback dead-letter sink failed",
              [("table", "audit"), ("error", "IO error: closed"), ("keys", "[\"a\", \"b\"]"),
                ("records", "[PutRequest \x7b item: \x7b\"log_id\": \"a\"\x7d \x7d, PutRequest " ++
                  "\x7b item: \x7b\"log_id\": \"b\"\x7d \x7d]")]⟩] := by
  obtain ⟨run, runs, written, cut, writes, -, called, asked, surfaces, -⟩ :=
    unheardWriter.write_surfaces "audit" [.ofKey "a", .ofKey "b"] ⟨0, [], []⟩
      RetryPolicy.standard_isRepresentable
  refine ⟨RetryPolicy.standard_isRepresentable, run, runs, written, cut, writes, called, asked,
    surfaces, ?_, ?_, ?_⟩
  · exact eq_of_map written Run.value (by decide +kernel)
  · exact eq_of_map written (fun run => Effect.reported run.effects) (by decide +kernel)
  · refine eq_of_map written
      (fun run => (Effect.log run.effects).filter fun event => event.level = .error) ?_
    decide +kernel

end Intake.Bulk
