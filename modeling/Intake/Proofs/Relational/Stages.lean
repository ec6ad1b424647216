import Intake.Proofs.ObjectFile.Decoding
import Intake.Proofs.Relational.Login
import Intake.Proofs.Relational.Protocol
import Intake.Relational.Pipeline

set_option autoImplicit false

/-!
The stages of a notification. The object is fetched, decoded, the secret resolved, and a session opened,
one after the other, and each only if all before it came out well: up to the session nothing is asked of
a place twice, and nothing is written of a file that is not sound as a whole.
-/

namespace Intake.Relational

open Intake.Sql Intake.ObjectFile

def Answered.effect (a : Answered) : Effect := .called a.call a.fault

namespace Effect

def isContact : Effect → Bool
  | .logged _ => false
  | _ => true

/-- What is asked of the places around, in order. -/
def contacts (effects : List Effect) : List Effect := effects.filter isContact

@[simp] theorem contacts_nil : contacts [] = [] := rfl

@[simp] private theorem contacts_append (front back : List Effect) :
    contacts (front ++ back) = contacts front ++ contacts back :=
  List.filter_append front back

@[simp] theorem contacts_logged (event : LogEvent) (effects : List Effect) :
    contacts (.logged event :: effects) = contacts effects := rfl

@[simp] theorem contacts_fetched (l : Location) (effects : List Effect) :
    contacts (.fetched l :: effects) = .fetched l :: contacts effects := rfl

@[simp] theorem contacts_resolved (secretId : String) (effects : List Effect) :
    contacts (.resolved secretId :: effects) = .resolved secretId :: contacts effects := rfl

end Effect

namespace Run

variable {σ α β : Type}

@[simp] private theorem contacts_andThen (r : Run σ α) (next : α → σ → Run σ β) :
    Effect.contacts (r.andThen next).effects =
      Effect.contacts r.effects ++ Effect.contacts (next r.value r.state).effects :=
  Effect.contacts_append _ _

@[simp] theorem contacts_after (effects : List Effect) (r : Run σ α) :
    Effect.contacts (r.after effects).effects =
      Effect.contacts effects ++ Effect.contacts r.effects :=
  Effect.contacts_append _ _

def OnlyCalls (r : Run σ α) : Prop :=
  Effect.contacts r.effects = (Effect.answered r.effects).map Answered.effect

private theorem OnlyCalls.andThen {r : Run σ α} {next : α → σ → Run σ β} (here : r.OnlyCalls)
    (behind : (next r.value r.state).OnlyCalls) : (r.andThen next).OnlyCalls := by
  unfold OnlyCalls at *
  rw [contacts_andThen, answered_andThen, List.map_append, here, behind]

private theorem onlyCalls_of_log {value : α} {effects : List Effect} {state : σ}
    (silent : ∀ e ∈ effects, ∃ event, e = .logged event) :
    (⟨value, effects, state⟩ : Run σ α).OnlyCalls := by
  unfold OnlyCalls
  simp only
  induction effects with
  | nil => rfl
  | cons e effects ih =>
    obtain ⟨⟨event, rfl⟩, others⟩ := List.forall_mem_cons.mp silent
    exact ih others

end Run

namespace RowWriter

variable {σ : Type} (w : RowWriter σ)

private theorem onlyCalls_call (call : Call) (state : σ) : (w.call call state).OnlyCalls := rfl

private theorem onlyCalls_undo (row : Transaction) (cause : Fault) (state : σ) :
    (w.undo row cause state).OnlyCalls := by
  apply (w.onlyCalls_call .rollback state).andThen
  apply Run.onlyCalls_of_log
  simp

private theorem onlyCalls_writeRow (row : Transaction) (state : σ) :
    (w.writeRow row state).OnlyCalls := by
  refine (w.onlyCalls_call .begin state).andThen ?_
  split
  · rfl
  · refine (w.onlyCalls_call _ _).andThen ?_
    split
    · exact w.onlyCalls_call .commit _
    · exact w.onlyCalls_undo row _ _

private theorem onlyCalls_abandon (rows : List Transaction) (cause : Fault) (state : σ) :
    (abandon rows cause state).OnlyCalls := by
  unfold abandon Run.OnlyCalls
  split <;> rfl

private theorem onlyCalls_writeRows (rows : List Transaction) (state : σ) :
    (w.writeRows rows state).OnlyCalls := by
  induction rows generalizing state with
  | nil => rfl
  | cons row rows ih =>
    rw [writeRows]
    refine (w.onlyCalls_writeRow row state).andThen ?_
    split
    · exact (ih _).andThen rfl
    next cause _ =>
      refine Run.OnlyCalls.andThen ?_ rfl
      by_cases ends : cause.endsSession = true
      · rw [if_pos ends]
        exact onlyCalls_abandon rows cause _
      · rw [if_neg ends]
        exact ih _

private theorem onlyCalls_close (state : σ) : (w.close state).OnlyCalls := by
  apply (w.onlyCalls_call .close state).andThen
  apply Run.onlyCalls_of_log
  simp

private theorem onlyCalls_write (config : ConnectionConfig) (rows : List Transaction) (state : σ) :
    (w.write config rows state).OnlyCalls := by
  refine (w.onlyCalls_call (.connect config) state).andThen ?_
  split
  · rfl
  · refine (w.onlyCalls_writeRows rows _).andThen ?_
    exact (w.onlyCalls_close _).andThen rfl

private theorem ne_connect_of_rowGroup {statement : String} {row : Transaction}
    {calls : List Answered} {fault : Option Fault} (group : RowGroup statement row calls fault) :
    ∀ a ∈ calls, ∀ config, a.call ≠ .connect config := by
  cases group with
  | refused cause => simp
  | undone cause refusal => simp
  | ended fault => simp

private theorem write_cases (config : ConnectionConfig) (rows : List Transaction) (state : σ) :
    (∃ cause, (w.write config rows state).value = .error (.connect cause) ∧
      Effect.contacts (w.write config rows state).effects =
        [.called (.connect config) (some cause)]) ∨
    ∃ (outcome : RowsOutcome) (calls : List Answered),
      (w.write config rows state).value = .ok outcome ∧
      Effect.contacts (w.write config rows state).effects =
        .called (.connect config) none :: calls.map Answered.effect ∧
      ∀ a ∈ calls, ∀ other, a.call ≠ .connect other := by
  obtain ⟨-, refuses, accepts⟩ := w.write_protocol config rows state
  have only := w.onlyCalls_write config rows state
  cases opened : (w.database.answer state (.connect config)).1 with
  | some cause =>
    obtain ⟨value, answered⟩ := refuses cause opened
    refine .inl ⟨cause, value, ?_⟩
    rw [only, answered]
    rfl
  | none =>
    obtain ⟨outcome, attempts, remaining, refusal, value, answered, account⟩ := accepts opened
    refine .inr ⟨outcome, attempts.flatMap Attempt.calls ++ [⟨.close, refusal⟩], value, ?_, ?_⟩
    · rw [only, answered]
      rfl
    · intro a there
      rcases List.mem_append.mp there with inGroup | last
      · obtain ⟨attempt, member, inside⟩ := List.mem_flatMap.mp inGroup
        exact ne_connect_of_rowGroup (account.group attempt member) a inside
      · obtain rfl := List.mem_singleton.mp last
        simp

end RowWriter

/-- The host and the login are those of a secret, everything else is the target's. -/
structure IsConfig (t : Target) (login : Credentials) (config : ConnectionConfig) : Prop where
  host : config.host = login.host
  user : config.user = login.username
  password : config.password = login.password
  database : config.database = t.database
  port : config.port = t.port
  timeout : config.timeoutMilliseconds = t.timeoutMilliseconds
  application : config.applicationName = some "ledgerflow"

private theorem isConfig_iff {t : Target} {login : Credentials} {config : ConnectionConfig} :
    IsConfig t login config ↔ config = t.config login := by
  constructor
  · rintro ⟨host, user, password, database, port, timeout, application⟩
    cases config
    simp_all [Target.config]
  · rintro rfl
    exact ⟨rfl, rfl, rfl, rfl, rfl, rfl, rfl⟩

namespace Pipeline

variable {σ : Type}

/-- Everything in front of the session comes out well, and the writer is given these rows and this
configuration. -/
structure HandsOver (p : Pipeline σ) (n : Notification) (l : Location) (rows : List Transaction)
    (config : ConnectionConfig) : Prop where
  location : n.location = .ok l
  decoded : ∃ bytes, p.sources.object l = .ok bytes ∧ Decodes bytes (.ok rows)
  reached : ∃ secret login, p.sources.secret p.target.secretId = .ok secret ∧
    Credentials.ofSecret secret = .ok login ∧ IsConfig p.target login config ∧
    ∀ before o after, secret = secretOf before o after → IsLogin o login

/-- How a notification can end, with all that is asked of the places around up to there, the result,
and what has become of the database. -/
inductive Processed (p : Pipeline σ) (n : Notification) (state : σ) :
    List Effect → Except PipelineFault RowsOutcome → σ → Prop where
  | unnamed {fault : EventFault} (names : n.location = .error fault) :
      Processed p n state [] (.error (.event fault)) state
  | unfetched {l : Location} {fault : SourceFault} (names : n.location = .ok l)
      (missing : p.sources.object l = .error fault) :
      Processed p n state [.fetched l] (.error (.objectFetch fault)) state
  | undecoded {l : Location} {bytes : List UInt8} {fault : DecodeFault} (names : n.location = .ok l)
      (fetched : p.sources.object l = .ok bytes) (decoded : Decodes bytes (.error fault)) :
      Processed p n state [.fetched l] (.error (.decode fault)) state
  | unresolved {l : Location} {bytes : List UInt8} {rows : List Transaction} {fault : SourceFault}
      (names : n.location = .ok l) (fetched : p.sources.object l = .ok bytes)
      (decoded : Decodes bytes (.ok rows)) (missing : p.sources.secret p.target.secretId = .error fault) :
      Processed p n state [.fetched l, .resolved p.target.secretId] (.error (.secret fault)) state
  | noLogin {l : Location} {bytes : List UInt8} {rows : List Transaction} {secret : String}
      {fault : SourceFault} (names : n.location = .ok l) (fetched : p.sources.object l = .ok bytes)
      (decoded : Decodes bytes (.ok rows)) (resolved : p.sources.secret p.target.secretId = .ok secret)
      (unread : Credentials.ofSecret secret = .error fault) :
      Processed p n state [.fetched l, .resolved p.target.secretId] (.error (.secret fault)) state
  | refused {l : Location} {rows : List Transaction} {config : ConnectionConfig} {cause : Fault}
      (hands : p.HandsOver n l rows config)
      (written : (p.writer.write config rows state).value = .error (.connect cause)) :
      Processed p n state
        [.fetched l, .resolved p.target.secretId, .called (.connect config) (some cause)]
        (.error (.database (.connect cause))) (p.writer.write config rows state).state
  | written {l : Location} {rows : List Transaction} {config : ConnectionConfig}
      {outcome : RowsOutcome} {calls : List Answered} (hands : p.HandsOver n l rows config)
      (written : (p.writer.write config rows state).value = .ok outcome)
      (once : ∀ a ∈ calls, ∀ other, a.call ≠ .connect other) :
      Processed p n state
        (.fetched l :: .resolved p.target.secretId :: .called (.connect config) none ::
          calls.map Answered.effect)
        (.ok outcome) (p.writer.write config rows state).state

private theorem Processed.of_ok {p : Pipeline σ} {n : Notification} {state last : σ}
    {asked : List Effect}
    {outcome : RowsOutcome} (processed : p.Processed n state asked (.ok outcome) last) :
    ∃ l rows config, p.HandsOver n l rows config ∧
      (p.writer.write config rows state).value = .ok outcome := by
  cases processed with
  | written hands written once => exact ⟨_, _, _, hands, written⟩

variable (p : Pipeline σ) (n : Notification)

/-- What is found out in front of a session: a plan, all of whose parts come out well, or the first
fault. -/
theorem plan_cases (state : σ) :
    (∃ fault, (p.plan n).1 = .error fault ∧
      p.Processed n state (Effect.contacts (p.plan n).2) (.error fault) state) ∨
    ∃ l rows config, (p.plan n).1 = .ok ⟨l, rows, config⟩ ∧ p.HandsOver n l rows config ∧
      Effect.contacts (p.plan n).2 = [.fetched l, .resolved p.target.secretId] := by
  unfold plan
  cases names : n.location with
  | error fault => exact .inl ⟨_, rfl, .unnamed names⟩
  | ok l =>
    cases fetched : p.sources.object l with
    | error fault =>
      simp only [fetched]
      exact .inl ⟨_, rfl, .unfetched names fetched⟩
    | ok bytes =>
      have decodes := Transaction.decodes_decodeFile bytes
      cases decoded : Transaction.decodeFile bytes with
      | error fault =>
        simp only [fetched, decoded]
        rw [decoded] at decodes
        exact .inl ⟨_, rfl, .undecoded names fetched decodes⟩
      | ok rows =>
        rw [decoded] at decodes
        cases resolved : p.sources.secret p.target.secretId with
        | error fault =>
          simp only [fetched, decoded]
          exact .inl ⟨_, rfl, .unresolved names fetched decodes resolved⟩
        | ok secret =>
          cases read : Credentials.ofSecret secret with
          | error fault =>
            simp only [fetched, decoded, read]
            exact .inl ⟨_, rfl, .noLogin names fetched decodes resolved read⟩
          | ok login =>
            simp only [fetched, decoded, read]
            refine .inr ⟨l, rows, p.target.config login, rfl, ⟨names, ⟨bytes, fetched, decodes⟩, ?_⟩, rfl⟩
            refine ⟨secret, login, resolved, read, isConfig_iff.mpr rfl, ?_⟩
            rintro before o after rfl
            exact (Credentials.ofSecret_eq_ok_iff before o after login).mp read

private theorem process_of_error {fault : PipelineFault} (failed : (p.plan n).1 = .error fault)
    (state : σ) : p.process n state = ⟨.error fault, (p.plan n).2, state⟩ := by
  unfold process
  cases planned : p.plan n with
  | mk result effects =>
    rw [planned] at failed
    obtain rfl : result = .error fault := failed
    rfl

private theorem process_of_plan {plan : Plan} (made : (p.plan n).1 = .ok plan) (state : σ) :
    (p.process n state).value =
        (p.writer.write plan.config plan.rows state).value.mapError .database ∧
      Effect.contacts (p.process n state).effects = Effect.contacts (p.plan n).2 ++
        Effect.contacts (p.writer.write plan.config plan.rows state).effects ∧
      (p.process n state).state = (p.writer.write plan.config plan.rows state).state := by
  unfold process
  cases planned : p.plan n with
  | mk result effects =>
    rw [planned] at made
    obtain rfl : result = .ok plan := made
    simp only [Run.andThen, Run.after]
    cases (p.writer.write plan.config plan.rows state).value with
    | error fault => exact ⟨rfl, by simp, rfl⟩
    | ok outcome => exact ⟨rfl, by simp, rfl⟩

private theorem plan_of_handsOver {l : Location} {rows : List Transaction}
    {config : ConnectionConfig} (hands : p.HandsOver n l rows config) :
    (p.plan n).1 = .ok ⟨l, rows, config⟩ ∧
      Effect.contacts (p.plan n).2 = [.fetched l, .resolved p.target.secretId] := by
  obtain ⟨names, ⟨bytes, fetched, decodes⟩, secret, login, resolved, read, reached, -⟩ := hands
  have decoded := Transaction.decodeFile_of_decodes decodes
  rw [isConfig_iff.mp reached]
  unfold plan
  simp only [names, fetched, decoded, resolved, read]
  exact ⟨trivial, rfl⟩

private theorem processed_process (state : σ) :
    p.Processed n state (Effect.contacts (p.process n state).effects) (p.process n state).value
      (p.process n state).state := by
  rcases p.plan_cases n state with ⟨fault, failed, ended⟩ | ⟨l, rows, config, made, hands, asked⟩
  · rw [p.process_of_error n failed]
    exact ended
  · obtain ⟨value, contacts, last⟩ := p.process_of_plan n made state
    rw [value, contacts, last, asked]
    rcases p.writer.write_cases config rows state with
      ⟨cause, refused, calls⟩ | ⟨outcome, calls, written, asked, once⟩
    · rw [calls, refused]
      exact .refused hands refused
    · rw [asked, written]
      exact .written hands written once

private theorem process_of_flawed {l : Location} {bytes : List UInt8} (names : n.location = .ok l)
    (fetched : p.sources.object l = .ok bytes) (flawed : Flawed bytes) (state : σ) :
    ∃ fault, Decodes bytes (.error fault) ∧ (p.process n state).value = .error (.decode fault) ∧
      Effect.contacts (p.process n state).effects = [.fetched l] ∧
      (p.process n state).state = state := by
  obtain ⟨fault, refused⟩ := Transaction.exists_fault_of_flawed flawed
  have decodes := Transaction.decodes_decodeFile bytes
  rw [refused] at decodes
  have failed : p.plan n = (.error (.decode fault), [.logged (loading l), .fetched l]) := by
    unfold plan
    simp only [names, fetched, refused]
  refine ⟨fault, decodes, ?_⟩
  rw [p.process_of_error n (congrArg Prod.fst failed), failed]
  exact ⟨rfl, rfl, rfl⟩

private theorem process_of_handsOver {l : Location} {rows : List Transaction}
    {config : ConnectionConfig} (hands : p.HandsOver n l rows config) (state : σ) :
    (p.process n state).value = (p.writer.write config rows state).value.mapError .database ∧
      Effect.contacts (p.process n state).effects = .fetched l :: .resolved p.target.secretId ::
        Effect.contacts (p.writer.write config rows state).effects := by
  obtain ⟨made, asked⟩ := p.plan_of_handsOver n hands
  obtain ⟨value, contacts, -⟩ := p.process_of_plan n made state
  rw [asked] at contacts
  exact ⟨value, contacts⟩

private theorem handle_cases (state : σ) :
    (∃ outcome, (p.process n state).value = .ok outcome ∧ (p.handle n state).value = none) ∨
    ∃ fault, (p.process n state).value = .error fault ∧
      (p.handle n state).value = some ⟨500, fault.body⟩ := by
  rw [handle, Run.value_andThen]
  cases (p.process n state).value with
  | ok outcome => exact .inl ⟨outcome, rfl, rfl⟩
  | error fault => exact .inr ⟨fault, rfl, rfl⟩

private theorem contacts_handle (state : σ) : Effect.contacts (p.handle n state).effects =
    Effect.contacts (p.process n state).effects := by
  rw [handle, Run.contacts_andThen]
  split <;> exact List.append_nil _

/-- The object is fetched, the secret resolved and a session opened one after the other, each only if
all before it came out well. A file with a flaw is refused as a whole for the first one; otherwise
its rows are written with the login of the secret. There is a response exactly if no rows were
handed to the writer or the writer could not open a session. -/
theorem process_allOrNothing (state : σ) :
    p.Processed n state (Effect.contacts (p.process n state).effects) (p.process n state).value
        (p.process n state).state ∧
      (∀ l bytes, n.location = .ok l → p.sources.object l = .ok bytes → Flawed bytes →
        ∃ fault, Decodes bytes (.error fault) ∧ (p.process n state).value = .error (.decode fault) ∧
          Effect.contacts (p.process n state).effects = [.fetched l] ∧
          (p.process n state).state = state) ∧
      (∀ l rows config, p.HandsOver n l rows config →
        (p.process n state).value = (p.writer.write config rows state).value.mapError .database ∧
          Effect.contacts (p.process n state).effects = .fetched l :: .resolved p.target.secretId ::
            Effect.contacts (p.writer.write config rows state).effects) ∧
      ((p.handle n state).value = none ↔ ∃ l rows config outcome, p.HandsOver n l rows config ∧
        (p.writer.write config rows state).value = .ok outcome) ∧
      (∀ response, (p.handle n state).value = some response → response.statusCode = 500) ∧
      Effect.contacts (p.handle n state).effects = Effect.contacts (p.process n state).effects := by
  have processed := p.processed_process n state
  refine ⟨processed, ?_, ?_, ?_, ?_, p.contacts_handle n state⟩
  · intro l bytes names fetched flawed
    exact p.process_of_flawed n names fetched flawed state
  · intro l rows config hands
    exact p.process_of_handsOver n hands state
  · constructor
    · intro silent
      rcases p.handle_cases n state with ⟨outcome, done, -⟩ | ⟨fault, -, responds⟩
      · rw [done] at processed
        obtain ⟨l, rows, config, hands, written⟩ := processed.of_ok
        exact ⟨l, rows, config, outcome, hands, written⟩
      · simp [responds] at silent
    · rintro ⟨l, rows, config, outcome, hands, written⟩
      have value := (p.process_of_handsOver n hands state).1
      rw [written] at value
      rcases p.handle_cases n state with ⟨-, -, silent⟩ | ⟨fault, failed, -⟩
      · exact silent
      · simp [failed, Except.mapError] at value
  · intro response responds
    rcases p.handle_cases n state with ⟨-, -, silent⟩ | ⟨fault, -, answered⟩
    · simp [silent] at responds
    · rw [← Option.some.inj (answered.symm.trans responds)]

end Pipeline

end Intake.Relational
