import Intake.Proofs.Sql.Steps

set_option autoImplicit false

/-!
What becomes of sessions that have ended, in any order of steps. That the server has dropped a session is
noted once for all of them and forgotten when another is opened: until then none can be used, and from
then on every one can that was not closed itself.
-/

namespace Intake.Sql

private theorem droppedAt_ne (key : String) {message : String} (other :
    "server closed the connection while inserting ".toList.take 30 ≠ message.toList.take 30) :
    droppedAt key ≠ .connection message none := by
  intro same
  have texts : "server closed the connection while inserting ".toList ++ key.toList =
      message.toList := by
    rw [← String.toList_append]
    exact congrArg String.toList (Fault.connection.inj same).1
  have front := congrArg (List.take 30) texts
  rw [List.take_append_of_le_length (by decide)] at front
  exact other front

namespace Interleaving

open MemoryDatabase

def caller? (s : Interleaving) : Step → Option Nat
  | .begin name _ | .insert name _ _ => (s.sessions.get? name).map OpenSession.number
  | .stage name _ _ | .commit name | .rollback name =>
    (s.transactions.get? name).map OpenTransaction.session
  | _ => none

/-- The server says that it has closed the session of a call while it inserted a row. -/
def Drops (s : Interleaving) (step : Step) (number : Nat) : Prop :=
  s.caller? step = some number ∧ ∃ key, (s.perform step).1 = .refused (droppedAt key)

/-- A step ends a session: it closes the session, or the server drops it. -/
inductive Ends (s : Interleaving) : Step → Nat → Prop where
  | closed {name : String} {session : OpenSession} (known : s.sessions.get? name = some session) :
      Ends s (.close name) session.number
  | dropped {step : Step} {number : Nat} (drops : s.Drops step number) : Ends s step number

/-- A session has ended in one of the steps. -/
def HasEnded (s : Interleaving) (steps : List Step) (number : Nat) : Prop :=
  ∃ front step back, steps = front ++ step :: back ∧ (s.after front).Ends step number

/-- A session was dropped, and none has been opened since. -/
def DropStands (s : Interleaving) (steps : List Step) : Prop :=
  ∃ front step back, steps = front ++ step :: back ∧
    (∃ number, (s.after front).Drops step number) ∧ ∀ name, .connect name ∉ back

def OnClosed (s : Interleaving) : Step → Prop
  | .begin name _ | .insert name _ _ =>
    ∃ session, s.sessions.get? name = some session ∧ session.closed = true
  | _ => False

/-- A call brings a row at whose key the server drops a session. -/
def AtDroppingKey (s : Interleaving) : Step → Prop
  | .insert _ _ row | .stage _ _ row => ∃ key ∈ row.key?, key ∈ s.database.droppingKeys
  | _ => False

/-- A call fails with a connection fault and leaves the rows as they are. -/
def Fails (s : Interleaving) (step : Step) : Prop :=
  ∃ fault, (s.perform step).1 = .refused fault ∧ fault.category = .connection ∧
    (s.perform step).2.database.rows = s.database.rows

inductive Outcome (s : Interleaving) (step : Step) : StepResult → Interleaving → Prop where
  | closed {next : Interleaving} (on : s.OnClosed step) (same : next.database = s.database) :
      Outcome s step (.refused sessionClosed) next
  | lost {next : Interleaving} (off : ¬ s.OnClosed step) (gone : s.database.lost = true)
      (same : next.database = s.database) : Outcome s step (.refused sessionLost) next
  | dropped {next : Interleaving} {key : String} (off : ¬ s.OnClosed step)
      (live : s.database.lost = false) (drops : s.AtDroppingKey step)
      (same : next.database.rows = s.database.rows) (gone : next.database.lost = true) :
      Outcome s step (.refused (droppedAt key)) next
  | usual {result : StepResult} {next : Interleaving} (off : ¬ s.OnClosed step)
      (live : s.database.lost = false) (stays : ¬ s.AtDroppingKey step)
      (other : ∀ fault, result = .refused fault → fault.category ≠ .connection)
      (goesOn : next.database.lost = false) : Outcome s step result next

section Calls

variable {s next : Interleaving} {step : Step} {result : StepResult} {number : Nat}

private theorem outcome_of_refusal {session : OpenSession} {fault : Fault}
    (on : s.OnClosed step ↔ session.closed = true)
    (refused : s.database.refusal? session.closed = some fault) :
    s.Outcome step (.refused fault) s := by
  unfold refusal? at refused
  split at refused
  next closed =>
    obtain rfl := Option.some.inj refused
    exact .closed (on.mpr closed) rfl
  next isOpen =>
    split at refused
    next gone =>
      obtain rfl := Option.some.inj refused
      exact .lost (mt on.mp isOpen) gone rfl
    next => simp at refused

private theorem closed_of_usable {db : MemoryDatabase} {closed : Bool}
    (usable : db.refusal? closed = none) : closed = false ∧ db.lost = false := by
  cases closed <;> cases lost : db.lost <;> simp [refusal?, lost] at usable ⊢

private theorem not_atDroppingKey {row : Row} {key : String}
    (at_ : s.AtDroppingKey step ↔ ∃ key ∈ row.key?, key ∈ s.database.droppingKeys)
    (named : row.key? = some key) (stays : key ∉ s.database.droppingKeys) :
    ¬ s.AtDroppingKey step := by
  rw [at_, named]
  rintro ⟨_, ⟨⟩, drops⟩
  exact stays drops

private theorem outcome_of_checked {db : MemoryDatabase} {staged : List Row} {statement : String}
    {row : Row} {fault : Fault} (off : ¬ s.OnClosed step)
    (at_ : s.AtDroppingKey step ↔ ∃ key ∈ row.key?, key ∈ s.database.droppingKeys)
    (checked : Checked s.database staged statement row (some fault) db) (same : next.database = db) :
    s.Outcome step (.refused fault) next := by
  cases checked with
  | lost gone => exact .lost off gone same
  | unnamed live keyless =>
    refine .usual off live ?_ ?_ (same ▸ live)
    · rw [at_, keyless]
      simp
    · rintro _ ⟨⟩
      simp [Fault.category]
  | dropped live named drops =>
    rw [named] at at_
    exact .dropped off live (at_.mpr ⟨_, rfl, drops⟩) (same ▸ rfl) (same ▸ rfl)
  | failing live named stays fails =>
    refine .usual off live (not_atDroppingKey at_ named stays) ?_ (same ▸ live)
    rintro _ ⟨⟩
    simp [refusedAt, Fault.category]
  | taken live named stays taken =>
    refine .usual off live (not_atDroppingKey at_ named stays) ?_ (same ▸ live)
    rintro _ ⟨⟩
    simp [takenAt, Fault.category]

private theorem outcome_of_free {db : MemoryDatabase} {staged : List Row} {statement : String}
    {row : Row} (off : ¬ s.OnClosed step)
    (at_ : s.AtDroppingKey step ↔ ∃ key ∈ row.key?, key ∈ s.database.droppingKeys)
    (checked : Checked s.database staged statement row none db)
    (same : next.database.lost = db.lost) : s.Outcome step (.affected 1) next := by
  cases checked with
  | free live named stays free =>
    refine .usual off live (not_atDroppingKey at_ named stays) ?_ (same.trans live)
    rintro _ ⟨⟩

private theorem Performs.outcome (performs : s.Performs step result next)
    (calls : s.caller? step = some number) : s.Outcome step result next := by
  have onClosed {name : String} {session : OpenSession}
      (known : s.sessions.get? name = some session) :
      (∃ other, s.sessions.get? name = some other ∧ other.closed = true) ↔
        session.closed = true := by
    simp [known]
  have off {name : String} {session : OpenSession} (known : s.sessions.get? name = some session)
      (usable : s.database.refusal? session.closed = none) :
      ¬ ∃ other, s.sessions.get? name = some other ∧ other.closed = true := by
    rw [onClosed known, (closed_of_usable usable).1]
    exact Bool.false_ne_true
  cases performs with
  | noSession needs missing =>
    cases step <;> simp_all [caller?, Step.session?]
  | noTransaction needs missing =>
    cases step <;> simp_all [caller?, Step.transaction?]
  | unreachable fails => simp [caller?] at calls
  | connected name works => simp [caller?] at calls
  | closed known => simp [caller?] at calls
  | looked known => simp [caller?] at calls
  | notBegun known refused => exact outcome_of_refusal (onClosed known) refused
  | notReached known refused => exact outcome_of_refusal (onClosed known) refused
  | begun transaction known usable =>
    have live := (closed_of_usable usable).2
    exact .usual (off known usable) live id (fun _ => nofun) live
  | notInserted known usable checked =>
    exact outcome_of_checked (off known usable) .rfl checked rfl
  | inserted known usable checked => exact outcome_of_free (off known usable) .rfl checked rfl
  | notStaged known checked => exact outcome_of_checked id .rfl checked rfl
  | staged known checked => exact outcome_of_free id .rfl checked rfl
  | notCommitted known gone => exact .lost id gone rfl
  | committed known live => exact .usual id live id (fun _ => nofun) live
  | notRolledBack known gone => exact .lost id gone rfl
  | rolledBack known live => exact .usual id live id (fun _ => nofun) live

/-- A call fails as it should on a session that has ended exactly if a drop is noted, or the call is
made on a closed connection, or it brings a dropping key. -/
theorem fails_iff (calls : s.caller? step = some number) :
    s.Fails step ↔ s.database.lost = true ∨ s.OnClosed step ∨ s.AtDroppingKey step := by
  have outcome := (s.performs_perform step).outcome calls
  unfold Fails
  generalize s.perform step = performed at outcome ⊢
  obtain ⟨result, next⟩ := performed
  cases outcome with
  | closed on same => exact iff_of_true ⟨_, rfl, rfl, congrArg _ same⟩ (.inr (.inl on))
  | lost off gone same => exact iff_of_true ⟨_, rfl, rfl, congrArg _ same⟩ (.inl gone)
  | dropped off live drops same gone =>
    exact iff_of_true ⟨_, rfl, rfl, same⟩ (.inr (.inr drops))
  | usual off live stays other goesOn =>
    refine iff_of_false ?_ ?_
    · rintro ⟨fault, refused, connection, -⟩
      exact other fault refused connection
    · simp [live, off, stays]

private theorem refused_lost_iff (calls : s.caller? step = some number) (off : ¬ s.OnClosed step) :
    (s.perform step).1 = .refused sessionLost ↔ s.database.lost = true := by
  have outcome := (s.performs_perform step).outcome calls
  generalize s.perform step = performed at outcome ⊢
  obtain ⟨result, next⟩ := performed
  cases outcome with
  | closed on same => exact absurd on off
  | lost off gone same => exact iff_of_true rfl gone
  | @dropped _ key off live drops same gone =>
    refine iff_of_false ?_ (by simp [live])
    exact fun refused => droppedAt_ne key (by decide) (StepResult.refused.inj refused)
  | usual off live stays other goesOn =>
    refine iff_of_false ?_ (by simp [live])
    exact fun refused => other _ refused rfl

end Calls

section Steps

variable {s next : Interleaving} {step : Step} {result : StepResult}

private theorem lost_of_no_caller (nobody : s.caller? step = none)
    (other : ∀ name, step ≠ .connect name) :
    (s.perform step).2.database.lost = s.database.lost := by
  cases step with
  | connect name => exact absurd rfl (other name)
  | close name =>
    simp only [perform, onSession]
    cases s.sessions.get? name with
    | none => rfl
    | some session =>
      simp only [close]
      split <;> rfl
  | isValid name =>
    simp only [perform, onSession]
    cases s.sessions.get? name <;> rfl
  | begin name transaction =>
    simp only [perform, onSession, Option.map_eq_none_iff.mp nobody]
  | insert name statement row =>
    simp only [perform, onSession, Option.map_eq_none_iff.mp nobody]
  | stage name statement row =>
    simp only [perform, onTransaction, Option.map_eq_none_iff.mp nobody]
  | commit name => simp only [perform, onTransaction, Option.map_eq_none_iff.mp nobody]
  | rollback name => simp only [perform, onTransaction, Option.map_eq_none_iff.mp nobody]

private theorem lost_perform_iff (works : s.database.connectFailure = none) (step : Step) :
    (s.perform step).2.database.lost = true ↔ (∃ number, s.Drops step number) ∨
      (s.database.lost = true ∧ ∀ name, step ≠ .connect name) := by
  cases calls : s.caller? step with
  | none =>
    have silent : ¬ ∃ number, s.Drops step number := by
      rintro ⟨number, caller, -⟩
      simp [calls] at caller
    rw [or_iff_right silent]
    by_cases opens : ∃ name, step = .connect name
    · obtain ⟨name, rfl⟩ := opens
      simp [perform, connect_opened works]
    · have other : ∀ name, step ≠ .connect name := not_exists.mp opens
      rw [lost_of_no_caller calls other]
      exact (and_iff_left other).symm
  | some number =>
    have other : ∀ name, step ≠ .connect name := by
      rintro name rfl
      simp [caller?] at calls
    have drops : (∃ number, s.Drops step number) ↔
        ∃ key, (s.perform step).1 = .refused (droppedAt key) := by
      simp [Drops, calls]
    have outcome := (s.performs_perform step).outcome calls
    rw [drops, and_iff_left other]
    generalize s.perform step = performed at outcome ⊢
    obtain ⟨result, next⟩ := performed
    cases outcome with
    | closed on same =>
      have kept : ¬ ∃ key, StepResult.refused sessionClosed = .refused (droppedAt key) := by
        rintro ⟨key, refused⟩
        exact droppedAt_ne key (by decide) (StepResult.refused.inj refused).symm
      have lost : next.database.lost = s.database.lost := congrArg MemoryDatabase.lost same
      rw [or_iff_right kept, lost]
    | lost off gone same => exact iff_of_true (same ▸ gone) (.inr gone)
    | dropped off live drops same gone => exact iff_of_true gone (.inl ⟨_, rfl⟩)
    | usual off live stays other goesOn =>
      refine iff_of_false (Bool.eq_false_iff.mp goesOn) ?_
      rintro (⟨key, refused⟩ | gone)
      · exact other _ refused rfl
      · simp [live] at gone

private theorem Performs.connects_le (performs : s.Performs step result next) :
    next.database.connectFailure = s.database.connectFailure ∧
      s.database.connects ≤ next.database.connects := by
  cases performs with
  | connected name works => exact ⟨rfl, Nat.le_succ _⟩
  | notInserted known usable checked =>
    obtain ⟨statements, lost, rfl⟩ := checked.frame
    exact ⟨rfl, Nat.le_refl _⟩
  | inserted known usable checked =>
    obtain ⟨statements, lost, rfl⟩ := checked.frame
    exact ⟨rfl, Nat.le_refl _⟩
  | notStaged known checked =>
    obtain ⟨statements, lost, rfl⟩ := checked.frame
    exact ⟨rfl, Nat.le_refl _⟩
  | staged known checked =>
    obtain ⟨statements, lost, rfl⟩ := checked.frame
    exact ⟨rfl, Nat.le_refl _⟩
  | closed known =>
    simp only [close]
    split <;> exact ⟨rfl, Nat.le_refl _⟩
  | _ => exact ⟨rfl, Nat.le_refl _⟩

def Idle (s : Interleaving) : Prop :=
  ∀ name, s.sessions.get? name = none ∧ s.transactions.get? name = none

private theorem Performs.idle (performs : s.Performs step result next) (idle : s.Idle)
    {message : String} (fails : s.database.connectFailure = some message) : next.Idle := by
  have noSession {name : String} {session : OpenSession}
      (known : s.sessions.get? name = some session) : next.Idle := by
    simp [(idle name).1] at known
  have noTransaction {name : String} {transaction : OpenTransaction}
      (known : s.transactions.get? name = some transaction) : next.Idle := by
    simp [(idle name).2] at known
  cases performs with
  | noSession needs missing => exact idle
  | noTransaction needs missing => exact idle
  | unreachable fails => exact idle
  | connected name works => simp [works] at fails
  | notBegun known refused => exact noSession known
  | begun transaction known usable => exact noSession known
  | notReached known refused => exact noSession known
  | notInserted known usable checked => exact noSession known
  | inserted known usable checked => exact noSession known
  | notStaged known checked => exact noTransaction known
  | staged known checked => exact noTransaction known
  | notCommitted known gone => exact noTransaction known
  | committed known live => exact noTransaction known
  | notRolledBack known gone => exact noTransaction known
  | rolledBack known live => exact noTransaction known
  | closed known => exact noSession known
  | looked known => exact noSession known

/-- Sessions are numbered by how many were opened. -/
structure Numbered (s : Interleaving) : Prop where
  sessions : s.sessions.Each fun session => session.number ≤ s.database.connects
  transactions : s.transactions.Each fun transaction => transaction.session ≤ s.database.connects

private theorem Numbered.le_of_caller {number : Nat} (numbered : s.Numbered)
    (calls : s.caller? step = some number) : number ≤ s.database.connects := by
  have onSession {name : String}
      (own : (s.sessions.get? name).map OpenSession.number = some number) :
      number ≤ s.database.connects := by
    obtain ⟨session, known, rfl⟩ := Option.map_eq_some_iff.mp own
    exact numbered.sessions name session known
  have onTransaction {name : String}
      (own : (s.transactions.get? name).map OpenTransaction.session = some number) :
      number ≤ s.database.connects := by
    obtain ⟨transaction, known, rfl⟩ := Option.map_eq_some_iff.mp own
    exact numbered.transactions name transaction known
  cases step with
  | begin name transaction => exact onSession calls
  | insert name statement row => exact onSession calls
  | stage name statement row => exact onTransaction calls
  | commit name => exact onTransaction calls
  | rollback name => exact onTransaction calls
  | _ => simp [caller?] at calls

private theorem Numbered.le_of_ends {number : Nat} (numbered : s.Numbered)
    (ends : s.Ends step number) : number ≤ s.database.connects := by
  cases ends with
  | closed known => exact numbered.sessions _ _ known
  | dropped drops => exact numbered.le_of_caller drops.1

private theorem Performs.numbered (performs : s.Performs step result next) (numbered : s.Numbered) :
    next.Numbered := by
  have grows := performs.connects_le.2
  have sessions : s.sessions.Each fun session => session.number ≤ next.database.connects :=
    numbered.sessions.imp fun _ here => Nat.le_trans here grows
  have transactions : s.transactions.Each fun transaction =>
      transaction.session ≤ next.database.connects :=
    numbered.transactions.imp fun _ here => Nat.le_trans here grows
  cases performs with
  | connected name works => exact ⟨sessions.insert name (Nat.le_refl _), transactions⟩
  | begun transaction known usable =>
    exact ⟨sessions, transactions.insert transaction (sessions _ _ known)⟩
  | notStaged known checked => exact ⟨sessions, transactions.insert _ (transactions _ _ known)⟩
  | @staged name statement row transaction db known checked =>
    have own : transaction.session ≤ db.connects := transactions name transaction known
    exact ⟨sessions, transactions.insert name own⟩
  | notCommitted known gone => exact ⟨sessions, transactions.erase _⟩
  | committed known live => exact ⟨sessions, transactions.erase _⟩
  | notRolledBack known gone => exact ⟨sessions, transactions.erase _⟩
  | rolledBack known live => exact ⟨sessions, transactions.erase _⟩
  | @closed name session known =>
    have own : session.number ≤ (s.database.close session.closed).connects :=
      sessions name session known
    exact ⟨sessions.insert name own, transactions⟩
  | _ => exact ⟨sessions, transactions⟩

private theorem Performs.closed_cases (performs : s.Performs step result next) {name : String}
    {session : OpenSession} (there : next.sessions.get? name = some session)
    (closed : session.closed = true) :
    s.sessions.get? name = some session ∨ s.Ends step session.number := by
  cases performs with
  | connected other works =>
    rw [Dictionary.get?_insert] at there
    split at there
    · rw [← Option.some.inj there] at closed
      simp at closed
    · exact .inl there
  | closed known =>
    rw [Dictionary.get?_insert] at there
    split at there
    · have ends := Ends.closed known
      rw [← Option.some.inj there]
      exact .inr ends
    · exact .inl there
  | _ => exact .inl there

end Steps

section Runs

variable {s : Interleaving} {steps : List Step}

private theorem hasEnded_concat_iff (last : Step) (number : Nat) :
    s.HasEnded (steps ++ [last]) number ↔
      s.HasEnded steps number ∨ (s.after steps).Ends last number :=
  exists_split_concat fun front step _ => (s.after front).Ends step number

private theorem dropStands_concat_iff (last : Step) : s.DropStands (steps ++ [last]) ↔
    (∃ number, (s.after steps).Drops last number) ∨
      (s.DropStands steps ∧ ∀ name, last ≠ .connect name) := by
  refine (exists_split_concat fun front step back =>
    (∃ number, (s.after front).Drops step number) ∧ ∀ name, .connect name ∉ back).trans ?_
  rw [or_comm]
  refine or_congr (and_iff_left (by simp)) ?_
  constructor
  · rintro ⟨front, step, back, split, drops, quiet⟩
    refine ⟨⟨front, step, back, split, drops, ?_⟩, ?_⟩
    · exact fun name there => quiet name (List.mem_append_left [last] there)
    · rintro name rfl
      exact quiet name (by simp)
  · rintro ⟨⟨front, step, back, split, drops, quiet⟩, other⟩
    refine ⟨front, step, back, split, drops, ?_⟩
    intro name there
    rcases List.mem_append.mp there with inside | final
    · exact quiet name inside
    · exact other name (List.mem_singleton.mp final).symm

private theorem connectFailure_after (steps : List Step) :
    (s.after steps).database.connectFailure = s.database.connectFailure := by
  induction steps generalizing s with
  | nil => rfl
  | cons step steps ih => exact ih.trans (s.performs_perform step).connects_le.1

private theorem idle_after (idle : s.Idle) {message : String}
    (fails : s.database.connectFailure = some message) (steps : List Step) :
    (s.after steps).Idle := by
  induction steps generalizing s with
  | nil => exact idle
  | cons step steps ih =>
    have performs := s.performs_perform step
    exact ih (performs.idle idle fails) (performs.connects_le.1.trans fails)

private theorem connectFailure_of_caller (idle : s.Idle) {step : Step} {number : Nat}
    (calls : (s.after steps).caller? step = some number) : s.database.connectFailure = none := by
  cases works : s.database.connectFailure with
  | none => rfl
  | some message =>
    have nobody := idle_after idle works steps
    cases step <;> simp [caller?, (nobody _).1, (nobody _).2] at calls

private theorem lost_after_iff (works : s.database.connectFailure = none)
    (live : s.database.lost = false)
    (steps : List Step) : (s.after steps).database.lost = true ↔ s.DropStands steps := by
  induction steps using List.reverseRecOn with
  | nil =>
    refine iff_of_false (by simp [live]) ?_
    rintro ⟨front, step, back, split, -⟩
    simp at split
  | append_singleton steps last ih =>
    rw [after_concat, lost_perform_iff ((connectFailure_after steps).trans works), ih,
      dropStands_concat_iff]

private theorem hasEnded_of_closed (idle : s.Idle) {name : String} {session : OpenSession}
    (there : (s.after steps).sessions.get? name = some session) (closed : session.closed = true) :
    s.HasEnded steps session.number := by
  induction steps using List.reverseRecOn with
  | nil => simp [(idle name).1] at there
  | append_singleton steps last ih =>
    rw [after_concat] at there
    rw [hasEnded_concat_iff]
    rcases ((s.after steps).performs_perform last).closed_cases there closed with before | ends
    · exact .inl (ih before)
    · exact .inr ends

private theorem not_onClosed (idle : s.Idle) {step : Step} {number : Nat}
    (calls : (s.after steps).caller? step = some number) (lasts : ¬ s.HasEnded steps number) :
    ¬ (s.after steps).OnClosed step := by
  have isOpen {name : String}
      (own : ((s.after steps).sessions.get? name).map OpenSession.number = some number) :
      ¬ ∃ session, (s.after steps).sessions.get? name = some session ∧ session.closed = true := by
    rintro ⟨session, known, closed⟩
    rw [known] at own
    obtain rfl := Option.some.inj own
    exact lasts (hasEnded_of_closed idle known closed)
  cases step with
  | begin name transaction => exact isOpen calls
  | insert name statement row => exact isOpen calls
  | _ => exact id

private theorem numbered_after (numbered : s.Numbered) (steps : List Step) :
    (s.after steps).Numbered := by
  induction steps generalizing s with
  | nil => exact numbered
  | cons step steps ih => exact ih ((s.performs_perform step).numbered numbered)

private theorem le_connects_of_hasEnded (numbered : s.Numbered) {number : Nat}
    (ended : s.HasEnded steps number) : number ≤ (s.after steps).database.connects := by
  induction steps using List.reverseRecOn with
  | nil =>
    obtain ⟨front, step, back, split, -⟩ := ended
    simp at split
  | append_singleton steps last ih =>
    have grows := ((s.after steps).performs_perform last).connects_le.2
    rw [after_concat]
    rcases (hasEnded_concat_iff last number).mp ended with before | ends
    · exact (ih before).trans grows
    · exact ((numbered_after numbered steps).le_of_ends ends).trans grows

private theorem numbered_ofDatabase (db : MemoryDatabase) : (ofDatabase db).Numbered := by
  constructor
  · intro name session there
    simp [ofDatabase] at there
  · intro name transaction there
    simp [ofDatabase] at there

private theorem idle_ofDatabase (db : MemoryDatabase) : (ofDatabase db).Idle := fun _ => ⟨rfl, rfl⟩

end Runs

theorem connect_opens_fresh (db : MemoryDatabase) (works : db.connectFailure = none)
    (steps : List Step) (name : String) :
    ∃ session, ((ofDatabase db).after (steps ++ [.connect name])).sessions.get? name = some session ∧
      session.closed = false ∧
      ¬ (ofDatabase db).HasEnded (steps ++ [.connect name]) session.number ∧
      ((ofDatabase db).after steps).sessions.Each (fun other => other.number ≠ session.number) ∧
      ((ofDatabase db).after steps).transactions.Each
        fun transaction => transaction.session ≠ session.number := by
  have numbered := numbered_after (numbered_ofDatabase db) steps
  have works : ((ofDatabase db).after steps).database.connectFailure = none :=
    (connectFailure_after steps).trans works
  refine ⟨{ number := ((ofDatabase db).after steps).database.connects + 1 }, ?_, rfl, ?_, ?_, ?_⟩
  · rw [after_concat]
    simp only [perform, connect_opened works]
    exact Dictionary.get?_insert_self _ _ _
  · rw [hasEnded_concat_iff]
    rintro (before | ends)
    · have small := le_connects_of_hasEnded (numbered_ofDatabase db) before
      simp only at small
      omega
    · cases ends with
      | dropped drops => simp [Drops, caller?] at drops
  · exact numbered.sessions.imp fun _ here => Nat.ne_of_lt (Nat.lt_succ_of_le here)
  · exact numbered.transactions.imp fun _ here => Nat.ne_of_lt (Nat.lt_succ_of_le here)

/-- A call on a session that has ended fails, and changes no row, exactly if a drop stands, or the call is
made on the closed connection itself, or its own key would drop the session. A call on a session that
has not ended is refused for a drop exactly if one stands, of whichever session. -/
theorem call_iff_dropStands (db : MemoryDatabase) (live : db.lost = false) (steps : List Step)
    (step : Step) (number : Nat)
    (calls : ((ofDatabase db).after steps).caller? step = some number) :
    ((ofDatabase db).HasEnded steps number →
        (((ofDatabase db).after steps).Fails step ↔ (ofDatabase db).DropStands steps ∨
          ((ofDatabase db).after steps).OnClosed step ∨
            ((ofDatabase db).after steps).AtDroppingKey step)) ∧
      (¬ (ofDatabase db).HasEnded steps number →
        ((((ofDatabase db).after steps).perform step).1 = .refused sessionLost ↔
          (ofDatabase db).DropStands steps)) := by
  have idle := idle_ofDatabase db
  have noted := lost_after_iff (connectFailure_of_caller idle calls) live steps
  constructor
  · -- That the session has ended is not asked for: nobody keeps account of it.
    intro _
    rw [fails_iff calls, noted]
  · intro lasts
    rw [refused_lost_iff calls (not_onClosed idle calls lasts), noted]

def dropping : MemoryDatabase := { droppingKeys := ["b"] }

def reconnected : List Step :=
  [.connect "c", .begin "c" "t", .stage "t" "INSERT" [.string "b"], .connect "d"]

theorem call_iff_dropStands_reconnected : dropping.lost = false ∧
    ((ofDatabase dropping).after reconnected).caller? (.begin "c" "u") = some 1 ∧
    ((ofDatabase dropping).HasEnded reconnected 1 →
        (((ofDatabase dropping).after reconnected).Fails (.begin "c" "u") ↔
          (ofDatabase dropping).DropStands reconnected ∨
            ((ofDatabase dropping).after reconnected).OnClosed (.begin "c" "u") ∨
              ((ofDatabase dropping).after reconnected).AtDroppingKey (.begin "c" "u"))) ∧
      (¬ (ofDatabase dropping).HasEnded reconnected 1 →
        ((((ofDatabase dropping).after reconnected).perform (.begin "c" "u")).1 =
            .refused sessionLost ↔ (ofDatabase dropping).DropStands reconnected)) := by
  have calls : ((ofDatabase dropping).after reconnected).caller? (.begin "c" "u") = some 1 := by
    decide
  exact ⟨rfl, calls, call_iff_dropStands dropping rfl reconnected (.begin "c" "u") 1 calls⟩

theorem not_fails_of_reconnected : ¬ ∀ (db : MemoryDatabase) (steps : List Step) (step : Step)
    (number : Nat), db.lost = false →
    ((ofDatabase db).after steps).caller? step = some number →
      ((ofDatabase db).HasEnded steps number → ((ofDatabase db).after steps).Fails step) ∧
        (¬ (ofDatabase db).HasEnded steps number →
          (((ofDatabase db).after steps).perform step).1 ≠ .refused sessionLost) := by
  intro all
  have ended : (ofDatabase dropping).HasEnded reconnected 1 :=
    ⟨[.connect "c", .begin "c" "t"], .stage "t" "INSERT" [.string "b"], [.connect "d"], rfl,
      .dropped ⟨by decide, "b", by decide⟩⟩
  have begun : (((ofDatabase dropping).after reconnected).perform (.begin "c" "u")).1 = .done := by
    decide
  obtain ⟨fault, refused, -⟩ := (all dropping reconnected (.begin "c" "u") 1 rfl (by decide)).1 ended
  simp [begun] at refused

end Interleaving

end Intake.Sql
