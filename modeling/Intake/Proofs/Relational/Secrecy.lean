import Intake.Proofs.Relational.Isolation
import Intake.Proofs.Relational.Secret
import Intake.Relational.Pipeline

set_option autoImplicit false

/-!
The password of a secret does not show. Two runs whose secrets differ only in the password come to the
same response and log the same, if the database answers both alike: the password is passed on when a
session is opened, and nothing else is made of it.
-/

namespace Intake.Relational

open Intake.Sql Intake.ObjectFile Intake.Json

/-- Calls that are answered alike, one by one, as long as both go on. -/
def AnsweredAlike (first second : List Answered) : Prop :=
  ∀ pair ∈ first.zip second, pair.1.fault = pair.2.fault

instance (first second : List Answered) : Decidable (AnsweredAlike first second) :=
  inferInstanceAs (Decidable (∀ pair ∈ first.zip second, pair.1.fault = pair.2.fault))

section Answers

variable {first second front back : List Answered}

private theorem AnsweredAlike.left (alike : AnsweredAlike (first ++ front) (second ++ back)) :
    AnsweredAlike first second := by
  induction first generalizing second with
  | nil => simp [AnsweredAlike]
  | cons a first ih =>
    cases second with
    | nil => simp [AnsweredAlike]
    | cons b second =>
      obtain ⟨here, others⟩ := List.forall_mem_cons.mp alike
      exact List.forall_mem_cons.mpr ⟨here, ih others⟩

private theorem AnsweredAlike.right (alike : AnsweredAlike (first ++ front) (second ++ back))
    (length : first.length = second.length) : AnsweredAlike front back := by
  rw [AnsweredAlike, List.zip_append length] at alike
  exact (List.forall_mem_append.mp alike).2

end Answers

@[simp] private theorem Effect.log_append (front back : List Effect) :
    Effect.log (front ++ back) = Effect.log front ++ Effect.log back :=
  List.filterMap_append

variable {σ α β : Type}

/-- Two runs that are answered alike come to the same, log the same, and make as many calls. -/
def RunsAgree (first second : Run σ α) : Prop :=
  AnsweredAlike (Effect.answered first.effects) (Effect.answered second.effects) →
    first.value = second.value ∧ Effect.log first.effects = Effect.log second.effects ∧
      (Effect.answered first.effects).length = (Effect.answered second.effects).length

namespace RunsAgree

private theorem same (value : α) (effects : List Effect) (state other : σ) :
    RunsAgree ⟨value, effects, state⟩ ⟨value, effects, other⟩ := fun _ => ⟨rfl, rfl, rfl⟩

private theorem andThen {first second : Run σ α} {next other : α → σ → Run σ β}
    (here : RunsAgree first second)
    (behind : ∀ value state state', RunsAgree (next value state) (other value state')) :
    RunsAgree (first.andThen next) (second.andThen other) := by
  intro alike
  rw [Run.answered_andThen, Run.answered_andThen] at alike ⊢
  obtain ⟨value, log, length⟩ := here alike.left
  rw [value] at alike ⊢
  obtain ⟨last, logged, count⟩ := behind second.value first.state second.state (alike.right length)
  refine ⟨?_, ?_, ?_⟩
  · rw [Run.value_andThen, Run.value_andThen, value, last]
  · show Effect.log (first.effects ++ _) = Effect.log (second.effects ++ _)
    rw [Effect.log_append, Effect.log_append, log, value, logged]
  · rw [List.length_append, List.length_append, length, count]

private theorem after {first second : Run σ α} (effects : List Effect)
    (agree : RunsAgree first second) : RunsAgree (first.after effects) (second.after effects) := by
  intro alike
  have answered : ∀ r : Run σ α, Effect.answered (r.after effects).effects =
      Effect.answered effects ++ Effect.answered r.effects := fun r => Effect.answered_append _ _
  rw [answered, answered] at alike ⊢
  obtain ⟨value, log, length⟩ := agree (alike.right rfl)
  refine ⟨value, ?_, ?_⟩
  · show Effect.log (effects ++ _) = Effect.log (effects ++ _)
    rw [Effect.log_append, Effect.log_append, log]
  · rw [List.length_append, List.length_append, length]

end RunsAgree

namespace RowWriter

variable (w : RowWriter σ) (state other : σ)

private theorem call_agrees (c d : Call) : RunsAgree (w.call c state) (w.call d other) := by
  intro alike
  exact ⟨alike (_, _) (List.mem_singleton_self _), rfl, rfl⟩

private theorem writeRow_agrees (row : Transaction) :
    RunsAgree (w.writeRow row state) (w.writeRow row other) := by
  refine (w.call_agrees state other .begin .begin).andThen fun fault state other => ?_
  cases fault with
  | some cause => exact .same _ _ state other
  | none =>
    refine (w.call_agrees state other _ _).andThen fun fault state other => ?_
    cases fault with
    | none => exact w.call_agrees state other .commit .commit
    | some cause =>
      exact (w.call_agrees state other _ _).andThen fun refusal state other => .same _ _ state other

private theorem writeRows_agrees (rows : List Transaction) :
    RunsAgree (w.writeRows rows state) (w.writeRows rows other) := by
  induction rows generalizing state other with
  | nil => exact .same _ _ state other
  | cons row rows ih =>
    refine (w.writeRow_agrees state other row).andThen fun fault state other => ?_
    cases fault with
    | none => exact (ih state other).andThen fun fates state other => .same _ _ state other
    | some cause =>
      have others : RunsAgree
          (if cause.endsSession then abandon rows cause state else w.writeRows rows state)
          (if cause.endsSession then abandon rows cause other else w.writeRows rows other) := by
        split
        · exact .same _ _ state other
        · exact ih state other
      exact (others.after _).andThen fun fates state other => .same _ _ state other

private theorem close_agrees : RunsAgree (w.close state) (w.close other) :=
  (w.call_agrees state other _ _).andThen fun _ state other => .same _ _ state other

private theorem write_agrees {config config' : ConnectionConfig} (host : config.host = config'.host)
    (database : config.database = config'.database) (rows : List Transaction) :
    RunsAgree (w.write config rows state) (w.write config' rows other) := by
  refine (w.call_agrees state other _ _).andThen fun fault state other => ?_
  cases fault with
  | some fault =>
    have event : connectFailed config fault = connectFailed config' fault := by
      rw [connectFailed, connectFailed, host, database]
    simp only [event]
    exact .same _ _ state other
  | none =>
    refine (w.writeRows_agrees state other rows).andThen fun fates state other => ?_
    exact (w.close_agrees state other).andThen fun _ state other => .same _ _ state other

end RowWriter

namespace Pipeline

variable (p : Pipeline σ)

def withSecret (text : String) : Pipeline σ :=
  { p with
    sources := { p.sources with
      secret := fun id => if id = p.target.secretId then .ok text else p.sources.secret id } }

def Plan.withoutPassword (plan : Plan) : Plan :=
  { plan with config := { plan.config with password := "" } }

variable {secret other : String}

private theorem plan_alike (n : Notification)
    (alike : (Credentials.ofSecret secret).map Credentials.withoutPassword =
      (Credentials.ofSecret other).map Credentials.withoutPassword) :
    ((p.withSecret secret).plan n).2 = ((p.withSecret other).plan n).2 ∧
      ((p.withSecret secret).plan n).1.map Plan.withoutPassword =
        ((p.withSecret other).plan n).1.map Plan.withoutPassword := by
  simp only [plan, withSecret, if_true]
  cases n.location with
  | error fault => exact ⟨rfl, rfl⟩
  | ok location =>
    dsimp only
    cases p.sources.object location with
    | error fault => exact ⟨rfl, rfl⟩
    | ok bytes =>
      dsimp only
      cases Transaction.decodeFile bytes with
      | error fault => exact ⟨rfl, rfl⟩
      | ok rows =>
        dsimp only
        cases first : Credentials.ofSecret secret <;> cases second : Credentials.ofSecret other <;>
          rw [first, second] at alike
        · rw [Except.error.inj alike]
          exact ⟨rfl, rfl⟩
        · cases alike
        · cases alike
        · obtain ⟨host, username, -⟩ := Credentials.mk.inj (Except.ok.inj alike)
          refine ⟨rfl, ?_⟩
          simp only [Except.map, Plan.withoutPassword, Target.config, host, username]

private theorem process_agrees (n : Notification) (state state' : σ)
    (alike : (Credentials.ofSecret secret).map Credentials.withoutPassword =
      (Credentials.ofSecret other).map Credentials.withoutPassword) :
    RunsAgree ((p.withSecret secret).process n state) ((p.withSecret other).process n state') := by
  obtain ⟨effects, result⟩ := p.plan_alike n alike
  rw [process, process]
  -- The plans differ in nothing but the password, and only the opening of the session is told it.
  generalize (p.withSecret secret).plan n = first at effects result ⊢
  generalize (p.withSecret other).plan n = second at effects result ⊢
  obtain ⟨one, events⟩ := first
  obtain ⟨two, events'⟩ := second
  obtain rfl : events = events' := effects
  cases one with
  | error fault =>
    cases two with
    | error other =>
      rw [Except.error.inj result]
      exact .same _ _ state state'
    | ok plan => cases result
  | ok plan =>
    cases two with
    | error fault => cases result
    | ok other =>
      obtain ⟨location, rows, config⟩ := plan
      obtain ⟨location', rows', config'⟩ := other
      obtain ⟨rfl, rfl, login⟩ := Plan.mk.inj (Except.ok.inj result)
      have host := congrArg ConnectionConfig.host login
      have database := congrArg ConnectionConfig.database login
      change config.host = config'.host at host
      change config.database = config'.database at database
      have written := p.writer.write_agrees state state' host database rows
      refine (written.after events).andThen fun outcome state other => ?_
      cases outcome with
      | error fault => exact .same _ _ state other
      | ok outcome => exact .same _ _ state other

/-- The password of a secret shows neither in the response nor in the log. -/
theorem handle_hides (n : Notification) (s : SecretText) {value value' : ValueText}
    (resembles : Resembles value value') (unseen : IsUnseen value value') (state state' : σ)
    (answers : AnsweredAlike
      (Effect.answered ((p.withSecret (String.ofList (s.chars value))).handle n state).effects)
      (Effect.answered ((p.withSecret (String.ofList (s.chars value'))).handle n state').effects)) :
    ((p.withSecret (String.ofList (s.chars value))).handle n state).value =
        ((p.withSecret (String.ofList (s.chars value'))).handle n state').value ∧
      Effect.log ((p.withSecret (String.ofList (s.chars value))).handle n state).effects =
        Effect.log ((p.withSecret (String.ofList (s.chars value'))).handle n state').effects := by
  have alike := Credentials.ofSecret_alike s resembles unseen
  have agree : RunsAgree ((p.withSecret (String.ofList (s.chars value))).handle n state)
      ((p.withSecret (String.ofList (s.chars value'))).handle n state') := by
    refine (p.process_agrees n state state' alike).andThen fun result state other => ?_
    cases result with
    | ok outcome => exact .same _ _ state other
    | error fault => exact .same _ _ state other
  obtain ⟨response, log, -⟩ := agree answers
  exact ⟨response, log⟩

/-- A pipeline to a database that never refuses; all of its files are empty lists. -/
def obliging : Pipeline Unit where
  sources := ⟨fun _ => .ok "[]".toUTF8.data.toList, fun id => .error (.notFound id)⟩
  writer :=
    { database := ⟨.memory, fun _ _ => (none, ())⟩
      table := memoryWriter.table
      statement := memoryWriter.statement
      statement_eq := memoryWriter.statement_eq }
  target := { secretId := "login", database := "ledger" }

def openSecret : SecretText where
  before := .none
  front := [tightMember "host" (textValue "h"), tightMember "username" (textValue "u")]
  password := tightMember "password" ()
  back := []
  after := .none
  named := show Glyph.text? (spelling "password") = some "password" by decide +kernel

/-- What becomes of a notification if the password of the secret is that value. -/
def runWith (value : ValueText) : Run Unit (Option ErrorResponse) :=
  (obliging.withSecret (String.ofList (openSecret.chars value))).handle (.ofObject "b" "k") ()

theorem handle_hides_words :
    Resembles (textValue "correct") (textValue "mistake") ∧
      IsUnseen (textValue "correct") (textValue "mistake") ∧
      AnsweredAlike (Effect.answered (runWith (textValue "correct")).effects)
        (Effect.answered (runWith (textValue "mistake")).effects) ∧
      (runWith (textValue "correct")).value = (runWith (textValue "mistake")).value ∧
      Effect.log (runWith (textValue "correct")).effects =
        Effect.log (runWith (textValue "mistake")).effects := by
  have resembles : Resembles (textValue "correct") (textValue "mistake") :=
    ⟨by decide +kernel, by decide +kernel⟩
  have content : ∀ text : String, Glyph.text? (spelling text) = some text →
      ∃ s, IsContent (textValue text).val s := fun text known => ⟨text, spelling text, rfl, known⟩
  have unseen : IsUnseen (textValue "correct") (textValue "mistake") :=
    ⟨fun _ => ⟨content "correct" (by decide +kernel), content "mistake" (by decide +kernel)⟩,
      fun number => absurd number (by decide +kernel)⟩
  have answers : AnsweredAlike (Effect.answered (runWith (textValue "correct")).effects)
      (Effect.answered (runWith (textValue "mistake")).effects) := by
    decide +kernel
  exact ⟨resembles, unseen, answers,
    obliging.handle_hides (.ofObject "b" "k") openSecret resembles unseen () () answers⟩

/-- A run of digits without a zero in front, as a value. -/
def wholeValue (run : DigitRun) (leading : run.chars.head? ≠ some '0') : ValueText :=
  ⟨_, .number ⟨false, run, none, none, .inr leading⟩⟩

def rising : ValueText :=
  wholeValue ⟨['1', '2', '3', '4', '5'], List.all_eq_true.mp rfl, by simp⟩ (by simp)

def falling : ValueText :=
  wholeValue ⟨['5', '4', '3', '2', '1'], List.all_eq_true.mp rfl, by simp⟩ (by simp)

/-- A password that is a number is refused by name, and so it shows. -/
theorem shows_number :
    Resembles rising falling ∧
      AnsweredAlike (Effect.answered (runWith rising).effects)
        (Effect.answered (runWith falling).effects) ∧
      (runWith rising).value ≠ (runWith falling).value ∧
      Effect.log (runWith rising).effects ≠ Effect.log (runWith falling).effects :=
  ⟨⟨rfl, by decide +kernel⟩, by decide +kernel, by decide +kernel, by decide +kernel⟩

end Pipeline

end Intake.Relational
