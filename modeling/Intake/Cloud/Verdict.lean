import Intake.Cloud.Exchange

set_option autoImplicit false

/-!
What the answers of services that speak JSON amount to.
-/

namespace Intake.Cloud

inductive Verdict (α : Type) where
  | done (value : α)
  /-- The service refuses the request, for a reason that may have a code; an answer that cannot be
  understood counts as a refusal without one. -/
  | refused (code : Option String)
  /-- There is no answer, or not all of it. -/
  | lost
  deriving Inhabited

def lastText? (members : List (String × Json)) (name : String) : Option String :=
  (members.filterMap fun
    | (n, .string s) => if n = name then some s else none
    | _ => none).getLast?

def isOptionalText : Option Json → Bool
  | none | some .null | some (.string _) => true
  | _ => false

/-- A code without the namespace in front of it and the address behind it. -/
def bareCode (code : String) : String :=
  let kind := code.toList.takeWhile (· ≠ ':')
  if kind.contains '#' then String.ofList (kind.dropWhile (· ≠ '#')).tail else String.ofList kind

/-- The code of a refusal. Refusals explain themselves under a given name; one whose explanation is
no text is not understood. -/
def refusalCode? (explanation : String) (a : Answer) : Option String :=
  match a.json? with
  | some (.object members) =>
    if isOptionalText (Json.member? members explanation) then
      let code := (lastText? members "code").orElse fun _ => lastText? members "__type"
      (a.errorKind.orElse fun _ => code).map bareCode
    else none
  | _ => none

/-- What came back, where `read` makes a value of the body of a success. -/
def Verdict.ofDelivery {α : Type} (explanation : String) (read : Json → Option α) :
    Delivery → Verdict α
  | .lost => .lost
  | .answered a =>
    if a.isCut then .lost
    else if a.isSuccess then
      match a.json? >>= read with
      | some value => .done value
      | none => .refused none
    else .refused (refusalCode? explanation a)

end Intake.Cloud
