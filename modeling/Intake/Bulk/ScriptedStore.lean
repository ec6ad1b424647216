import Intake.Bulk.Store

set_option autoImplicit false

/-!
A store that answers its calls by a script and remembers what it was asked and what it has stored.
-/

namespace Intake.Bulk

inductive StoreStep where
  | acceptAll
  | leaveAll
  | leaveLast (count : Nat)
  | leaveKeys (keys : List String)
  | fail (fault : StoreFault)
  /-- The call does not reach the store; this answer is given in its place. -/
  | answer (reply : Reply)
  deriving Inhabited

structure ScriptedStore where
  script : List StoreStep
  otherwise : StoreStep := .acceptAll
  calls : List (String × List PutRequest) := []
  stored : List PutRequest := []
  deriving Inhabited

namespace ScriptedStore

def divide (step : StoreStep) (requests : List PutRequest) : List PutRequest × List PutRequest :=
  match step with
  | .leaveAll => ([], requests)
  | .leaveLast count =>
    (requests.take (requests.length - count), requests.drop (requests.length - count))
  | .leaveKeys keys =>
    let left := fun r : PutRequest => r.key?.any keys.contains
    (requests.filter (!left ·), requests.filter left)
  | _ => (requests, [])

def perform (s : ScriptedStore) (step : StoreStep) (table : String) (requests : List PutRequest) :
    Except StoreFault Reply × ScriptedStore :=
  let called := { s with calls := s.calls ++ [(table, requests)] }
  match step with
  | .answer reply => (.ok reply, s)
  | .fail fault => (.error fault, called)
  | _ =>
    let (done, left) := divide step requests
    (.ok (.ofUnprocessed table left), { called with stored := s.stored ++ done })

def write (s : ScriptedStore) (table : String) (requests : List PutRequest) :
    Except StoreFault Reply × ScriptedStore :=
  match s.script with
  | step :: script => { s with script }.perform step table requests
  | [] => s.perform s.otherwise table requests

def store : Store ScriptedStore := ⟨write⟩

/-- The keys of the stored items, in the order in which they were stored. -/
def storedKeys (s : ScriptedStore) : List String := s.stored.filterMap (·.key?)

end ScriptedStore

end Intake.Bulk
