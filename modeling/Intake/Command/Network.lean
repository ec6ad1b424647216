import Intake.Cloud.ObjectStore
import Intake.Cloud.SecretStore
import Intake.Sql.Session

set_option autoImplicit false

/-!
The services that the program uses, and a network on which none of them is reached.
-/

namespace Intake.Command

open Intake.Bulk Intake.Cloud Intake.Relational Intake.Sql

structure Network (σ : Type) where
  tables : Site → Store σ
  sources : Site → Sources
  database : Database σ

def deadLine {ρ : Type} : Line Unit ρ := ⟨fun _ _ => (.lost, ())⟩

def unreachable : Database Unit where
  kind := .server
  answer _ _ := (some (.connection "failed to connect" none), ())

def Network.down : Network Unit where
  tables site := ItemTable.store site deadLine
  sources site :=
    ⟨fun l => (ObjectStore.get site deadLine l ()).1,
      fun id => (SecretStore.get site deadLine id ()).1⟩
  database := unreachable

end Intake.Command
