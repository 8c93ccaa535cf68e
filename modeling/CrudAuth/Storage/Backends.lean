import CrudAuth.Storage.Discipline

/-
  The backend a store is configured with.

  Main declarations:
    * `BackendChoice`
    * `getSessionStorage`
    * `disciplineOf`
    * `implement_obeys`
-/

namespace CrudAuth

namespace Storage

open Concurrency
open Concurrency.Program

variable {κ ν : Type}
variable [DecidableEq κ] [DecidableEq ν] [Owned ν]

/- The backends `get_session_storage` knows. -/
inductive BackendChoice where
  | memory (expiration : Nat)
  | database (config : Database.Config)
  | redis (config : Redis.Config)

/- `get_session_storage` -/
def getSessionStorage : BackendChoice → Backend κ ν
  | .memory expiration => memory expiration
  | .database config => database config
  | .redis config => redis config

variable (choice : BackendChoice)

/- The commands of the chosen backend. -/
abbrev Commands (κ ν : Type)
    [DecidableEq κ] [DecidableEq ν] [Owned ν]
    (choice : BackendChoice) : Interface :=
  (@getSessionStorage κ ν _ _ _ choice).commands

/- The discipline of the chosen backend. -/
def disciplineOf :
    (choice : BackendChoice) →
    Layered.Discipline (calls κ ν) (Commands κ ν choice)
  | .memory _ => Memory.discipline
  | .database config => Database.discipline config
  | .redis config => Redis.discipline config

/- Every backend keeps to its discipline. -/
theorem implement_obeys
    (call : Call κ ν) :
    Obeys ((disciplineOf choice).commands call) []
      ((getSessionStorage choice).implement call)
      (Returns ((disciplineOf choice).returns call)) := by
  cases choice with
  | memory expiration => exact Memory.implement_obeys call
  | database config => exact Database.implement_obeys call
  | redis config => exact Redis.implement_obeys call

end Storage

end CrudAuth
