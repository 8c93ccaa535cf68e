import CrudAuth.World
import CrudAuth.Utils.Hashing

/-
  `UserRepository`: reads and writes of user rows.

  A flow holds a copy of the row.  Every write ends with a
  refresh, so the copy it returns is the row as stored
  after the write, whoever wrote it last.

  Main declarations:
    * `resolveLogin`
    * `update?`
    * `incrementTokenVersion`
    * `claimTotpStep`
    * `updateIfUnchanged`
-/

namespace CrudAuth

open Concurrency

namespace Runtime

variable (runtime : Runtime)

------------------------------------------------------------
-- Reads
------------------------------------------------------------

/- `get_by_id` -/
def getById (id : UserId) : Flow (Option User) :=
  call (.select (.byId id))

/- An email is matched in its canonical form. -/
def getByField
    (field : Field)
    (value : String) : Flow (Option User) :=
  match field with
  | .email =>
      call (.select
        (.byField .email (runtime.canonicalEmail value)))
  | field => call (.select (.byField field value))

/- The login fields in order; the first match wins. -/
def resolveLoginAmong
    (identifier : String) :
    List Field → Flow (Option User)
  | [] => return none
  | field :: fields => do
      match ← runtime.getByField field identifier with
      | some user => return some user
      | none => resolveLoginAmong identifier fields

/- `resolve_login` -/
def resolveLogin
    (identifier : String) : Flow (Option User) :=
  runtime.resolveLoginAmong identifier runtime.loginFields

/- `get_by_oauth` -/
def getByOauth
    (provider providerUserId : String) :
    Flow (Option User) :=
  call (.select (.byOauth provider providerUserId))

------------------------------------------------------------
-- Writes
------------------------------------------------------------

/- Reload the copy of a row. -/
def refreshRow (id : UserId) : Flow User := do
  match ← call (.refresh id) with
  | some user => return user
  | none => .raise .unhandled

/- An email is stored in its canonical form. -/
def canonical (data : Patch) : Patch :=
  { data with
    email :=
      data.email.map (Option.map runtime.canonicalEmail) }

/- `update`, with `none` for an `IntegrityError`. -/
def update?
    (user : User)
    (data : Patch) : Flow (Option User) := do
  if ← call (.commit user (runtime.canonical data)) then
    return some (← refreshRow user.id)
  else
    return none

/- `update` where no unique column is written. -/
def update
    (user : User)
    (data : Patch) : Flow User := do
  match ← runtime.update? user data with
  | some user => return user
  | none => .raise .unhandled

/- The credential epoch moves on, in the database. -/
def incrementTokenVersion (user : User) : Flow User := do
  if runtime.hasTokenVersion then
    call (.incrementVersion user.id)
    refreshRow user.id
  else
    return user

/- Record a TOTP step if it is newer than the last one. -/
def claimTotpStep
    (user : User)
    (step : Nat) : Flow (Bool × User) := do
  let claimed ← call (.claimStep user.id step)
  return (claimed, ← refreshRow user.id)

/- Compare-and-set on one column. -/
def updateIfUnchanged
    (user : User)
    (guard : Guard)
    (values : Patch) : Flow (Bool × User) := do
  let updated ← call (.updateIf user.id guard values)
  return (updated, ← refreshRow user.id)

/- Set the verified flag of the recovery factor. -/
def markRecoveryVerified (user : User) : Flow User :=
  match runtime.recovery with
  | none => return user
  | some .email =>
      runtime.update user { emailVerified := some true }
  | some _ =>
      runtime.update user { factorVerified := some true }

end Runtime

end CrudAuth
