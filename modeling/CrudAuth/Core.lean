import CrudAuth.Mfa.Service

/-
  `AuthRuntime.authenticate_password` and the login step
  both transports run.

  Main declarations:
    * `getPasswordHash`
    * `authenticatePassword`
    * `passwordLogin`
-/

namespace CrudAuth

open Concurrency

namespace Runtime

variable (runtime : Runtime)

------------------------------------------------------------
-- Hashing
------------------------------------------------------------

/- A crudauth hash of the normalized password. -/
def getPasswordHash (plain : String) : Flow StoredHash := do
  let salt ← call .fresh
  return .bcrypt (runtime.normalizePassword plain) salt

/- Verify, and rehash a hash made before normalization. -/
def verifyAndUpdatePassword
    (plain : String)
    (hash : StoredHash) :
    Flow (Bool × Option StoredHash) :=
  match runtime.matchingForm plain hash with
  | none => return (false, none)
  | some matched =>
      if matched = runtime.normalizePassword plain then
        return (true, none)
      else do
        let newHash ← runtime.getPasswordHash plain
        return (true, some newHash)

/- crudauth's own check, then the legacy verifiers. -/
def checkLoginPassword
    (plain : String)
    (hash : StoredHash) :
    Flow (Bool × Option StoredHash) := do
  match ← runtime.verifyAndUpdatePassword plain hash with
  | (true, newHash) => return (true, newHash)
  | (false, newHash) =>
      if runtime.verifyLegacyPassword plain hash then
        return (true, some (← runtime.getPasswordHash plain))
      else
        return (false, newHash)

------------------------------------------------------------
-- Password Login
------------------------------------------------------------

/- The one message of every refused login. -/
def incorrectLogin : HttpError :=
  .unauthorized "Incorrect username or password"

/- What a login does once its password checked out. -/
def acceptLogin
    (user : User)
    (newHash : Option StoredHash)
    (ip identifier : String)
    (recordSuccess : Bool) : Flow User := do
  let user ←
    match newHash with
    | some hash =>
        runtime.update user { hashedPassword := some hash }
    | none => pure user
  if recordSuccess then
    runtime.recordLoginSuccess ip identifier
  else if runtime.lockout then
    call (.forgetAttempt ip identifier)
  return user

/-
  The hardened credential check.  An unknown identifier is
  checked against no hash at all and fails like a wrong
  password.
-/
def authenticatePassword
    (ip identifier password : String)
    (recordSuccess : Bool) : Flow User := do
  match ← runtime.countLoginAttempt ip identifier with
  | some retryAfter => .raise (.rateLimited retryAfter)
  | none =>
      let user? ← runtime.resolveLogin identifier
      let hash :=
        match user? with
        | some user => user.hashedPassword
        | none => .missing
      let (verified, newHash) ←
        runtime.checkLoginPassword password hash
      match user? with
      | none => .raise incorrectLogin
      | some user =>
          if !verified then
            .raise incorrectLogin
          else if !user.isActive then
            .raise incorrectLogin
          else
            runtime.acceptLogin user newHash ip identifier
              recordSuccess

/- Verify, raise the challenge if due, else complete. -/
def passwordLogin
    (transport : TransportName)
    (ip identifier password : String)
    (options : LoginOptions)
    (presented : Option Nat) : Flow Response := do
  let user ← runtime.authenticatePassword ip identifier
    password runtime.mfa.isNone
  match runtime.mfa with
  | none =>
      let issued ← runtime.completeLogin transport presented
        user options
      return .signedIn issued none
  | some config =>
      match ← runtime.challengeLogin config user transport ip
          identifier options with
      | some (token, setup) => return .challenged token setup
      | none =>
          let issued ← runtime.completeLogin transport
            presented user options
          return .signedIn issued none

end Runtime

end CrudAuth
