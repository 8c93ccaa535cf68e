import CrudAuth.Email.Service

/-
  The routes of a signed-in account: `/set-password`,
  `/change-password` and the `/mfa` enrollment routes.

  Main declarations:
    * `setPassword`
    * `changePassword`
    * `totpSetup`
    * `totpDisable`
-/

namespace CrudAuth

open Concurrency

namespace Runtime

variable (runtime : Runtime)

------------------------------------------------------------
-- Recent Sign-In
------------------------------------------------------------

/- Whether the session is stamped as elevated. -/
def isElevated (key : Nat) : Flow Bool := do
  match ← call (.sessionGet key) with
  | none => return false
  | some session =>
      let now ← call .now
      return session.elevatedUntil.any fun until' =>
        now < until'

/- `self.sudo is not None` and the session is elevated. -/
def holdsSudo (key : Nat) : Flow Bool :=
  if runtime.sudoConfig.isSome then
    isElevated key
  else
    return false

/- Whether the session was created within the window. -/
def signedInWithin (key : Nat) : Flow Bool := do
  match ← call (.sessionGet key) with
  | none => return false
  | some session =>
      let now ← call .now
      return now ≤
        session.createdAt + runtime.freshSignInSeconds

/- Whether the principal signed in lately or holds sudo. -/
def signedInRecently
    (principal : Principal) : Flow Bool := do
  match principal.sessionId, runtime.sessions with
  | some key, some _ =>
      if runtime.freshSignInSeconds = 0 then
        return false
      else if ← runtime.holdsSudo key then
        return true
      else
        runtime.signedInWithin key
  | none, _ => return false
  | some _, none => return false

/- The refusal of a sign-in that is too old. -/
def freshSignInRequired : HttpError :=
  .forbidden
    "Sign in again to continue: this needs a recent sign-in."

------------------------------------------------------------
-- Passwords
------------------------------------------------------------

/- A first password, for an account without one. -/
def setPassword
    (principal : Principal)
    (newPassword : String) : Flow Unit := do
  let user := principal.user
  if !user.hashedPassword.isUnusablePassword then
    .raise (.badRequest ("Account already has a password; "
      ++ "use the password reset flow to change it."))
  else if !(← runtime.signedInRecently principal) then
    .raise freshSignInRequired
  else if !runtime.passwordPolicy newPassword user then
    .raise (.passwordPolicy "new_password")
  else
    let hash ← runtime.getPasswordHash newPassword
    let _ ←
      runtime.update user { hashedPassword := some hash }

/- Keep the caller's session and sign the others out. -/
def evictOthers
    (user : User)
    (current : Option Nat) : Flow Unit := do
  if runtime.sessions.isSome then
    if let some key := current then
      let _ ← Sessions.setTokenVersion key
        (runtime.tokenVersion user)
    Sessions.terminateAllUserSessions user.id current

/- The writes of a change, and the eviction after them. -/
def applyChange
    (user : User)
    (newPassword : String)
    (current : Option Nat) : Flow Unit := do
  let hash ← runtime.getPasswordHash newPassword
  let user ←
    runtime.update user { hashedPassword := some hash }
  let user ← runtime.incrementTokenVersion user
  runtime.evictOthers user current

/- Change the password, verifying the current one. -/
def changePassword
    (principal : Principal)
    (currentPassword newPassword : String) :
    Flow Unit := do
  let user := principal.user
  if user.hashedPassword.isUnusablePassword then
    .raise (.badRequest ("Account has no password; "
      ++ "use /set-password to create one."))
  else if !runtime.verifyPassword currentPassword
      user.hashedPassword then
    .raise (.unauthorized "Current password is incorrect.")
  else if !runtime.passwordPolicy newPassword user then
    .raise (.passwordPolicy "new_password")
  else
    runtime.applyChange user newPassword principal.sessionId

------------------------------------------------------------
-- Two-Factor Enrollment
------------------------------------------------------------

variable (config : MfaConfig)

/-
  The password, or a recent sign-in for an account without
  one, opens an enrollment.
-/
def totpSetup
    (principal : Principal)
    (password : Option String) : Flow Secret := do
  let user := principal.user
  if user.hashedPassword.isUnusablePassword then
    if ← runtime.signedInRecently principal then
      runtime.beginSetup user
    else
      .raise freshSignInRequired
  else
    let verified := password.any fun plain =>
      runtime.verifyPassword plain user.hashedPassword
    if verified then
      runtime.beginSetup user
    else
      .raise (.unauthorized "Incorrect password")

/- `totp_disable` -/
def totpDisable
    (principal : Principal)
    (code : Code) : Flow Unit := do
  if config.required principal.user then
    .raise (.forbidden ("Two-factor authentication is "
      ++ "required for this account."))
  else
    let (accepted, user) ←
      config.verifyCode principal.user code
    if accepted then
      let _ ← runtime.disable user
    else
      .raise invalidCode

/- `regenerate_recovery_codes` -/
def regenerate
    (principal : Principal)
    (code : Code) : Flow (List RecoveryCode) := do
  let (accepted, user) ←
    config.verifyCode principal.user code
  if accepted then
    runtime.regenerateRecoveryCodes config user
  else
    .raise invalidCode

end Runtime

end CrudAuth
