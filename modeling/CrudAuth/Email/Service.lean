import CrudAuth.Core

/-
  `EmailFlowService`: verification, password reset and
  email change over signed tokens.

  A token carries a fingerprint of the account state it
  authorizes.  The digest stands for the state itself.

  Main declarations:
    * `stateFingerprint`
    * `redeemToken`
    * `resetPassword`
    * `confirmEmailChange`
-/

namespace CrudAuth

open Concurrency

namespace Runtime

variable (runtime : Runtime)
variable (flows : EmailFlows)

------------------------------------------------------------
-- Tokens
------------------------------------------------------------

/- The account state a token of a purpose authorizes. -/
def stateFingerprint
    (purpose : Purpose)
    (user : User) : Fingerprint :=
  match purpose with
  | .verify => .verify (runtime.recoveryValue user)
  | .reset =>
      .reset user.hashedPassword
        (runtime.recoveryValue user)
  | .change =>
      .change user.hashedPassword user.email
        (runtime.tokenVersion user)

@[simp]
theorem purpose_stateFingerprint
    (purpose : Purpose)
    (user : User) :
    (runtime.stateFingerprint purpose user).purpose =
      purpose := by
  cases purpose <;> rfl

/- Sign a token bound to the state the copy shows. -/
def mintToken
    (purpose : Purpose)
    (user : User)
    (ttl : Nat)
    (newEmail : Option String) : Flow SignedToken := do
  let now ← call .now
  return {
    sub := user.id
    state := runtime.stateFingerprint purpose user
    newEmail
    exp := now + ttl }

/- The refusal of a bad token. -/
def invalidToken : HttpError :=
  .badRequest "Invalid or expired token"

/- The refusal of a token that has been used. -/
def tokenUsed : HttpError :=
  .badRequest "Token already used"

/- The user of a valid token still in the minted state. -/
def redeemToken
    (token : SignedToken)
    (purpose : Purpose) : Flow User := do
  let now ← call .now
  if token.exp ≤ now ∨ token.state.purpose ≠ purpose then
    .raise invalidToken
  else
    match ← getById token.sub with
    | none => .raise invalidToken
    | some user =>
        if !user.isActive ∨
            token.state ≠
              runtime.stateFingerprint purpose user then
          .raise invalidToken
        else
          return user

/- Mark a token used; a replay is refused. -/
def consume
    (token : SignedToken)
    (ttl : Nat) : Flow Bool :=
  if flows.tokenStore then
    call (.consumeToken token ttl)
  else
    return true

------------------------------------------------------------
-- Recovery Verification And Reset
------------------------------------------------------------

/- `request_recovery_verification` -/
def requestRecoveryVerification
    (value : String) : Flow Unit := do
  match runtime.recovery with
  | none => return ()
  | some factor =>
      if ← call (.withinLimit "verify_email" value) then
        match ← runtime.getByField factor value with
        | none => return ()
        | some user =>
            if !user.isActive ||
                runtime.recoveryVerified user then
              return ()
            else
              let token ← runtime.mintToken .verify user
                flows.verifyTtl none
              call (.deliver
                { kind :=
                    if factor = .email then
                      "verify_email"
                    else
                      "verify_recovery"
                  token := some token
                  recipient := user.get factor })

/- `confirm_recovery_verification` -/
def confirmRecoveryVerification
    (token : SignedToken) : Flow Unit := do
  let user ← runtime.redeemToken token .verify
  if ← consume flows token flows.verifyTtl then
    if !runtime.recoveryVerified user then
      let _ ← runtime.markRecoveryVerified user
  else
    .raise tokenUsed

/- `request_password_reset` -/
def requestPasswordReset (value : String) : Flow Unit := do
  match runtime.recovery with
  | none => return ()
  | some factor =>
      if ← call (.withinLimit "forgot_password" value) then
        match ← runtime.getByField factor value with
        | none => return ()
        | some user =>
            if !user.isActive then
              return ()
            else
              let token ← runtime.mintToken .reset user
                flows.resetTtl none
              call (.deliver
                { kind := "reset_password"
                  token := some token
                  recipient := user.get factor })

/- Sign out the sessions of a user, if there are any. -/
def terminateSessions
    (userId : UserId)
    (exclude : Option Nat) : Flow Unit :=
  match runtime.sessions with
  | none => return ()
  | some _ =>
      Sessions.terminateAllUserSessions userId exclude

/- The writes of a reset, and the eviction after them. -/
def applyReset
    (user : User)
    (newPassword : String) : Flow Unit := do
  let hash ← runtime.getPasswordHash newPassword
  let user ←
    runtime.update user { hashedPassword := some hash }
  let user ← runtime.incrementTokenVersion user
  runtime.terminateSessions user.id none

/-
  Reset the password and evict every outstanding
  credential.
-/
def resetPassword
    (token : SignedToken)
    (newPassword : String) : Flow Unit := do
  let user ← runtime.redeemToken token .reset
  if !runtime.passwordPolicy newPassword user then
    .raise (.passwordPolicy "new_password")
  else if ← consume flows token flows.resetTtl then
    runtime.applyReset user newPassword
  else
    .raise tokenUsed

------------------------------------------------------------
-- Email Change
------------------------------------------------------------

/- A confirmation link for the new address. -/
def requestEmailChange
    (user : User)
    (newEmail password : String) : Flow Unit := do
  if !runtime.verifyPassword password
      user.hashedPassword then
    .raise (.badRequest "Incorrect password")
  else
    let newEmail := runtime.canonicalEmail newEmail
    if some newEmail =
        user.email.map runtime.canonicalEmail then
      .raise (.badRequest
        "New email matches current email")
    else
      if ← call (.withinLimit "change_email" newEmail) then
        match ← runtime.getByField .email newEmail with
        | some _ => return ()
        | none =>
            let token ← runtime.mintToken .change user
              flows.changeTtl (some newEmail)
            call (.deliver
              { kind := "change_email"
                token := some token
                recipient := some newEmail })

/- The refusal of a taken address. -/
def emailInUse : HttpError :=
  .duplicate "Email already in use"

/- Apply a confirmed change; the new email is proven. -/
def confirmEmailChange
    (token : SignedToken) : Flow Unit := do
  let user ← runtime.redeemToken token .change
  match token.newEmail.map runtime.canonicalEmail with
  | none => .raise (.badRequest "Invalid token")
  | some "" => .raise (.badRequest "Invalid token")
  | some newEmail =>
      match ← runtime.getByField .email newEmail with
      | some _ => .raise emailInUse
      | none =>
          if ← consume flows token flows.changeTtl then
            let updated ← runtime.update? user
              { email := some (some newEmail)
                emailVerified := some true }
            match updated with
            | none => .raise emailInUse
            | some _ =>
                if user.email.isSome then
                  call (.deliver
                    { kind := "email_changed"
                      token := none
                      recipient := user.email })
          else
            .raise tokenUsed

end Runtime

end CrudAuth
