import CrudAuth.Transports.Authenticate

/-
  `MfaService`: enrollment, codes and login challenges.

  Main declarations:
    * `verifyCode`
    * `beginSetup`
    * `confirmSetup`
    * `enable`
    * `challengeLogin`
    * `completeChallenge`
-/

namespace CrudAuth

open Concurrency

------------------------------------------------------------
-- State
------------------------------------------------------------

namespace User

variable (user : User)

/- Whether the account has a confirmed authenticator. -/
def isEnrolled : Bool :=
  user.totpConfirmedAt.isSome &&
    user.totpSecretEncrypted.isSome

end User

namespace Runtime

variable (runtime : Runtime)

/-
  The secret of an unconfirmed setup, if it was issued
  under the version the copy shows.  A bare secret has no
  version in front of it.
-/
def pendingSecret (user : User) : Option Secret :=
  if user.totpConfirmedAt.isSome then
    none
  else
    match user.totpSecretEncrypted with
    | some (.bound version secret) =>
        if version = runtime.tokenVersion user then
          some secret
        else
          none
    | some (.bare _) => none
    | some .unreadable => none
    | none => none

/- The write of `_store_pending`. -/
def pendingPatch (user : User) (secret : Secret) :
    Patch where
  totpSecretEncrypted :=
    some (some (.bound (runtime.tokenVersion user) secret))
  totpConfirmedAt := some none
  totpLastStep := some none
  mfaRecoveryCodes := some none

end Runtime

/- The write of `_enable`. -/
def enablePatch
    (secret : Secret)
    (now : Nat)
    (codes : List RecoveryCode) : Patch where
  totpSecretEncrypted := some (some (.bare secret))
  totpConfirmedAt := some (some now)
  mfaRecoveryCodes := some (some codes)

/- The write of `disable`, also part of an OAuth claim. -/
def disablePatch : Patch where
  totpSecretEncrypted := some none
  totpConfirmedAt := some none
  totpLastStep := some none
  mfaRecoveryCodes := some none

/- The write of recovery codes alone. -/
def codesPatch (codes : List RecoveryCode) : Patch where
  mfaRecoveryCodes := some (some codes)

/- `generate_recovery_codes`: one batch of random codes. -/
def recoveryBatch
    (batch count : Nat) : List RecoveryCode :=
  (List.range count).map fun index => ⟨batch, index⟩

------------------------------------------------------------
-- Codes
------------------------------------------------------------

namespace MfaConfig

variable (config : MfaConfig)

/- The newest matching step within one step of drift. -/
def matchingStep
    (secret : Secret)
    (digits : String)
    (now : Nat) : Option Nat :=
  let current := now / 30
  [current + 1, current, current - 1].find? fun step =>
    config.totpCode secret step == digits

/- A step is claimed only for a code that matches. -/
def acceptTotp
    (user : User)
    (secret : Secret)
    (code : Code) : Flow (Bool × User) :=
  match code with
  | .recovery _ => return (false, user)
  | .digits digits => do
      let now ← call .now
      match config.matchingStep secret digits now with
      | none => return (false, user)
      | some step => Runtime.claimTotpStep user step

/-
  A code from the enrolled authenticator.  A pending
  secret is no base32 text, so computing a code from it
  raises.
-/
def verifyTotp
    (user : User)
    (code : Code) : Flow (Bool × User) :=
  if user.isEnrolled then
    match user.totpSecretEncrypted with
    | some (.bare secret) =>
        config.acceptTotp user secret code
    | some (.bound _ _) => .raise .unhandled
    | some .unreadable => return (false, user)
    | none => return (false, user)
  else
    return (false, user)

/- Spend a recovery code, retrying a lost race. -/
def consumeRecoveryCode
    (code : RecoveryCode) :
    Nat → User → Flow (Bool × User)
  | 0, user => return (false, user)
  | attempts + 1, user => do
      let stored := user.mfaRecoveryCodes
      let hashes := stored.getD []
      if code ∈ hashes then
        let (spent, user) ← Runtime.updateIfUnchanged user
          (.mfaRecoveryCodes stored)
          (codesPatch (hashes.filter (· ≠ code)))
        if spent then
          return (true, user)
        else
          consumeRecoveryCode code attempts user
      else
        return (false, user)

/- `RECOVERY_CODE_CLAIM_ATTEMPTS` -/
def recoveryCodeClaimAttempts : Nat := 3

/- An authenticator code, or else a recovery code. -/
def verifyCode
    (user : User)
    (code : Code) : Flow (Bool × User) :=
  match code with
  | .digits _ => config.verifyTotp user code
  | .recovery recovery =>
      if user.isEnrolled then
        consumeRecoveryCode recovery
          recoveryCodeClaimAttempts user
      else
        return (false, user)

end MfaConfig

------------------------------------------------------------
-- Enrollment
------------------------------------------------------------

namespace Runtime

variable (runtime : Runtime)
variable (config : MfaConfig)

/- The refusal of a second authenticator. -/
def alreadyEnabled : HttpError :=
  .badRequest "Two-factor authentication is already enabled."

/- The refusal of a challenge that is gone. -/
def invalidChallenge : HttpError :=
  .badRequest "Invalid or expired MFA challenge"

/- The refusal of a wrong code. -/
def invalidCode : HttpError :=
  .unauthorized "Invalid code"

/- `_store_pending` -/
def storePending
    (user : User)
    (secret : Secret) : Flow User :=
  runtime.update user (runtime.pendingPatch user secret)

/- Start, or restart, enrollment with a new secret. -/
def beginSetup (user : User) : Flow Secret := do
  if user.isEnrolled then
    .raise alreadyEnabled
  else
    let secret ← call .fresh
    let _ ← runtime.storePending user secret
    return secret

/- `_pending_or_new_secret` -/
def pendingOrNewSecret
    (user : User) : Flow (Secret × User) :=
  match runtime.pendingSecret user with
  | some secret => return (secret, user)
  | none => do
      let secret ← call .fresh
      return (secret, ← runtime.storePending user secret)

/-
  Confirm the pending authenticator unless a concurrent
  request confirmed one first.
-/
def enable
    (user : User)
    (secret : Secret) :
    Flow (Option (List RecoveryCode) × User) := do
  let batch ← call .fresh
  let codes := recoveryBatch batch config.recoveryCodeCount
  let now ← call .now
  let (enabled, user) ← updateIfUnchanged user
    (.totpConfirmedAt none) (enablePatch secret now codes)
  if enabled then
    return (some codes, user)
  else
    return (none, user)

/- `confirm_setup` -/
def confirmSetup
    (user : User)
    (code : Code) : Flow (List RecoveryCode) := do
  if user.isEnrolled then
    .raise alreadyEnabled
  else
    match runtime.pendingSecret user with
    | none =>
        .raise (.badRequest
          "No authenticator setup is pending.")
    | some secret =>
        let (accepted, user) ←
          config.acceptTotp user secret code
        if accepted then
          match ← enable config user secret with
          | (some codes, _) => return codes
          | (none, _) => .raise alreadyEnabled
        else
          .raise invalidCode

/- `disable` -/
def disable (user : User) : Flow User :=
  runtime.update user disablePatch

/- `regenerate_recovery_codes` -/
def regenerateRecoveryCodes
    (user : User) : Flow (List RecoveryCode) := do
  if user.isEnrolled then
    let batch ← call .fresh
    let codes :=
      recoveryBatch batch config.recoveryCodeCount
    let _ ← runtime.update user (codesPatch codes)
    return codes
  else
    .raise (.badRequest
      "Two-factor authentication isn't enabled.")

------------------------------------------------------------
-- Login Challenges
------------------------------------------------------------

/- Clear the lockout pressure a login earned. -/
def recordLoginSuccess
    (ip identifier : String) : Flow Unit := do
  if runtime.lockout then
    call (.recordSuccess ip identifier)

/- Count an attempt, unless the lockout is engaged. -/
def countLoginAttempt
    (ip identifier : String) : Flow (Option Nat) := do
  if runtime.lockout then
    call (.recordFailure ip identifier)
  else
    return none

/- A challenge bound to the version the copy shows. -/
def createChallenge
    (user : User)
    (transport : TransportName)
    (ip identifier : String)
    (options : LoginOptions)
    (setup : Option Secret) :
    Flow (Nat × Option Secret) := do
  let token ← call .fresh
  call (.challengeCreate token
    { accountId := user.id
      tokenVersion := runtime.tokenVersion user
      transport
      setup := setup.isSome
      lockoutIdentifier := identifier
      ipAddress := ip
      options }
    config.challengeTtlSeconds)
  return (token, setup)

/-
  The second step of a login whose password checked out,
  or `none` when the account neither uses nor requires it.
-/
def challengeLogin
    (user : User)
    (transport : TransportName)
    (ip identifier : String)
    (options : LoginOptions) :
    Flow (Option (Nat × Option Secret)) := do
  if !user.isEnrolled && !config.required user then
    runtime.recordLoginSuccess ip identifier
    return none
  else if user.isEnrolled then
    return some (← runtime.createChallenge config user
      transport ip identifier options none)
  else
    let (secret, user) ← runtime.pendingOrNewSecret user
    return some (← runtime.createChallenge config user
      transport ip identifier options (some secret))

/- The transport a challenge was created for. -/
def hasTransport : TransportName → Bool
  | .session => runtime.sessions.isSome
  | .bearer => runtime.bearer.isSome

/-
  The code of a challenge: for a setup, one from the
  authenticator being enrolled, with its pending secret.
-/
def checkChallengeCode
    (challenge : MfaChallenge)
    (user : User)
    (code : Code) :
    Flow (Option Secret × Bool × User) :=
  if challenge.setup then
    let pending :=
      if user.isEnrolled then
        none
      else
        runtime.pendingSecret user
    match pending with
    | none => return (none, false, user)
    | some secret => do
        let (accepted, user) ←
          config.acceptTotp user secret code
        return (some secret, accepted, user)
  else do
    let (accepted, user) ← config.verifyCode user code
    return (none, accepted, user)

/- A setup challenge enables the secret it checked. -/
def enableSetup
    (user : User)
    (secret : Option Secret) :
    Flow (Option (List RecoveryCode) × User) :=
  match secret with
  | some secret => enable config user secret
  | none => return (none, user)

/- What follows once the challenge has been taken. -/
def finishChallenge
    (challenge : MfaChallenge)
    (secret : Option Secret)
    (presented : Option Nat)
    (user : User) : Flow Response := do
  let (recoveryCodes, user) ←
    enableSetup config user secret
  runtime.recordLoginSuccess challenge.ipAddress
    challenge.lockoutIdentifier
  let issued ← runtime.completeLogin challenge.transport
    presented user challenge.options
  return .signedIn issued recoveryCodes

/-
  Check the code of a challenge, consume the challenge and
  issue the credential its login started.
-/
def completeChallenge
    (token : Nat)
    (code : Code)
    (presented : Option Nat) : Flow Response := do
  let some pending ← call (.challengeGet token)
    | .raise invalidChallenge
  if !runtime.hasTransport pending.transport then
    .raise invalidChallenge
  else
  let some challenge ← call (.challengeAttempt token)
    | .raise invalidChallenge
  if config.maxCodeAttempts < challenge.attempts then
    call (.challengeDelete token)
    .raise invalidChallenge
  else
  match ← runtime.countLoginAttempt challenge.ipAddress
      challenge.lockoutIdentifier with
  | some retryAfter =>
      call (.challengeDelete token)
      .raise (.rateLimited retryAfter)
  | none =>
  let user? ← getById challenge.accountId
  match user? with
  | none =>
      call (.challengeDelete token)
      .raise invalidChallenge
  | some user =>
  if !user.isActive ∨
      runtime.tokenVersion user ≠
        challenge.tokenVersion then
    call (.challengeDelete token)
    .raise invalidChallenge
  else
  let (secret, accepted, user) ←
    runtime.checkChallengeCode config challenge user code
  if !accepted then
    if config.maxCodeAttempts ≤ challenge.attempts then
      call (.challengeDelete token)
    .raise invalidCode
  else
  let some _ ← call (.challengeTake token)
    | .raise invalidChallenge
  runtime.finishChallenge config challenge secret
    presented user

end Runtime

end CrudAuth
