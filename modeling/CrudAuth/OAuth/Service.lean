import CrudAuth.Email.Service

/-
  `OAuthAccountService`: the account of a provider
  identity, found, linked, claimed or created.

  Main declarations:
    * `linkPatch`
    * `getOrCreateUser`
    * `oauthCallback`
-/

namespace CrudAuth

open Concurrency

namespace Runtime

variable (runtime : Runtime)

/- The refusal of a deactivated account. -/
def accountInactive : HttpError :=
  .badRequest "This account is disabled."

------------------------------------------------------------
-- Linking
------------------------------------------------------------

/- What linking writes to a verified account. -/
def linkPatch (info : OAuthUserInfo) : Patch where
  providerId := some (info.provider, info.providerUserId)

/- What claiming an unverified account writes. -/
def claimPatch
    (info : OAuthUserInfo)
    (suffix : Nat) : Patch :=
  { disablePatch with
    providerId := some (info.provider, info.providerUserId)
    hashedPassword := some (.unusable suffix)
    emailVerified := some true }

/- Cut off whoever held the account before the claim. -/
def claim
    (user : User)
    (info : OAuthUserInfo) : Flow User := do
  let suffix ← call .fresh
  let user ← runtime.update user (claimPatch info suffix)
  let user ← runtime.incrementTokenVersion user
  runtime.terminateSessions user.id none
  return user

/- Attach a provider identity to an existing account. -/
def link
    (user : User)
    (info : OAuthUserInfo) : Flow User := do
  if (user.providerIds info.provider).isSome then
    .raise (.badRequest ("This account is already linked "
      ++ "to a different account."))
  else if user.emailVerified then
    runtime.update user (linkPatch info)
  else
    runtime.claim user info

------------------------------------------------------------
-- Creation
------------------------------------------------------------

/- The first candidate that no account uses. -/
def firstFree : List String → Flow (Option String)
  | [] => return none
  | candidate :: candidates => do
      match ← runtime.getByField .username candidate with
      | none => return some candidate
      | some _ => firstFree candidates

/- A username with a random suffix. -/
def randomUsername (base : String) : Flow String := do
  let suffix ← call .fresh
  return runtime.usernameWithSuffix base (toString suffix)

/- Numbered suffixes, then a random one. -/
def uniqueUsername (base : String) : Flow String := do
  let numbered := (List.range 99).map fun n =>
    runtime.usernameWithSuffix base (toString (n + 1))
  match ← runtime.firstFree (base :: numbered) with
  | some username => return username
  | none => runtime.randomUsername base

/- The row of a new account that only a provider signs. -/
def newRow
    (info : OAuthUserInfo)
    (email username : String)
    (suffix : Nat) : User where
  id := 0
  email := some email
  username := some username
  columns := fun _ => none
  hashedPassword := .unusable suffix
  isActive := true
  emailVerified := true
  factorVerified := false
  tokenVersion := 0
  providerIds := fun provider =>
    if provider = info.provider then
      some info.providerUserId
    else
      none
  totpSecretEncrypted := none
  totpConfirmedAt := none
  totpLastStep := none
  mfaRecoveryCodes := none

/- Retried once when another sign-up took the username. -/
def createUser
    (info : OAuthUserInfo)
    (email : String) : Flow User := do
  let base := runtime.usernameBase info.username
  let username ← runtime.uniqueUsername base
  let suffix ← call .fresh
  let row := newRow info (runtime.canonicalEmail email)
    username suffix
  match ← call (.insert row) with
  | some user => refreshRow user.id
  | none =>
      let username ← runtime.randomUsername base
      let retried := { row with username := some username }
      match ← call (.insert retried) with
      | some user => refreshRow user.id
      | none => .raise .unhandled

------------------------------------------------------------
-- Resolution And Callback
------------------------------------------------------------

/- Provider id, then verified email, then creation. -/
def getOrCreateUser (info : OAuthUserInfo) : Flow User := do
  let linked? ←
    getByOauth info.provider info.providerUserId
  match linked? with
  | some user =>
      if user.isActive then
        return user
      else
        .raise accountInactive
  | none =>
      match info.email with
      | none => .raise (.badRequest "email_missing")
      | some email =>
          if !info.emailVerified then
            .raise (.badRequest "email_unverified")
          else
            match ← runtime.getByField .email email with
            | some existing =>
                if existing.isActive then
                  runtime.link existing info
                else
                  .raise accountInactive
            | none => runtime.createUser info email

/- What is passed on to an OAuth login's session. -/
def oauthOptions : LoginOptions where
  loginType := some "oauth"

/- The identifier an OAuth challenge is counted under. -/
def oauthIdentifier (user : User) : String :=
  "oauth:" ++ toString user.id

/- Issue the session of an OAuth login. -/
def finishOauth
    (user : User)
    (presented : Option Nat) : Flow Response := do
  let issued ← runtime.completeLogin .session presented
    user oauthOptions
  return .signedIn issued none

/- The end of the OAuth callback, `ip` left blank. -/
def oauthCallback
    (info : OAuthUserInfo)
    (presented : Option Nat) : Flow Response := do
  let user ← runtime.getOrCreateUser info
  if !user.isActive then
    .raise accountInactive
  else
    match runtime.mfa.filter MfaConfig.oauth with
    | none => runtime.finishOauth user presented
    | some config =>
        let challenge ← runtime.challengeLogin config user
          .session "" (oauthIdentifier user) oauthOptions
        match challenge with
        | some (token, setup) =>
            return .challenged token setup
        | none => runtime.finishOauth user presented

end Runtime

end CrudAuth
