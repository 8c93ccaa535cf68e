import CrudAuth.Sessions.Manager

/-
  `Transport.authenticate` and `complete_login` of the two
  transports, and the principal they resolve.

  A request presents one credential.  The cross-site and
  CSRF checks only refuse requests and are left out.

  Main declarations:
    * `authenticate`
    * `currentUser`
    * `issueTokens`
    * `completeLogin`
-/

namespace CrudAuth

open Concurrency

/- The row copy and the session a request runs under. -/
structure Principal where
  user : User
  sessionId : Option Nat

namespace Runtime

variable (runtime : Runtime)

------------------------------------------------------------
-- Authentication
------------------------------------------------------------

/-
  A session bound to a version the user has since moved
  past authenticates nobody.
-/
def authenticateSession
    (config : SessionConfig)
    (key : Nat) : Flow (Option Principal) := do
  match ← Sessions.validateSession config key with
  | none => return none
  | some session =>
      match ← getById session.userId with
      | none => return none
      | some user =>
          if !user.isActive then
            return none
          else if
              session.tokenVersion ≠ none ∧
              session.tokenVersion ≠
                some (runtime.tokenVersion user) then
            return none
          else
            return some ⟨user, some key⟩

/- An expired token counts as absent, a wrong one raises. -/
def authenticateBearer
    (token : Jwt) : Flow (Option Principal) := do
  let now ← call .now
  if token.exp ≤ now then
    return none
  else if token.tokenType ≠ .access then
    .raise (.unauthorized "Invalid token")
  else
    match ← getById token.sub with
    | none => return none
    | some user =>
        if !user.isActive then
          return none
        else if token.ver ≠ runtime.tokenVersion user then
          return none
        else
          return some ⟨user, none⟩

/- A credential without its transport is not looked at. -/
def authenticate
    (credential : Credential) :
    Flow (Option Principal) :=
  match credential, runtime.sessions, runtime.bearer with
  | .session key, some config, _ =>
      runtime.authenticateSession config key
  | .session _, none, _ => return none
  | .bearer token, _, some _ =>
      runtime.authenticateBearer token
  | .bearer _, _, none => return none

/- The `current_user` gate. -/
def currentUser
    (credential : Credential) : Flow Principal := do
  match ← runtime.authenticate credential with
  | some principal => return principal
  | none => .raise .notAuthenticated

------------------------------------------------------------
-- Issuing Credentials
------------------------------------------------------------

/- The requested scopes, or the defaults, clamped. -/
def grantScopes
    (config : BearerConfig)
    (requested : List String) : List String :=
  let asked :=
    if requested.isEmpty then
      config.defaultScopes
    else
      requested
  asked.filter fun scope => scope ∈ config.grantableScopes

/- An access token stamped with the epoch of the copy. -/
def accessToken
    (config : BearerConfig)
    (user : User)
    (scopes : List String)
    (now : Nat) : Jwt where
  tokenType := .access
  sub := user.id
  ver := runtime.tokenVersion user
  scopes := scopes
  exp := now + config.accessTtl

/- The refresh token of a login. -/
def refreshToken
    (config : BearerConfig)
    (user : User)
    (scopes : List String)
    (now : Nat) : Jwt where
  tokenType := .refresh
  sub := user.id
  ver := runtime.tokenVersion user
  scopes := scopes
  exp := now + config.refreshTtl

/- `issue_tokens` -/
def issueTokens
    (config : BearerConfig)
    (user : User)
    (requested : List String) : Flow Issued := do
  let scopes := grantScopes config requested
  let now ← call .now
  return .tokens
    (runtime.accessToken config user scopes now)
    (runtime.refreshToken config user scopes now)

/- Issue the credential of a fully verified login. -/
def completeLogin
    (transport : TransportName)
    (presented : Option Nat)
    (user : User)
    (options : LoginOptions) : Flow Issued :=
  match transport, runtime.sessions, runtime.bearer with
  | .session, some config, _ => do
      let key ← Sessions.createSession config presented
        user.id options.rememberMe options.loginType
        (runtime.tokenVersion user)
      return .session user.id key
  | .bearer, _, some config =>
      runtime.issueTokens config user options.scopes
  | .session, none, _ => .raise .unhandled
  | .bearer, _, none => .raise .unhandled

/- `/refresh`: a new access token for a refresh token. -/
def refreshAccess (token : Jwt) : Flow Jwt := do
  match runtime.bearer with
  | none => .raise .unhandled
  | some config =>
      let refused : HttpError :=
        .unauthorized "Invalid or expired refresh token"
      let now ← call .now
      if token.exp ≤ now ∨ token.tokenType ≠ .refresh then
        .raise refused
      else
        match ← getById token.sub with
        | none => .raise refused
        | some user =>
            if !user.isActive then
              .raise refused
            else if
                token.ver ≠ runtime.tokenVersion user then
              .raise refused
            else
              let scopes := token.scopes.filter fun scope =>
                scope ∈ config.grantableScopes
              let minted ← call .now
              return runtime.accessToken config user
                scopes minted

end Runtime

end CrudAuth
