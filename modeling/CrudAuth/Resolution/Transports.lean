import CrudAuth.Sessions.Manager

/-
  `AuthContext` and `authenticate`, `revalidate` of the two
  transports, down to single store and database reads.

  Session ids and CSRF tokens are stored under the prefix
  of their store and a keyed hash, which is a field.  The
  claims of a bearer token with a good signature are what
  `decode` makes of it.

  Main declarations:
    * `AuthContext.resolveUser`
    * `SessionTransport.validateSession`
    * `SessionTransport.authenticate`
    * `SessionTransport.revalidate`
    * `BearerTransport.authenticate`
-/

namespace CrudAuth

namespace Resolution

open Concurrency

------------------------------------------------------------
-- Requests, Rows And Principals
------------------------------------------------------------

/- A user row with its superuser flag. -/
structure Account extends User where
  isSuperuser : Bool

/- A stored session with the key of its CSRF token. -/
structure SessionRecord extends SessionData where
  csrfTokenId : Option String

/- A stored CSRF token; the key of its session binds it. -/
structure CSRFToken where
  token : String
  sessionId : String
deriving DecidableEq, Repr

/-
  What authentication reads of a request.  The header is
  split at its first space.
-/
structure HttpRequest where
  method : String
  cookies : String → Option String
  csrfHeader : Option String
  authorization : Option (String × String)

/- `metadata` holds at most the session's id. -/
structure Principal where
  userId : UserId
  scopes : List String
  transport : String
  user : Account
  isSuperuser : Bool
  emailVerified : Bool
  recoveryVerified : Bool
  sessionId : Option String

------------------------------------------------------------
-- Operations
------------------------------------------------------------

/- An open database session. -/
abbrev DbSession := Nat

/- What resolving a principal asks for. -/
inductive Op
  | now
  | sessionGet (key : String)
  | sessionTouch (key : String) (now ttl : Nat)
  | sessionDelete (key : String) (userId : UserId)
  | csrfGet (key : String)
  | csrfExtend (key : String) (ttl : Nat)
  | csrfDelete (key : String)
  | getById (db : DbSession) (id : UserId)

/- The answers to it. -/
@[reducible]
def Op.Ret : Op → Type
  | .now => Nat
  | .sessionGet _ => Option SessionRecord
  | .sessionTouch _ _ _ => Option SessionRecord
  | .sessionDelete _ _ => Unit
  | .csrfGet _ => Option CSRFToken
  | .csrfExtend _ _ => Unit
  | .csrfDelete _ => Unit
  | .getById _ _ => Option Account

/- The stores and the clock, as a transport sees them. -/
abbrev interface : Interface where
  Op := Op
  Ret := Op.Ret

/- A call of a transport, step by step. -/
abbrev Flow := Program interface HttpError

/- A step of it, with its answer. -/
abbrev Act := Action interface

/- One step. -/
def call (op : Op) : Flow op.Ret :=
  Program.call (I := interface) op

------------------------------------------------------------
-- The Context
------------------------------------------------------------

/- One resolution's context, with the rows it has loaded. -/
structure AuthContext where
  db : DbSession
  enforceCsrf : Bool
  updateActivity : Bool
  loaded : List (UserId × Option Account) := []

namespace AuthContext

/- Load a row once per context. -/
def resolveUser
    (ctx : AuthContext)
    (id : UserId) : Flow (Option Account × AuthContext) :=
  match ctx.loaded.lookup id with
  | some found => return (found, ctx)
  | none => do
      let found ← call (.getById ctx.db id)
      return (found,
        { ctx with loaded := (id, found) :: ctx.loaded })

end AuthContext

/- The status flags are those of the row. -/
def buildPrincipal
    (runtime : Runtime)
    (user : Account)
    (transport : String)
    (scopes : List String)
    (sessionId : Option String) : Principal where
  userId := user.id
  scopes := scopes
  transport := transport
  user := user
  isSuperuser := user.isSuperuser
  emailVerified := user.emailVerified
  recoveryVerified := runtime.recoveryVerified user.toUser
  sessionId := sessionId

------------------------------------------------------------
-- The Session Transport
------------------------------------------------------------

/- `SAFE_METHODS` -/
def safeMethods : List String :=
  ["GET", "HEAD", "OPTIONS", "TRACE"]

/- With CSRF on, the manager is bound to a CSRF store. -/
structure SessionTransport where
  config : SessionConfig
  csrfEnabled : Bool
  cookieName : String
  storagePrefix : String
  csrfStoragePrefix : String
  sessionKey : String → String
  csrfKey : String → String

namespace SessionTransport

variable (transport : SessionTransport)

/- `SessionTransport.name` -/
def name : String := "session"

/- Where the record of a session id is stored. -/
def storedAt (sessionId : String) : String :=
  transport.storagePrefix ++ transport.sessionKey sessionId

/- Where the record of a CSRF token is stored. -/
def csrfStoredAt (token : String) : String :=
  transport.csrfStoragePrefix ++ transport.csrfKey token

/- Keep the CSRF record as long as its session. -/
def extendCsrf
    (session : SessionRecord)
    (ttl : Nat) : Flow Unit :=
  match session.csrfTokenId with
  | some csrfId =>
      if transport.csrfEnabled then
        call (.csrfExtend
          (transport.csrfStoragePrefix ++ csrfId) ttl)
      else
        return ()
  | none => return ()

/- `_terminate`: the record, then its CSRF record. -/
def terminate
    (sessionId : String)
    (session : SessionRecord) : Flow Unit := do
  call (.sessionDelete (transport.storedAt sessionId)
    session.userId)
  match session.csrfTokenId with
  | some csrfId =>
      if transport.csrfEnabled then
        call (.csrfDelete
          (transport.csrfStoragePrefix ++ csrfId))
      else
        return ()
  | none => return ()

/- The live session of an id, its activity updated. -/
def validateSession
    (sessionId : String)
    (updateActivity : Bool) :
    Flow (Option SessionRecord) := do
  let key := transport.storedAt sessionId
  match ← call (.sessionGet key) with
  | none => return none
  | some session =>
      let now ← call .now
      if transport.config.isIdleExpired session.toSessionData
          now then
        transport.terminate sessionId session
        return none
      else if transport.config.isOverAge
          session.toSessionData now then
        transport.terminate sessionId session
        return none
      else if updateActivity then
        let ttl := transport.config.timeoutSecondsFor
          session.rememberMe
        match ← call (.sessionTouch key now ttl) with
        | none => return none
        | some touched =>
            transport.extendCsrf touched ttl
            return some touched
      else
        return some session

/- A live token that is bound to the session. -/
def validateCsrfToken
    (sessionId token : String) : Flow Bool :=
  if transport.csrfEnabled then
    if sessionId.isEmpty || token.isEmpty then
      return false
    else do
      match ← call
          (.csrfGet (transport.csrfStoredAt token)) with
      | none => return false
      | some record =>
          return record.sessionId ==
            transport.sessionKey sessionId
  else
    return true

/- Safe methods need no token. -/
def enforceCsrf
    (request : HttpRequest)
    (sessionId : String) : Flow Unit :=
  if !transport.csrfEnabled ||
      safeMethods.contains request.method then
    return ()
  else
    match request.csrfHeader with
    | none => .raise (.forbidden "Missing CSRF token")
    | some header =>
        if header.isEmpty then
          .raise (.forbidden "Missing CSRF token")
        else do
          if ← transport.validateCsrfToken sessionId
              header then
            return ()
          else
            .raise (.forbidden "Invalid CSRF token")

/- The CSRF check, where the context asks for it. -/
def checkCsrf
    (request : HttpRequest)
    (sessionId : String)
    (ctx : AuthContext) : Flow Unit :=
  if ctx.enforceCsrf then
    transport.enforceCsrf request sessionId
  else
    return ()

/- The activity update, where the context asks for it. -/
def checkActivity
    (sessionId : String)
    (ctx : AuthContext) : Flow Bool :=
  if ctx.updateActivity then do
    let session ← transport.validateSession sessionId true
    return session.isSome
  else
    return true

/- What follows the CSRF check of a live session. -/
def identify
    (runtime : Runtime)
    (sessionId : String)
    (session : SessionRecord)
    (ctx : AuthContext) :
    Flow (Option Principal × AuthContext) := do
  let (found, ctx) ← ctx.resolveUser session.userId
  match found with
  | none => return (none, ctx)
  | some user =>
      if !user.isActive then
        return (none, ctx)
      else if
          session.tokenVersion ≠ none ∧
          session.tokenVersion ≠
            some (runtime.tokenVersion user.toUser) then
        return (none, ctx)
      else
        return (some (buildPrincipal runtime user name []
          (some sessionId)), ctx)

/- `SessionTransport.authenticate` -/
def authenticate
    (runtime : Runtime)
    (request : HttpRequest)
    (ctx : AuthContext) :
    Flow (Option Principal × AuthContext) :=
  match request.cookies transport.cookieName with
  | none => return (none, ctx)
  | some sessionId =>
      if sessionId.isEmpty then
        return (none, ctx)
      else do
        match ← transport.validateSession sessionId
            ctx.updateActivity with
        | none => return (none, ctx)
        | some session =>
            transport.checkCsrf request sessionId ctx
            identify runtime sessionId session ctx

/- Run the checks an earlier resolution has skipped. -/
def revalidate
    (request : HttpRequest)
    (principal : Principal)
    (ctx : AuthContext) : Flow Bool :=
  match principal.sessionId with
  | none => return true
  | some sessionId =>
      if sessionId.isEmpty then
        return true
      else do
        if ← transport.checkActivity sessionId ctx then
          transport.checkCsrf request sessionId ctx
          return true
        else
          return false

end SessionTransport

------------------------------------------------------------
-- The Bearer Transport
------------------------------------------------------------

/- `decode` checks the signature of a token. -/
structure BearerTransport where
  decode : String → Option Jwt

namespace BearerTransport

variable (transport : BearerTransport)

/- `BearerTransport.name` -/
def name : String := "bearer"

/- The claims of a live access token. -/
def verifyToken (token : String) : Flow (Option Jwt) := do
  let now ← call .now
  match transport.decode token with
  | none => return none
  | some payload =>
      if payload.exp ≤ now then
        return none
      else if payload.tokenType ≠ .access then
        return none
      else
        return some payload

/- `is_expired_token` -/
def isExpiredToken (token : String) : Flow Bool := do
  let now ← call .now
  match transport.decode token with
  | none => return false
  | some payload => return decide (payload.exp ≤ now)

/- An expired token counts as absent, a bad one raises. -/
def authenticate
    (runtime : Runtime)
    (request : HttpRequest)
    (ctx : AuthContext) :
    Flow (Option Principal × AuthContext) :=
  match request.authorization with
  | none => return (none, ctx)
  | some (scheme, token) =>
      if scheme.toLower ≠ name ∨ token.isEmpty then
        return (none, ctx)
      else do
        match ← transport.verifyToken token with
        | none =>
            if ← transport.isExpiredToken token then
              return (none, ctx)
            else
              .raise (.unauthorized "Invalid token")
        | some payload =>
            let (found, ctx) ← ctx.resolveUser payload.sub
            match found with
            | none => return (none, ctx)
            | some user =>
                if !user.isActive then
                  return (none, ctx)
                else if payload.ver ≠
                    runtime.tokenVersion user.toUser then
                  return (none, ctx)
                else
                  return (some (buildPrincipal runtime user
                    name payload.scopes none), ctx)

end BearerTransport

end Resolution

end CrudAuth
