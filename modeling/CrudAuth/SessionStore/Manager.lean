import CrudAuth.SessionStore.Stores
import CrudAuth.Sessions.Manager

/-
  `SessionManager` over its session and its CSRF store.

  Main declarations:
    * `Manager`
    * `createSession`
    * `validateSession`
    * `regenerateCsrfToken`
    * `validateCsrfToken`
    * `terminateAllUserSessions`
    * `cleanupExpiredSessions`
-/

------------------------------------------------------------
-- Policy
------------------------------------------------------------

namespace CrudAuth

namespace SessionStore

open Concurrency

/-
  What a manager is built with.  `key` and `csrfKey` are
  the storage keys of session ids and of CSRF tokens.
-/
structure Manager where
  config : SessionConfig
  hasCsrfStorage : Bool
  key : Nat → Nat
  csrfKey : Nat → Nat

/- A program over the two stores. -/
abbrev Managed := Program storeOps HttpError

/- One operation on the stores. -/
def call (op : StoreOp) : Managed op.Ret :=
  Program.call (I := storeOps) op

namespace Manager

variable (manager : Manager)

/- `timeout_seconds_for` -/
def timeoutSecondsFor (session : SessionData) : Nat :=
  manager.config.timeoutSecondsFor session.rememberMe

/- `_is_idle_expired` -/
def isIdleExpired
    (session : SessionData)
    (now : Nat) : Bool :=
  session.lastActivity +
    manager.timeoutSecondsFor session < now

/- `_is_over_age` -/
def isOverAge (session : SessionData) (now : Nat) : Bool :=
  manager.config.absoluteTimeout.any fun limit =>
    session.createdAt + limit < now

------------------------------------------------------------
-- Termination
------------------------------------------------------------

/- `_terminate`: the session, and the token it names. -/
def terminate
    (key : Nat)
    (session : SessionData) : Managed Bool := do
  let deleted ← call (.sessionDelete key)
  match session.csrfTokenId, manager.hasCsrfStorage with
  | some csrfId, true =>
      let _ ← call (.csrfDelete csrfId)
      return deleted
  | _, _ => return deleted

/- `terminate_session` -/
def terminateSession (sessionId : Nat) : Managed Bool := do
  let key := manager.key sessionId
  match ← call (.sessionGet key) with
  | none => return false
  | some session => manager.terminate key session

/- The live sessions of some keys. -/
def loadSessions :
    List Nat → Managed (List (Nat × SessionData))
  | [] => return []
  | key :: keys => do
      match ← call (.sessionGet key) with
      | none => loadSessions keys
      | some session =>
          let rest ← loadSessions keys
          return (key, session) :: rest

/- `_user_sessions` -/
def userSessions
    (userId : UserId) :
    Managed (List (Nat × SessionData)) := do
  loadSessions (← call (.userSessions userId))

/- Terminate what was read, except one session. -/
def terminateEach
    (excluded : Option Nat) :
    List (Nat × SessionData) → Managed Unit
  | [] => return ()
  | (key, session) :: rest => do
      if some key = excluded then
        terminateEach excluded rest
      else
        let _ ← manager.terminate key session
        terminateEach excluded rest

/- `terminate_all_user_sessions`, also `revoke_all`. -/
def terminateAllUserSessions
    (userId : UserId)
    (exclude : Option Nat) : Managed Unit := do
  manager.terminateEach (exclude.map manager.key)
    (← userSessions userId)

/- `_enforce_session_limit`: oldest activity first. -/
def enforceSessionLimit (userId : UserId) :
    Managed Unit := do
  let active ← userSessions userId
  if manager.config.maxSessions ≤ active.length then
    let oldest := active.mergeSort fun left right =>
      left.2.lastActivity ≤ right.2.lastActivity
    manager.terminateEach none
      (oldest.take
        (active.length - manager.config.maxSessions + 1))
  else
    return ()

------------------------------------------------------------
-- CSRF Tokens
------------------------------------------------------------

/-
  `_generate_csrf_token`: a token bound to a stored session.
-/
def generateCsrfToken
    (key ttl : Nat) : Managed (Option Nat) := do
  if manager.hasCsrfStorage then
    let token ← call .fresh
    let now ← call .now
    call (.csrfCreate (manager.csrfKey token)
      ⟨manager.csrfKey token, key, now + ttl⟩ ttl)
    return some token
  else
    return none

/- `rotate`: the session names the new token. -/
def rotate (newKey : Nat) (session : SessionData) :
    SessionData :=
  { session with csrfTokenId := some newKey }

/- What `rotate` has captured, when it has run on these. -/
def replaced (runs : List SessionData) : Option Nat :=
  runs.foldl (fun _ session => session.csrfTokenId) none

/- The swap of a rotation, and the end of the old token. -/
def swapToken
    (key ttl token : Nat) : Managed (Option Nat) := do
  match ← call (.sessionModify key
      (rotate (manager.csrfKey token)) (some ttl)) with
  | none =>
      let _ ← call (.csrfDelete (manager.csrfKey token))
      return none
  | some (runs, _) =>
      match replaced runs with
      | none => return some token
      | some old =>
          let _ ← call (.csrfDelete old)
          return some token

/- The rotation of a session that was found. -/
def rotateToken
    (key ttl : Nat) : Managed (Option Nat) := do
  match ← manager.generateCsrfToken key ttl with
  | none => return none
  | some token => manager.swapToken key ttl token

/- `regenerate_csrf_token`; an empty string is `none`. -/
def regenerateCsrfToken
    (sessionId : Nat)
    (expirationSeconds : Option Nat) :
    Managed (Option Nat) := do
  if manager.hasCsrfStorage then
    let key := manager.key sessionId
    match ← call (.sessionGet key) with
    | none => return none
    | some session =>
        manager.rotateToken key
          (expirationSeconds.getD
            (manager.timeoutSecondsFor session))
  else
    return none

/- `validate_csrf_token` -/
def validateCsrfToken
    (sessionId token : Nat) : Managed Bool := do
  if manager.hasCsrfStorage then
    match ← call (.csrfGet (manager.csrfKey token)) with
    | none => return false
    | some data =>
        return data.sessionId == manager.key sessionId
  else
    return true

------------------------------------------------------------
-- Sessions
------------------------------------------------------------

/- What a session is created for. -/
structure NewSession where
  presented : Option Nat
  userId : UserId
  rememberMe : Bool
  expirationSeconds : Option Nat
  tokenVersion : Option Nat

/- The presented session is replaced. -/
def replacePresented : Option Nat → Managed Unit
  | none => return ()
  | some old => do
      let _ ← manager.terminateSession old

/- A new record, and its token, under the key of its id. -/
def storeSession
    (request : NewSession)
    (sessionId : Nat)
    (createdAt lastActivity : Nat) :
    Managed (Nat × Option Nat) := do
  let ttl :=
    request.expirationSeconds.getD
      (manager.config.timeoutSecondsFor request.rememberMe)
  let key := manager.key sessionId
  let token ← manager.generateCsrfToken key ttl
  call (.sessionCreate key
    { userId := request.userId
      createdAt
      lastActivity
      rememberMe := request.rememberMe
      csrfTokenId := token.map manager.csrfKey
      sudoStamp := none
      tokenVersion := request.tokenVersion }
    ttl)
  return (sessionId, token)

/- `create_session`: the session id and its CSRF token. -/
def createSession
    (request : NewSession) :
    Managed (Nat × Option Nat) := do
  manager.replacePresented request.presented
  manager.enforceSessionLimit request.userId
  let sessionId ← call .fresh
  let createdAt ← call .now
  let lastActivity ← call .now
  manager.storeSession request sessionId createdAt
    lastActivity

/- `touch` -/
def touch (now : Nat) (session : SessionData) :
    SessionData :=
  { session with lastActivity := now }

/- The activity of a session moves, and its token with it. -/
def touchSession
    (key now ttl : Nat) :
    Managed (Option SessionData) := do
  match ← call
    (.sessionModify key (touch now) (some ttl)) with
  | none => return none
  | some (_, touched) =>
      match touched.csrfTokenId, manager.hasCsrfStorage with
      | some csrfId, true =>
          let _ ← call (.csrfExtend csrfId ttl)
          return some touched
      | _, _ => return some touched

/- The verdict on a session that was read, at a time. -/
def acceptSession
    (key : Nat)
    (updateActivity : Bool)
    (session : SessionData)
    (now : Nat) : Managed (Option SessionData) :=
  if manager.isIdleExpired session now ||
      manager.isOverAge session now then
    (manager.terminate key session).bind fun _ => .done none
  else if updateActivity then
    manager.touchSession key now
      (manager.timeoutSecondsFor session)
  else
    .done (some session)

/- `validate_session` -/
def validateSession
    (sessionId : Nat)
    (updateActivity : Bool) :
    Managed (Option SessionData) := do
  let key := manager.key sessionId
  match ← call (.sessionGet key) with
  | none => return none
  | some session =>
      let now ← call .now
      manager.acceptSession key updateActivity session now

/- A change that sets a sudo stamp or a token version. -/
inductive Stamp where
  | sudoStamp (stamp : Option Nat)
  | tokenVersion (version : Option Nat)

/- What a stamp writes. -/
def Stamp.apply (session : SessionData) : Stamp → SessionData
  | .sudoStamp stamp => { session with sudoStamp := stamp }
  | .tokenVersion version =>
      { session with tokenVersion := version }

/- `modify_session`: the expiry stays. -/
def modifySession
    (sessionId : Nat)
    (stamp : Stamp) : Managed (Option SessionData) := do
  let modified ← call (.sessionModify
    (manager.key sessionId) (stamp.apply ·) none)
  return modified.map Prod.snd

/- `set_token_version` -/
def setTokenVersion
    (sessionId tokenVersion : Nat) : Managed Bool := do
  let modified ← manager.modifySession sessionId
    (.tokenVersion (some tokenVersion))
  return modified.isSome

/- The sessions of a sweep that have been idle too long. -/
def sweepSessions (now : Nat) : List Nat → Managed Unit
  | [] => return ()
  | key :: keys => do
      match ← call (.sessionGet key) with
      | none => sweepSessions now keys
      | some session =>
          if manager.isIdleExpired session now then
            let _ ← manager.terminate key session
            sweepSessions now keys
          else
            sweepSessions now keys

/- `cleanup_expired_sessions`, when it is due or forced. -/
def cleanupExpiredSessions : Managed Unit := do
  let now ← call .now
  manager.sweepSessions now (← call .scanKeys)

end Manager

end SessionStore

end CrudAuth
