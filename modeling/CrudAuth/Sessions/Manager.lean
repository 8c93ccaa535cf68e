import CrudAuth.Repository

/-
  `SessionManager`: the life of server-side sessions.

  The storage key of a session is a keyed hash of its id
  and stands for it here.  CSRF tokens and device details
  are left out: no check of this model reads them.

  Main declarations:
    * `createSession`
    * `validateSession`
    * `setTokenVersion`
    * `terminateAllUserSessions`
-/

namespace CrudAuth

open Concurrency

namespace SessionConfig

variable (config : SessionConfig)

/- The idle window of a session. -/
def timeoutSecondsFor (rememberMe : Bool) : Nat :=
  if rememberMe then
    config.rememberMeTimeout
  else
    config.sessionTimeout

/- `_is_idle_expired` -/
def isIdleExpired
    (session : SessionData)
    (now : Nat) : Bool :=
  session.lastActivity +
    config.timeoutSecondsFor session.rememberMe < now

/- `_is_over_age` -/
def isOverAge (session : SessionData) (now : Nat) : Bool :=
  config.absoluteTimeout.any fun limit =>
    session.createdAt + limit < now

end SessionConfig

------------------------------------------------------------
-- Termination
------------------------------------------------------------

namespace Sessions

/- `_terminate`: the record and its index entry. -/
def terminate
    (key : Nat)
    (session : SessionData) : Flow Unit :=
  call (.sessionDelete key session.userId)

/- `terminate_session` -/
def terminateSession (key : Nat) : Flow Bool := do
  match ← call (.sessionGet key) with
  | none => return false
  | some session =>
      terminate key session
      return true

/- Read the indexed sessions, pruning dead entries. -/
def loadSessions
    (userId : UserId) :
    List Nat → Flow (List (Nat × SessionData))
  | [] => return []
  | key :: keys => do
      match ← call (.sessionGet key) with
      | none =>
          call (.unindex userId key)
          loadSessions userId keys
      | some session =>
          return (key, session) ::
            (← loadSessions userId keys)

/- `_user_sessions`: what the user index leads to. -/
def userSessions
    (userId : UserId) :
    Flow (List (Nat × SessionData)) := do
  loadSessions userId (← call (.userSessions userId))

/- Terminate what was read, except one session. -/
def terminateEach
    (excluded : Option Nat) :
    List (Nat × SessionData) → Flow Unit
  | [] => return ()
  | (key, session) :: rest => do
      if some key ≠ excluded then
        terminate key session
      terminateEach excluded rest

/- `terminate_all_user_sessions`, also `revoke_all`. -/
def terminateAllUserSessions
    (userId : UserId)
    (exclude : Option Nat) : Flow Unit := do
  terminateEach exclude (← userSessions userId)

------------------------------------------------------------
-- Creation And Validation
------------------------------------------------------------

variable (config : SessionConfig)

/- Make room for one more session, oldest activity first. -/
def enforceSessionLimit (userId : UserId) : Flow Unit := do
  let active ← userSessions userId
  if config.maxSessions ≤ active.length then
    let oldest := active.mergeSort fun left right =>
      left.2.lastActivity ≤ right.2.lastActivity
    let excess := active.length - config.maxSessions + 1
    terminateEach none (oldest.take excess)

/- The session a browser presents is replaced. -/
def replacePresented : Option Nat → Flow Unit
  | none => return ()
  | some old => do
      let _ ← terminateSession old

/- A new session, bound to the given version. -/
def createSession
    (presented : Option Nat)
    (userId : UserId)
    (rememberMe : Bool)
    (loginType : Option String)
    (tokenVersion : Nat) : Flow Nat := do
  replacePresented presented
  enforceSessionLimit config userId
  let now ← call .now
  let key ← call .fresh
  call (.sessionCreate key
    { userId
      createdAt := now
      lastActivity := now
      rememberMe
      loginType
      tokenVersion := some tokenVersion }
    (config.timeoutSecondsFor rememberMe))
  return key

/- The live session of an id, its activity moved to now. -/
def validateSession
    (key : Nat) : Flow (Option SessionData) := do
  match ← call (.sessionGet key) with
  | none => return none
  | some session =>
      let now ← call .now
      if config.isIdleExpired session now then
        terminate key session
        return none
      else if config.isOverAge session now then
        terminate key session
        return none
      else
        let ttl :=
          config.timeoutSecondsFor session.rememberMe
        call (.sessionModify key (.touch now ttl))

/- Rebind a live session to the user's current version. -/
def setTokenVersion
    (key : Nat)
    (tokenVersion : Nat) : Flow Bool := do
  let rebound ←
    call (.sessionModify key (.rebind tokenVersion))
  return rebound.isSome

end Sessions

end CrudAuth
