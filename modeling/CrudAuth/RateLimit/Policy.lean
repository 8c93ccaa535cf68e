import CrudAuth.RateLimit.Backend
import Mathlib.Algebra.Group.Nat.Defs

/-
  The escalating login lockout, over the dumb primitives of
  a rate-limiter backend.

  The counters are keyed by the canonical forms of the
  address and of the identifier, which the policy takes as
  it finds them.  No backend operation fails here, so the
  branches for a backend error are left out.

  Main declarations:
    * `LockoutConfig`
    * `LockoutPolicy`
    * `LockoutPolicy.checkAndRecord`
    * `LockoutPolicy.forgetAttempt`
    * `LockoutPolicy.attempt`
-/

namespace CrudAuth

namespace RateLimit

open Concurrency

------------------------------------------------------------
-- Configuration
------------------------------------------------------------

/- What a successful login clears. -/
inductive LoginSuccessClears
  | clearAll
  | clearUserOnly
deriving DecidableEq, Repr

/- The tuning of the lockout; every value is positive. -/
structure LockoutConfig where
  maxAttempts : Nat
  attemptWindowSeconds : Nat
  lockoutBaseSeconds : Nat
  lockoutMaxSeconds : Nat
  roundRetentionSeconds : Nat
  onLoginSuccess : LoginSuccessClears
  maxAttempts_pos : 0 < maxAttempts
  attemptWindow_pos : 0 < attemptWindowSeconds
  lockoutBase_pos : 0 < lockoutBaseSeconds
  lockoutMax_pos : 0 < lockoutMaxSeconds
  roundRetention_pos : 0 < roundRetentionSeconds

/- The configuration, and the canonical forms of keys. -/
structure LockoutPolicy extends LockoutConfig where
  clientIpKey : String → String
  canonicalIdentifier : String → String

namespace LockoutPolicy

variable (policy : LockoutPolicy)

------------------------------------------------------------
-- Keys
------------------------------------------------------------

/- The attempts from an address. -/
def ipAttempts (ipAddress : String) : Key :=
  .ipAttempts (policy.clientIpKey ipAddress)

/- The attempts on a username. -/
def userAttempts (username : String) : Key :=
  .userAttempts (policy.canonicalIdentifier username)

/- The attempts from an address on a username. -/
def pairAttempts (ipAddress username : String) : Key :=
  .pairAttempts
    (policy.clientIpKey ipAddress ++ ":" ++
      policy.canonicalIdentifier username)

/- The lock of an address. -/
def ipLock (ipAddress : String) : Key :=
  .ipLock (policy.clientIpKey ipAddress)

/- The lock of a username. -/
def userLock (username : String) : Key :=
  .userLock (policy.canonicalIdentifier username)

/- The lockouts of an address. -/
def ipRounds (ipAddress : String) : Key :=
  .ipRounds (policy.clientIpKey ipAddress)

/- The lockouts of a username. -/
def userRounds (username : String) : Key :=
  .userRounds (policy.canonicalIdentifier username)

------------------------------------------------------------
-- Recording An Attempt
------------------------------------------------------------

/-
  Clear the counters of the identifier and, if so
  configured, take its own failures off the address.
-/
def recordSuccess
    (ipAddress username : String) : Flow Outcome := do
  let _ ← call (.delete (policy.userAttempts username))
  let _ ← call (.delete (policy.userLock username))
  let _ ← call (.delete (policy.userRounds username))
  match policy.onLoginSuccess with
  | .clearUserOnly => return .verdict true none 0
  | .clearAll =>
      let ownFailures ← call
        (.getCount (policy.pairAttempts ipAddress username))
      match ownFailures with
      | none => return .verdict true none 0
      | some ownFailures =>
          if ownFailures = 0 then
            return .verdict true none 0
          if ← call (.delete
              (policy.pairAttempts ipAddress username)) then
            let _ ← call
              (.increment (policy.ipAttempts ipAddress)
                (-ownFailures) policy.attemptWindowSeconds)
          return .verdict true none 0

/- Count the attempt for the pair, in the IP's window. -/
def countPair
    (ipAddress username : String) : Flow Unit :=
  match policy.onLoginSuccess with
  | .clearUserOnly => return
  | .clearAll => do
      let ipWindow ← call
        (.getTtl (policy.ipAttempts ipAddress))
      if 0 < ipWindow then
        let _ ← call
          (.increment
            (policy.pairAttempts ipAddress username)
            1 ipWindow)

/- The lockout doubles each round, up to a maximum. -/
def retryAfter (rounds : Int) : Nat :=
  min (policy.lockoutBaseSeconds * 2 ^ rounds.toNat)
    policy.lockoutMaxSeconds

/- Past the cap: set the locks and climb one round. -/
def lockOut
    (ipAddress username : String) : Flow Outcome := do
  let ipRounds ← call
    (.getCount (policy.ipRounds ipAddress))
  let userRounds ← call
    (.getCount (policy.userRounds username))
  let retryAfter := policy.retryAfter
    (max (ipRounds.getD 0) (userRounds.getD 0))
  let roundTtl :=
    max retryAfter policy.roundRetentionSeconds
  let _ ← call
    (.increment (policy.ipLock ipAddress) 1 retryAfter)
  let _ ← call
    (.increment (policy.userLock username) 1 retryAfter)
  let _ ← call
    (.incrementAndRefreshTtl
      (policy.ipRounds ipAddress) 1 roundTtl)
  let _ ← call
    (.incrementAndRefreshTtl
      (policy.userRounds username) 1 roundTtl)
  return .verdict false (some 0) retryAfter

/- Refuse under a lock, else count and compare. -/
def recordFailure
    (ipAddress username : String) : Flow Outcome := do
  let ipTtl ← call (.getTtl (policy.ipLock ipAddress))
  let userTtl ← call (.getTtl (policy.userLock username))
  let activeLockout := max ipTtl userTtl
  if 0 < activeLockout then
    return .verdict false (some 0) activeLockout
  let ipCount ← call
    (.increment (policy.ipAttempts ipAddress)
      1 policy.attemptWindowSeconds)
  let userCount ← call
    (.increment (policy.userAttempts username)
      1 policy.attemptWindowSeconds)
  policy.countPair ipAddress username
  let attemptCount := max ipCount userCount
  if attemptCount ≤ policy.maxAttempts then
    return .verdict true
      (some ((policy.maxAttempts - attemptCount).toNat)) 0
  policy.lockOut ipAddress username

/- `check_and_record` -/
def checkAndRecord
    (ipAddress username : String)
    (success : Bool) : Flow Outcome :=
  if success then
    policy.recordSuccess ipAddress username
  else
    policy.recordFailure ipAddress username

/- Take one back from a count that is positive. -/
def forgetOne (key : Key) : Flow Unit := do
  let count ← call (.getCount key)
  if 0 < count.getD 0 then
    let _ ← call
      (.increment key (-1) policy.attemptWindowSeconds)

/-
  Take back the attempt a correct password recorded, for a
  login that still needs a second factor.
-/
def forgetAttempt
    (ipAddress username : String) : Flow Outcome := do
  policy.forgetOne (policy.ipAttempts ipAddress)
  policy.forgetOne (policy.userAttempts username)
  match policy.onLoginSuccess with
  | .clearUserOnly => return .forgotten
  | .clearAll =>
      policy.forgetOne
        (policy.pairAttempts ipAddress username)
      return .forgotten

/- A call that records a failure, from end to end. -/
def attempt
    (ipAddress username : String) : Flow Unit := do
  call
    (.arrive (.checkAndRecord ipAddress username false))
  let outcome ←
    policy.checkAndRecord ipAddress username false
  call (.respond outcome)

end LockoutPolicy

end RateLimit

end CrudAuth
