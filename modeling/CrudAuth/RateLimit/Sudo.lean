import CrudAuth.RateLimit.Backend
import CrudAuth.Runtime

/-
  `SudoManager.elevate`, step by step on the shared limiter.

  No backend operation fails here.  What a call does to its
  session is in `CrudAuth.Sudo`: it touches no counter, and
  no check comes after it.

  Main declarations:
    * `SudoManager.lock`
    * `SudoManager.elevate`
    * `SudoManager.attempt`
-/

namespace CrudAuth

namespace RateLimit

open Concurrency

namespace SudoManager

variable (config : SudoConfig)
variable (userId : Nat)

------------------------------------------------------------
-- The Lockout
------------------------------------------------------------

/- `_fail_key` -/
def failKey : Key :=
  .sudoFail userId

/- `_lock_key` -/
def lockKey : Key :=
  .sudoLock userId

/- Count an attempt before the password is checked. -/
def countAttempt : Flow Int :=
  call (.increment (failKey userId) 1 config.windowSeconds)

/- Lock sudo and start the count of failures anew. -/
def lock : Flow Outcome := do
  let _ ← call
    (.increment (lockKey userId) 1 config.lockoutSeconds)
  let _ ← call (.delete (failKey userId))
  return .locked config.lockoutSeconds

------------------------------------------------------------
-- Elevation
------------------------------------------------------------

/- Check a password or a code under the sudo lockout. -/
def elevate : Flow Outcome := do
  let ttl ← call (.getTtl (lockKey userId))
  if 0 < ttl then
    return .locked ttl
  let attempt ← countAttempt config userId
  if config.maxAttempts < attempt then
    lock config userId
  else
    let verified ← call .verify
    if verified then
      let _ ← call (.delete (failKey userId))
      return .elevated
    else if config.maxAttempts ≤ attempt then
      lock config userId
    else
      return .incorrect

/- A call from end to end. -/
def attempt : Flow Unit := do
  call (.arrive (.elevate userId))
  let outcome ← elevate config userId
  call (.respond outcome)

end SudoManager

end RateLimit

end CrudAuth
