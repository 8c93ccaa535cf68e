import CrudAuth.Mfa.Service

/-
  `SudoManager`: a session is elevated by a password or an
  authenticator code.  The counts of the sudo lockout are
  answers of the rate limiter.

  Main declarations:
    * `elevate`
-/

namespace CrudAuth

open Concurrency

namespace Sudo

/- The refusal of a caller without a session. -/
def sessionRequired : HttpError :=
  .forbidden "Sudo requires a session-backed login."

/- `_lock`: lock sudo, drop the elevation, and raise. -/
def lock
    {α : Type}
    (config : SudoConfig)
    (key : Nat)
    (userId : UserId) : Flow α := do
  call (.sudoLock userId)
  let _ ← call (.sessionModify key (.stamp none))
  .raise (.sudoLocked config.lockoutSeconds)

/- Stamp the session, if it still exists. -/
def stampSession
    (config : SudoConfig)
    (key : Nat) : Flow Nat := do
  let now ← call .now
  let elevatedUntil := now + config.windowSeconds
  match ← call (.sessionModify key
      (.stamp (some elevatedUntil))) with
  | some _ => return elevatedUntil
  | none => .raise (.forbidden "Session no longer exists.")

end Sudo

/- What a wrong password or a wrong code is told. -/
def Reauthentication.refusal :
    Reauthentication → HttpError
  | .password _ => .unauthorized "Incorrect password"
  | .code _ => .unauthorized "Invalid code"

namespace Runtime

variable (runtime : Runtime)

/- `_verify`; a code cannot be checked without MFA. -/
def verifySudo
    (user : User) : Reauthentication → Flow (Bool × User)
  | .password password =>
      return (runtime.verifyPassword password
        user.hashedPassword, user)
  | .code code =>
      match runtime.mfa with
      | some config => config.verifyTotp user code
      | none => .raise .unhandled

/- Check the proof under the sudo lockout. -/
def elevateSession
    (config : SudoConfig)
    (key : Nat)
    (user : User)
    (proof : Reauthentication) : Flow Nat := do
  let ttl ← call (.sudoTtl user.id)
  if 0 < ttl then
    .raise (.sudoLocked ttl)
  else
    let attempt ← call (.sudoAttempt user.id)
    if config.maxAttempts < attempt then
      Sudo.lock config key user.id
    else
      let (verified, user) ← runtime.verifySudo user proof
      if verified then
        call (.sudoClear user.id)
        Sudo.stampSession config key
      else if config.maxAttempts ≤ attempt then
        Sudo.lock config key user.id
      else
        .raise proof.refusal

/- Re-verify a password or a code and elevate. -/
def elevate
    (config : SudoConfig)
    (principal : Principal)
    (proof : Reauthentication) : Flow Nat :=
  match proof, runtime.mfa with
  | .code _, none => .raise .unhandled
  | _, _ =>
      match principal.sessionId with
      | none => .raise Sudo.sessionRequired
      | some key =>
          runtime.elevateSession config key principal.user
            proof

end Runtime

end CrudAuth
