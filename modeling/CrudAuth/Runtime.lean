import CrudAuth.Models.User

/-
  What the facade is configured with.

  Functions that rest on other packages (Unicode tables,
  HMAC, legacy hash checks) and on the application
  (password validators, the MFA predicate) are fields.

  Main declarations:
    * `MfaConfig`
    * `SessionConfig`
    * `BearerConfig`
    * `SudoConfig`
    * `EmailFlows`
    * `Runtime`
-/

namespace CrudAuth

------------------------------------------------------------
-- Configuration
------------------------------------------------------------

/- `MfaConfig`; the bounds are those of `__post_init__`. -/
structure MfaConfig where
  required : User → Bool
  oauth : Bool
  challengeTtlSeconds : Nat
  maxCodeAttempts : Nat
  recoveryCodeCount : Nat
  totpCode : Secret → Nat → String
  challengeTtlSeconds_pos : 0 < challengeTtlSeconds
  maxCodeAttempts_pos : 0 < maxCodeAttempts
  recoveryCodeCount_pos : 0 < recoveryCodeCount

/- The timeouts and the cap of `SessionManager`, seconds. -/
structure SessionConfig where
  maxSessions : Nat
  sessionTimeout : Nat
  rememberMeTimeout : Nat
  absoluteTimeout : Option Nat

/- `BearerTransport`: lifetimes in seconds, and scopes. -/
structure BearerConfig where
  accessTtl : Nat
  refreshTtl : Nat
  defaultScopes : List String
  grantableScopes : List String
  default_subset : defaultScopes ⊆ grantableScopes

/- `SudoConfig`: the elevation window and its lockout. -/
structure SudoConfig where
  windowSeconds : Nat
  maxAttempts : Nat
  lockoutSeconds : Nat

/- `EmailFlowService`: lifetimes in seconds. -/
structure EmailFlows where
  verifyTtl : Nat
  resetTtl : Nat
  changeTtl : Nat
  sendsEmail : Bool
  tokenStore : Bool

/- Checks a password against another system's hash. -/
abbrev LegacyVerifier := String → StoredHash → Bool

/- `AuthRuntime` with the repository's identity contract. -/
structure Runtime where
  loginFields : List Field
  recovery : Option Field
  hasTokenVersion : Bool
  canonicalEmail : String → String
  normalizePassword : String → String
  legacyVerifiers : List LegacyVerifier
  dummyHash : StoredHash
  passwordPolicy : String → User → Bool
  lockout : Bool
  mfa : Option MfaConfig
  sessions : Option SessionConfig
  bearer : Option BearerConfig
  emails : Option EmailFlows
  sudoConfig : Option SudoConfig
  freshSignInSeconds : Nat
  usernameBase : String → String
  usernameWithSuffix : String → String → String

namespace Runtime

variable (runtime : Runtime)

/- The credential epoch, `0` without the column. -/
def tokenVersion (user : User) : Nat :=
  if runtime.hasTokenVersion then user.tokenVersion else 0

/- Whether the contract's recovery factor is proven. -/
def recoveryVerified (user : User) : Bool :=
  match runtime.recovery with
  | none => false
  | some .email => user.emailVerified
  | some _ => user.factorVerified

/- The stored value of the recovery factor. -/
def recoveryValue (user : User) : Option String :=
  runtime.recovery.bind user.get

end Runtime

end CrudAuth
