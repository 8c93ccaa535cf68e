import CrudAuth.Models.User

/-
  Credentials and tokens, the requests that present them,
  and the responses.

  A signed token is its claims: what is not minted by the
  code cannot be told from a forgery by its shape, so who
  holds which token is stated where it matters.

  Main declarations:
    * `Fingerprint`
    * `SignedToken`
    * `Jwt`
    * `Request`
    * `Response`
-/

namespace CrudAuth

------------------------------------------------------------
-- Recovery Tokens
------------------------------------------------------------

/- The flow a signed token belongs to. -/
inductive Purpose
  | verify
  | reset
  | change
deriving DecidableEq, Repr

/- The account state a signed token authorizes. -/
inductive Fingerprint
  | verify (recovery : Option String)
  | reset (hash : StoredHash) (recovery : Option String)
  | change
      (hash : StoredHash)
      (email : Option String)
      (version : Nat)
deriving DecidableEq, Repr

/- The purpose is part of what is fingerprinted. -/
def Fingerprint.purpose : Fingerprint → Purpose
  | .verify _ => .verify
  | .reset _ _ => .reset
  | .change _ _ _ => .change

/- A purpose-scoped token of `create_signed_token`. -/
structure SignedToken where
  sub : UserId
  state : Fingerprint
  newEmail : Option String
  exp : Nat
deriving DecidableEq, Repr

/- What a delivery channel is handed. -/
structure DeliveryIntent where
  kind : String
  token : Option SignedToken
  recipient : Option String
deriving DecidableEq, Repr

------------------------------------------------------------
-- Credentials
------------------------------------------------------------

/- The types of a token. -/
inductive TokenType
  | access
  | refresh
deriving DecidableEq, Repr

/- A bearer token; `ver` is the credential epoch. -/
structure Jwt where
  tokenType : TokenType
  sub : UserId
  ver : Nat
  scopes : List String
  exp : Nat
deriving DecidableEq, Repr

/- What authenticates a request. -/
inductive Credential
  | session (id : Nat)
  | bearer (token : Jwt)
deriving DecidableEq, Repr

/- The transports of the package. -/
inductive TransportName
  | session
  | bearer
deriving DecidableEq, Repr

/- What the transport needs to finish a login. -/
structure LoginOptions where
  rememberMe : Bool := false
  scopes : List String := []
  loginType : Option String := none
deriving DecidableEq, Repr

/-
  A submitted second factor, by what `normalize_code`
  makes of it: six digits, or else a recovery code.
-/
inductive Code
  | digits (text : String)
  | recovery (code : RecoveryCode)
deriving DecidableEq, Repr

/- What a sudo elevation is asked for with. -/
inductive Reauthentication
  | password (password : String)
  | code (code : Code)
deriving DecidableEq, Repr

/- The profile a provider vouches for. -/
structure OAuthUserInfo where
  provider : String
  providerUserId : String
  email : Option String
  emailVerified : Bool
  username : String
deriving DecidableEq, Repr

------------------------------------------------------------
-- Requests And Responses
------------------------------------------------------------

/-
  The requests that read or write accounts.  `presented` is
  the session cookie the browser sends along, and
  `changeField` is the application's own profile update.
-/
inductive Request
  | login
      (transport : TransportName)
      (ip identifier password : String)
      (options : LoginOptions)
      (presented : Option Nat)
  | mfaVerify
      (token : Nat)
      (code : Code)
      (presented : Option Nat)
  | refresh (token : Jwt)
  | me (credential : Credential)
  | setPassword
      (credential : Credential)
      (newPassword : String)
  | changePassword
      (credential : Credential)
      (currentPassword newPassword : String)
  | totpSetup
      (credential : Credential)
      (password : Option String)
  | totpConfirm (credential : Credential) (code : Code)
  | totpDisable (credential : Credential) (code : Code)
  | regenerate (credential : Credential) (code : Code)
  | elevate
      (credential : Credential)
      (proof : Reauthentication)
  | requestReset (value : String)
  | resetPassword
      (token : SignedToken)
      (newPassword : String)
  | requestVerification (value : String)
  | confirmVerification (token : SignedToken)
  | requestEmailChange
      (credential : Credential)
      (newEmail password : String)
  | confirmEmailChange (token : SignedToken)
  | oauthCallback
      (info : OAuthUserInfo)
      (presented : Option Nat)
  | changeField
      (id : UserId)
      (field : Field)
      (value : Option String)
deriving DecidableEq, Repr

/- An HTTP exception as the client sees it. -/
structure HttpError where
  status : Nat
  detail : String
  retryAfter : Nat := 0
deriving DecidableEq, Repr

namespace HttpError

/- `UnauthorizedException` -/
def unauthorized (detail : String) : HttpError :=
  { status := 401, detail }

/- `BadRequestException` -/
def badRequest (detail : String) : HttpError :=
  { status := 400, detail }

/- `ForbiddenException` -/
def forbidden (detail : String) : HttpError :=
  { status := 403, detail }

/- `DuplicateValueException` -/
def duplicate (detail : String) : HttpError :=
  { status := 422, detail }

/- The refusal of a lockout. -/
def rateLimited (retryAfter : Nat) : HttpError :=
  { status := 429
    detail := "Too many login attempts. Try again later."
    retryAfter }

/- `SudoLockoutError` -/
def sudoLocked (retryAfter : Nat) : HttpError :=
  { status := 429
    detail := "Too many attempts. Try again later."
    retryAfter }

/- An exception no route turns into a response. -/
def unhandled : HttpError :=
  { status := 500, detail := "Internal Server Error" }

/- A password that the policy rejects. -/
def passwordPolicy (field : String) : HttpError :=
  { status := 422, detail := field }

/- What `current_user` raises without a principal. -/
def notAuthenticated : HttpError :=
  unauthorized "Not authenticated"

end HttpError

/- What a finished login hands out. -/
inductive Issued
  | session (userId : UserId) (id : Nat)
  | tokens (access refresh : Jwt)
deriving DecidableEq, Repr

/- What a request is answered with. -/
inductive Response
  | refused (error : HttpError)
  | signedIn
      (issued : Issued)
      (recoveryCodes : Option (List RecoveryCode))
  | challenged (token : Nat) (setup : Option Secret)
  | refreshed (access : Jwt)
  | principal (userId : UserId)
  | passwordSet
  | passwordChanged
  | passwordReset
  | totpSetup (secret : Secret)
  | recoveryCodes (codes : List RecoveryCode)
  | totpDisabled
  | elevated (until' : Nat)
  | accepted
  | verified
  | emailChanged
  | fieldChanged
deriving DecidableEq, Repr

end CrudAuth
