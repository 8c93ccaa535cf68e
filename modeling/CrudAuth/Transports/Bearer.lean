import CrudAuth.Requests
import CrudAuth.Transports.Tokens

/-
  The bearer transport: issuing a token pair, refreshing an
  access token, and authenticating a request by one.

  A user's id is a text in a token, and is coerced to the
  type of the key column when it is looked up.

  Main declarations:
    * `BearerTransport`
    * `BearerTransport.issueTokens`
    * `authenticate`
    * `BearerTransport.refreshToken`
-/

namespace CrudAuth

namespace Bearer

open Registration

------------------------------------------------------------
-- Configuration
------------------------------------------------------------

/- Where a refresh token is kept. -/
inductive RefreshLocation where
  | cookie
  | body
deriving DecidableEq, Repr

/- A transport that its constructor accepts. -/
structure BearerTransport where
  accessTtl : Nat
  refreshTtlDays : Nat
  refresh : RefreshLocation
  defaultScopes : List String
  grantableScopes : List String
  defaults_grantable :
    ∀ scope ∈ defaultScopes, scope ∈ grantableScopes

/- What the transport reads of a user row. -/
structure Account where
  isActive : Bool
  tokenVersion : Nat
deriving DecidableEq, Repr

/- The codec, and how a text becomes an id again. -/
structure Application where
  codec : Codec
  coerceId : String → Option UserId
  coerce_toString : ∀ userId : UserId,
    coerceId (toString userId) = some userId

/- What a request presents. -/
structure HttpRequest where
  authorization : Option String
  refreshCookie : Option String
  refreshBody : Option String
deriving DecidableEq, Repr

/- Whom a token stands for. -/
structure Principal where
  userId : UserId
  scopes : List String
deriving DecidableEq, Repr

/- The tokens of a response, and where each one goes. -/
structure TokenBody where
  accessToken : String
  refreshToken : Option String
  refreshCookie : Option String
deriving DecidableEq, Repr

------------------------------------------------------------
-- Issuing
------------------------------------------------------------

namespace BearerTransport

variable (transport : BearerTransport)
variable (app : Application)

/- Scopes outside the grantable set are dropped. -/
def clampScopes (scopes : List String) : List String :=
  scopes.filter transport.grantableScopes.contains

/- What a login asks for, or the defaults. -/
def askedScopes (requested : List String) : List String :=
  if requested.isEmpty then
    transport.defaultScopes
  else
    requested

/- `grant_scopes` -/
def grantScopes (requested : List String) : List String :=
  transport.clampScopes (transport.askedScopes requested)

/- The subject and the epoch of a user's tokens. -/
def identityClaims
    (userId : UserId)
    (account : Account) : Claims :=
  [("sub", .text (toString userId)),
    ("ver", .number account.tokenVersion)]

/- An access token for an account. -/
def accessToken
    (userId : UserId)
    (account : Account)
    (scopes : List String)
    (now : Nat) : String :=
  app.codec.sign
    (accessClaims (identityClaims userId account) now
      (some transport.accessTtl) (some scopes))

/- The refresh token of a pair carries the same scopes. -/
def pairedRefresh
    (userId : UserId)
    (account : Account)
    (scopes : List String)
    (now : Nat) : String :=
  app.codec.sign
    (refreshClaims
      (identityClaims userId account ++
        [("scopes", .list scopes)])
      now (some (transport.refreshTtlDays * 86400)))

/- `issue_tokens`, with or without a response to set. -/
def issueTokens
    (userId : UserId)
    (account : Account)
    (requested : List String)
    (response : Bool)
    (now : Nat) : TokenBody :=
  let scopes := transport.grantScopes requested
  let access :=
    transport.accessToken app userId account scopes now
  let refresh :=
    transport.pairedRefresh app userId account scopes now
  if transport.refresh = .cookie ∧ response then
    { accessToken := access
      refreshToken := none
      refreshCookie := some refresh }
  else
    { accessToken := access
      refreshToken := some refresh
      refreshCookie := none }

end BearerTransport

------------------------------------------------------------
-- Accepting
------------------------------------------------------------

/- The token of an `Authorization: Bearer` header. -/
def bearerToken (authorization : Option String) :
    Option String :=
  match authorization with
  | none => none
  | some header =>
      let scheme := header.toList.takeWhile (· ≠ ' ')
      let token := (header.toList.dropWhile (· ≠ ' ')).drop 1
      if (String.ofList scheme).toLower ≠ "bearer" ∨
          token = [] then
        none
      else
        some (String.ofList token)

/- `payload.get("scopes") or ()` -/
def scopesOf (payload : Claims) : List String :=
  match Dict.get payload "scopes" with
  | some (.list scopes) => scopes
  | _ => []

/- The active user of a token, if it is of this epoch. -/
def tokenUser
    (app : Application)
    (users : UserId → Option Account)
    (payload : Claims) : Option (UserId × Account) :=
  match Dict.get payload "sub" with
  | some (.text sub) =>
      match app.coerceId sub with
      | none => none
      | some userId =>
          match users userId with
          | none => none
          | some account =>
              if !account.isActive then
                none
              else if
                  (Dict.get payload "ver").getD (.number 0) ≠
                    .number account.tokenVersion then
                none
              else
                some (userId, account)
  | _ => none

/- An expired token is absent, any other bad one refused. -/
def authenticate
    (app : Application)
    (users : UserId → Option Account)
    (request : HttpRequest)
    (now : Nat) : Except HttpError (Option Principal) :=
  match bearerToken request.authorization with
  | none => .ok none
  | some token =>
      match app.codec.verifyToken token .access now with
      | none =>
          if app.codec.isExpiredToken token now then
            .ok none
          else
            .error (.unauthorized "Invalid token")
      | some payload =>
          match tokenUser app users payload with
          | none => .ok none
          | some (userId, _) =>
              .ok (some ⟨userId, scopesOf payload⟩)

namespace BearerTransport

variable (transport : BearerTransport)
variable (app : Application)

/- `read_refresh`: the cookie, or else the body. -/
def readRefresh (request : HttpRequest) : Option String :=
  match request.refreshCookie with
  | some "" | none =>
      if transport.refresh = .body then
        request.refreshBody
      else
        none
  | some cookie => some cookie

/- `/refresh`: an access token of no more scopes. -/
def refreshToken
    (users : UserId → Option Account)
    (request : HttpRequest)
    (now : Nat) : Except HttpError String :=
  match transport.readRefresh request with
  | none => .error (.unauthorized "Refresh token missing")
  | some token =>
      if token = "" then
        .error (.unauthorized "Refresh token missing")
      else
        match app.codec.verifyToken token .refresh now with
        | none =>
            .error (.unauthorized
              "Invalid or expired refresh token")
        | some payload =>
            match tokenUser app users payload with
            | none =>
                .error (.unauthorized
                  "Invalid or expired refresh token")
            | some (userId, account) =>
                .ok (transport.accessToken app userId account
                  (transport.clampScopes (scopesOf payload))
                  now)

end BearerTransport

/- The user of a token is the one it was minted for. -/
theorem tokenUser_eq
    {app : Application}
    {users : UserId → Option Account}
    {payload : Claims}
    {userId found : UserId}
    {account : Account}
    {version : Nat}
    (hSub : Dict.get payload "sub" =
      some (.text (toString userId)))
    (hVer : Dict.get payload "ver" =
      some (.number version))
    (hUser :
      tokenUser app users payload = some (found, account)) :
    found = userId ∧ users userId = some account ∧
      account.isActive = true ∧
      account.tokenVersion = version := by
  unfold tokenUser at hUser
  rw [hSub] at hUser
  dsimp only at hUser
  rw [app.coerce_toString] at hUser
  dsimp only at hUser
  cases hFound : users userId with
  | none =>
      rw [hFound] at hUser
      cases hUser
  | some stored =>
      rw [hFound, hVer] at hUser
      dsimp only at hUser
      split at hUser
      · cases hUser
      · rename_i hActive
        split at hUser
        · cases hUser
        · rename_i hSame
          cases hUser
          refine ⟨rfl, rfl, by simpa using hActive, ?_⟩
          have hClaim := not_not.mp hSame
          rw [Option.getD_some] at hClaim
          exact (Claim.number.inj hClaim).symm

end Bearer

end CrudAuth
