import CrudAuth.Registration.Register

/-
  `OAuthAccountService`: the account of a provider identity,
  by provider id, by verified email, or created.

  Main declarations:
    * `sanitizeUsername`
    * `OAuthUserInfo`
    * `AuthSurface.link`
    * `AuthSurface.createUser`
    * `AuthSurface.getOrCreateUser`
-/

namespace CrudAuth

namespace Registration

open Concurrency

------------------------------------------------------------
-- Usernames
------------------------------------------------------------

/- `USERNAME_MIN_LENGTH` -/
def usernameMinLength : Nat := 2

/- `USERNAME_MAX_LENGTH` -/
def usernameMaxLength : Nat := 32

/- `USERNAME_FALLBACK` -/
def usernameFallback : String := "user"

/- `USERNAME_MAX_SUFFIX_ATTEMPTS` -/
def usernameMaxSuffixAttempts : Nat := 100

/- `[a-z0-9]` -/
def isUsernameChar (char : Char) : Bool :=
  char.isLower || char.isDigit

/- `re.sub(r"[^a-z0-9]+", "_", ..)` -/
def underscored : List Char → Bool → List Char
  | [], _ => []
  | char :: rest, inRun =>
      if isUsernameChar char then
        char :: underscored rest false
      else if inRun then
        underscored rest true
      else
        '_' :: underscored rest true

/- `rstrip("_")` -/
def rstripUnderscore (chars : List Char) : List Char :=
  (chars.reverse.dropWhile (· = '_')).reverse

/- `strip("_")` -/
def stripUnderscore (chars : List Char) : List Char :=
  rstripUnderscore (chars.dropWhile (· = '_'))

/- `_sanitize_username` of an already lowercased text. -/
def sanitizeUsername
    (lowered : String)
    (maxLength : Nat) : String :=
  let value :=
    stripUnderscore (underscored lowered.toList false)
  let value :=
    if value.length < usernameMinLength then
      stripUnderscore
        (usernameFallback.toList ++ '_' :: value)
    else
      value
  String.ofList (rstripUnderscore (value.take maxLength))

/- `_username_with_suffix` -/
def usernameWithSuffix
    (maxLength : Nat)
    (base suffix : String) : String :=
  let available := maxLength - suffix.length - 1
  if available = 0 then
    String.ofList (suffix.toList.take maxLength)
  else
    String.ofList
        (rstripUnderscore (base.toList.take available)) ++
      "_" ++ suffix

------------------------------------------------------------
-- Requests
------------------------------------------------------------

/- `OAuthUserInfo` -/
structure OAuthUserInfo where
  provider : String
  providerUserId : String
  email : Option String
  emailVerified : Bool
  username : Option String
  givenName : Option String
  name : Option String

/-
  What a callback brings: the profile, the moment, the
  random texts it would draw, what the `new_user_fields`
  callback gave, and the model's defaults.
-/
structure OAuthRequest where
  info : OAuthUserInfo
  lower : String → String
  now : Nat
  sentinel : String
  suffixes : String × String
  provided : Data
  fill : String → Value

namespace AuthSurface

variable (auth : AuthSurface)

/- The length that a username may have. -/
def maxLength : Nat :=
  match auth.repo.columnLength (auth.repo.col "username")
    with
  | none => usernameMaxLength
  | some 0 => usernameMaxLength
  | some length => length

/- The first candidate that is not empty. -/
def firstText : List (Option String) → String
  | [] => usernameFallback
  | some text :: rest =>
      if text ≠ "" then text else firstText rest
  | none :: rest => firstText rest

/- `email.split("@")[0]` -/
def localPart (email : String) : String :=
  String.ofList (email.toList.takeWhile (· ≠ '@'))

/- `_username_base` -/
def usernameBase (request : OAuthRequest) : String :=
  let info := request.info
  let raw := firstText
    [info.username, info.givenName, info.name,
      info.email.map localPart]
  sanitizeUsername (request.lower raw) auth.maxLength

/- `username_exists` -/
def usernameExists (username : String) : TableFlow Bool := do
  let found ← auth.repo.getByField "username"
    (.text username)
  return found.isSome

/- The numbered suffixes, then a random one. -/
def uniqueUsernameAmong
    (base suffix : String) : List Nat → TableFlow String
  | [] =>
      return usernameWithSuffix auth.maxLength base suffix
  | number :: rest => do
      let candidate := usernameWithSuffix auth.maxLength base
        (toString number)
      if ← auth.usernameExists candidate then
        uniqueUsernameAmong base suffix rest
      else
        return candidate

/- `_unique_username` -/
def uniqueUsername
    (base suffix : String) : TableFlow String := do
  if ← auth.usernameExists base then
    auth.uniqueUsernameAmong base suffix
      (List.range' 1 (usernameMaxSuffixAttempts - 1))
  else
    return base

/- `_refuse_inactive` -/
def refuseInactive (row : UserRow) : TableFlow Unit :=
  if auth.repo.has "is_active" &&
      !(auth.repo.get row "is_active").truthy then
    .raise (.oauthAccount "account_inactive")
  else
    return ()

/- The columns a link writes. -/
def linkData
    (request : OAuthRequest)
    (claimed : Bool) : Data :=
  let linked : Data :=
    [(providerId request.info.provider,
        .text request.info.providerUserId),
      ("oauth_provider", .text request.info.provider),
      ("oauth_updated_at", .object request.now)]
  if claimed then
    linked.update
      [("hashed_password", .text request.sentinel),
        ("email_verified", .object 1),
        ("totp_secret_encrypted", .null),
        ("totp_confirmed_at", .null),
        ("totp_last_step", .null),
        ("mfa_recovery_codes", .null)]
  else
    linked

/- `_link` -/
def link
    (request : OAuthRequest)
    (row : UserRow) : TableFlow UserRow := do
  if auth.repo.get row
      (providerId request.info.provider) ≠ .null then
    .raise (.oauthAccount "provider_already_linked")
  else do
    let claimed :=
      !(auth.repo.get row "email_verified").truthy
    let row ← auth.repo.update row
      (linkData request claimed)
    if claimed then
      auth.repo.incrementTokenVersion row
    else
      return row

/- What `_create_user` computes, under one username. -/
def createUserData
    (request : OAuthRequest)
    (email username : String) : Data :=
  [("username", .text username),
    ("email", .text (auth.repo.canonicalEmail email)),
    ("hashed_password", .text request.sentinel),
    ("email_verified", .object 1),
    ("oauth_provider", .text request.info.provider),
    (providerId request.info.provider,
      .text request.info.providerUserId),
    ("oauth_created_at", .object request.now),
    ("oauth_updated_at", .object request.now)]

/- `_create_user`; a lost race retries one random name. -/
def createUser
    (request : OAuthRequest)
    (email : String) : TableFlow UserRow := do
  let base := auth.usernameBase request
  let username ← auth.uniqueUsername base request.suffixes.1
  let data := auth.repo.createData
    (auth.createUserData request email username)
    auth.newUserDefaults request.provided
  match ← auth.repo.create? data request.fill with
  | some row => return row
  | none =>
      let retried := data.set "username"
        (.text (usernameWithSuffix auth.maxLength base
          request.suffixes.2))
      match ← auth.repo.create? retried request.fill with
      | some row => return row
      | none => .raise .integrityError

/- The verified email of a profile. -/
def verifiedEmail
    (info : OAuthUserInfo) : TableFlow String :=
  match info.email with
  | none => .raise (.oauthAccount "email_missing")
  | some email =>
      if email = "" then
        .raise (.oauthAccount "email_missing")
      else if !info.emailVerified then
        .raise (.oauthAccount "email_unverified")
      else
        return email

/- `get_or_create_user` -/
def getOrCreateUser
    (request : OAuthRequest) :
    TableFlow (UserRow × Bool) := do
  match ← auth.repo.getByOauth request.info.provider
      request.info.providerUserId with
  | some row =>
      auth.refuseInactive row
      return (row, false)
  | none =>
      let email ← verifiedEmail request.info
      match ← auth.repo.getByField "email" (.text email) with
      | some existing =>
          auth.refuseInactive existing
          let row ← auth.link request existing
          return (row, false)
      | none =>
          match auth.repo.exceedsLength "email"
              (.text (auth.repo.canonicalEmail email)) with
          | some _ =>
              .raise (.oauthAccount "email_too_long")
          | none =>
              let row ← auth.createUser request email
              return (row, true)

end AuthSurface

end Registration

end CrudAuth
