import CrudAuth.Registration.Dict

/-
  The JWT primitives: bearer tokens and signed tokens, over
  a codec that signs claims.

  A codec stands for `jwt.encode` and `jwt.decode` with the
  secret and the algorithm of the application.  It opens
  what it has signed; `decode` then checks the expiry and
  the type of the subject.

  Main declarations:
    * `Codec`
    * `Codec.decode`
    * `Codec.verifyToken`
    * `Codec.verifySignedTokenFull`
    * `get_accessClaims`
    * `get_signedClaims`
-/

namespace CrudAuth

namespace Bearer

open Registration

------------------------------------------------------------
-- Claims
------------------------------------------------------------

/- A value of the payload. -/
inductive Claim where
  | text (value : String)
  | number (value : Nat)
  | list (items : List String)
deriving DecidableEq, Repr

/- The payload of a token. -/
abbrev Claims := Dict String Claim

/- `TokenType` -/
inductive TokenType where
  | access
  | refresh
deriving DecidableEq, Repr

/- The claim `token_type`. -/
def TokenType.value : TokenType → String
  | .access => "access"
  | .refresh => "refresh"

/- `DEFAULT_ACCESS_TTL_SECONDS` -/
def defaultAccessTtlSeconds : Nat := 15 * 60

/- `DEFAULT_REFRESH_TTL_SECONDS` -/
def defaultRefreshTtlSeconds : Nat := 30 * 86400

/- `expires_delta or timedelta(...)`: zero is falsy. -/
def lifetime (expiresDelta : Option Nat) (default : Nat) :
    Nat :=
  match expiresDelta with
  | none => default
  | some 0 => default
  | some seconds => seconds

/- What `create_access_token` encodes. -/
def accessClaims
    (data : Claims)
    (now : Nat)
    (expiresDelta : Option Nat)
    (scopes : Option (List String)) : Claims :=
  let exp := now +
    lifetime expiresDelta defaultAccessTtlSeconds
  let toEncode := (data.set "exp" (.number exp)).set
    "token_type" (.text TokenType.access.value)
  match scopes with
  | none => toEncode
  | some scopes => toEncode.set "scopes" (.list scopes)

/- What `create_refresh_token` encodes. -/
def refreshClaims
    (data : Claims)
    (now : Nat)
    (expiresDelta : Option Nat) : Claims :=
  let exp := now +
    lifetime expiresDelta defaultRefreshTtlSeconds
  (data.set "exp" (.number exp)).set
    "token_type" (.text TokenType.refresh.value)

/- What `create_signed_token` encodes. -/
def signedClaims
    (sub purpose : String)
    (now expiresHours : Nat)
    (extraClaims : Claims) : Claims :=
  let payload : Claims :=
    [("sub", .text sub), ("purpose", .text purpose),
      ("exp", .number (now + expiresHours * 3600))]
  payload.update extraClaims

section Claims

variable {data extraClaims : Claims}
variable {now expiresHours : Nat}
variable {expiresDelta : Option Nat}
variable {scopes : List String}
variable {sub purpose key : String}

/- An access token's own claims, and those it was given. -/
theorem get_accessClaims :
    Dict.get
        (accessClaims data now expiresDelta (some scopes))
        key =
      if "scopes" = key then some (.list scopes)
      else if "token_type" = key then some (.text "access")
      else if "exp" = key then
        some (.number (now + lifetime expiresDelta
          defaultAccessTtlSeconds))
      else Dict.get data key := by
  unfold accessClaims
  dsimp only
  rw [Dict.get_set, Dict.get_set, Dict.get_set]
  rfl

/- The claims of a refresh token. -/
theorem get_refreshClaims :
    Dict.get (refreshClaims data now expiresDelta) key =
      if "token_type" = key then some (.text "refresh")
      else if "exp" = key then
        some (.number (now + lifetime expiresDelta
          defaultRefreshTtlSeconds))
      else Dict.get data key := by
  unfold refreshClaims
  dsimp only
  rw [Dict.get_set, Dict.get_set]
  rfl

/- Extra claims leave the other keys. -/
theorem get_update_of_not_mem
    (hKey : key ∉ extraClaims.keys) :
    Dict.get (data.update extraClaims) key =
      Dict.get data key := by
  induction extraClaims generalizing data with
  | nil => rfl
  | cons item rest ih =>
      unfold Dict.keys at hKey ih
      rw [List.map_cons, List.mem_cons, not_or] at hKey
      have hRest := @ih (data.set item.1 item.2) hKey.2
      rw [Dict.get_set, if_neg (Ne.symm hKey.1)] at hRest
      exact hRest

/- Claims that are not among the extra ones. -/
theorem get_signedClaims
    (hKey : key ∉ extraClaims.keys) :
    Dict.get
        (signedClaims sub purpose now expiresHours
          extraClaims) key =
      Dict.get
        [("sub", .text sub), ("purpose", .text purpose),
          ("exp", .number (now + expiresHours * 3600))]
        key :=
  get_update_of_not_mem hKey

end Claims

------------------------------------------------------------
-- Signing And Opening
------------------------------------------------------------

/- Why a token is not decoded. -/
inductive JwtError where
  | expiredSignature
  | invalid
deriving DecidableEq, Repr

/- What was signed opens to the same claims. -/
structure Codec where
  sign : Claims → String
  opens : String → Option Claims
  opens_sign : ∀ claims, opens (sign claims) = some claims

namespace Codec

variable (codec : Codec)

/- A subject is a text, where there is one. -/
def checkSubject (payload : Claims) :
    Except JwtError Claims :=
  match Dict.get payload "sub" with
  | none => .ok payload
  | some (.text _) => .ok payload
  | some _ => .error .invalid

/- `jwt.decode`: the signature, the expiry, the subject. -/
def decode
    (token : String)
    (now : Nat) : Except JwtError Claims :=
  match codec.opens token with
  | none => .error .invalid
  | some payload =>
      match Dict.get payload "exp" with
      | none => checkSubject payload
      | some (.number exp) =>
          if exp ≤ now then
            .error .expiredSignature
          else
            checkSubject payload
      | some _ => .error .invalid

/- `verify_token` -/
def verifyToken
    (token : String)
    (expected : TokenType)
    (now : Nat) : Option Claims :=
  match codec.decode token now with
  | .error _ => none
  | .ok payload =>
      if Dict.get payload "token_type" ≠
          some (.text expected.value) then
        none
      else if Dict.get payload "sub" = none then
        none
      else
        some payload

/- `is_expired_token` -/
def isExpiredToken (token : String) (now : Nat) : Bool :=
  match codec.decode token now with
  | .error .expiredSignature => true
  | .error .invalid => false
  | .ok _ => false

/- `verify_signed_token_full` -/
def verifySignedTokenFull
    (token purpose : String)
    (now : Nat) : Option Claims :=
  match codec.decode token now with
  | .error _ => none
  | .ok payload =>
      if Dict.get payload "purpose" ≠
          some (.text purpose) ∨
          Dict.get payload "sub" = none then
        none
      else
        some payload

/- `verify_signed_token` -/
def verifySignedToken
    (token purpose : String)
    (now : Nat) : Option String :=
  match codec.verifySignedTokenFull token purpose now with
  | none => none
  | some payload =>
      match Dict.get payload "sub" with
      | some (.text sub) => some sub
      | _ => none

variable {codec}
variable {token : String}
variable {now : Nat}
variable {payload : Claims}

/- The check returns the claims unchanged. -/
theorem eq_of_checkSubject
    {checked : Claims}
    (hCheck : checkSubject payload = .ok checked) :
    checked = payload := by
  unfold checkSubject at hCheck
  split at hCheck
  · cases hCheck
    rfl
  · cases hCheck
    rfl
  · cases hCheck

/- What is decoded was signed, and has not expired. -/
theorem opens_of_decode
    (hDecode : codec.decode token now = .ok payload) :
    codec.opens token = some payload ∧
      ∀ exp,
        Dict.get payload "exp" = some (.number exp) →
          now < exp := by
  unfold decode at hDecode
  cases hOpens : codec.opens token with
  | none =>
      rw [hOpens] at hDecode
      cases hDecode
  | some claims =>
      rw [hOpens] at hDecode
      dsimp only at hDecode
      split at hDecode
      · rename_i hNone
        obtain rfl := eq_of_checkSubject hDecode
        refine ⟨rfl, fun exp hExp => ?_⟩
        rw [hNone] at hExp
        cases hExp
      · rename_i exp hSome
        split at hDecode
        · cases hDecode
        · rename_i hFresh
          obtain rfl := eq_of_checkSubject hDecode
          refine ⟨rfl, fun other hExp => ?_⟩
          rw [hSome] at hExp
          cases hExp
          exact Nat.not_le.mp hFresh
      · cases hDecode

/- A verified token opens, with its type. -/
theorem opens_of_verifyToken
    {expected : TokenType}
    (hVerify :
      codec.verifyToken token expected now = some payload) :
    codec.opens token = some payload ∧
      Dict.get payload "token_type" =
        some (.text expected.value) ∧
      ∀ exp,
        Dict.get payload "exp" = some (.number exp) →
          now < exp := by
  unfold verifyToken at hVerify
  split at hVerify
  · cases hVerify
  · rename_i claims hDecode
    split at hVerify
    · cases hVerify
    · rename_i hType
      split at hVerify
      · cases hVerify
      · cases hVerify
        obtain ⟨hOpens, hExp⟩ := opens_of_decode hDecode
        exact ⟨hOpens, not_not.mp hType, hExp⟩

/- A verified link opens, with its purpose. -/
theorem opens_of_verifySigned
    {purpose : String}
    (hVerify :
      codec.verifySignedTokenFull token purpose now =
      some payload) :
    codec.opens token = some payload ∧
      Dict.get payload "purpose" = some (.text purpose) ∧
      ∀ exp,
        Dict.get payload "exp" = some (.number exp) →
          now < exp := by
  unfold verifySignedTokenFull at hVerify
  split at hVerify
  · cases hVerify
  · rename_i claims hDecode
    split at hVerify
    · cases hVerify
    · rename_i hPurpose
      cases hVerify
      obtain ⟨hOpens, hExp⟩ := opens_of_decode hDecode
      exact ⟨hOpens, not_not.mp (not_or.mp hPurpose).1, hExp⟩

end Codec

end Bearer

end CrudAuth
