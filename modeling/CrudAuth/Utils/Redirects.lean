import CrudAuth.Registration.Dict
import CrudAuth.Utils.UrlParser

/-
  Where a flow sends the browser afterwards: the target a
  request names is carried unchanged or dropped, by the
  signed token of a recovery flow, by the OAuth state, and
  by the options of an MFA challenge.

  The JWT library is `Signing`: a token it accepts carries
  the payload it was signed with.

  Main declarations:
    * `safeRedirectPath`
    * `redirectClaim`
    * `redirectFrom`
    * `Signing.mint`
    * `Signing.confirm`
    * `OAuthCallback.handedOn`
    * `SameOrigin`
    * `safeRedirectPath_cases`
    * `redirect_kept_or_dropped`
-/

namespace CrudAuth

namespace Redirects

open Registration UrlParser

------------------------------------------------------------
-- The Filter
------------------------------------------------------------

/-
  `url[0].isascii() and url[0].isalpha()`, then the scheme.
-/
def schemeOf (url : Text) : Text × Text :=
  match splitScheme url with
  | some (scheme, rest) => (scheme, rest)
  | none => ([], url)

/- What ends the network location of a URL. -/
def isNetlocEnd (code : Nat) : Bool :=
  code = slash || code = 0x3f || code = 0x23

/-
  The scheme and the network location of `urlsplit`.  It
  raises for some locations, and only for these.
-/
def urlsplit (url : Text) : Text × Text :=
  let url := (url.dropWhile isC0OrSpace).filter fun code =>
    !isTabOrNewline code
  match schemeOf url with
  | (scheme, first :: second :: rest) =>
      if first = slash ∧ second = slash then
        (scheme, rest.takeWhile fun code =>
          !isNetlocEnd code)
      else
        (scheme, [])
  | (scheme, _) => (scheme, [])

/- `safe_redirect_path` -/
def safeRedirectPath
    (target : Option Text)
    (default : Text) : Text :=
  match target with
  | none => default
  | some target =>
      if target.head? ≠ some slash ∨
          target.take 2 = [slash, slash] then
        default
      else if backslash ∈ target ∨
          target.any fun code => code < 0x20 then
        default
      else
        let parts := urlsplit target
        if parts.1 ≠ [] ∨ parts.2 ≠ [] then
          default
        else
          target

------------------------------------------------------------
-- Recovery Flows
------------------------------------------------------------

/- A claim: a string, or another JSON value. -/
inductive Claim where
  | text (value : Text)
  | number (value : Nat)
deriving DecidableEq

/- The claims of a token. -/
abbrev Payload := Dict String Claim

/- The target a claim would carry, empty for none. -/
def claimTarget : Option Text → Text
  | none => []
  | some redirectTo =>
      if redirectTo = [] then
        []
      else
        safeRedirectPath (some redirectTo) []

/- `_redirect_claim` -/
def redirectClaim (redirectTo : Option Text) : Payload :=
  if claimTarget redirectTo = [] then
    []
  else
    [("redirect_to", .text (claimTarget redirectTo))]

/- The target a payload carries, empty for none. -/
def carriedTarget : Option Claim → Text
  | some (.text claim) => safeRedirectPath (some claim) []
  | _ => []

/- `_redirect_from` -/
def redirectFrom (payload : Payload) : Option Text :=
  let target := carriedTarget (payload.get "redirect_to")
  if target = [] then none else some target

/- What a request mints its token for. -/
structure Minting where
  subject : Text
  purpose : Text
  expires : Nat
  newEmail : Option Text
  fingerprint : Text
  redirectTo : Option Text

/- The payload of `create_signed_token`. -/
def Minting.payload (minting : Minting) : Payload :=
  let claims : Payload :=
    match minting.newEmail with
    | some email => [("new_email", .text email)]
    | none => []
  let claims : Payload :=
    claims ++ redirectClaim minting.redirectTo
  Dict.update
    [("sub", .text minting.subject),
      ("purpose", .text minting.purpose),
      ("exp", .number minting.expires)]
    (claims ++ [("state", .text minting.fingerprint)])

/- `jwt.encode` and `jwt.decode`, under one secret. -/
structure Signing where
  encode : Payload → Text
  decode : Text → Option Payload
  signed : ∀ payload carried,
    decode (encode payload) = some carried →
      carried = payload

namespace Signing

variable (signing : Signing)

/- `_mint_token` -/
def mint (minting : Minting) : Text :=
  signing.encode minting.payload

/-
  A confirmation: `none` is a refusal, for the token or, by
  `accepts`, for the account it names.
-/
def confirm
    (accepts : Payload → Bool)
    (purpose : Text)
    (token : Text) : Option (Option Text) :=
  match signing.decode token with
  | none => none
  | some payload =>
      if payload.get "purpose" ≠ some (.text purpose) ∨
          payload.get "sub" = none then
        none
      else if accepts payload then
        some (redirectFrom payload)
      else
        none

end Signing

------------------------------------------------------------
-- OAuth
------------------------------------------------------------

/- `OAuthState` -/
structure OAuthState where
  state : Text
  provider : Text
  codeVerifier : Option Text
  redirectTo : Option Text

/- How a callback answers. -/
inductive ResponseMode where
  | json
  | redirect
deriving DecidableEq

/- A value in the options of a challenge or in a body. -/
inductive Item where
  | text (value : Text)
  | dict (entries : List (Text × Text))
deriving DecidableEq

/- What a callback decides on, once the user is resolved. -/
structure OAuthCallback where
  stateData : OAuthState
  defaultRedirect : Text
  responseMode : ResponseMode
  challenged : Bool

namespace OAuthCallback

variable (callback : OAuthCallback)

/- Where a callback leads. -/
def redirectUrl : Text :=
  safeRedirectPath callback.stateData.redirectTo
    callback.defaultRedirect

/- The options of the challenge a callback may start. -/
def options : Dict String Item :=
  [("metadata",
      .dict [(ascii "login_type", ascii "oauth"),
        (ascii "oauth_provider",
          callback.stateData.provider)]),
    ("redirect_to", .text callback.redirectUrl)]

/- The end of `complete_challenge`, after the login. -/
def completedBody
    (body options : Dict String Item) :
    Dict String Item :=
  match options.get "redirect_to" with
  | some target => body.set "redirect_to" target
  | none => body

/-
  The target a finished sign-in hands on: in the body of the
  answer, or as the address of the redirect.  `body` is the
  transport's own login response.
-/
def handedOn (body : Dict String Item) : Option Item :=
  if callback.challenged then
    (completedBody body callback.options).get "redirect_to"
  else
    match callback.responseMode with
    | .json =>
        (body.set "redirect_to"
          (.text callback.redirectUrl)).get "redirect_to"
    | .redirect => some (.text callback.redirectUrl)

end OAuthCallback

------------------------------------------------------------
-- Kept Or Dropped
------------------------------------------------------------

/- A browser on any `https` page stays on its origin. -/
def SameOrigin (target : Text) : Prop :=
  ∀ (elsewhere : Elsewhere) (page : Url),
    page.origin.scheme = https →
      ∃ url, parse elsewhere page target = some url ∧
        url.origin = page.origin

variable {target requested : Text}

/- A target is rejected, or it is rooted and kept. -/
theorem safeRedirectPath_cases (target : Text) :
    (Rooted target ∧ ∀ default,
        safeRedirectPath (some target) default = target) ∨
      ∀ default,
        safeRedirectPath (some target) default =
          default := by
  unfold safeRedirectPath
  dsimp only
  by_cases hSlash : target.head? ≠ some slash ∨
      target.take 2 = [slash, slash]
  · right
    intro default
    rw [if_pos hSlash]
  · by_cases hChars : backslash ∈ target ∨
        (target.any fun code => code < 0x20) = true
    · right
      intro default
      rw [if_neg hSlash, if_pos hChars]
    · by_cases hParts : (urlsplit target).1 ≠ [] ∨
          (urlsplit target).2 ≠ []
      · right
        intro default
        rw [if_neg hSlash, if_neg hChars, if_pos hParts]
      · left
        constructor
        · rw [not_or, not_not] at hSlash
          rw [not_or] at hChars
          constructor
          · cases target with
            | nil => cases hSlash.1
            | cons first rest =>
                cases hSlash.1
                refine ⟨rest, rfl, ?_⟩
                intro second hSecond
                cases rest with
                | nil => cases hSecond
                | cons code more =>
                    cases hSecond
                    unfold isSlash
                    rw [Bool.or_eq_false_iff,
                      decide_eq_false_iff_not,
                      decide_eq_false_iff_not]
                    constructor
                    · rintro rfl
                      exact hSlash.2 rfl
                    · rintro rfl
                      exact hChars.1 (by simp)
          · intro code hCode
            by_contra hControl
            apply hChars.2
            apply List.any_eq_true.mpr
            exact ⟨code, hCode, decide_eq_true (by omega)⟩
        · intro default
          rw [if_neg hSlash, if_neg hChars, if_neg hParts]

/- A rooted path stays on its origin. -/
theorem sameOrigin_of_rooted (hRooted : Rooted target) :
    SameOrigin target := by
  intro elsewhere page _
  exact parse_rooted hRooted elsewhere page

/- A claim carries the request itself, or there is none. -/
theorem redirectClaim_cases (requested : Text) :
    (Rooted requested ∧ requested ≠ [] ∧
        (∀ default, safeRedirectPath (some requested)
          default =
          requested) ∧
        redirectClaim (some requested) =
          [("redirect_to", .text requested)]) ∨
      redirectClaim (some requested) = [] := by
  unfold redirectClaim
  by_cases hEmpty : claimTarget (some requested) = []
  · right
    rw [if_pos hEmpty]
  · left
    rw [if_neg hEmpty]
    have hSome : requested ≠ [] := by
      intro hNil
      apply hEmpty
      exact if_pos hNil
    have hTarget : claimTarget (some requested) =
        safeRedirectPath (some requested) [] :=
      if_neg hSome
    rcases safeRedirectPath_cases requested with
      ⟨hRooted, hKept⟩ | hDropped
    · rw [hTarget, hKept []]
      exact ⟨hRooted, hSome, hKept, rfl⟩
    · rw [hTarget, hDropped []] at hEmpty
      exact absurd rfl hEmpty

/- No other claim of the payload has that name. -/
theorem get_payload (minting : Minting) :
    minting.payload.get "redirect_to" =
      (redirectClaim minting.redirectTo).get
        "redirect_to" := by
  have hClaim :
      redirectClaim minting.redirectTo = [] ∨
        ∃ target, redirectClaim minting.redirectTo =
          [("redirect_to", .text target)] := by
    unfold redirectClaim
    split
    · exact .inl rfl
    · exact .inr ⟨_, rfl⟩
  unfold Minting.payload
  cases minting.newEmail with
  | none =>
      rcases hClaim with hNone | ⟨target, hTarget⟩
      · rw [hNone]
        rfl
      · rw [hTarget]
        rfl
  | some email =>
      rcases hClaim with hNone | ⟨target, hTarget⟩
      · rw [hNone]
        rfl
      · rw [hTarget]
        rfl

/- What a confirmation returns is read off the payload. -/
theorem Signing.redirectFrom_of_confirm
    {signing : Signing}
    {minting : Minting}
    {accepts : Payload → Bool}
    {purpose : Text}
    {carried : Option Text}
    (hConfirm : signing.confirm accepts purpose
      (signing.mint minting) = some carried) :
    carried = redirectFrom minting.payload := by
  unfold Signing.confirm at hConfirm
  cases hDecode : signing.decode (signing.mint minting) with
  | none =>
      rw [hDecode] at hConfirm
      cases hConfirm
  | some payload =>
      have hPayload := signing.signed _ _ hDecode
      rw [hDecode, hPayload] at hConfirm
      dsimp only at hConfirm
      split at hConfirm
      · cases hConfirm
      · split at hConfirm
        · exact (Option.some.inj hConfirm).symm
        · cases hConfirm

/- Every way to finish hands the same target on. -/
theorem OAuthCallback.handedOn_eq
    (callback : OAuthCallback)
    (body : Dict String Item) :
    callback.handedOn body =
      some (.text callback.redirectUrl) := by
  unfold OAuthCallback.handedOn
  split
  · have hOptions :
        callback.options.get "redirect_to" =
          some (.text callback.redirectUrl) :=
      rfl
    unfold OAuthCallback.completedBody
    rw [hOptions]
    dsimp only
    rw [Dict.get_set, if_pos rfl]
  · cases callback.responseMode with
    | json =>
        dsimp only
        rw [Dict.get_set, if_pos rfl]
    | redirect => rfl

/-
  A recovery flow returns the requested target, exactly when
  it was accepted, or none; a callback hands on the target
  or the default; and a target handed on stays on the origin.
-/
theorem redirect_kept_or_dropped
    {signing : Signing}
    {minting : Minting}
    {callback : OAuthCallback}
    {requested : Text}
    (hMinting : minting.redirectTo = some requested)
    (hState :
      callback.stateData.redirectTo = some requested) :
    (∀ accepts purpose carried,
      signing.confirm accepts purpose
          (signing.mint minting) = some carried →
        (carried = none ∨ carried = some requested) ∧
        (carried = some requested ↔
          redirectClaim (some requested) ≠ []) ∧
        (carried = some requested →
          SameOrigin requested)) ∧
    ∀ body,
      (callback.handedOn body =
          some (.text callback.defaultRedirect) ∨
        callback.handedOn body = some (.text requested)) ∧
      (callback.handedOn body ≠
          some (.text callback.defaultRedirect) →
        SameOrigin requested) := by
  constructor
  · intro accepts purpose carried hConfirm
    have hCarried := Signing.redirectFrom_of_confirm hConfirm
    have hPayload :
        minting.payload.get "redirect_to" =
          (redirectClaim (some requested)).get
            "redirect_to" := by
      rw [get_payload, hMinting]
    rcases redirectClaim_cases requested with
      ⟨hRooted, hSome, hKept, hClaim⟩ | hClaim
    · have hTarget :
          carriedTarget (minting.payload.get
            "redirect_to") = requested := by
        rw [hPayload, hClaim]
        exact hKept []
      unfold redirectFrom at hCarried
      dsimp only at hCarried
      rw [hTarget, if_neg hSome] at hCarried
      rw [hClaim]
      refine ⟨.inr hCarried, ?_, ?_⟩
      · simp [hCarried]
      · intro _
        exact sameOrigin_of_rooted hRooted
    · have hTarget :
          carriedTarget (minting.payload.get
            "redirect_to") = [] := by
        rw [hPayload, hClaim]
        rfl
      unfold redirectFrom at hCarried
      dsimp only at hCarried
      rw [hTarget, if_pos rfl] at hCarried
      rw [hClaim, hCarried]
      simp
  · intro body
    rw [OAuthCallback.handedOn_eq]
    unfold OAuthCallback.redirectUrl
    rw [hState]
    rcases safeRedirectPath_cases requested with
      ⟨hRooted, hKept⟩ | hDropped
    · rw [hKept]
      constructor
      · exact .inr rfl
      · intro _
        exact sameOrigin_of_rooted hRooted
    · rw [hDropped]
      constructor
      · exact .inl rfl
      · intro hOther
        exact absurd rfl hOther

/- A library that signs one payload, and accepts it. -/
def oneToken (payload : Payload) : Signing where
  encode other := if other = payload then [1] else [0]
  decode token := if token = [1] then some payload else none
  signed := by
    intro other carried hDecode
    by_cases hSame : other = payload
    · rw [if_pos hSame, if_pos rfl] at hDecode
      rw [hSame]
      exact (Option.some.inj hDecode).symm
    · rw [if_neg hSame, if_neg (by decide)] at hDecode
      cases hDecode

/- A token that leads to the settings. -/
def toSettings : Minting where
  subject := ascii "7"
  purpose := ascii "verify_email"
  expires := 86400
  newEmail := none
  fingerprint := ascii "0f"
  redirectTo := some (ascii "/settings?tab=2")

/- A callback that leads there. -/
def backToSettings : OAuthCallback where
  stateData :=
    { state := ascii "s"
      provider := ascii "google"
      codeVerifier := none
      redirectTo := some (ascii "/settings?tab=2") }
  defaultRedirect := ascii "https://app.example.com"
  responseMode := .json
  challenged := true

/- A relative target is kept. -/
theorem redirect_to_settings :
    (oneToken toSettings.payload).confirm (fun _ => true)
        (ascii "verify_email")
        ((oneToken toSettings.payload).mint toSettings) =
      some (some (ascii "/settings?tab=2")) ∧
    backToSettings.handedOn [] =
      some (.text (ascii "/settings?tab=2")) ∧
    SameOrigin (ascii "/settings?tab=2") := by
  have hBoth := @redirect_kept_or_dropped
    (oneToken toSettings.payload) toSettings backToSettings
    (ascii "/settings?tab=2") rfl rfl
  have hConfirm :
      (oneToken toSettings.payload).confirm (fun _ => true)
          (ascii "verify_email")
          ((oneToken toSettings.payload).mint toSettings) =
        some (some (ascii "/settings?tab=2")) := by
    decide
  have hHanded : backToSettings.handedOn [] =
      some (.text (ascii "/settings?tab=2")) := by
    decide
  refine ⟨hConfirm, hHanded, ?_⟩
  exact (hBoth.1 _ _ _ hConfirm).2.2 rfl

end Redirects

end CrudAuth
