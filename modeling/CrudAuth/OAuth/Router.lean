import CrudAuth.Storage.Backends
import CrudAuth.Utils.Redirects

/-
  The OAuth router: `authorize` stores a state for the
  browser that asked, and `callback` takes it out again.

  The state store is one of the backends; browsers, the
  provider and the account side are a service of their own.

  Main declarations:
    * `StateValues`
    * `Web`
    * `Router`
    * `Router.authorize`
    * `Router.callback`
    * `Router.perform`
-/

------------------------------------------------------------
-- Browsers And Providers
------------------------------------------------------------

namespace CrudAuth

namespace OAuthRouter

open Concurrency
open Storage
open Redirects
open UrlParser (ascii)

/- The texts of a request, as its URL is read. -/
abbrev Text := UrlParser.Text

deriving instance DecidableEq for OAuthState

/- A state has no user, and so no index. -/
instance : Owned OAuthState where
  userId := fun _ => none

/- `OAUTH_STATE_TTL_SECONDS` -/
def oauthStateTtlSeconds : Nat := 30 * 60

/- `secrets.token_urlsafe`: no value comes twice. -/
structure StateValues where
  value : Nat → Text
  injective : Function.Injective value

/-
  What a request does beside the store: `drawState` is in
  `get_authorization_url`, and `stateCookie` is the cookie
  that a browser sends, one of those set on it.
-/
inductive WebOp where
  | drawState
  | setStateCookie (browser : Nat) (state : Text)
  | stateCookie (browser pick : Nat)
  | exchangeCode
      (provider code : Text)
      (codeVerifier : Option Text)
  | getUserInfo (provider : Text)
  | getOrCreateUser
  | challengeLogin (issues : Bool)
  | createSession

/- The account service notes when it is called. -/
@[reducible]
def WebOp.Ret : WebOp → Type
  | .drawState => Text
  | .setStateCookie _ _ => Unit
  | .stateCookie _ _ => Option Text
  | .exchangeCode _ _ _ => Unit
  | .getUserInfo _ => Unit
  | .getOrCreateUser => Nat
  | .challengeLogin _ => Unit
  | .createSession => Unit

/- The browsers and the provider, as the routes see them. -/
abbrev webOps : Interface where
  Op := WebOp
  Ret := WebOp.Ret

/- How many states were drawn, and the cookies set. -/
structure Web where
  drawn : Nat
  cookies : Nat → List Text

namespace Web

variable (values : StateValues)

/- Each operation on browsers and provider. -/
def exec :
    (op : WebOp) → Nat → Web → op.Ret × Web
  | .drawState, _, web =>
      (values.value web.drawn,
        { web with drawn := web.drawn + 1 })
  | .setStateCookie browser state, _, web =>
      ((),
        { web with
          cookies :=
            Function.update web.cookies browser
              (state :: web.cookies browser) })
  | .stateCookie browser pick, _, web =>
      ((web.cookies browser)[pick]?, web)
  | .exchangeCode _ _ _, _, web => ((), web)
  | .getUserInfo _, _, web => ((), web)
  | .getOrCreateUser, now, web => (now, web)
  | .challengeLogin _, _, web => ((), web)
  | .createSession, _, web => ((), web)

/- Nothing changes on its own here. -/
abbrev server : Server webOps Web where
  Upkeep := Empty
  exec := exec values
  upkeep := fun upkeep _ _ => upkeep.elim

end Web

------------------------------------------------------------
-- Requests
------------------------------------------------------------

/- `codeVerifier` is what the provider has drawn for it. -/
structure AuthorizeRequest where
  browser : Nat
  provider : Text
  redirectTo : Option Text
  codeVerifier : Option Text

/-
  A callback, with what the provider and the account side
  answer to it: `account` is the error code of the account
  service, or whether the user is active.
-/
structure CallbackRequest where
  browser : Nat
  pick : Nat
  provider : Text
  code : Option Text
  state : Option Text
  error : Option Text
  hasToken : Bool
  hasProfile : Bool
  account : Except Text Bool
  challenged : Bool

/- A request to one of the two routes. -/
inductive Request where
  | authorize (request : AuthorizeRequest)
  | callback (request : CallbackRequest)

/- The state that an `authorize` stores. -/
def AuthorizeRequest.stored
    (request : AuthorizeRequest)
    (state : Text) : OAuthState where
  state := state
  provider := request.provider
  codeVerifier := request.codeVerifier
  redirectTo := request.redirectTo

/- An answer; `refused` carries the error code. -/
inductive Reply where
  | authorization (state : Text)
  | refused (code : Text)
  | challenged (redirectTo : Text)
  | signedIn (redirectTo : Text)

------------------------------------------------------------
-- The Routes
------------------------------------------------------------

/- What a request performs. -/
abbrev webClient : Interface :=
  client (calls Text OAuthState) webOps

/- A route, step by step. -/
abbrev Route := Program webClient HttpError Reply

/- One operation beside the store. -/
def web (op : WebOp) : Program webClient HttpError op.Ret :=
  Program.call (I := webClient) (.app op)

/- One call of the state store. -/
def stateStorage
    (call : Call Text OAuthState) :
    Program webClient HttpError call.Ret :=
  Program.call (I := webClient) (.call call)

/- Python's truth of a parameter. -/
def given (parameter : Option Text) : Bool :=
  parameter.any fun text => !text.isEmpty

/-
  What the router is built with; `challengesOAuth` is
  whether MFA is configured for OAuth logins.
-/
structure Router where
  providers : List Text
  responseMode : ResponseMode
  defaultRedirect : Text
  challengesOAuth : Bool

namespace Router

variable (router : Router)

/- `_provider` -/
def unknownProvider : HttpError :=
  .badRequest "Unknown or unconfigured OAuth provider"

/- The code for any failure of the sign-in. -/
def oauthFailed : Text := ascii "oauth_failed"

/- The code for a deactivated account. -/
def accountInactive : Text := ascii "account_inactive"

/- `_invalid_state` -/
def invalidState : Route :=
  match router.responseMode with
  | .json =>
      .raise (.badRequest "Invalid or expired OAuth state")
  | .redirect => .done (.refused (ascii "invalid_state"))

/- `authorize` -/
def authorize (request : AuthorizeRequest) : Route := do
  if router.providers.contains request.provider then
    let state ← web .drawState
    stateStorage (.create state (request.stored state)
      (some oauthStateTtlSeconds))
    web (.setStateCookie request.browser state)
    return .authorization state
  else
    .raise unknownProvider

/- The session, or the challenge that comes before it. -/
def establish
    (request : CallbackRequest)
    (redirectUrl : Text) : Route := do
  if router.challengesOAuth then
    web (.challengeLogin request.challenged)
    if request.challenged then
      return .challenged redirectUrl
    else
      web .createSession
      return .signedIn redirectUrl
  else
    web .createSession
    return .signedIn redirectUrl

/- The user of the profile is resolved and let in. -/
def signIn
    (request : CallbackRequest)
    (stateData : OAuthState) : Route := do
  let _ ← web .getOrCreateUser
  match request.account with
  | .error code => return .refused code
  | .ok false => return .refused accountInactive
  | .ok true =>
      router.establish request
        (safeRedirectPath stateData.redirectTo
          router.defaultRedirect)

/- The code is exchanged for a token and a profile. -/
def exchange
    (request : CallbackRequest)
    (code : Text)
    (stateData : OAuthState) : Route := do
  web (.exchangeCode request.provider code
    stateData.codeVerifier)
  if request.hasToken then
    web (.getUserInfo request.provider)
    if request.hasProfile then
      router.signIn request stateData
    else
      return .refused oauthFailed
  else
    return .refused oauthFailed

/- The state is taken out of the store. -/
def consume
    (request : CallbackRequest)
    (code state : Text) : Route := do
  match ← stateStorage (.getAndDelete state) with
  | none => router.invalidState
  | some stateData =>
      if stateData.provider = request.provider then
        router.exchange request code stateData
      else
        router.invalidState

/- The state has to be the one of the browser's cookie. -/
def boundCallback
    (request : CallbackRequest)
    (code state : Text) : Route := do
  let bound ← web (.stateCookie request.browser request.pick)
  if given bound && decide (bound = some state) then
    router.consume request code state
  else
    router.invalidState

/- `callback` -/
def callback (request : CallbackRequest) : Route :=
  if router.providers.contains request.provider then
    match request.code, request.state with
    | some code, some state =>
        if given request.error || !given request.code ||
            !given request.state then
          .done (.refused oauthFailed)
        else
          router.boundCallback request code state
    | _, _ => .done (.refused oauthFailed)
  else
    .raise unknownProvider

/- Each route, as a program. -/
def handle : Request → Route
  | .authorize request => router.authorize request
  | .callback request => router.callback request

end Router

------------------------------------------------------------
-- Over A Backend
------------------------------------------------------------

variable (choice : BackendChoice)

/- The storage of the states. -/
abbrev storage : Backend Text OAuthState :=
  getSessionStorage choice

/- What a request performs over a backend. -/
abbrev routerLayer : Interface :=
  layered (calls Text OAuthState) (storage choice).commands
    webOps

/- That storage, beside the browsers and the provider. -/
abbrev State : Type :=
  Layered (storage choice).State Web

/- The state store and the web. -/
abbrev machine (values : StateValues) :
    Machine (routerLayer choice) (State choice) :=
  Layered.machine (calls Text OAuthState)
    (storage choice).server (Web.server values)

/- A request, over the backend. -/
def Router.perform
    (router : Router)
    (request : Request) :
    Program (routerLayer choice) HttpError Reply :=
  Layered.lower (storage choice).implement
    (router.handle request)

end OAuthRouter

end CrudAuth
