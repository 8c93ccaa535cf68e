import CrudAuth.RateLimit.FixedWindow
import CrudAuth.Resolution.Transports
import CrudAuth.Utils.ClientIp
import CrudAuth.Utils.Http

/-
  `rate_limit`: dependencies that count a request against
  its client or user; and the throttle of emails, for each
  mailbox.

  A turn of a dependency reads the clock and counts then or
  later, as a call of `increment_and_check` does.  A limit
  that is a function of the request is what it returned.

  Main declarations:
    * `identityKey`
    * `enforceRateLimit`
    * `limitByUser`, `limitByRequest`
    * `emailWithinLimit`
    * `sendWithHeaders`
    * `Event`
    * `Progress.next`
-/

namespace CrudAuth

open RateLimit
open Storage (Text)
open Resolution (Principal)

namespace Limits

------------------------------------------------------------
-- Limits
------------------------------------------------------------

/- No times at all is the off switch. -/
structure RateLimit where
  times : Nat
  seconds : Nat
  seconds_pos : 0 < seconds

/- `RateLimit.disabled` -/
def RateLimit.disabled (limit : RateLimit) : Bool :=
  limit.times = 0

/- A limit, or a `RateLimitResolver`. -/
inductive Limit where
  | fixed (limit : RateLimit)
  | resolver
      (resolve :
        Http.Request → Option Principal → Option RateLimit)

namespace Limit

/- `callable(limit)` -/
def callable : Limit → Bool
  | .fixed _ => false
  | .resolver _ => true

/- The limit that holds for a request, if any does. -/
def effective
    (request : Http.Request)
    (principal : Option Principal) :
    Limit → Option RateLimit
  | .fixed limit => some limit
  | .resolver resolve => resolve request principal

end Limit

------------------------------------------------------------
-- Keys
------------------------------------------------------------

/- `KeyBy`, less `USER`; or a callable. -/
inductive Key where
  | ip
  | userOrIp
  | callback (name : Http.Request → Text)
  | callbackOfTwo
      (name : Http.Request → Option Principal → Text)

/- The key asks who is signed in. -/
def Key.readsPrincipal : Key → Bool
  | .ip => false
  | .userOrIp => true
  | .callback _ => false
  | .callbackOfTwo _ => true

/- `client_ip_key(get_client_ip(request, hops))` -/
def clientKey
    (trustedProxyHops : Nat)
    (request : Http.Request) : Text :=
  Ip.clientIpKey (Http.getClientIp request trustedProxyHops)

/- `identity_key` -/
def identityKey
    (trustedProxyHops : Nat)
    (request : Http.Request)
    (principal : Option Principal) : Key → Text
  | .ip => clientKey trustedProxyHops request
  | .userOrIp =>
      match principal with
      | some principal =>
          "user:".toList ++ digits principal.userId
      | none =>
          "ip:".toList ++ clientKey trustedProxyHops request
  | .callback name => name request
  | .callbackOfTwo name => name request principal

------------------------------------------------------------
-- Headers
------------------------------------------------------------

/- `X-RateLimit-Limit` and `X-RateLimit-Remaining` -/
structure Headers where
  limit : Nat
  remaining : Nat
deriving DecidableEq

/- What is recorded on the request, and is to be sent. -/
def recordRateLimitHeaders
    (recorded : Option Headers)
    (headers : Headers) : Headers :=
  match recorded with
  | some closer =>
      if closer.remaining ≤ headers.remaining then closer
      else headers
  | none => headers

/- `max(0, effective.times - count)`, where not limited. -/
def headersOf
    (limit : RateLimit)
    (count : Int)
    (limited : Bool) : Headers where
  limit := limit.times
  remaining :=
    if limited then 0 else (limit.times - count).toNat

------------------------------------------------------------
-- Enforcement
------------------------------------------------------------

/- `RateLimitException` -/
def tooManyRequests (retryAfter : Nat) : HttpError where
  status := 429
  detail := "Too many requests. Try again later."
  retryAfter := retryAfter

/- The headers of the response, or of the exception. -/
inductive Answer where
  | passed (headers : Option Headers)
  | raised (error : HttpError) (headers : Option Headers)
deriving DecidableEq

/- The request goes on. -/
def Answer.admits : Answer → Bool
  | .passed _ => true
  | .raised _ _ => false

/- The headers that an answer carries. -/
def Answer.headers : Answer → Option Headers
  | .passed headers => headers
  | .raised _ headers => headers

/- The count that a limit makes of a key. -/
def windowCall (key : Text) (limit : RateLimit) :
    WindowCall where
  key := key
  limit := limit.times
  period := limit.seconds
  failOpen := true
  period_pos := limit.seconds_pos

/- `f"{RATE_LIMIT_NAMESPACE}:{action}:{identity}"` -/
def rateLimitKey (action identity : Text) : Text :=
  "ratelimit:".toList ++ (action ++ ':' :: identity)

/- An answer, what is recorded then, and the counters. -/
structure Enforced (limiter : WindowLimiter) where
  answer : Answer
  recorded : Option Headers
  state : limiter.State

/- `enforce_rate_limit` -/
def enforceRateLimit
    (limiter : WindowLimiter)
    (now waited : Nat)
    (action identity : Text)
    (limit : Option RateLimit)
    (recorded : Option Headers)
    (state : limiter.State) : Enforced limiter :=
  match limit with
  | none => { answer := .passed none, recorded, state }
  | some limit =>
      if limit.disabled then
        { answer := .passed none, recorded, state }
      else
        let done := limiter.check now waited
          (windowCall (rateLimitKey action identity) limit)
          state
        let headers := headersOf limit done.1.1 done.1.2.1
        let sent := recordRateLimitHeaders recorded headers
        { answer :=
            if done.1.2.1 then
              .raised (tooManyRequests done.1.2.2)
                (some headers)
            else
              .passed (some sent)
          recorded := some sent
          state := done.2 }

------------------------------------------------------------
-- Dependencies
------------------------------------------------------------

/- The identity and the limit that are then enforced. -/
abbrev Asked := Except HttpError (Text × Option RateLimit)

/- `current_user` turns the anonymous away. -/
def limitByUser
    (request : Http.Request)
    (caller : Except HttpError (Option Principal))
    (limit : Limit) : Asked := do
  match ← caller with
  | none => throw (.unauthorized "Not authenticated")
  | some user =>
      return (digits user.userId,
        limit.effective request (some user))

/- The caller is looked up only where it is read. -/
def limitByRequest
    (trustedProxyHops : Nat)
    (request : Http.Request)
    (caller : Except HttpError (Option Principal))
    (limit : Limit)
    (key : Key) : Asked :=
  if key.readsPrincipal || limit.callable then do
    let principal ← caller
    return (identityKey trustedProxyHops request
      principal key,
      limit.effective request principal)
  else
    return (identityKey trustedProxyHops request none key,
      limit.effective request none)

/- What `rate_limit` builds. -/
inductive Dependency where
  | byUser (action : Text) (limit : Limit)
  | byRequest (action : Text) (limit : Limit) (key : Key)

/- The action that a dependency counts. -/
def Dependency.action : Dependency → Text
  | .byUser action _ => action
  | .byRequest action _ _ => action

/- One dependency of a request, and whom it would find. -/
structure Turn where
  requestId : Nat
  request : Http.Request
  caller : Except HttpError (Option Principal)
  dependency : Dependency

/- What a dependency asks of its turn. -/
def Turn.asks (trustedProxyHops : Nat) (turn : Turn) :
    Asked :=
  match turn.dependency with
  | .byUser _ limit =>
      limitByUser turn.request turn.caller limit
  | .byRequest _ limit key =>
      limitByRequest trustedProxyHops turn.request
        turn.caller limit key

/- A turn, as its dependency enforces the limit. -/
def Turn.enforce
    (trustedProxyHops : Nat)
    (limiter : WindowLimiter)
    (now waited : Nat)
    (turn : Turn)
    (recorded : Option Headers)
    (state : limiter.State) : Enforced limiter :=
  match turn.asks trustedProxyHops with
  | .error error =>
      { answer := .raised error none, recorded, state }
  | .ok (identity, limit) =>
      enforceRateLimit limiter now waited
        turn.dependency.action identity limit recorded state

------------------------------------------------------------
-- Emails
------------------------------------------------------------

/- `f"email:{action}:{canonical_email(email)}"` -/
def emailKey (action mailbox : Text) : Text :=
  "email:".toList ++ (action ++ ':' :: mailbox)

/- `_email_within_limit` -/
def emailWithinLimit
    (canonicalEmail : Text → Text)
    (limiter : WindowLimiter)
    (now waited : Nat)
    (action email : Text)
    (limit : Option RateLimit)
    (state : limiter.State) : Bool × limiter.State :=
  match limit with
  | none => (true, state)
  | some limit =>
      if limit.disabled then
        (true, state)
      else
        let done := limiter.check now waited
          (windowCall
            (emailKey action (canonicalEmail email)) limit)
          state
        (!done.1.2.1, done.2)

------------------------------------------------------------
-- Responses
------------------------------------------------------------

/- The values of a response's headers. -/
abbrev Values := String → Option Text

/- The headers by name. -/
def Headers.items (headers : Headers) :
    List (String × Text) :=
  [("X-RateLimit-Limit", digits headers.limit),
    ("X-RateLimit-Remaining", digits headers.remaining)]

/- One header is set. -/
def Values.set (values : Values) (item : String × Text) :
    Values :=
  Function.update values item.1 (some item.2)

/-
  How a request ends: the route returns, an exception is
  raised that has a handler, a limiter refuses, or something
  is raised that nothing handles.
-/
inductive Ending where
  | returned (values : Values)
  | handled (values : Values)
  | limited (retryAfter : Nat) (headers : Headers)
  | unhandled (values : Values)

/- Whether the response is built inside the middleware. -/
def Ending.inside : Ending → Bool
  | .returned _ => true
  | .handled _ => true
  | .limited _ _ => true
  | .unhandled _ => false

/-
  A route's response gets what is on the injected one, which
  is what is recorded; an exception has its own headers.
-/
def Ending.values (recorded : Option Headers) :
    Ending → Values
  | .returned values => fun name =>
      (values name).or
        ((recorded.elim [] Headers.items).lookup name)
  | .handled values => values
  | .limited retryAfter headers =>
      (headers.items ++
          [("Retry-After", digits retryAfter)]).foldl
        Values.set fun _ => none
  | .unhandled values => values

/- `send_with_headers`: nothing is overwritten. -/
def sendWithHeaders
    (recorded : Option Headers)
    (values : Values) : Values :=
  match recorded with
  | none => values
  | some headers =>
      headers.items.foldl
        (fun values item =>
          if (values item.1).isSome then values
          else values.set item) values

/-
  What leaves the app.  The `500` for what nothing handles is
  sent by the outermost middleware, past this one.
-/
def Ending.sent
    (recorded : Option Headers)
    (ending : Ending) : Values :=
  if ending.inside then
    sendWithHeaders recorded (ending.values recorded)
  else
    ending.values recorded

/- What is sent from inside the middleware. -/
theorem Ending.sent_of_inside
    {recorded : Option Headers}
    {ending : Ending}
    (hInside : ending.inside) :
    ending.sent recorded =
      sendWithHeaders recorded (ending.values recorded) :=
  if_pos hInside

------------------------------------------------------------
-- Runs
------------------------------------------------------------

/- What the application has configured. -/
structure Settings where
  trustedProxyHops : Nat
  canonicalEmail : Text → Text

/- Time passes before each of them. -/
inductive Event where
  | turn (elapsed waited : Nat) (turn : Turn)
  | email
      (elapsed waited : Nat)
      (action email : Text)
      (limit : Option RateLimit)
  | purge (elapsed : Nat) (purged : List Text)

/- The moment, the counters, and what requests carry. -/
structure Progress (limiter : WindowLimiter) where
  now : Nat
  state : limiter.State
  recorded : Nat → Option Headers

namespace Progress

variable {limiter : WindowLimiter}
variable (settings : Settings)

/- Nothing is counted yet, and nothing recorded. -/
def start (limiter : WindowLimiter) (now : Nat) :
    Progress limiter where
  now := now
  state := limiter.initial
  recorded _ := none

/- What a turn gets that counts after a while. -/
def enforced
    (progress : Progress limiter)
    (elapsed waited : Nat)
    (turn : Turn) : Enforced limiter :=
  turn.enforce settings.trustedProxyHops limiter
    (progress.now + elapsed) waited
    (progress.recorded turn.requestId) progress.state

/- Whether an email may be sent, and the counters then. -/
def throttled
    (progress : Progress limiter)
    (elapsed waited : Nat)
    (action email : Text)
    (limit : Option RateLimit) : Bool × limiter.State :=
  emailWithinLimit settings.canonicalEmail limiter
    (progress.now + elapsed) waited action email limit
    progress.state

/- One event, and what has been counted after it. -/
def next (progress : Progress limiter) :
    Event → Progress limiter
  | .turn elapsed waited turn =>
      let done :=
        progress.enforced settings elapsed waited turn
      { now := progress.now + elapsed
        state := done.state
        recorded :=
          Function.update progress.recorded turn.requestId
            done.recorded }
  | .email elapsed waited action email limit =>
      { progress with
        now := progress.now + elapsed
        state :=
          (progress.throttled settings elapsed waited action
            email limit).2 }
  | .purge elapsed purged =>
      { progress with
        now := progress.now + elapsed
        state :=
          limiter.purge (progress.now + elapsed) purged
            progress.state }

/- Whether the limiter lets the event through. -/
def admits (progress : Progress limiter) : Event → Bool
  | .turn elapsed waited turn =>
      (progress.enforced settings elapsed waited
        turn).answer.admits
  | .email elapsed waited action email limit =>
      (progress.throttled settings elapsed waited action
        email limit).1
  | .purge _ _ => true

/- The events, each with the progress that it meets. -/
def log : List Event → Progress limiter →
    List (Event × Progress limiter)
  | [], _ => []
  | event :: events, progress =>
      (event, progress) ::
        log events (progress.next settings event)

end Progress

end Limits

end CrudAuth
