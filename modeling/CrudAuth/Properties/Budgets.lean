import CrudAuth.RateLimit.Dependency

/-
  Rate limits as budgets: of a client, of a user, or of a
  mailbox.

  However requests, emails and purges follow each other,
  what is let through is what is left of the budget in its
  window, and the headers tell how much that is.  Another
  address of the same client is the same budget.

  Main declarations:
    * `Budget`
    * `Orderly`
    * `Metered`
    * `charge_eq_iff`
    * `metered_of_run`
-/

namespace CrudAuth

open RateLimit
open Storage (Text)
open Resolution (Principal)

namespace Limits

------------------------------------------------------------
-- Budgets
------------------------------------------------------------

/- Whoever shares an allowance. -/
inductive Payer where
  | client (client : Ip.Client)
  | user (userId : UserId)
  | named (text : Text)
  | mailbox (address : Text)
deriving DecidableEq

/-
  What is spent from: an action's allowance for one payer.
-/
structure Budget where
  action : Text
  payer : Payer
deriving DecidableEq

/- Whom the dependency would find, if anybody. -/
def Turn.principal (turn : Turn) : Option Principal :=
  match turn.caller with
  | .ok found => found
  | .error _ => none

/-
  The client a turn is made for, behind the trusted proxies.
-/
def Turn.client (hops : Nat) (turn : Turn) : Ip.Client :=
  Ip.clientOf (Http.getClientIp turn.request hops)

/-
  Who pays for a turn, as the key of its dependency asks.
-/
def Turn.payer (hops : Nat) (turn : Turn) : Option Payer :=
  match turn.dependency with
  | .byUser _ _ =>
      turn.principal.map fun user => .user user.userId
  | .byRequest _ _ .ip => some (.client (turn.client hops))
  | .byRequest _ _ .userOrIp =>
      match turn.principal with
      | some user => some (.user user.userId)
      | none => some (.client (turn.client hops))
  | .byRequest _ _ (.callback name) =>
      some (.named (name turn.request))
  | .byRequest _ _ (.callbackOfTwo name) =>
      some (.named (name turn.request turn.principal))

/- How an action tells its payers apart. -/
inductive Kind where
  | user
  | ip
  | userOrIp
  | named
deriving DecidableEq

/- The kind of key that a dependency counts by. -/
def Dependency.kind : Dependency → Kind
  | .byUser _ _ => .user
  | .byRequest _ _ .ip => .ip
  | .byRequest _ _ .userOrIp => .userOrIp
  | .byRequest _ _ (.callback _) => .named
  | .byRequest _ _ (.callbackOfTwo _) => .named

namespace Event

/- The action that an event counts under. -/
def action : Event → Text
  | .turn _ _ taken => taken.dependency.action
  | .email _ _ action _ _ => action
  | .purge _ _ => []

/- The time before an event. -/
def elapsed : Event → Nat
  | .turn elapsed _ _ => elapsed
  | .email elapsed _ _ _ _ => elapsed
  | .purge elapsed _ => elapsed

/- The time between an event's reading and its increment. -/
def waited : Event → Nat
  | .turn _ waited _ => waited
  | .email _ waited _ _ _ => waited
  | .purge _ _ => 0

/- The budget that an event spends from, if it spends. -/
def budget (settings : Settings) : Event → Option Budget
  | .turn _ _ taken =>
      (taken.payer settings.trustedProxyHops).map
        fun payer => ⟨taken.dependency.action, payer⟩
  | .email _ _ action address _ =>
      some
        ⟨action, .mailbox (settings.canonicalEmail address)⟩
  | .purge _ _ => none

/- The counter and the limit of an event that counts. -/
def charge (settings : Settings) :
    Event → Option (Text × RateLimit)
  | .turn _ _ taken =>
      match taken.asks settings.trustedProxyHops with
      | .ok (identity, some limit) =>
          if limit.disabled then none
          else
            some
              (rateLimitKey taken.dependency.action identity,
                limit)
      | _ => none
  | .email _ _ action address (some limit) =>
      if limit.disabled then none
      else
        some
          (emailKey action (settings.canonicalEmail address),
            limit)
  | .email _ _ _ _ none => none
  | .purge _ _ => none

/- The limit that an event is held to. -/
def limit
    (settings : Settings)
    (event : Event) : Option RateLimit :=
  (event.charge settings).map Prod.snd

/- When the clock is read, after `now`. -/
def read (event : Event) (now : Nat) : Nat :=
  now + event.elapsed - event.waited

end Event

/- The window that a reading of the clock falls into. -/
def RateLimit.window (limit : RateLimit) (read : Nat) :
    Nat :=
  windowStart limit.seconds (second read)

/-
  Actions are names without a colon, each used with one way
  of telling payers apart; addresses are not those of
  networks; and a budget has one length of windows.
-/
structure Orderly
    (settings : Settings)
    (events : List Event) : Prop where
  action : ∀ event ∈ events, ':' ∉ event.action
  address : ∀ elapsed waited turn,
    Event.turn elapsed waited turn ∈ events →
      turn.dependency.kind ∈ [Kind.ip, Kind.userOrIp] →
        '/' ∉ Http.getClientIp turn.request
          settings.trustedProxyHops
  kind : ∀ elapsed waited turn elapsed' waited' turn',
    Event.turn elapsed waited turn ∈ events →
    Event.turn elapsed' waited' turn' ∈ events →
    turn.dependency.action = turn'.dependency.action →
      turn.dependency.kind = turn'.dependency.kind
  seconds : ∀ event ∈ events, ∀ event' ∈ events,
    ∀ limit limit',
      event.limit settings = some limit →
      event'.limit settings = some limit' →
      event.budget settings = event'.budget settings →
        limit.seconds = limit'.seconds

------------------------------------------------------------
-- Meters
------------------------------------------------------------

section Meters

variable {limiter : WindowLimiter}
variable (settings : Settings)

/- Whether an event is one of a budget in a window. -/
def spends
    (budget : Budget)
    (window : Nat)
    (entry : Event × Progress limiter) : Bool :=
  match entry.1.limit settings with
  | none => false
  | some limit =>
      decide (entry.1.budget settings = some budget) &&
        decide
          (limit.window (entry.1.read entry.2.now) = window)

/- The event counts before its window ends. -/
def OnTime (entry : Event × Progress limiter) : Prop :=
  ∀ limit, entry.1.limit settings = some limit →
    entry.2.now + entry.1.elapsed <
      (limit.window (entry.1.read entry.2.now) +
        limit.seconds) * 1000

/- What a turn gets when so much has been spent before. -/
def RateLimit.answer
    (limit : RateLimit)
    (read spent : Nat)
    (recorded : Option Headers) : Answer :=
  let headers : Headers :=
    { limit := limit.times
      remaining := limit.times - (spent + 1) }
  if spent < limit.times then
    .passed (some (recordRateLimitHeaders recorded headers))
  else
    .raised
      (tooManyRequests
        (limit.window read + limit.seconds - second read))
      (some headers)

/-
  Each event is answered by what its budget has spent in the
  window, and a window lets as many through as it allows.
-/
structure Metered
    (log : List (Event × Progress limiter)) : Prop where
  turn : ∀ before elapsed waited turn progress rest,
    let event := Event.turn elapsed waited turn
    log = before ++ (event, progress) :: rest →
    ∀ limit budget,
      event.limit settings = some limit →
      event.budget settings = some budget →
      OnTime settings (event, progress) →
        let read := event.read progress.now
        let spent := before.countP
          (spends settings budget (limit.window read))
        (progress.enforced settings elapsed waited
            turn).answer =
          limit.answer read spent
            (progress.recorded turn.requestId)
  email : ∀ before elapsed waited action email asked
      progress rest,
    let event :=
      Event.email elapsed waited action email asked
    log = before ++ (event, progress) :: rest →
    ∀ limit budget,
      event.limit settings = some limit →
      event.budget settings = some budget →
      OnTime settings (event, progress) →
        let read := event.read progress.now
        let spent := before.countP
          (spends settings budget (limit.window read))
        (progress.throttled settings elapsed waited action
            email asked).1 =
          decide (spent < limit.times)
  total : ∀ budget window times,
    (∀ entry ∈ log,
      spends settings budget window entry = true →
        OnTime settings entry ∧
          (entry.1.limit settings).map RateLimit.times =
            some times) →
      log.countP (fun entry =>
          spends settings budget window entry &&
            entry.2.admits settings entry.1) =
        min (log.countP (spends settings budget window))
          times

end Meters

------------------------------------------------------------
-- Identities
------------------------------------------------------------

/- A text of a kind that stands for a payer. -/
inductive Identifies : Kind → Text → Payer → Prop
  | user (userId : UserId) :
      Identifies .user (digits userId) (.user userId)
  | ip {address : Text} (hSlash : '/' ∉ address) :
      Identifies .ip (Ip.clientIpKey address)
        (.client (Ip.clientOf address))
  | userFirst (userId : UserId) :
      Identifies .userOrIp
        ("user:".toList ++ digits userId) (.user userId)
  | ipElse {address : Text} (hSlash : '/' ∉ address) :
      Identifies .userOrIp
        ("ip:".toList ++ Ip.clientIpKey address)
        (.client (Ip.clientOf address))
  | named (text : Text) :
      Identifies .named text (.named text)

/- Two addresses share a key as they share a client. -/
theorem clientIpKey_eq_iff
    {address address' : Text}
    (hSlash : '/' ∉ address)
    (hSlash' : '/' ∉ address') :
    Ip.clientIpKey address = Ip.clientIpKey address' ↔
      Ip.clientOf address = Ip.clientOf address' :=
  ⟨Ip.clientOf_eq_of_key_eq hSlash hSlash',
    Ip.key_eq_of_clientOf_eq⟩

/- Texts of one kind differ as their payers do. -/
theorem Identifies.eq_iff
    {kind : Kind}
    {identity identity' : Text}
    {payer payer' : Payer}
    (hFirst : Identifies kind identity payer)
    (hSecond : Identifies kind identity' payer') :
    identity = identity' ↔ payer = payer' := by
  cases hFirst with
  | user userId =>
      cases hSecond with
      | user userId' =>
          rw [Payer.user.injEq]
          exact ⟨fun hSame => digits_inj hSame,
            fun hSame => by rw [hSame]⟩
  | ip hSlash =>
      cases hSecond with
      | ip hSlash' =>
          rw [Payer.client.injEq]
          exact clientIpKey_eq_iff hSlash hSlash'
  | userFirst userId =>
      cases hSecond with
      | userFirst userId' =>
          rw [Payer.user.injEq, List.append_cancel_left_eq]
          exact ⟨fun hSame => digits_inj hSame,
            fun hSame => by rw [hSame]⟩
      | ipElse hSlash' =>
          constructor
          · intro hSame
            cases hSame
          · intro hSame
            cases hSame
  | ipElse hSlash =>
      cases hSecond with
      | userFirst userId' =>
          constructor
          · intro hSame
            cases hSame
          · intro hSame
            cases hSame
      | ipElse hSlash' =>
          rw [Payer.client.injEq, List.append_cancel_left_eq]
          exact clientIpKey_eq_iff hSlash hSlash'
  | named text =>
      cases hSecond with
      | named text' => rw [Payer.named.injEq]

------------------------------------------------------------
-- Counters
------------------------------------------------------------

/- What is counted is what the dependency asks for. -/
theorem asks_of_charge
    {settings : Settings}
    {elapsed waited : Nat}
    {turn : Turn}
    {key : Text}
    {limit : RateLimit}
    (hCharge :
      (Event.turn elapsed waited turn).charge settings =
        some (key, limit)) :
    ∃ identity,
      turn.asks settings.trustedProxyHops =
          .ok (identity, some limit) ∧
        limit.disabled = false ∧
        key = rateLimitKey turn.dependency.action
          identity := by
  unfold Event.charge at hCharge
  dsimp only at hCharge
  split at hCharge
  · rename_i identity asked hAsks
    split at hCharge
    · cases hCharge
    · rename_i hEnabled
      cases hCharge
      exact ⟨identity, hAsks, Bool.eq_false_of_not_eq_true
        hEnabled, rfl⟩
  · cases hCharge

/- A charge for an address names its mailbox. -/
theorem mailbox_of_charge
    {settings : Settings}
    {elapsed waited : Nat}
    {action email key : Text}
    {asked : Option RateLimit}
    {limit : RateLimit}
    (hCharge :
      (Event.email elapsed waited action email asked).charge
          settings =
        some (key, limit)) :
    asked = some limit ∧ limit.disabled = false ∧
      key =
        emailKey action (settings.canonicalEmail email) := by
  cases asked with
  | none => cases hCharge
  | some asked =>
      unfold Event.charge at hCharge
      dsimp only at hCharge
      split at hCharge
      · cases hCharge
      · rename_i hEnabled
        cases hCharge
        exact ⟨rfl, Bool.eq_false_of_not_eq_true hEnabled,
          rfl⟩

/- A budget by user names its caller. -/
theorem identity_of_limitByUser
    {request : Http.Request}
    {caller : Except HttpError (Option Principal)}
    {limit : Limit}
    {identity : Text}
    {asked : Option RateLimit}
    (hAsks :
      limitByUser request caller limit =
        .ok (identity, asked)) :
    ∃ user, caller = .ok (some user) ∧
      identity = digits user.userId := by
  cases caller with
  | error error => cases hAsks
  | ok found =>
      cases found with
      | none => cases hAsks
      | some user =>
          cases hAsks
          exact ⟨user, rfl, rfl⟩

/- A caller that is read was found. -/
theorem identity_of_limitByRequest
    {hops : Nat}
    {turn : Turn}
    {limit : Limit}
    {key : Key}
    {identity : Text}
    {asked : Option RateLimit}
    (hAsks :
      limitByRequest hops turn.request turn.caller
        limit key =
        .ok (identity, asked)) :
    identity =
      identityKey hops turn.request turn.principal key := by
  unfold limitByRequest at hAsks
  split at hAsks
  · unfold Turn.principal
    cases hCaller : turn.caller with
    | error error =>
        rw [hCaller] at hAsks
        cases hAsks
    | ok found =>
        rw [hCaller] at hAsks
        cases hAsks
        rfl
  · rename_i hUnread
    cases hAsks
    cases key with
    | ip => rfl
    | userOrIp => exact absurd rfl hUnread
    | callback name => rfl
    | callbackOfTwo name => exact absurd rfl hUnread

/- No identity of a request stands for a mailbox. -/
theorem Identifies.not_mailbox
    {kind : Kind}
    {identity address : Text} :
    ¬ Identifies kind identity (.mailbox address) := by
  intro hIdentity
  cases hIdentity

/- The identity that is counted stands for the payer. -/
theorem identifies_of_asks
    {hops : Nat}
    {turn : Turn}
    {identity : Text}
    {asked : Option RateLimit}
    (hAsks : turn.asks hops = .ok (identity, asked))
    (hSlash :
      turn.dependency.kind ∈ [Kind.ip, Kind.userOrIp] →
        '/' ∉ Http.getClientIp turn.request hops) :
    ∃ payer, turn.payer hops = some payer ∧
      Identifies turn.dependency.kind identity payer := by
  unfold Turn.asks at hAsks
  unfold Turn.payer
  cases hDependency : turn.dependency with
  | byUser action limit =>
      rw [hDependency] at hAsks
      rcases identity_of_limitByUser hAsks with
        ⟨user, hCaller, rfl⟩
      refine ⟨.user user.userId, ?_, .user user.userId⟩
      unfold Turn.principal
      rw [hCaller]
      rfl
  | byRequest action limit key =>
      rw [hDependency] at hAsks hSlash
      cases identity_of_limitByRequest hAsks
      cases key with
      | ip =>
          exact ⟨_, rfl, .ip (hSlash List.mem_cons_self)⟩
      | userOrIp =>
          unfold identityKey
          cases turn.principal with
          | none =>
              exact ⟨_, rfl, .ipElse (hSlash
                (List.mem_cons_of_mem _ List.mem_cons_self))⟩
          | some user =>
              exact ⟨_, rfl, .userFirst user.userId⟩
      | callback name => exact ⟨_, rfl, .named _⟩
      | callbackOfTwo name => exact ⟨_, rfl, .named _⟩

/- The counter of an event, and who pays. -/
inductive Keyed : Event → Text → Payer → Prop
  | turn
      {elapsed waited : Nat}
      {turn : Turn}
      {identity : Text}
      {payer : Payer}
      (hIdentity :
        Identifies turn.dependency.kind identity payer) :
      Keyed (.turn elapsed waited turn)
        (rateLimitKey turn.dependency.action identity) payer
  | email
      {elapsed waited : Nat}
      {action email mailbox : Text}
      {asked : Option RateLimit} :
      Keyed (.email elapsed waited action email asked)
        (emailKey action mailbox) (.mailbox mailbox)

section Orderly

variable {settings : Settings}
variable {events : List Event}
variable {event event' : Event}
variable {key key' : Text}
variable {limit limit' : RateLimit}

/- A charged key is spelled for its payer. -/
theorem keyed_of_charge
    (hOrderly : Orderly settings events)
    (hMem : event ∈ events)
    (hCharge : event.charge settings = some (key, limit)) :
    ∃ payer,
      event.budget settings = some ⟨event.action, payer⟩ ∧
        Keyed event key payer := by
  cases event with
  | turn elapsed waited turn =>
      rcases asks_of_charge hCharge with
        ⟨identity, hAsks, _, rfl⟩
      have hSlash :=
        hOrderly.address elapsed waited turn hMem
      rcases identifies_of_asks hAsks hSlash with
        ⟨payer, hPayer, hIdentity⟩
      have hBudget := congrArg (Option.map (Budget.mk
        turn.dependency.action)) hPayer
      exact ⟨payer, hBudget, .turn hIdentity⟩
  | email elapsed waited action email asked =>
      rcases mailbox_of_charge hCharge with ⟨rfl, _, rfl⟩
      exact ⟨_, rfl, .email⟩
  | purge elapsed purged => cases hCharge

/- Texts after two actions are told apart by both. -/
theorem action_eq_of_append
    {action action' rest rest' : Text}
    (hAction : ':' ∉ action)
    (hAction' : ':' ∉ action') :
    action ++ ':' :: rest = action' ++ ':' :: rest' ↔
      action = action' ∧ rest = rest' := by
  constructor
  · intro hSame
    have hActions :=
      Ip.eq_of_append_mark hAction hAction' hSame
    rw [hActions] at hSame
    exact ⟨hActions, (List.cons.inj
      (List.append_cancel_left hSame)).2⟩
  · rintro ⟨rfl, rfl⟩
    rfl

/- Two charged keys agree as their payers do. -/
theorem keyed_eq_iff
    (hOrderly : Orderly settings events)
    (hMem : event ∈ events)
    (hMem' : event' ∈ events)
    {payer payer' : Payer}
    (hKeyed : Keyed event key payer)
    (hKeyed' : Keyed event' key' payer') :
    key = key' ↔
      event.action = event'.action ∧ payer = payer' := by
  have hActions (rest rest' : Text) :=
    @action_eq_of_append event.action event'.action
      rest rest'
      (hOrderly.action event hMem)
      (hOrderly.action event' hMem')
  cases hKeyed with
  | @turn elapsed waited turn identity payer hIdentity =>
      cases hKeyed' with
      | @turn elapsed' waited' turn' identity' payer'
          hIdentity' =>
          unfold rateLimitKey
          rw [List.append_cancel_left_eq]
          refine (hActions identity identity').trans
            (and_congr_right fun hSame => ?_)
          have hKind := hOrderly.kind elapsed waited turn
            elapsed' waited' turn' hMem hMem' hSame
          rw [hKind] at hIdentity
          exact hIdentity.eq_iff hIdentity'
      | email =>
          constructor
          · intro hSame
            cases hSame
          · rintro ⟨_, rfl⟩
            exact absurd hIdentity Identifies.not_mailbox
  | @email elapsed waited action email mailbox asked =>
      cases hKeyed' with
      | turn hIdentity' =>
          constructor
          · intro hSame
            cases hSame
          · rintro ⟨_, rfl⟩
            exact absurd hIdentity' Identifies.not_mailbox
      | @email elapsed' waited' action' email' mailbox' _ =>
          unfold emailKey
          rw [List.append_cancel_left_eq,
            Payer.mailbox.injEq]
          exact hActions mailbox mailbox'

/- Two events share a counter if they share a budget. -/
theorem charge_eq_iff
    (hOrderly : Orderly settings events)
    (hMem : event ∈ events)
    (hMem' : event' ∈ events)
    (hCharge : event.charge settings = some (key, limit))
    (hCharge' :
      event'.charge settings = some (key', limit')) :
    key = key' ↔
      event.budget settings = event'.budget settings := by
  rcases keyed_of_charge hOrderly hMem hCharge with
    ⟨payer, hBudget, hKeyed⟩
  rcases keyed_of_charge hOrderly hMem' hCharge' with
    ⟨payer', hBudget', hKeyed'⟩
  rw [hBudget, hBudget', Option.some.injEq,
    Budget.mk.injEq]
  exact keyed_eq_iff hOrderly hMem hMem' hKeyed hKeyed'

end Orderly

------------------------------------------------------------
-- The Limiter's Run
------------------------------------------------------------

/- The keys that an event purges. -/
def Event.purged : Event → List Text
  | .turn _ _ _ => []
  | .email _ _ _ _ _ => []
  | .purge _ keys => keys

/- What the limiter sees of an event. -/
def Event.seen
    (settings : Settings)
    (event : Event) : WindowEvent :=
  match event.charge settings with
  | some (key, limit) =>
      .call event.elapsed event.waited (windowCall key limit)
  | none => .purge event.elapsed event.purged

section Seen

variable {limiter : WindowLimiter}
variable {settings : Settings}
variable {progress : Progress limiter}
variable {event : Event}
variable {key : Text}
variable {limit : RateLimit}

/- A turn that counts is answered as the check says. -/
theorem enforced_of_charge
    {elapsed waited : Nat}
    {turn : Turn}
    (hCharge :
      (Event.turn elapsed waited turn).charge settings =
        some (key, limit)) :
    let done := limiter.check (progress.now + elapsed) waited
      (windowCall key limit) progress.state
    let headers := headersOf limit done.1.1 done.1.2.1
    let sent := recordRateLimitHeaders
      (progress.recorded turn.requestId) headers
    let enforced :=
      progress.enforced settings elapsed waited turn
    enforced.answer =
        (if done.1.2.1 then
          .raised (tooManyRequests done.1.2.2) (some headers)
        else
          .passed (some sent)) ∧
      enforced.recorded = some sent ∧
      enforced.state = done.2 := by
  rcases asks_of_charge hCharge with
    ⟨identity, hAsks, hEnabled, rfl⟩
  unfold Progress.enforced Turn.enforce
  rw [hAsks]
  unfold enforceRateLimit
  simp only [hEnabled, Bool.false_eq_true, if_false,
    and_self]

/- A charged mail is throttled by the limiter. -/
theorem throttled_of_charge
    {elapsed waited : Nat}
    {action email : Text}
    {asked : Option RateLimit}
    (hCharge :
      (Event.email elapsed waited action email asked).charge
          settings =
        some (key, limit)) :
    let done := limiter.check (progress.now + elapsed) waited
      (windowCall key limit) progress.state
    progress.throttled settings elapsed waited action email
        asked =
      (!done.1.2.1, done.2) := by
  rcases mailbox_of_charge hCharge with
    ⟨rfl, hEnabled, rfl⟩
  unfold Progress.throttled emailWithinLimit
  simp only [hEnabled, Bool.false_eq_true, if_false]

/- Each event takes its time. -/
theorem now_next :
    (progress.next settings event).now =
      progress.now + event.elapsed := by
  cases event with
  | turn elapsed waited turn => rfl
  | email elapsed waited action email asked => rfl
  | purge elapsed purged => rfl

/- A charged event asks the limiter. -/
theorem state_next_of_charge
    (hCharge : event.charge settings = some (key, limit)) :
    (progress.next settings event).state =
      (limiter.check (progress.now + event.elapsed)
        event.waited (windowCall key limit)
        progress.state).2 := by
  cases event with
  | turn elapsed waited turn =>
      exact (enforced_of_charge hCharge).2.2
  | email elapsed waited action email asked =>
      exact congrArg Prod.snd (throttled_of_charge hCharge)
  | purge elapsed purged => cases hCharge

/- Nothing is counted where there is nothing to charge. -/
theorem enforced_of_not_charged
    {elapsed waited : Nat}
    {turn : Turn}
    (hCharge :
      (Event.turn elapsed waited turn).charge settings =
        none) :
    let enforced :=
      progress.enforced settings elapsed waited turn
    enforced.answer.headers = none ∧
      enforced.recorded = progress.recorded turn.requestId ∧
      enforced.state = progress.state := by
  unfold Event.charge at hCharge
  dsimp only at hCharge
  unfold Progress.enforced Turn.enforce
  split at hCharge
  · rename_i identity asked hAsks
    rw [hAsks]
    split at hCharge
    · rename_i hDisabled
      unfold enforceRateLimit
      simp only [hDisabled, if_true, Answer.headers,
        and_self]
    · cases hCharge
  · rename_i hNever
    split
    · exact ⟨rfl, rfl, rfl⟩
    · rename_i identity asked hAsks
      cases asked with
      | none => exact ⟨rfl, rfl, rfl⟩
      | some asked => exact absurd hAsks (hNever _ _)

/- A mail without a charge asks nothing. -/
theorem state_throttled_of_not_charged
    {elapsed waited : Nat}
    {action email : Text}
    {asked : Option RateLimit}
    (hCharge :
      (Event.email elapsed waited action email asked).charge
          settings =
        none) :
    (progress.throttled settings elapsed waited action email
      asked).2 = progress.state := by
  cases asked with
  | none => rfl
  | some asked =>
      unfold Event.charge at hCharge
      dsimp only at hCharge
      split at hCharge
      · rename_i hDisabled
        unfold Progress.throttled emailWithinLimit
        simp only [hDisabled, if_true]
      · cases hCharge

theorem state_next_of_not_charged
    (hIdle : ∀ now state, limiter.purge now [] state = state)
    (hCharge : event.charge settings = none) :
    (progress.next settings event).state =
      limiter.purge (progress.now + event.elapsed)
        event.purged progress.state := by
  cases event with
  | turn elapsed waited turn =>
      exact (enforced_of_not_charged hCharge).2.2.trans
        (hIdle _ _).symm
  | email elapsed waited action email asked =>
      exact (state_throttled_of_not_charged hCharge).trans
        (hIdle _ _).symm
  | purge elapsed purged => rfl

/- The limiter sees a charged event as a call. -/
theorem seen_of_charge
    (hCharge : event.charge settings = some (key, limit)) :
    event.seen settings =
      .call event.elapsed event.waited
        (windowCall key limit) := by
  unfold Event.seen
  rw [hCharge]

/- Of the others it sees the purge. -/
theorem seen_of_not_charged
    (hCharge : event.charge settings = none) :
    event.seen settings =
      .purge event.elapsed event.purged := by
  unfold Event.seen
  rw [hCharge]

/- A run of the limiter is the run of what it sees. -/
theorem after_seen
    (hIdle : ∀ now state, limiter.purge now [] state = state)
    {events : List Event} :
    limiter.after (events.map (Event.seen settings))
        progress.now progress.state =
      ((events.foldl (Progress.next settings) progress).now,
        (events.foldl (Progress.next settings)
          progress).state) := by
  induction events generalizing progress with
  | nil => rfl
  | cons event events ih =>
      rw [List.map_cons, List.foldl_cons, ← ih, now_next]
      cases hCharge : event.charge settings with
      | none =>
          rw [state_next_of_not_charged hIdle hCharge,
            seen_of_not_charged hCharge]
          rfl
      | some charged =>
          rcases charged with ⟨key, limit⟩
          rw [state_next_of_charge hCharge,
            seen_of_charge hCharge]
          rfl

end Seen

/- Purging nothing changes nothing. -/
theorem purge_nil
    (deployment : Deployment)
    (now : Nat)
    (state : deployment.limiter.State) :
    deployment.limiter.purge now [] state = state := by
  cases deployment with
  | memory => rfl
  | database config =>
      funext key
      change (state key).filter _ = state key
      cases state key <;> rfl
  | redis keyPrefix =>
      funext key
      change (state key).filter _ = state key
      cases state key <;> rfl
  | redisBase keyPrefix =>
      funext key
      change (state key).filter _ = state key
      cases state key <;> rfl

------------------------------------------------------------
-- What Has Been Spent
------------------------------------------------------------

/- The windows of a run are those of a longer one. -/
theorem windowsOf_append
    {first later : List WindowEvent}
    {start : Nat} :
    windowsOf first start ⊆
      windowsOf (first ++ later) start := by
  induction first generalizing start with
  | nil =>
      intro pair hPair
      exact False.elim hPair
  | cons event first ih =>
      intro pair hPair
      cases event with
      | call elapsed waited call =>
          rcases hPair with hHere | hLater
          · exact Or.inl hHere
          · exact Or.inr (ih hLater)
      | purge elapsed purged => exact ih hPair

/- The window of a call of a run is one of the run's. -/
theorem mem_windowsOf
    {limiter : WindowLimiter}
    {first later : List WindowEvent}
    {start elapsed waited : Nat}
    {call : WindowCall}
    {state : limiter.State} :
    (call.key,
        call.window
          ((limiter.after first start state).1 + elapsed -
            waited)) ∈
      windowsOf (first ++ .call elapsed waited call :: later)
        start := by
  induction first generalizing start state with
  | nil => exact Or.inl rfl
  | cons event first ih =>
      cases event with
      | call elapsed' waited' call' => exact Or.inr ih
      | purge elapsed' purged => exact ih

section Logs

variable {limiter : WindowLimiter}
variable {settings : Settings}
variable {events : List Event}
variable {progress : Progress limiter}

/- What an entry of a log comes after. -/
theorem split_of_log
    {before rest : List (Event × Progress limiter)}
    {event : Event}
    {met : Progress limiter}
    (hLog :
      Progress.log settings events progress =
        before ++ (event, met) :: rest) :
    ∃ first later,
      events = first ++ event :: later ∧
        Progress.log settings first progress = before ∧
        first.foldl (Progress.next settings) progress =
          met := by
  induction events generalizing before progress with
  | nil => exact absurd hLog.symm (by simp [Progress.log])
  | cons other events ih =>
      cases before with
      | nil =>
          cases hLog
          exact ⟨[], events, rfl, rfl, rfl⟩
      | cons entry before =>
          have hParts := List.cons.inj hLog
          rcases ih hParts.2 with
            ⟨first, later, rfl, hBefore, hMet⟩
          refine ⟨other :: first, later, rfl, ?_, hMet⟩
          rw [← hParts.1, ← hBefore]
          rfl

/- A charge spends its budget in its window. -/
theorem spends_of_charge
    {budget : Budget}
    {window : Nat}
    {event : Event}
    {key : Text}
    {limit : RateLimit}
    (hCharge : event.charge settings = some (key, limit)) :
    spends settings budget window (event, progress) = true ↔
      event.budget settings = some budget ∧
        limit.window (event.read progress.now) = window := by
  unfold spends Event.limit
  rw [hCharge]
  simp only [Option.map_some, Bool.and_eq_true,
    decide_eq_true_eq]

/- Without a charge nothing is spent. -/
theorem spends_of_not_charged
    {budget : Budget}
    {window : Nat}
    {event : Event}
    (hCharge : event.charge settings = none) :
    spends settings budget window (event, progress) =
      false := by
  unfold spends Event.limit
  rw [hCharge]
  rfl

/- The counter of a budget has what the budget has spent. -/
theorem increments_eq_spent
    {key : Text}
    {budget : Budget}
    {window : Nat}
    (hSame : ∀ event ∈ events, ∀ key' limit',
      event.charge settings = some (key', limit') →
        (key' = key ↔
          event.budget settings = some budget)) :
    increments key window
        (events.map (Event.seen settings)) progress.now =
      (Progress.log settings events progress).countP
        (spends settings budget window) := by
  induction events generalizing progress with
  | nil => rfl
  | cons event events ih =>
      have hRest := @ih (progress.next settings event)
        fun other hOther =>
          hSame other (List.mem_cons_of_mem _ hOther)
      rw [now_next] at hRest
      rw [List.map_cons, Progress.log, List.countP_cons,
        ← hRest]
      cases hCharge : event.charge settings with
      | none =>
          rw [seen_of_not_charged hCharge,
            spends_of_not_charged hCharge]
          rfl
      | some charged =>
          rcases charged with ⟨key', limit⟩
          have hKey := hSame event List.mem_cons_self key'
            limit hCharge
          rw [seen_of_charge hCharge, increments]
          refine congrArg (HAdd.hAdd _) (if_congr ?_ rfl rfl)
          rw [spends_of_charge hCharge, ← hKey]
          rfl

end Logs

section Checks

variable {deployment : Deployment}
variable {settings : Settings}
variable {events : List Event}
variable {start : Nat}
variable {event : Event}
variable {key : Text}
variable {limit : RateLimit}

/- Budgets share a key only with themselves. -/
theorem key_eq_iff_of_budget
    {budget : Budget}
    (hOrderly : Orderly settings events)
    (hBudget : event.budget settings = some budget)
    (hCharge : event.charge settings = some (key, limit))
    (hMem : event ∈ events) :
    ∀ other ∈ events, ∀ key' limit',
      other.charge settings = some (key', limit') →
        (key' = key ↔
          other.budget settings = some budget) := by
  intro other hOther key' limit' hCharge'
  rw [charge_eq_iff hOrderly hOther hMem hCharge' hCharge,
    hBudget]

/- A counter is used with one length of windows. -/
theorem onePeriod_of_orderly
    {first : List Event}
    (hOrderly : Orderly settings events)
    (hFirst : first ⊆ events)
    (hCharge : event.charge settings = some (key, limit))
    (hMem : event ∈ events) :
    OnePeriod key limit.seconds
      (first.map (Event.seen settings)) := by
  intro elapsed waited call hCall hKey
  rcases List.mem_map.mp hCall with ⟨other, hOther, hSeen⟩
  have hIn := hFirst hOther
  cases hCharge' : other.charge settings with
  | none =>
      rw [seen_of_not_charged hCharge'] at hSeen
      cases hSeen
  | some charged =>
      rcases charged with ⟨key', limit'⟩
      rw [seen_of_charge hCharge'] at hSeen
      cases hSeen
      have hBudget := (charge_eq_iff hOrderly hIn hMem
        hCharge' hCharge).mp hKey
      exact hOrderly.seconds other hIn event hMem
        limit' limit
        (congrArg (Option.map Prod.snd) hCharge')
        (congrArg (Option.map Prod.snd) hCharge) hBudget

/- The check answers by what the budget has spent. -/
theorem check_of_log
    (hSound :
      deployment.Sound
        (windowsOf (events.map (Event.seen settings)) start))
    (hOrderly : Orderly settings events)
    {before rest :
      List (Event × Progress deployment.limiter)}
    {met : Progress deployment.limiter}
    (hLog :
      Progress.log settings events
          (Progress.start deployment.limiter start) =
        before ++ (event, met) :: rest)
    {budget : Budget}
    (hCharge : event.charge settings = some (key, limit))
    (hBudget : event.budget settings = some budget)
    (hTime : OnTime settings (event, met)) :
    let read := event.read met.now
    (deployment.limiter.check (met.now + event.elapsed)
        event.waited (windowCall key limit) met.state).1 =
      (windowCall key limit).exactly read
        (before.countP
          (spends settings budget (limit.window read)) +
            1) := by
  rcases split_of_log hLog with
    ⟨first, later, rfl, rfl, hMet⟩
  have hMem : event ∈ first ++ event :: later :=
    List.mem_append_right _ List.mem_cons_self
  have hFirst : first ⊆ first ++ event :: later :=
    List.subset_append_left _ _
  have hAfter :
      deployment.limiter.after
          (first.map (Event.seen settings)) start
          deployment.limiter.initial =
        (met.now, met.state) := by
    rw [← hMet]
    exact @after_seen deployment.limiter settings
      (Progress.start deployment.limiter start)
      (purge_nil deployment) first
  have hSpent := @increments_eq_spent deployment.limiter
    settings first (Progress.start deployment.limiter start)
    key budget (limit.window (event.read met.now))
    fun other hOther =>
      key_eq_iff_of_budget hOrderly hBudget hCharge
        hMem other
        (hFirst hOther)
  have hIn := @mem_windowsOf deployment.limiter
    (first.map (Event.seen settings))
    (later.map (Event.seen settings)) start event.elapsed
    event.waited (windowCall key limit)
    deployment.limiter.initial
  rw [List.map_append, List.map_cons,
    seen_of_charge hCharge] at hSound
  rcases deployment.counts hSound with
    ⟨alive, makes, related, hCounts⟩
  have hExact := hCounts.exact windowsOf_append
    (onePeriod_of_orderly hOrderly hFirst hCharge hMem)
  have hCheck := hExact.check event.elapsed event.waited
    (windowCall key limit) rfl rfl
  dsimp only at hCheck
  rw [hAfter] at hCheck hIn
  intro read
  rw [← hSpent]
  exact hCheck hIn
    (hTime limit (congrArg (Option.map Prod.snd) hCharge))

end Checks

------------------------------------------------------------
-- Answers
------------------------------------------------------------

/- A call's answer is the limit's, by what is spent. -/
theorem exactly_windowCall
    {key : Text}
    {limit : RateLimit}
    {read spent : Nat} :
    let counted :=
      (windowCall key limit).exactly read (spent + 1)
    counted.2.1 = !decide (spent < limit.times) ∧
      headersOf limit counted.1 counted.2.1 =
        { limit := limit.times
          remaining := limit.times - (spent + 1) } ∧
      (counted.2.1 = true →
        counted.2.2 =
          limit.window read + limit.seconds - second
            read) := by
  unfold WindowCall.exactly windowCall headersOf
  dsimp only
  by_cases hLeft : spent < limit.times
  · rw [if_pos (Nat.succ_le_of_lt hLeft)]
    refine ⟨by simp [hLeft], ?_, by simp⟩
    simp only [Bool.false_eq_true, if_false,
      Headers.mk.injEq, true_and]
    omega
  · rw [if_neg (by omega)]
    refine ⟨by simp [hLeft], ?_, fun _ => ?_⟩
    · simp only [if_true, Headers.mk.injEq, true_and]
      omega
    · have hStart :=
        windowStart_le limit.seconds (second read)
      unfold WindowCall.retryAfter WindowCall.window
        RateLimit.window
      dsimp only
      omega

/- The answer to a call that is counted exactly. -/
theorem answer_of_exactly
    {key : Text}
    {limit : RateLimit}
    {read spent : Nat}
    {recorded : Option Headers}
    {counted : Int × Bool × Nat}
    (hCounted :
      counted =
        (windowCall key limit).exactly read (spent + 1)) :
    (if counted.2.1 then
        .raised (tooManyRequests counted.2.2)
          (some (headersOf limit counted.1 counted.2.1))
      else
        .passed (some (recordRateLimitHeaders recorded
          (headersOf limit counted.1 counted.2.1)))) =
      limit.answer read spent recorded := by
  rcases @exactly_windowCall key limit read spent with
    ⟨hLimited, hHeaders, hWait⟩
  rw [← hCounted] at hLimited hHeaders hWait
  rw [hHeaders]
  unfold RateLimit.answer
  by_cases hLeft : spent < limit.times
  · rw [if_pos hLeft, hLimited]
    simp only [hLeft, decide_true, Bool.not_true,
      Bool.false_eq_true, if_false]
  · have hOver : counted.2.1 = true := by
      rw [hLimited]
      simp [hLeft]
    rw [if_neg hLeft, if_pos hOver, hWait hOver]

/- Below the limit nobody is turned away. -/
theorem not_limited_of_exactly
    {key : Text}
    {limit : RateLimit}
    {read spent : Nat}
    {counted : Int × Bool × Nat}
    (hCounted :
      counted =
        (windowCall key limit).exactly read (spent + 1)) :
    (!counted.2.1) = decide (spent < limit.times) := by
  rw [hCounted,
    (@exactly_windowCall key limit read spent).1,
    Bool.not_not]

/- What a budget lets through is what it has, at most. -/
theorem countP_admitted
    {α : Type}
    {pays admits : α → Bool}
    {times : Nat}
    {log : List α}
    (hEach : ∀ before entry rest,
      log = before ++ entry :: rest →
        pays entry = true →
          admits entry =
            decide (before.countP pays < times)) :
    log.countP (fun entry => pays entry && admits entry) =
      min (log.countP pays) times := by
  induction log using List.reverseRecOn with
  | nil => simp
  | append_singleton log entry ih =>
      have hBefore := ih fun before other rest hSplit =>
        hEach before other (rest ++ [entry]) (by
          rw [hSplit, List.append_assoc, List.cons_append])
      have hLast := hEach log entry [] rfl
      simp only [List.countP_append, List.countP_singleton,
        hBefore]
      cases hPays : pays entry with
      | false => simp
      | true =>
          rw [hLast hPays]
          by_cases hLeft : log.countP pays < times
          · simp only [hLeft, decide_true, Bool.and_self,
              if_true]
            omega
          · simp only [hLeft, decide_false, Bool.and_false,
              Bool.false_eq_true, if_false, if_true]
            omega

section Runs

variable {deployment : Deployment}
variable {settings : Settings}
variable {events : List Event}
variable {start : Nat}
variable {limit : RateLimit}
variable {budget : Budget}
variable {before rest :
  List (Event × Progress deployment.limiter)}
variable {met : Progress deployment.limiter}

/- An event with a limit is charged. -/
theorem charge_of_limit
    {event : Event}
    (hLimit : event.limit settings = some limit) :
    ∃ key, event.charge settings = some (key, limit) := by
  unfold Event.limit at hLimit
  rcases Option.map_eq_some_iff.mp hLimit with
    ⟨⟨key, _⟩, hCharge, rfl⟩
  exact ⟨key, hCharge⟩

/- The answer to an event of an orderly run. -/
theorem answer_of_log
    (hSound :
      deployment.Sound
        (windowsOf (events.map (Event.seen settings)) start))
    (hOrderly : Orderly settings events)
    {elapsed waited : Nat}
    {turn : Turn}
    (hLog :
      Progress.log settings events
          (Progress.start deployment.limiter start) =
        before ++ (.turn elapsed waited turn, met) :: rest)
    (hLimit :
      (Event.turn elapsed waited turn).limit settings =
        some limit)
    (hBudget :
      (Event.turn elapsed waited turn).budget settings =
        some budget)
    (hTime :
      OnTime settings (.turn elapsed waited turn, met)) :
    let read := met.now + elapsed - waited
    (met.enforced settings elapsed waited turn).answer =
      limit.answer read
        (before.countP
          (spends settings budget (limit.window read)))
        (met.recorded turn.requestId) := by
  rcases charge_of_limit hLimit with ⟨key, hCharge⟩
  have hCheck := check_of_log hSound hOrderly hLog hCharge
    hBudget hTime
  have hAnswer := (@enforced_of_charge deployment.limiter
    settings met key limit elapsed waited turn hCharge).1
  intro read
  exact hAnswer.trans (answer_of_exactly hCheck)

/- The throttled mails of an orderly run. -/
theorem throttled_of_log
    (hSound :
      deployment.Sound
        (windowsOf (events.map (Event.seen settings)) start))
    (hOrderly : Orderly settings events)
    {elapsed waited : Nat}
    {action email : Text}
    {asked : Option RateLimit}
    (hLog :
      Progress.log settings events
          (Progress.start deployment.limiter start) =
        before ++
          (.email elapsed waited action email asked, met) ::
            rest)
    (hLimit :
      (Event.email elapsed waited action email asked).limit
          settings =
        some limit)
    (hBudget :
      (Event.email elapsed waited action email asked).budget
          settings =
        some budget)
    (hTime :
      OnTime settings
        (.email elapsed waited action email asked, met)) :
    let read := met.now + elapsed - waited
    (met.throttled settings elapsed waited action email
        asked).1 =
      decide
        (before.countP
            (spends settings budget (limit.window read)) <
          limit.times) := by
  rcases charge_of_limit hLimit with ⟨key, hCharge⟩
  have hCheck := check_of_log hSound hOrderly hLog hCharge
    hBudget hTime
  have hThrottled := congrArg Prod.fst
    (@throttled_of_charge deployment.limiter settings met key
      limit elapsed waited action email asked hCharge)
  intro read
  exact hThrottled.trans (not_limited_of_exactly hCheck)

/- An entry that pays is let through by what is left. -/
theorem admits_of_log
    (hSound :
      deployment.Sound
        (windowsOf (events.map (Event.seen settings)) start))
    (hOrderly : Orderly settings events)
    {entry : Event × Progress deployment.limiter}
    (hLog :
      Progress.log settings events
          (Progress.start deployment.limiter start) =
        before ++ entry :: rest)
    {window times : Nat}
    (hPays : spends settings budget window entry = true)
    (hTime : OnTime settings entry)
    (hTimes :
      (entry.1.limit settings).map RateLimit.times =
        some times) :
    entry.2.admits settings entry.1 =
      decide
        (before.countP (spends settings budget window) <
          times) := by
  rcases entry with ⟨event, met⟩
  rcases Option.map_eq_some_iff.mp hTimes with
    ⟨limit, hLimit, rfl⟩
  rcases charge_of_limit hLimit with ⟨key, hCharge⟩
  rcases (spends_of_charge hCharge).mp hPays with
    ⟨hBudget, rfl⟩
  cases event with
  | turn elapsed waited turn =>
      have hAnswer := answer_of_log hSound hOrderly hLog
        hLimit hBudget hTime
      refine (congrArg Answer.admits hAnswer).trans ?_
      unfold RateLimit.answer
      split
      · rename_i hLeft
        exact (decide_eq_true hLeft).symm
      · rename_i hLeft
        exact (decide_eq_false hLeft).symm
  | email elapsed waited action email asked =>
      exact throttled_of_log hSound hOrderly hLog hLimit
        hBudget hTime
  | purge elapsed purged => cases hLimit

end Runs

/-
  In every run, on every backend, budgets are kept.
-/
theorem metered_of_run
    (deployment : Deployment)
    (settings : Settings)
    (events : List Event)
    (start : Nat)
    (hSound :
      deployment.Sound
        (windowsOf (events.map (Event.seen settings)) start))
    (hOrderly : Orderly settings events) :
    Metered settings
      (Progress.log settings events
        (Progress.start deployment.limiter start)) := by
  constructor
  · intro before elapsed waited turn met rest event
      hLog limit
      budget hLimit hBudget hTime
    exact answer_of_log hSound hOrderly hLog hLimit hBudget
      hTime
  · intro before elapsed waited action email asked met rest
      event hLog limit budget hLimit hBudget hTime
    exact throttled_of_log hSound hOrderly hLog hLimit
      hBudget
      hTime
  · intro budget window times hAll
    apply countP_admitted
    intro before entry rest hLog hPays
    have hMem : entry ∈ Progress.log settings events
        (Progress.start deployment.limiter start) := by
      rw [hLog]
      exact List.mem_append_right _ List.mem_cons_self
    have hEntry := hAll entry hMem hPays
    exact admits_of_log hSound hOrderly hLog hPays hEntry.1
      hEntry.2

------------------------------------------------------------
-- A Rotated Address
------------------------------------------------------------

/- Two addresses of one block, and one message a minute. -/
namespace Rotated

/- No proxies, and emails kept as they are. -/
def settings : Settings where
  trustedProxyHops := 0
  canonicalEmail := id

/- One message a minute. -/
def limit : RateLimit where
  times := 1
  seconds := onceAMinute.period
  seconds_pos := onceAMinute.period_pos

/- A contact form, which counts by address. -/
def contact (requestId : Nat) (address : String) : Turn where
  requestId := requestId
  request := { headers := [], client := some address.toList }
  caller := .ok none
  dependency :=
    .byRequest "contact".toList (.fixed limit) .ip

/- The first message of the block, late in its minute. -/
def first : Event :=
  .turn 61500 0 (contact 1 "2001:db8:1:2::7")

/- The second, from another address of the block. -/
def second : Event :=
  .turn 500 0 (contact 2 "2001:DB8:1:2:0:ffff:0:9")

/- The budget of the block. -/
def budget : Budget where
  action := "contact".toList
  payer :=
    .client (Ip.clientOf "2001:db8:1:2::7".toList)

/- The sample run is orderly. -/
theorem orderly : Orderly settings [first, second] := by
  have hTurn : ∀ event ∈ [first, second],
      ∃ elapsed requestId address,
        event = .turn elapsed 0 (contact requestId address) ∧
          '/' ∉ address.toList := by
    intro event hMem
    rcases List.mem_pair.mp hMem with rfl | rfl
    · exact ⟨_, _, _, rfl, by decide⟩
    · exact ⟨_, _, _, rfl, by decide⟩
  constructor
  · intro event hMem
    rcases hTurn event hMem with ⟨_, _, _, rfl, _⟩
    exact (by decide : ':' ∉ "contact".toList)
  · intro elapsed waited turn hMem _
    rcases hTurn _ hMem with ⟨_, _, _, hSame, hSlash⟩
    cases hSame
    exact hSlash
  · intro elapsed waited turn elapsed' waited' turn' hMem
      hMem' _
    rcases hTurn _ hMem with ⟨_, _, _, hSame, _⟩
    rcases hTurn _ hMem' with ⟨_, _, _, hSame', _⟩
    cases hSame
    cases hSame'
    rfl
  · intro event hMem event' hMem' asked asked' hLimit
      hLimit' _
    rcases hTurn event hMem with ⟨_, _, _, rfl, _⟩
    rcases hTurn event' hMem' with ⟨_, _, _, rfl, _⟩
    cases hLimit
    cases hLimit'
    rfl

/- What the second message meets. -/
def met : Progress Deployment.memory.limiter :=
  (Progress.start Deployment.memory.limiter 0).next settings
    first

/- A second address of the block is turned away. -/
theorem rotated_metered :
    (met.enforced settings 500 0
        (contact 2 "2001:DB8:1:2:0:ffff:0:9")).answer =
      .raised (tooManyRequests 58) (some ⟨1, 0⟩) := by
  have hMetered := metered_of_run .memory settings
    [first, second] 0 trivial orderly
  have hAnswer := hMetered.turn
    [(first, Progress.start Deployment.memory.limiter 0)] 500
    0 (contact 2 "2001:DB8:1:2:0:ffff:0:9") met [] rfl limit
    budget rfl (by decide) (by
      intro asked hAsked
      cases hAsked
      decide)
  exact hAnswer.trans (by decide)

end Rotated

end Limits

end CrudAuth
