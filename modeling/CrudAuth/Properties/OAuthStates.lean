import CrudAuth.Discipline.OAuthRouter
import CrudAuth.Storage.Deposits

/-
  An OAuth state signs in once, at most: of all callbacks
  with a state, one gets it out of the store, and it is a
  callback of the browser that the state was set on.

  The store says when a state has expired, and it is asked
  before the provider is.

  Main declarations:
    * `SignIn`
    * `Sound`
    * `SignsInOnce`
    * `takes_once`
    * `signsInOnce_taken`
-/

namespace CrudAuth

namespace OAuthRouter

open Concurrency
open Concurrency.Program
open Storage
open Redirects
open UrlParser (ascii)

variable {ι : Type}

------------------------------------------------------------
-- The Property
------------------------------------------------------------

section Property

variable {I : Interface}

/- Events over an implementation of the state store. -/
abbrev WebEvent (I : Interface) (ι : Type) :=
  Event ι (layered (calls Text OAuthState) I webOps)

/- All steps of the callers, the last one first. -/
abbrev WebHistory (I : Interface) (ι : Type) :=
  List (WebEvent I ι)

/- A request has made an operation of its own. -/
def Made
    (history : WebHistory I ι)
    (thread : ι)
    (op : WebOp)
    (ret : op.Ret) : Prop :=
  (⟨thread, .app op, ret⟩ : WebEvent I ι) ∈ history

/- A call of the store began, at a time. -/
def Began
    (history : WebHistory I ι)
    (thread : ι)
    (call : Call Text OAuthState)
    (time : Nat) : Prop :=
  (⟨thread, .began call, time⟩ : WebEvent I ι) ∈ history

/- A call of the store has returned, at a time. -/
def Finished
    (history : WebHistory I ι)
    (thread : ι)
    (call : Call Text OAuthState)
    (ret : call.Ret)
    (time : Nat) : Prop :=
  (⟨thread, .finished call ret, time⟩ : WebEvent I ι) ∈
    history

/- The state in the query of a callback. -/
def Request.presented : Request → Option Text
  | .authorize _ => none
  | .callback request => request.state

variable (requests : ι → Request)

/- A callback with the state calls the account service. -/
def Resolves
    (state : Text)
    (event : WebEvent I ι) : Prop :=
  (requests event.thread).presented = some state ∧
    event.op = .app .getOrCreateUser

/- One with the state issues a session or a challenge. -/
def Issues
    (state : Text)
    (event : WebEvent I ι) : Prop :=
  (requests event.thread).presented = some state ∧
    ∃ op, event.op = .app op ∧ issues op = true

/- No two events do. -/
def AtMostOnce
    (history : WebHistory I ι)
    (happens : WebEvent I ι → Prop) : Prop :=
  history.Pairwise fun later earlier =>
    ¬ (happens later ∧ happens earlier)

/-
  A sign-in: the callback and the state it came with, and
  the `authorize` that has stored the state, at `storedAt`.
-/
structure SignIn (ι : Type) where
  callback : CallbackRequest
  state : Text
  starter : ι
  start : AuthorizeRequest
  storedAt : Nat

/-
  The state was drawn and stored by an `authorize` for this
  provider and set as a cookie on this browser; the callback
  presents it as it does its cookie.
-/
structure SignIn.Begun
    (signIn : SignIn ι)
    (history : WebHistory I ι)
    (thread : ι) : Prop where
  callback : requests thread = .callback signIn.callback
  presented : signIn.callback.state = some signIn.state
  cookie :
    Made history thread
      (.stateCookie signIn.callback.browser
        signIn.callback.pick) (some signIn.state)
  authorize :
    requests signIn.starter = .authorize signIn.start
  browser : signIn.start.browser = signIn.callback.browser
  drawn : Made history signIn.starter .drawState signIn.state
  stored :
    Finished history signIn.starter
      (.create signIn.state
        (signIn.start.stored signIn.state)
        (some oauthStateTtlSeconds)) () signIn.storedAt

/- It has taken the state, and that is its provider's. -/
structure SignIn.Of
    (signIn : SignIn ι)
    (history : WebHistory I ι)
    (thread : ι) : Prop
    extends SignIn.Begun requests signIn history thread where
  taken : ∃ time,
    Finished history thread (.getAndDelete signIn.state)
      (some (signIn.start.stored signIn.state)) time
  provider : signIn.start.provider = signIn.callback.provider

/- The last moment of the state. -/
def SignIn.expiry (signIn : SignIn ι) : Nat :=
  signIn.storedAt + oauthStateTtlSeconds * 1000

/- The callback asked for the state before it expired. -/
def TakenInTime
    (history : WebHistory I ι)
    (thread : ι)
    (signIn : SignIn ι)
    (_ : Nat) : Prop :=
  ∃ since,
    Began history thread (.getAndDelete signIn.state) since ∧
      since ≤ signIn.expiry

/- The account service was called before it expired. -/
def CalledInTime
    (_ : WebHistory I ι)
    (_ : ι)
    (signIn : SignIn ι)
    (time : Nat) : Prop :=
  time ≤ signIn.expiry

/-
  A state is resolved once and issued for once, by sign-ins
  in time, and its own verifier is sent to the provider.
-/
structure Sound
    (InTime :
      WebHistory I ι → ι → SignIn ι → Nat → Prop)
    (history : WebHistory I ι) : Prop where
  resolvedOnce : ∀ state,
    AtMostOnce history (Resolves requests state)
  issuedOnce : ∀ state,
    AtMostOnce history (Issues requests state)
  resolved : ∀ thread time,
    Made history thread .getOrCreateUser time →
      ∃ signIn,
        SignIn.Of requests signIn history thread ∧
          InTime history thread signIn time
  issued : ∀ thread op ret,
    Made history thread op ret →
      issues op = true →
        ∃ time, Made history thread .getOrCreateUser time
  sent : ∀ thread provider code codeVerifier,
    Made history thread
        (.exchangeCode provider code codeVerifier) () →
      ∃ signIn,
        SignIn.Of requests signIn history thread ∧
          provider = signIn.start.provider ∧
          codeVerifier = signIn.start.codeVerifier

end Property

/- An empty store, and browsers without a cookie. -/
def Opening
    {choice : BackendChoice}
    (start : State choice) : Prop :=
  start.app = ⟨0, fun _ => []⟩ ∧
    ∀ key, (storage choice).stored start.store key = none

/-
  Every run of authorize and callback requests is sound,
  over this backend.
-/
def SignsInOnce
    [DecidableEq ι]
    (choice : BackendChoice)
    (values : StateValues)
    (router : Router)
    (requests : ι → Request)
    (InTime :
      WebHistory (storage choice).commands ι → ι →
        SignIn ι → Nat → Prop) : Prop :=
  ∀ start config,
    Opening start →
    Reaches (machine choice values) anyStep
      ⟨start, [],
        fun thread =>
          router.perform choice (requests thread)⟩
      config →
    Sound requests InTime config.history

------------------------------------------------------------
-- Runs
------------------------------------------------------------

section Runs

variable [DecidableEq ι]
variable {I : Interface}
variable {σ : Type}
variable {server : Server I σ}
variable (deposits : Deposits Text OAuthState server)
variable (values : StateValues)
variable (requests : ι → Request)
variable (start : Layered σ Web)

/- Histories of requests over the state store. -/
abbrev Runs :
    Layered σ Web → WebHistory I ι → Prop :=
  Trace
    (Layered.machine (calls Text OAuthState) server
      (Web.server values))
    (fun thread =>
      deposits.discipline.contract
        (routes (requests thread)))
    anyStep start []

variable {deposits} {values} {requests} {start}
variable {state : Layered σ Web}
variable {history earlier : WebHistory I ι}
variable {thread thread' : ι}
variable {key : Text}
variable {data : OAuthState}
variable {command : I.Op}
variable {ret : I.Ret command}

/- What a thread has seen, it has made. -/
theorem made_iff
    {op : WebOp}
    {ret : op.Ret} :
    Did (Layered.view (own thread history)) op ret ↔
      Made history thread op ret :=
  Layered.mem_view_app.trans mem_own_iff

/- A call in the view has returned. -/
theorem finished_of_called
    {call : Call Text OAuthState}
    {ret : call.Ret}
    (hCalled :
      Called (Layered.view (own thread history)) call ret) :
    ∃ time, Finished history thread call ret time := by
  rcases Layered.call_of_view hCalled with ⟨time, hTime⟩
  exact ⟨time, mem_own_iff.mp hTime⟩

theorem called_of_finished
    {call : Call Text OAuthState}
    {ret : call.Ret}
    {time : Nat}
    (hFinished : Finished history thread call ret time) :
    Called (Layered.view (own thread history)) call ret :=
  Layered.view_of_finished (mem_own_iff.mpr hFinished)

/- The call under way was told times since it began. -/
theorem told_of_underway
    {call : Call Text OAuthState}
    {made : List (Action I)}
    (hRuns :
      Runs deposits values requests start state history)
    (hUnderway :
      Layered.underway (own thread history) =
        some (call, made)) :
    ∃ since,
      Began history thread call since ∧
        since ≤ state.clock ∧
        deposits.Told made since state.clock := by
  rcases Layered.underway_since hRuns hUnderway with
    ⟨since, hBegan, hSince, hMade⟩
  refine ⟨since, hBegan, hSince, ?_⟩
  intro action hAction time hTime
  rcases hMade action hAction with
    ⟨now, store, hAfter, hBefore, hRet⟩
  rcases action with ⟨op, ret⟩
  obtain rfl : ret = (server.exec op now store).1 := hRet
  obtain rfl := deposits.tells_exec op now store time hTime
  exact ⟨hAfter, hBefore⟩

------------------------------------------------------------
-- Drawn States
------------------------------------------------------------

/- The state is drawn. -/
def Draws
    (key : Text)
    (event : WebEvent I ι) : Prop :=
  event.action =
    (⟨.app .drawState, key⟩ :
      Action (layered (calls Text OAuthState) I webOps))

/- Draws are never taken back. -/
omit [DecidableEq ι] in
theorem drawn_mono
    (op : LayeredOp (calls Text OAuthState) I webOps)
    (state : Layered σ Web) :
    state.app.drawn ≤
      (Layered.exec (calls Text OAuthState) server
        (Web.server values) op state).2.app.drawn := by
  cases op with
  | app op =>
      cases op with
      | drawState => exact Nat.le_succ _
      | setStateCookie _ _ => exact Nat.le_refl _
      | stateCookie _ _ => exact Nat.le_refl _
      | exchangeCode _ _ _ => exact Nat.le_refl _
      | getUserInfo _ => exact Nat.le_refl _
      | getOrCreateUser => exact Nat.le_refl _
      | challengeLogin _ => exact Nat.le_refl _
      | createSession => exact Nat.le_refl _
  | now => exact Nat.le_refl _
  | began _ => exact Nat.le_refl _
  | command _ => exact Nat.le_refl _
  | finished _ _ => exact Nat.le_refl _

/- No state is drawn twice. -/
theorem drawn_once
    (hRuns :
      Runs deposits values requests start state history)
    (key : Text) :
    AtMostOnce history (Draws key) := by
  refine (hRuns.claimed_once (Draws key)
    (fun state _ =>
      ∃ index < state.app.drawn, values.value index = key)
    ?_ ?_ ?_ ?_).2
  · rintro state history thread op - - - hDraws
    cases hDraws
    exact ⟨state.app.drawn, Nat.lt_succ_self _, rfl⟩
  · rintro state history thread op - - -
      ⟨index, hIndex, hKey⟩
    exact ⟨index, hIndex.trans_le
      (drawn_mono op state), hKey⟩
  · rintro state history tick ⟨index, hIndex, hKey⟩
    cases tick with
    | pass time => exact ⟨index, hIndex, hKey⟩
    | store upkeep => exact ⟨index, hIndex, hKey⟩
    | app upkeep => exact upkeep.elim
  · rintro state history thread op - - -
      ⟨index, hIndex, hKey⟩ hDraws
    cases hDraws
    exact absurd (values.injective hKey)
      (Nat.ne_of_lt hIndex)

/- A key is drawn by one request. -/
theorem thread_of_drawn
    (hRuns :
      Runs deposits values requests start state history)
    (hDrawn : Made history thread .drawState key)
    (hDrawn' : Made history thread' .drawState key) :
    thread = thread' := by
  have hSame := Trace.eq_of_pairwise (drawn_once hRuns key)
    hDrawn hDrawn' rfl rfl
  exact congrArg Event.thread hSame

------------------------------------------------------------
-- Puts And Takes
------------------------------------------------------------

/- What the requests of a run owe over the store. -/
abbrev Allowed
    (deposits : Deposits Text OAuthState server)
    (requests : ι → Request)
    (history : WebHistory I ι)
    (thread : ι)
    (op : LayeredOp (calls Text OAuthState) I webOps) :
      Prop :=
  (deposits.discipline.contract
    (routes (requests thread))).rule (own thread history) op

/- The value of the state is put into the store. -/
def Puts
    (deposits : Deposits Text OAuthState server)
    (key : Text)
    (event : WebEvent I ι) : Prop :=
  ∃ (command : I.Op) (ret : I.Ret command)
      (data : OAuthState),
    event.op = .command command ∧
    HEq event.ret ret ∧
    deposits.puts ⟨command, ret⟩ = some (key, data)

/- The value of the state is taken out of the store. -/
def Takes
    (deposits : Deposits Text OAuthState server)
    (key : Text)
    (event : WebEvent I ι) : Prop :=
  ∃ (command : I.Op) (ret : I.Ret command)
      (data : OAuthState),
    event.op = .command command ∧
    HEq event.ret ret ∧
    deposits.takes ⟨command, ret⟩ = some (key, data)

/- Only an `authorize` puts, once, the state it has drawn. -/
theorem rule_of_put
    (hRule : Allowed deposits requests history thread
      (.command command))
    (hPuts :
      deposits.puts ⟨command, ret⟩ = some (key, data)) :
    ∃ start made,
      requests thread = .authorize start ∧
      data = start.stored key ∧
      Made history thread .drawState key ∧
      Layered.underway (own thread history) =
        some (.create key data (some oauthStateTtlSeconds),
          made) ∧
      Layered.performed (own thread history) = made ∧
      Layered.NoCalls (Layered.view (own thread history)) ∧
      (∀ action ∈ made, deposits.puts action = none) ∧
      ∀ since now, deposits.Told made since now →
        deposits.due command now ≤
          now + oauthStateTtlSeconds * 1000 := by
  rcases hRule with
    ⟨call, made, hUnderway, ⟨hFirst, hStore⟩, hCommand,
      hPerformed⟩
  cases call with
  | create key' data' expiration =>
      rcases hStore with
        ⟨start, hRequest, hDrawn, hData, rfl⟩
      rcases hCommand.2.2 ret _ hPuts with
        ⟨hWritten, hNew, hDue⟩
      obtain ⟨rfl, rfl⟩ := Prod.mk.inj hWritten
      refine ⟨start, made, hRequest, hData, made_iff.mp
        hDrawn,
        hUnderway, hPerformed hFirst, hFirst, hNew, ?_⟩
      intro since now hTold
      exact hDue since now hTold _ rfl
  | getAndDelete key' =>
      cases (hCommand.2.1 ret).symm.trans hPuts
  | get _ => cases hStore
  | modify _ _ _ _ => cases hStore
  | delete _ _ => cases hStore
  | setIfAbsent _ _ _ => cases hStore
  | getUserSessions _ => cases hStore
  | removeFromUserIndex _ _ => cases hStore

/- Only a callback takes, by the state of its cookie. -/
theorem rule_of_take
    (hRule : Allowed deposits requests history thread
      (.command command))
    (hTakes :
      deposits.takes ⟨command, ret⟩ = some (key, data)) :
    ∃ callback made,
      requests thread = .callback callback ∧
      callback.state = some key ∧
      Made history thread
        (.stateCookie callback.browser callback.pick)
        (some key) ∧
      Layered.underway (own thread history) =
        some (.getAndDelete key, made) ∧
      ∀ since now, deposits.Told made since now →
        since ≤ now →
          since ≤ deposits.asOf command now := by
  rcases hRule with
    ⟨call, made, hUnderway, ⟨-, hStore⟩, hCommand, -⟩
  cases call with
  | create key' data' expiration =>
      cases (hCommand.2.1 ret).symm.trans hTakes
  | getAndDelete key' =>
      rcases hStore with
        ⟨callback, hRequest, hState, hCookie⟩
      rcases hCommand.2.2 ret _ hTakes with ⟨rfl, hAsOf⟩
      exact ⟨callback, made, hRequest, hState,
        made_iff.mp hCookie, hUnderway, hAsOf⟩
  | get _ => cases hStore
  | modify _ _ _ _ => cases hStore
  | delete _ _ => cases hStore
  | setIfAbsent _ _ _ => cases hStore
  | getUserSessions _ => cases hStore
  | removeFromUserIndex _ _ => cases hStore

/- A request makes the commands of the two calls only. -/
theorem performs_of_rule
    (hRule : Allowed deposits requests history thread
      (.command command)) :
    deposits.performs command := by
  rcases hRule with
    ⟨call, made, -, ⟨-, hStore⟩, hCommand, -⟩
  cases call with
  | create _ _ _ => exact hCommand.1
  | getAndDelete _ => exact hCommand.1
  | get _ => cases hStore
  | modify _ _ _ _ => cases hStore
  | delete _ _ => cases hStore
  | setIfAbsent _ _ _ => cases hStore
  | getUserSessions _ => cases hStore
  | removeFromUserIndex _ _ => cases hStore

/- No state is put twice. -/
theorem put_refused
    (hRuns :
      Runs deposits values requests start state history)
    (hRule : Allowed deposits requests history thread
      (.command command))
    (hPuts :
      deposits.puts ⟨command, ret⟩ = some (key, data))
    {event : WebEvent I ι}
    (hEvent : event ∈ history)
    (hOld : Puts deposits key event) :
    False := by
  rcases event with ⟨thread', op, ret'⟩
  rcases hOld with
    ⟨command', ret'', data', hOp, hRet, hPuts'⟩
  obtain rfl : op = .command command' := hOp
  obtain rfl := eq_of_heq hRet
  rcases rule_of_put hRule hPuts with
    ⟨_, made, -, -, hDrawn, -, hPerformed, -, hNew, -⟩
  rcases hRuns.at_member hEvent with
    ⟨before, earlier, hSuffix, -, hRule', -⟩
  rcases rule_of_put hRule' hPuts' with
    ⟨_, _, -, -, hDrawn', -⟩
  obtain rfl :=
    thread_of_drawn hRuns hDrawn (hSuffix.subset hDrawn')
  have hMade := Layered.mem_performed
    (mem_own_iff.mpr hEvent)
  rw [hPerformed] at hMade
  cases (hNew _ hMade).symm.trans hPuts'

------------------------------------------------------------
-- What The Store Holds
------------------------------------------------------------

/-
  Who has put a value that is in the store, and at what
  time: no call of that request has returned before.
-/
structure Origin
    (deposits : Deposits Text OAuthState server)
    (requests : ι → Request)
    (clock : Nat)
    (history : WebHistory I ι)
    (key : Text)
    (data : OAuthState)
    (deadline : Option Nat)
    (starter : ι)
    (start : AuthorizeRequest)
    (time : Nat) : Prop where
  authorize : requests starter = .authorize start
  stored : data = start.stored key
  drawn : Made history starter .drawState key
  put : ∃ event ∈ history, Puts deposits key event
  past : time ≤ clock
  kept : ∃ due,
    deadline = some due ∧
      due ≤ time + oauthStateTtlSeconds * 1000
  unreturned : ∀ call ret finish,
    Finished history starter call ret finish → time ≤ finish

omit [DecidableEq ι] in
/- The origin of a value does not change. -/
theorem Origin.later
    {clock clock' : Nat}
    {deadline : Option Nat}
    {starter : ι}
    {start : AuthorizeRequest}
    {time : Nat}
    {event : WebEvent I ι}
    (hOrigin :
      Origin deposits requests clock history key data
        deadline
        starter start time)
    (hClock : clock ≤ clock')
    (hEvent : ∀ call ret finish,
      event = ⟨starter, .finished call ret, finish⟩ →
        clock ≤ finish) :
    Origin deposits requests clock' (event :: history) key
      data deadline starter start time := by
  constructor
  · exact hOrigin.authorize
  · exact hOrigin.stored
  · exact List.mem_cons_of_mem _ hOrigin.drawn
  · rcases hOrigin.put with ⟨old, hOld, hPuts⟩
    exact ⟨old, List.mem_cons_of_mem _ hOld, hPuts⟩
  · exact hOrigin.past.trans hClock
  · exact hOrigin.kept
  · intro call ret finish hFinished
    rcases List.mem_cons.mp hFinished with hLast | hOlder
    · exact hOrigin.past.trans
        (hEvent call ret finish hLast.symm)
    · exact hOrigin.unreturned call ret finish hOlder

/- Every value in the store has an origin in the run. -/
def Stocked
    (deposits : Deposits Text OAuthState server)
    (requests : ι → Request)
    (state : Layered σ Web)
    (history : WebHistory I ι) : Prop :=
  ∀ key data deadline,
    deposits.row state.store key = some (data, deadline) →
      ∃ starter start time,
        Origin deposits requests state.clock history key data
          deadline starter start time

/- A command of a request leaves what has an origin. -/
theorem stocked_command
    (hRuns :
      Runs deposits values requests start state history)
    (hRule : Allowed deposits requests history thread
      (.command command))
    (hStocked : Stocked deposits requests state history) :
    ∀ key data deadline,
      deposits.row
          (server.exec command state.clock state.store).2
            key =
        some (data, deadline) →
      ∃ starter start time,
        Origin deposits requests state.clock
          (⟨thread, .command command,
            (server.exec command state.clock
              state.store).1⟩ :: history)
          key data deadline starter start time := by
  intro key data deadline hRow
  rcases deposits.row_exec command state.clock
    state.store key
      data deadline (performs_of_rule hRule) hRow with
    hOld | ⟨hPuts, hDeadline⟩
  · rcases hStocked key data deadline hOld with
      ⟨starter, start, time, hOrigin⟩
    exact ⟨starter, start, time,
      hOrigin.later (Nat.le_refl _) fun _ _ _ => nofun⟩
  · rcases rule_of_put hRule hPuts with
      ⟨start, made, hRequest, hData, hDrawn, hUnderway, -,
        hFirst, -, hDue⟩
    rcases told_of_underway hRuns hUnderway with
      ⟨since, -, -, hTold⟩
    refine ⟨thread, start, state.clock, ?_⟩
    constructor
    · exact hRequest
    · exact hData
    · exact List.mem_cons_of_mem _ hDrawn
    · exact ⟨_, List.mem_cons_self, command, _, data, rfl,
        HEq.rfl, hPuts⟩
    · exact Nat.le_refl _
    · exact ⟨_, hDeadline, hDue since _ hTold⟩
    · intro call ret finish hFinished
      rcases List.mem_cons.mp hFinished with hLast | hOlder
      · cases hLast
      · exact absurd (called_of_finished hOlder)
          (hFirst call ret)

/- A stored state was stored by a redirect. -/
theorem stocked
    (hRuns :
      Runs deposits values requests start state history)
    (hEmpty : ∀ key, deposits.row start.store key = none) :
    Stocked deposits requests state history := by
  refine hRuns.invariant (Stocked deposits requests)
    ?_ ?_ ?_
  · intro key data deadline hRow
    rw [hEmpty key] at hRow
    cases hRow
  · intro state history thread op hBefore hRule _ hStocked
    have hSame
        (hStore :
          (Layered.exec (calls Text OAuthState) server
            (Web.server values) op state).2.store =
              state.store)
        (hFinish : ∀ call ret finish,
          (⟨op, (Layered.exec (calls Text OAuthState) server
              (Web.server values) op state).1⟩ :
            Action (layered (calls Text OAuthState) I
              webOps)) =
              ⟨.finished call ret, finish⟩ →
            state.clock ≤ finish) :
        Stocked deposits requests
          (Layered.exec (calls Text OAuthState) server
            (Web.server values) op state).2
          (⟨thread, op, (Layered.exec (calls Text OAuthState)
            server (Web.server values) op state).1⟩ ::
              history) := by
      intro key data deadline hRow
      rw [hStore] at hRow
      rcases hStocked key data deadline hRow with
        ⟨starter, start, time, hOrigin⟩
      rw [Layered.clock_exec op state]
      refine ⟨starter, start, time,
        hOrigin.later (Nat.le_refl _) ?_⟩
      intro call ret finish hEvent
      exact hFinish call ret finish
        (congrArg Event.action hEvent)
    cases op with
    | command command =>
        exact stocked_command hBefore hRule hStocked
    | now => exact hSame rfl fun _ _ _ => nofun
    | began call => exact hSame rfl fun _ _ _ => nofun
    | app op => exact hSame rfl fun _ _ _ => nofun
    | finished call ret =>
        apply hSame rfl
        intro call' ret' finish hAction
        cases hAction
        exact Nat.le_refl _
  · intro state history tick hStocked key data deadline hRow
    cases tick with
    | pass time =>
        rcases hStocked key data deadline hRow with
          ⟨starter, start, put, hOrigin⟩
        exact ⟨starter, start, put,
          { hOrigin with
            past :=
              hOrigin.past.trans (Nat.le_add_right _ _) }⟩
    | store upkeep =>
        exact hStocked key data deadline
          (deposits.row_upkeep upkeep _ _ _ _ hRow)
    | app upkeep => exact upkeep.elim

/- No state is taken twice. -/
theorem takes_once
    (hRuns :
      Runs deposits values requests start state history)
    (hEmpty : ∀ key, deposits.row start.store key = none)
    (key : Text) :
    AtMostOnce history (Takes deposits key) := by
  refine (hRuns.claimed_once (Takes deposits key)
    (fun state history =>
      deposits.row state.store key = none ∧
        ∃ event ∈ history, Puts deposits key event)
    ?_ ?_ ?_ ?_).2
  · rintro state history thread op hBefore hRule -
      ⟨command, ret, data, hOp, hRet, hTakes⟩
    obtain rfl : op = .command command := hOp
    obtain rfl := eq_of_heq hRet
    rcases deposits.row_take command state.clock state.store
        key data hTakes with ⟨⟨deadline, hRow, -⟩, hGone⟩
    rcases stocked hBefore hEmpty key data deadline hRow with
      ⟨starter, start, time, hOrigin⟩
    rcases hOrigin.put with ⟨event, hEvent, hPuts⟩
    exact ⟨hGone, event, List.mem_cons_of_mem _ hEvent,
      hPuts⟩
  · rintro state history thread op hBefore hRule -
      ⟨hGone, event, hEvent, hPuts⟩
    refine ⟨?_, event, List.mem_cons_of_mem _ hEvent, hPuts⟩
    cases op with
    | command command =>
        rw [Option.eq_none_iff_forall_ne_some]
        rintro ⟨data, deadline⟩ hRow
        rcases deposits.row_exec command state.clock
            state.store key data deadline
            (performs_of_rule hRule) hRow with
          hOld | ⟨hAgain, -⟩
        · cases hGone.symm.trans hOld
        · exact put_refused hBefore hRule hAgain hEvent hPuts
    | now => exact hGone
    | began call => exact hGone
    | app op => exact hGone
    | finished call ret => exact hGone
  · rintro state history tick ⟨hGone, hPuts⟩
    refine ⟨?_, hPuts⟩
    cases tick with
    | pass time => exact hGone
    | store upkeep =>
        rw [Option.eq_none_iff_forall_ne_some]
        intro kept hRow
        have hOld :=
          deposits.row_upkeep upkeep _ _ _ _ hRow
        cases hGone.symm.trans hOld
    | app upkeep => exact upkeep.elim
  · rintro state history thread op - - - ⟨hGone, -⟩
      ⟨command, ret, data, hOp, hRet, hTakes⟩
    obtain rfl : op = .command command := hOp
    obtain rfl := eq_of_heq hRet
    rcases deposits.row_take command state.clock state.store
        key data hTakes with ⟨⟨deadline, hRow, -⟩, -⟩
    cases hGone.symm.trans hRow

------------------------------------------------------------
-- Sign-Ins
------------------------------------------------------------

/- A cookie was set in the run, on the browser it is on. -/
theorem set_of_cookies
    (hRuns :
      Runs deposits values requests start state history)
    (hBare : ∀ browser, start.app.cookies browser = [])
    {browser : Nat}
    (hCookie : key ∈ state.app.cookies browser) :
    ∃ starter,
      Made history starter (.setStateCookie browser key)
        () := by
  have hAll := hRuns.invariant
    (fun state history => ∀ browser,
      ∀ key ∈ state.app.cookies browser,
        ∃ starter,
          Made history starter
            (.setStateCookie browser key) ()) ?_ ?_ ?_
  · exact hAll browser key hCookie
  · intro browser key hKey
    rw [hBare browser] at hKey
    cases hKey
  · intro state history thread op _ _ _ hSet browser key hKey
    have hSame
        (hOld : key ∈ state.app.cookies browser) :
        ∃ starter,
          Made
            (⟨thread, op, (Layered.exec
              (calls Text OAuthState) server
                (Web.server values) op state).1⟩ :: history)
            starter (.setStateCookie browser key) () := by
      rcases hSet browser key hOld with ⟨starter, hStarter⟩
      exact ⟨starter, List.mem_cons_of_mem _ hStarter⟩
    cases op with
    | app op =>
        cases op with
        | setStateCookie other fresh =>
            have hKey' :
                key ∈ Function.update state.app.cookies other
                  (fresh :: state.app.cookies other)
                    browser :=
              hKey
            by_cases hBrowser : browser = other
            · subst hBrowser
              rw [Function.update_self] at hKey'
              rcases List.mem_cons.mp hKey' with
                rfl | hOld
              · exact ⟨thread, List.mem_cons_self⟩
              · exact hSame hOld
            · rw [Function.update_of_ne hBrowser] at hKey'
              exact hSame hKey'
        | drawState => exact hSame hKey
        | stateCookie _ _ => exact hSame hKey
        | exchangeCode _ _ _ => exact hSame hKey
        | getUserInfo _ => exact hSame hKey
        | getOrCreateUser => exact hSame hKey
        | challengeLogin _ => exact hSame hKey
        | createSession => exact hSame hKey
    | now => exact hSame hKey
    | began call => exact hSame hKey
    | command command => exact hSame hKey
    | finished call ret => exact hSame hKey
  · intro state history tick hSet
    cases tick with
    | pass time => exact hSet
    | store upkeep => exact hSet
    | app upkeep => exact upkeep.elim

/- What a browser sends was stored and set on it. -/
theorem stored_of_cookie
    (hRuns :
      Runs deposits values requests start state history)
    (hBare : ∀ browser, start.app.cookies browser = [])
    {browser pick : Nat}
    (hCookie :
      Made history thread (.stateCookie browser pick)
        (some key)) :
    ∃ starter start time,
      requests starter = .authorize start ∧
      start.browser = browser ∧
      Made history starter .drawState key ∧
      Finished history starter
        (.create key (start.stored key)
          (some oauthStateTtlSeconds)) () time := by
  rcases hRuns.at_member hCookie with
    ⟨before, earlier, hSuffix, hBefore, -, -, hRet⟩
  have hSent : key ∈ before.app.cookies browser :=
    List.mem_of_getElem? hRet.symm
  rcases set_of_cookies hBefore hBare hSent with
    ⟨starter, hSet⟩
  rcases hBefore.at_member hSet with
    ⟨middle, older, hSuffix', hMiddle, hRule, -⟩
  rcases hRule with ⟨start, hRequest, rfl, hCalled⟩
  rcases finished_of_called hCalled with ⟨time, hFinished⟩
  have hAll := hSuffix'.trans hSuffix
  refine ⟨starter, start, time, hRequest, rfl, ?_,
    hAll.subset hFinished⟩
  rcases hMiddle.at_member hFinished with
    ⟨_, oldest, hOldest, -, ⟨⟨-, hStore⟩, -⟩, -⟩
  rcases hStore with ⟨_, -, hDrawn, -⟩
  exact (hOldest.trans hAll).subset (made_iff.mp hDrawn)

/- A take is the sign-in that its cookie belongs to. -/
theorem signIn_of_take
    (hRuns :
      Runs deposits values requests start state history)
    (hEmpty : ∀ key, deposits.row start.store key = none)
    (hBare : ∀ browser, start.app.cookies browser = [])
    (hRule : Allowed deposits requests history thread
      (.command command))
    (hTakes :
      deposits.takes
          ⟨command, (server.exec command state.clock
            state.store).1⟩ =
        some (key, data)) :
    ∃ signIn,
      SignIn.Begun requests signIn history thread ∧
      signIn.state = key ∧
      data = signIn.start.stored key ∧
      TakenInTime history thread signIn 0 := by
  rcases rule_of_take hRule hTakes with
    ⟨callback, made, hRequest, hState, hCookie, hUnderway,
      hAsOf⟩
  rcases told_of_underway hRuns hUnderway with
    ⟨since, hBegan, hSince, hTold⟩
  rcases deposits.row_take command state.clock
    state.store key
      data hTakes with ⟨⟨deadline, hRow, hDeadline⟩, -⟩
  rcases stocked hRuns hEmpty key data deadline hRow with
    ⟨starter, start, time, hOrigin⟩
  rcases stored_of_cookie hRuns hBare hCookie with
    ⟨starter', start', finish, hRequest', hBrowser, hDrawn',
      hFinished⟩
  obtain rfl := thread_of_drawn hRuns hOrigin.drawn hDrawn'
  obtain rfl : start = start' := by
    have hSame := hOrigin.authorize.symm.trans hRequest'
    cases hSame
    rfl
  refine ⟨⟨callback, key, starter, start, finish⟩, ?_, rfl,
    hOrigin.stored, since, hBegan, ?_⟩
  · constructor
    · exact hRequest
    · exact hState
    · exact hCookie
    · exact hRequest'
    · exact hBrowser
    · exact hDrawn'
    · exact hFinished
  · rcases hOrigin.kept with ⟨due, rfl, hDue⟩
    calc
      since ≤ deposits.asOf command state.clock :=
        hAsOf since state.clock hTold hSince
      _ ≤ due := hDeadline due rfl
      _ ≤ time + oauthStateTtlSeconds * 1000 := hDue
      _ ≤ finish + oauthStateTtlSeconds * 1000 :=
        Nat.add_le_add_right
          (hOrigin.unreturned _ _ finish hFinished) _

/- A sign-in that has begun stays begun. -/
omit [DecidableEq ι] in
theorem SignIn.Begun.mono
    {signIn : SignIn ι}
    (hBegun : SignIn.Begun requests signIn earlier thread)
    (hSuffix : earlier <:+ history) :
    SignIn.Begun requests signIn history thread :=
  { hBegun with
    cookie := hSuffix.subset hBegun.cookie
    drawn := hSuffix.subset hBegun.drawn
    stored := hSuffix.subset hBegun.stored }

/- A sign-in stays one as the run goes on. -/
omit [DecidableEq ι] in
theorem SignIn.Of.later
    {signIn : SignIn ι}
    (hSignIn : SignIn.Of requests signIn earlier thread)
    (hSuffix : earlier <:+ history) :
    SignIn.Of requests signIn history thread := by
  rcases hSignIn.taken with ⟨time, hTaken⟩
  exact
    { hSignIn.toBegun.mono hSuffix with
      taken := ⟨time, hSuffix.subset hTaken⟩
      provider := hSignIn.provider }

/- A callback that goes on has taken its state. -/
theorem signIn_of_took
    (hRuns :
      Runs deposits values requests start state history)
    (hEmpty : ∀ key, deposits.row start.store key = none)
    (hBare : ∀ browser, start.app.cookies browser = [])
    {callback : CallbackRequest}
    (hTook :
      Took (requests thread)
        (Layered.view (own thread history)) callback data) :
    ∃ signIn,
      SignIn.Of requests signIn history thread ∧
      signIn.callback = callback ∧
      data = signIn.start.stored signIn.state ∧
      TakenInTime history thread signIn 0 ∧
      ∃ event ∈ history,
        event.thread = thread ∧
          Takes deposits signIn.state event := by
  rcases hTook with
    ⟨hRequest, hProvider, key, hState, hCalled⟩
  rcases finished_of_called hCalled with ⟨time, hFinished⟩
  rcases hRuns.at_member hFinished with
    ⟨before, earlier, hSuffix, hBefore, hRule, -⟩
  rcases hRule with
    ⟨-, made, hUnderway, ⟨op, ret⟩, hAction, hTakes⟩
  have hCommand := mem_own_iff.mp
    (Layered.mem_of_underway hUnderway hAction)
  rcases hBefore.at_member hCommand with
    ⟨middle, older, hSuffix', hMiddle, hAllowed, -, hRet⟩
  obtain rfl :
      ret = (server.exec op middle.clock middle.store).1 :=
    hRet
  have hAll := hSuffix'.trans hSuffix
  rcases signIn_of_take hMiddle hEmpty hBare hAllowed
      hTakes with
    ⟨signIn, hBegun, rfl, rfl, since, hBegan, hSince⟩
  have hCallback : signIn.callback = callback := by
    have hSame := hBegun.callback.symm.trans hRequest
    cases hSame
    rfl
  subst hCallback
  refine ⟨signIn,
    { hBegun.mono hAll with
      taken := ⟨time, hFinished⟩
      provider := hProvider }, rfl, rfl,
    ⟨since, hAll.subset hBegan, hSince⟩,
    _, hSuffix.subset hCommand, rfl,
    op, _, _, rfl, HEq.rfl, hTakes⟩

/- Who calls the account service has taken the state. -/
theorem took_of_resolved
    {time : Nat}
    (hRuns :
      Runs deposits values requests start state history)
    (hMade : Made history thread .getOrCreateUser time) :
    ∃ before earlier callback data,
      earlier <:+ history ∧
      Runs deposits values requests start before earlier ∧
      Took (requests thread)
        (Layered.view (own thread earlier)) callback
          data := by
  rcases hRuns.at_member hMade with
    ⟨before, earlier, hSuffix, hBefore, hRule, -⟩
  rcases hRule with ⟨⟨callback, data, hTook⟩, -⟩
  exact ⟨before, earlier, callback, data, hSuffix, hBefore,
    hTook⟩

/- Whoever resolves an account has taken the state. -/
theorem take_of_resolved
    {time : Nat}
    (hRuns :
      Runs deposits values requests start state history)
    (hEmpty : ∀ key, deposits.row start.store key = none)
    (hBare : ∀ browser, start.app.cookies browser = [])
    (hMade : Made history thread .getOrCreateUser time)
    (hPresented : (requests thread).presented = some key) :
    ∃ event ∈ history,
      event.thread = thread ∧ Takes deposits key event := by
  rcases took_of_resolved hRuns hMade with
    ⟨before, earlier, callback, data, hSuffix, hBefore,
      hTook⟩
  rcases signIn_of_took hBefore hEmpty hBare hTook with
    ⟨signIn, hSignIn, -, -, -, event, hEvent, hThread,
      hTakes⟩
  have hKey : signIn.state = key := by
    rw [hSignIn.callback] at hPresented
    exact Option.some.inj
      (hSignIn.presented.symm.trans hPresented)
  rw [hKey] at hTakes
  exact ⟨event, hSuffix.subset hEvent, hThread, hTakes⟩

/- One callback with a state gets to the account service. -/
theorem thread_of_resolved
    {time time' : Nat}
    (hRuns :
      Runs deposits values requests start state history)
    (hEmpty : ∀ key, deposits.row start.store key = none)
    (hBare : ∀ browser, start.app.cookies browser = [])
    (hMade : Made history thread .getOrCreateUser time)
    (hMade' : Made history thread' .getOrCreateUser time')
    (hPresented : (requests thread).presented = some key)
    (hPresented' : (requests thread').presented = some key) :
    thread = thread' := by
  rcases take_of_resolved hRuns hEmpty hBare hMade
      hPresented with ⟨event, hEvent, rfl, hTakes⟩
  rcases take_of_resolved hRuns hEmpty hBare hMade'
      hPresented' with ⟨event', hEvent', rfl, hTakes'⟩
  exact congrArg Event.thread
    (Trace.eq_of_pairwise (takes_once hRuns hEmpty key)
      hEvent
      hEvent' hTakes hTakes')

------------------------------------------------------------
-- Once, And In Time
------------------------------------------------------------

/- What happens only once in every run. -/
theorem atMostOnce_of_refused
    {happens : WebEvent I ι → Prop}
    (hRuns :
      Runs deposits values requests start state history)
    (hRefused : ∀ state history thread op,
      Runs deposits values requests start state history →
      Allowed deposits requests history thread op →
      ∀ event ∈ history, happens event →
        ¬ happens ⟨thread, op,
          (Layered.exec (calls Text OAuthState) server
            (Web.server values) op state).1⟩) :
    AtMostOnce history happens := by
  refine (hRuns.claimed_once happens
    (fun _ history => ∃ event ∈ history, happens event)
    ?_ ?_ ?_ ?_).2
  · intro state history thread op _ _ _ hHappens
    exact ⟨_, List.mem_cons_self, hHappens⟩
  · rintro state history thread op - - -
      ⟨event, hEvent, hHappens⟩
    exact ⟨event, List.mem_cons_of_mem _ hEvent, hHappens⟩
  · intro state history tick hHappened
    exact hHappened
  · rintro state history thread op hBefore hRule -
      ⟨event, hEvent, hHappens⟩
    exact hRefused state history thread op hBefore
      hRule event
      hEvent hHappens

/- What is issued comes after the account service. -/
theorem resolved_of_issues
    {request : Request}
    {past : WebPast}
    {op : WebOp}
    (hRule : webRule request past op)
    (hIssues : issues op = true) :
    Resolved past := by
  cases op with
  | challengeLogin _ => exact hRule
  | createSession => exact hRule
  | drawState => cases hIssues
  | setStateCookie _ _ => cases hIssues
  | stateCookie _ _ => cases hIssues
  | exchangeCode _ _ _ => cases hIssues
  | getUserInfo _ => cases hIssues
  | getOrCreateUser => cases hIssues

/- A state resolves an account once. -/
theorem resolved_once
    (hRuns :
      Runs deposits values requests start state history)
    (hEmpty : ∀ key, deposits.row start.store key = none)
    (hBare : ∀ browser, start.app.cookies browser = [])
    (key : Text) :
    AtMostOnce history (Resolves requests key) := by
  apply atMostOnce_of_refused hRuns
  rintro state history thread op hBefore hRule
    ⟨thread', op', ret'⟩ hOld ⟨hPresented', hOp'⟩
    ⟨hPresented, hOp⟩
  obtain rfl : op = .app .getOrCreateUser := hOp
  obtain rfl : op' = .app .getOrCreateUser := hOp'
  rcases hRule with ⟨⟨callback, data, hTook⟩, hFirst⟩
  rcases signIn_of_took hBefore hEmpty hBare hTook with
    ⟨signIn, hSignIn, -, -, -, event, hEvent, rfl, hTakes⟩
  have hKey : signIn.state = key := by
    rw [hSignIn.callback] at hPresented
    exact Option.some.inj
      (hSignIn.presented.symm.trans hPresented)
  rw [hKey] at hTakes
  rcases take_of_resolved hBefore hEmpty hBare hOld
      hPresented' with ⟨event', hEvent', rfl, hTakes'⟩
  have hSame :=
    Trace.eq_of_pairwise (takes_once hBefore hEmpty key)
      hEvent hEvent' hTakes hTakes'
  rw [← hSame] at hOld
  exact hFirst ret' (made_iff.mpr hOld)

theorem issued_once
    (hRuns :
      Runs deposits values requests start state history)
    (hEmpty : ∀ key, deposits.row start.store key = none)
    (hBare : ∀ browser, start.app.cookies browser = [])
    (key : Text) :
    AtMostOnce history (Issues requests key) := by
  apply atMostOnce_of_refused hRuns
  rintro state history thread op hBefore hRule
    ⟨thread', op', ret'⟩ hOld
    ⟨hPresented', webOp', hOp', hIssues'⟩
    ⟨hPresented, webOp, hOp, hIssues⟩
  obtain rfl : op = .app webOp := hOp
  obtain rfl : op' = .app webOp' := hOp'
  have hResolved := resolved_of_issues hRule hIssues
  rcases hResolved.1 with ⟨time, hDid⟩
  rcases hBefore.at_member hOld with
    ⟨_, earlier, hSuffix, -, hRule', -⟩
  rcases (resolved_of_issues hRule' hIssues').1 with
    ⟨time', hDid'⟩
  obtain rfl := thread_of_resolved hBefore hEmpty hBare
    (made_iff.mp hDid)
    (hSuffix.subset (made_iff.mp hDid')) hPresented
    hPresented'
  have hUnissued :=
    hResolved.2 webOp' ret' (made_iff.mpr hOld)
  exact Bool.false_ne_true (hUnissued.symm.trans hIssues')

/- The properties of a run, together. -/
theorem sound_of_runs
    (hRuns :
      Runs deposits values requests start state history)
    (hEmpty : ∀ key, deposits.row start.store key = none)
    (hBare : ∀ browser, start.app.cookies browser = []) :
    Sound requests TakenInTime history := by
  constructor
  · exact resolved_once hRuns hEmpty hBare
  · exact issued_once hRuns hEmpty hBare
  · intro thread time hMade
    rcases took_of_resolved hRuns hMade with
      ⟨before, earlier, callback, data, hSuffix, hBefore,
        hTook⟩
    rcases signIn_of_took hBefore hEmpty hBare hTook with
      ⟨signIn, hSignIn, -, -, ⟨since, hBegan, hSince⟩, -⟩
    exact ⟨signIn, hSignIn.later hSuffix, since,
      hSuffix.subset hBegan, hSince⟩
  · intro thread op ret hMade hIssues
    rcases hRuns.at_member hMade with
      ⟨_, earlier, hSuffix, -, hRule, -⟩
    rcases (resolved_of_issues hRule hIssues).1 with
      ⟨time, hDid⟩
    exact ⟨time, hSuffix.subset (made_iff.mp hDid)⟩
  · intro thread provider code codeVerifier hMade
    rcases hRuns.at_member hMade with
      ⟨before, earlier, hSuffix, hBefore, hRule, -⟩
    rcases hRule with
      ⟨callback, data, hTook, rfl, rfl⟩
    rcases signIn_of_took hBefore hEmpty hBare hTook with
      ⟨signIn, hSignIn, rfl, rfl, -, -⟩
    exact ⟨signIn, hSignIn.later hSuffix,
      hSignIn.provider.symm, rfl⟩

end Runs

/-
  On every backend, whatever the interleaving: a state
  signs in once, and was asked for before it had expired.
-/
theorem signsInOnce_taken
    [DecidableEq ι]
    (choice : BackendChoice)
    (values : StateValues)
    (router : Router)
    (requests : ι → Request) :
    SignsInOnce choice values router requests
      TakenInTime := by
  intro start config hOpening hReaches
  have hObeys (thread : ι) :
      (router.perform choice (requests thread)).Obeys
        ((depositsOf choice).discipline.contract
          (routes (requests thread))) []
        fun _ _ => True :=
    Layered.lower_obeys depositsOf_keeps
      (fun _ _ _ _ => trivial) (fun _ => rfl)
      (handle_obeys (requests thread))
  have hAnswer (thread : ι) (op : (routerLayer choice).Op)
      (state : State choice) :
      ((depositsOf choice).discipline.contract
        (routes (requests thread))).answer op
          ((machine choice values).exec op state).1 := by
    cases op <;> trivial
  have hRuns :
      Runs (depositsOf choice) values requests start
        config.state config.history :=
    Reaches.trace hObeys hAnswer hReaches
  refine sound_of_runs hRuns ?_ ?_
  · intro key
    exact row_of_stored (hOpening.2 key)
  · intro browser
    rw [hOpening.1]

------------------------------------------------------------
-- A Slow Provider
------------------------------------------------------------

/- States are kept in memory for half an hour. -/
def inMemory : BackendChoice := .memory 1800

/- State values that count up. -/
def counted : StateValues where
  value := fun index => [index]
  injective := fun _ _ hSame => List.head_eq_of_cons_eq hSame

/- The name of the one provider. -/
def google : Text := ascii "google"

/- Routes for that provider alone. -/
def googleOnly : Router where
  providers := [google]
  responseMode := .redirect
  defaultRedirect := ascii "/"
  challengesOAuth := false

/- An `authorize`, and the callback of the same browser. -/
def oneSignIn : Bool → Request
  | false =>
      .authorize
        { browser := 7
          provider := google
          redirectTo := none
          codeVerifier := some (ascii "verifier") }
  | true =>
      .callback
        { browser := 7
          pick := 0
          provider := google
          code := some (ascii "code")
          state := some [0]
          error := none
          hasToken := true
          hasProfile := true
          account := .ok true
          challenged := false }

/- Nothing is stored yet. -/
def opening : State inMemory where
  clock := 0
  store := (∅ : Memory Text OAuthState)
  app := ⟨0, fun _ => []⟩

/- Nothing is stored, drawn or kept in it. -/
theorem opens_opening : Opening opening :=
  ⟨rfl, fun _ => rfl⟩

/- The code is sent a second before the state expires. -/
def slowExchange :
    List (Choice Bool (machine inMemory counted).Tick) :=
  List.replicate 5 (.thread false) ++
    [.tick (.pass 1799000)] ++
    List.replicate 5 (.thread true) ++
    [.tick (.pass 10000)] ++
    List.replicate 2 (.thread true)

/- The run, if its schedule can be followed. -/
def slowRun :=
  Config.run (machine inMemory counted) anyStep
    ⟨opening, [],
      fun thread =>
        googleOnly.perform inMemory (oneSignIn thread)⟩
    slowExchange

theorem slowRun_ends : slowRun.isSome = true := by
  decide

/- The time at which a `create` has returned. -/
def createdAt :
    WebEvent (storage inMemory).commands Bool → Option Nat
  | ⟨_, .finished (.create _ _ _) _, time⟩ => some time
  | _ => none

/- The account service is called when the state is over. -/
theorem not_signsInOnce_called :
    ¬ SignsInOnce inMemory counted googleOnly oneSignIn
      CalledInTime := by
  intro hAlways
  have hSound := hAlways opening (slowRun.get slowRun_ends)
    opens_opening
    (Reaches.of_run (Option.some_get slowRun_ends).symm)
  have hMade :
      Made (slowRun.get slowRun_ends).history true
        .getOrCreateUser 1809000 :=
    List.mem_of_getElem? (i := 0) rfl
  have hCreated :
      ∀ event ∈ (slowRun.get slowRun_ends).history,
        ∀ time ∈ createdAt event, time = 0 := by
    decide
  rcases hSound.resolved true 1809000 hMade with
    ⟨signIn, hSignIn, hTime⟩
  have hStored := hCreated _ hSignIn.stored _ rfl
  unfold CalledInTime SignIn.expiry at hTime
  rw [hStored] at hTime
  exact absurd hTime (by decide)

end OAuthRouter

end CrudAuth
