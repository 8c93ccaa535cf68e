import CrudAuth.OAuth.Router

/-
  What the two routes of the OAuth router perform: a state
  is stored once, a callback takes the state of its cookie,
  and goes on only with a state of its provider.

  Main declarations:
    * `storeRule`
    * `webRule`
    * `routes`
    * `handle_obeys`
-/

namespace CrudAuth

namespace OAuthRouter

open Concurrency
open Concurrency.Program
open Storage
open Redirects

------------------------------------------------------------
-- Rules
------------------------------------------------------------

/- What a route has done, the last step first. -/
abbrev WebPast := List (Action webClient)

/- What the client has seen of an operation of its own. -/
def Did
    (past : WebPast)
    (op : WebOp)
    (ret : op.Ret) : Prop :=
  (⟨.app op, ret⟩ : Action webClient) ∈ past

/- What the client has seen of a call. -/
def Called
    (past : WebPast)
    (call : Call Text OAuthState)
    (ret : call.Ret) : Prop :=
  (⟨.call call, ret⟩ : Action webClient) ∈ past

/- The one call of a request. -/
def storeRule
    (request : Request)
    (past : WebPast) : Call Text OAuthState → Prop
  | .create state data expiration =>
      ∃ start,
        request = .authorize start ∧
        Did past .drawState state ∧
        data = start.stored state ∧
        expiration = some oauthStateTtlSeconds
  | .getAndDelete state =>
      ∃ callback,
        request = .callback callback ∧
        callback.state = some state ∧
        Did past
          (.stateCookie callback.browser callback.pick)
          (some state)
  | _ => False

/- A session, or the challenge that comes before it. -/
def issues : WebOp → Bool
  | .challengeLogin issues => issues
  | .createSession => true
  | _ => false

/- The callback has taken its state, of its provider. -/
def Took
    (request : Request)
    (past : WebPast)
    (callback : CallbackRequest)
    (stateData : OAuthState) : Prop :=
  request = .callback callback ∧
  stateData.provider = callback.provider ∧
  ∃ state,
    callback.state = some state ∧
    Called past (.getAndDelete state) (some stateData)

/- The account service has been called, nothing issued. -/
def Resolved (past : WebPast) : Prop :=
  (∃ time, Did past .getOrCreateUser time) ∧
  ∀ op ret, Did past op ret → issues op = false

/- What a route may do next. -/
def webRule
    (request : Request)
    (past : WebPast) : WebOp → Prop
  | .drawState => True
  | .setStateCookie browser state =>
      ∃ start,
        request = .authorize start ∧
        browser = start.browser ∧
        Called past
          (.create state (start.stored state)
            (some oauthStateTtlSeconds)) ()
  | .stateCookie _ _ => True
  | .exchangeCode provider _ codeVerifier =>
      ∃ callback stateData,
        Took request past callback stateData ∧
        provider = callback.provider ∧
        codeVerifier = stateData.codeVerifier
  | .getUserInfo _ => True
  | .getOrCreateUser =>
      (∃ callback stateData,
        Took request past callback stateData) ∧
      ∀ time, ¬ Did past .getOrCreateUser time
  | .challengeLogin _ => Resolved past
  | .createSession => Resolved past

/- What a request owes. -/
def routes (request : Request) : Contract webClient where
  rule past
    | .now => False
    | .call call =>
        Layered.NoCalls past ∧ storeRule request past call
    | .app op => webRule request past op
  answer _ _ := True

------------------------------------------------------------
-- Routes
------------------------------------------------------------

variable {router : Router}
variable {past : WebPast}

/- The redirect to the provider. -/
theorem authorize_obeys
    (request : AuthorizeRequest) :
    Obeys (routes (.authorize request)) []
      (router.authorize request) fun _ _ => True := by
  unfold Router.authorize
  split
  · refine ⟨trivial, fun state _ => ?_⟩
    refine ⟨⟨?_, request, rfl, List.mem_cons_self, rfl, rfl⟩,
      fun _ _ => ?_⟩
    · intro call ret hCall
      rw [List.mem_singleton] at hCall
      cases hCall
    · exact ⟨⟨request, rfl, rfl, List.mem_cons_self⟩,
        fun _ _ => trivial⟩
  · trivial

/- Once the user is resolved, one thing is issued. -/
theorem establish_obeys
    {request : Request}
    {callback : CallbackRequest}
    {redirectUrl : Text}
    (hResolved : Resolved past) :
    Obeys (routes request) past
      (router.establish callback redirectUrl)
      fun _ _ => True := by
  unfold Router.establish
  split
  · refine obeys_call_bind hResolved fun _ _ => ?_
    split
    · trivial
    · rename_i hUnchallenged
      rw [Bool.not_eq_true] at hUnchallenged
      refine obeys_call_bind ⟨?_, ?_⟩ fun _ _ => trivial
      · rcases hResolved.1 with ⟨time, hTime⟩
        exact ⟨time, List.mem_cons_of_mem _ hTime⟩
      · intro op ret hDid
        rcases List.mem_cons.mp hDid with hLast | hOld
        · cases hLast
          exact hUnchallenged
        · exact hResolved.2 op ret hOld
  · exact obeys_call_bind hResolved fun _ _ => trivial

/- With the state taken, before the account service. -/
structure Proceeding
    (request : Request)
    (callback : CallbackRequest)
    (stateData : OAuthState)
    (past : WebPast) : Prop where
  took : Took request past callback stateData
  unresolved : ∀ time, ¬ Did past .getOrCreateUser time
  unissued : ∀ op ret, Did past op ret → issues op = false

/- A request that has its state keeps it. -/
theorem Proceeding.cons
    {request : Request}
    {callback : CallbackRequest}
    {stateData : OAuthState}
    (hProceeding :
      Proceeding request callback stateData past)
    (op : WebOp)
    (ret : op.Ret)
    (hResolves : ∀ time,
      (⟨.app op, ret⟩ : Action webClient) ≠
        ⟨.app .getOrCreateUser, time⟩)
    (hIssues : issues op = false) :
    Proceeding request callback stateData
      (⟨.app op, ret⟩ :: past) := by
  rcases hProceeding.took with
    ⟨hRequest, hProvider, state, hState, hCalled⟩
  constructor
  · exact ⟨hRequest, hProvider, state, hState,
      List.mem_cons_of_mem _ hCalled⟩
  · intro time hDid
    rcases List.mem_cons.mp hDid with hLast | hOld
    · exact hResolves time hLast.symm
    · exact hProceeding.unresolved time hOld
  · intro op' ret' hDid
    rcases List.mem_cons.mp hDid with hLast | hOld
    · cases hLast
      exact hIssues
    · exact hProceeding.unissued op' ret' hOld

/- The provider's account is signed in. -/
theorem signIn_obeys
    {request : Request}
    {callback : CallbackRequest}
    {stateData : OAuthState}
    (hProceeding :
      Proceeding request callback stateData past) :
    Obeys (routes request) past
      (router.signIn callback stateData)
      fun _ _ => True := by
  unfold Router.signIn
  refine obeys_call_bind
    ⟨⟨callback, stateData, hProceeding.took⟩,
      hProceeding.unresolved⟩ fun time _ => ?_
  split
  · trivial
  · trivial
  · apply establish_obeys
    refine ⟨⟨time, List.mem_cons_self⟩, ?_⟩
    intro op ret hDid
    rcases List.mem_cons.mp hDid with hLast | hOld
    · cases hLast
      rfl
    · exact hProceeding.unissued op ret hOld

/- The code is exchanged first. -/
theorem exchange_obeys
    {request : Request}
    {callback : CallbackRequest}
    {code : Text}
    {stateData : OAuthState}
    (hProceeding :
      Proceeding request callback stateData past) :
    Obeys (routes request) past
      (router.exchange callback code stateData)
      fun _ _ => True := by
  unfold Router.exchange
  refine obeys_call_bind
    ⟨callback, stateData, hProceeding.took, rfl, rfl⟩
    fun _ _ => ?_
  have hExchanged := hProceeding.cons
    (.exchangeCode callback.provider code
      stateData.codeVerifier) () nofun rfl
  split
  · refine obeys_call_bind trivial fun _ _ => ?_
    split
    · exact signIn_obeys
        (hExchanged.cons (.getUserInfo callback.provider) ()
          nofun rfl)
    · trivial
  · trivial

theorem invalidState_obeys
    {request : Request} :
    Obeys (routes request) past router.invalidState
      fun _ _ => True := by
  unfold Router.invalidState
  split
  · trivial
  · trivial

/- The callback, from its first check on. -/
theorem callback_obeys
    (request : CallbackRequest) :
    Obeys (routes (.callback request)) []
      (router.callback request) fun _ _ => True := by
  unfold Router.callback
  split
  · split
    · rename_i code state hCode hState
      split
      · trivial
      · unfold Router.boundCallback
        refine obeys_call_bind trivial fun bound _ => ?_
        split
        · rename_i hBound
          rw [Bool.and_eq_true, decide_eq_true_iff] at hBound
          obtain rfl := hBound.2
          unfold Router.consume
          refine obeys_call_bind
            ⟨?_, request, rfl, hState, List.mem_cons_self⟩
            fun found _ => ?_
          · intro call ret hCall
            rw [List.mem_singleton] at hCall
            cases hCall
          · cases found with
            | none => exact invalidState_obeys
            | some stateData =>
                dsimp only
                split
                · rename_i hProvider
                  apply exchange_obeys
                  refine ⟨⟨rfl, hProvider, state, hState,
                    List.mem_cons_self⟩, ?_, ?_⟩
                  · intro time hDid
                    simp [Did] at hDid
                  · intro op ret hDid
                    rcases List.mem_pair.mp hDid with
                      hCall | hCookie
                    · cases hCall
                    · cases hCookie
                      rfl
                · exact invalidState_obeys
        · exact invalidState_obeys
    · trivial
  · trivial

/- Either route of the router. -/
theorem handle_obeys
    (request : Request) :
    Obeys (routes request) [] (router.handle request)
      fun _ _ => True := by
  cases request with
  | authorize request => exact authorize_obeys request
  | callback request => exact callback_obeys request

end OAuthRouter

end CrudAuth
