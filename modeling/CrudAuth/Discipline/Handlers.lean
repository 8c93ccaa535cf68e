import CrudAuth.Discipline.OAuth
import CrudAuth.Discipline.Sudo

/-
  Every handler keeps its contract, so every run of an
  application is a trace of contracts.

  Main declarations:
    * `serve_obeys`
    * `handle_obeys`
    * `trace_of_reaches`
-/

namespace CrudAuth

open Concurrency
open Concurrency.Program

namespace Runtime

variable {runtime : Runtime}
variable {request : Request}
variable {past : List Act}

------------------------------------------------------------
-- Handlers
------------------------------------------------------------

/- The routes that need the second factor. -/
theorem withMfa_obeys
    {serve : MfaConfig → Flow Response}
    {goal : List Act → Response → Prop}
    (hServe : ∀ config, runtime.mfa = some config →
      Obeys (runtime.contract request) past
        (serve config) (Returns goal)) :
    Obeys (runtime.contract request) past
      (runtime.withMfa serve) (Returns goal) := by
  unfold withMfa
  split
  · rename_i config hMfa
    exact hServe config hMfa
  · simp

/- The routes that need elevation. -/
theorem withSudo_obeys
    {serve : SudoConfig → Flow Response}
    {goal : List Act → Response → Prop}
    (hServe : ∀ config,
      Obeys (runtime.contract request) past
        (serve config) (Returns goal)) :
    Obeys (runtime.contract request) past
      (runtime.withSudo serve) (Returns goal) := by
  unfold withSudo
  split
  · exact hServe _
  · simp

/- The routes that need the emailed links. -/
theorem withEmails_obeys
    {serve : EmailFlows → Flow Response}
    {goal : List Act → Response → Prop}
    (hServe : ∀ flows,
      Obeys (runtime.contract request) past
        (serve flows) (Returns goal)) :
    Obeys (runtime.contract request) past
      (runtime.withEmails serve) (Returns goal) := by
  unfold withEmails
  split
  · exact hServe _
  · simp

/-
  A route behind `current_user`: what follows starts from
  the resolved principal and can count on its account.
-/
theorem behind_currentUser
    {credential : Credential}
    {rest : Principal → Flow Response}
    (hFirst : lastSelected past = none)
    (hSigned : ∀ past' id,
      runtime.Authenticated past' credential id →
      runtime.Entitled request past' id)
    (hRest : ∀ past' principal,
      runtime.Resolves past' credential principal →
      runtime.Entitled request past' principal.user.id →
      Obeys (runtime.contract request) past'
        (rest principal)
        (Returns fun past'' response =>
          runtime.Answered request past'' response)) :
    Obeys (runtime.contract request) past
      (Program.bind (runtime.currentUser credential) rest)
      (Returns fun past' response =>
        runtime.Answered request past' response) := by
  refine Obeys.andThen
    (currentUser_obeys fun _ => hFirst) ?_
  intro past' principal _ hResolves
  exact hRest past' principal hResolves
    (hSigned past' _ hResolves.signed)

/- A route that ends with a fixed kind of response. -/
theorem answers_entitled
    {α : Type}
    {flow : Flow α}
    {respond : α → Response}
    {id : UserId}
    (hEntitled : runtime.Entitled request past id)
    (hAnswered : ∀ past' value,
      runtime.Entitled request past' id →
      runtime.Answered request past' (respond value))
    (hFlow :
      Obeys (runtime.contract request) past flow
        (Returns fun _ _ => True)) :
    Obeys (runtime.contract request) past
      (Program.bind flow fun value =>
        .done (respond value))
      (Returns fun past' response =>
        runtime.Answered request past' response) := by
  refine Obeys.andThen hFlow ?_
  intro past' value hSuffix _
  simp only [obeys_done, returns_ok]
  exact hAnswered past' value (hEntitled.mono hSuffix)

/- The application changes a field of a row. -/
theorem changeField_obeys
    {id : UserId}
    {field : Field}
    {value : Option String}
    (hRequest : request = .changeField id field value)
    (hFirst : lastSelected past = none) :
    Obeys (runtime.contract request) past
      (runtime.changeField id field value)
      (Returns fun past' response =>
        runtime.Answered request past' response) := by
  refine obeys_step (fun _ => hFirst) fun found hAnswer => ?_
  cases found with
  | none => simp
  | some user =>
      have hId : user.id = id := by
        simpa [World.matchesSelector] using
          hAnswer user rfl
      subst hId
      have hEntitled {past' : List Act} :
          runtime.Entitled request past' user.id := by
        subst hRequest
        exact rfl
      have hWrite :
          runtime.Write request
            (⟨.select (.byId user.id), some user⟩ :: past)
            user (runtime.canonical
              (fieldPatch field value)) :=
        .field hRequest
      refine Obeys.andThen
        (update?_obeys rfl hEntitled hWrite) ?_
      intro past' updated _ _
      cases updated with
      | none => simp
      | some user' =>
          simp only [obeys_pure, returns_ok]
          exact ⟨user.id, hEntitled⟩

/- The response of every route says what it may say. -/
theorem serve_obeys
    (request : Request)
    (hFirst : lastSelected past = none) :
    Obeys (runtime.contract request) past
      (runtime.serve request)
      (Returns fun past' response =>
        runtime.Answered request past' response) := by
  cases request with
  | login transport ip identifier password options
      presented =>
      exact passwordLogin_obeys rfl hFirst
  | mfaVerify token code presented =>
      exact withMfa_obeys fun config hMfa =>
        completeChallenge_obeys hMfa rfl hFirst
  | refresh token =>
      refine Obeys.andThen
        (refreshAccess_obeys rfl hFirst) ?_
      intro past' access _ hEntitled
      simp only [obeys_pure, returns_ok]
      exact hEntitled
  | me credential =>
      refine behind_currentUser hFirst
        (fun _ _ hSigned => hSigned) ?_
      intro past' principal _ hEntitled
      simp only [obeys_pure, returns_ok]
      exact hEntitled
  | setPassword credential newPassword =>
      refine behind_currentUser hFirst
        (fun _ _ hSigned => hSigned) ?_
      intro past' principal hResolves hEntitled
      exact answers_entitled hEntitled
        (fun _ _ hKnown => ⟨_, hKnown⟩)
        (setPassword_obeys rfl hResolves.read hEntitled)
  | changePassword credential current newPassword =>
      refine behind_currentUser hFirst
        (fun _ _ hSigned => hSigned) ?_
      intro past' principal hResolves hEntitled
      refine Obeys.andThen
        (changePassword_obeys rfl hResolves hEntitled) ?_
      intro past'' _ _ hAnswered
      simp only [obeys_pure, returns_ok]
      exact hAnswered
  | totpSetup credential password =>
      refine withMfa_obeys fun config _ => ?_
      refine behind_currentUser hFirst
        (fun _ _ hSigned => hSigned) ?_
      intro past' principal hResolves hEntitled
      exact answers_entitled hEntitled
        (fun _ _ hKnown => ⟨_, hKnown⟩)
        (totpSetup_obeys hResolves.read hEntitled)
  | totpConfirm credential code =>
      refine withMfa_obeys fun config hMfa => ?_
      refine behind_currentUser hFirst
        (fun _ _ hSigned => hSigned) ?_
      intro past' principal hResolves hEntitled
      exact answers_entitled hEntitled
        (fun _ _ hKnown => ⟨_, hKnown⟩)
        (confirmSetup_obeys hMfa rfl hResolves.read
          hResolves.selected hEntitled)
  | totpDisable credential code =>
      refine withMfa_obeys fun config hMfa => ?_
      refine behind_currentUser hFirst
        (fun _ _ hSigned => hSigned) ?_
      intro past' principal hResolves hEntitled
      exact answers_entitled hEntitled
        (fun _ _ hKnown => ⟨_, hKnown⟩)
        (totpDisable_obeys hMfa rfl hResolves.read
          hEntitled)
  | regenerate credential code =>
      refine withMfa_obeys fun config hMfa => ?_
      refine behind_currentUser hFirst
        (fun _ _ hSigned => hSigned) ?_
      intro past' principal hResolves hEntitled
      exact answers_entitled hEntitled
        (fun _ _ hKnown => ⟨_, hKnown⟩)
        (regenerate_obeys hMfa rfl hResolves.read
          hEntitled)
  | elevate credential proof =>
      refine withSudo_obeys fun config => ?_
      refine behind_currentUser hFirst
        (fun _ _ hSigned => hSigned) ?_
      intro past' principal hResolves hEntitled
      exact answers_entitled hEntitled
        (fun _ _ hKnown => ⟨_, hKnown⟩)
        (elevate_obeys rfl hResolves hEntitled)
  | requestReset value =>
      refine withEmails_obeys fun flows => ?_
      refine Obeys.andThen
        (requestPasswordReset_obeys rfl fun _ => hFirst) ?_
      intro past' _ _ _
      simp [Answered]
  | resetPassword token newPassword =>
      refine withEmails_obeys fun flows => ?_
      refine Obeys.andThen
        (resetPassword_obeys rfl hFirst) ?_
      intro past' _ _ hAnswered
      simp only [obeys_pure, returns_ok]
      exact hAnswered
  | requestVerification value =>
      refine withEmails_obeys fun flows => ?_
      refine Obeys.andThen
        (requestRecoveryVerification_obeys rfl
          fun _ => hFirst) ?_
      intro past' _ _ _
      simp [Answered]
  | confirmVerification token =>
      refine withEmails_obeys fun flows => ?_
      refine Obeys.andThen
        (confirmRecoveryVerification_obeys rfl hFirst) ?_
      intro past' _ _ hEntitled
      simp only [obeys_pure, returns_ok]
      exact hEntitled
  | requestEmailChange credential newEmail password =>
      refine withEmails_obeys fun flows => ?_
      refine behind_currentUser hFirst
        (fun _ _ hSigned => hSigned) ?_
      intro past' principal hResolves hEntitled
      exact answers_entitled hEntitled
        (fun _ _ hKnown => ⟨_, hKnown⟩)
        (requestEmailChange_obeys rfl hResolves.read
          hEntitled)
  | confirmEmailChange token =>
      refine withEmails_obeys fun flows => ?_
      refine Obeys.andThen
        (confirmEmailChange_obeys rfl) ?_
      intro past' _ _ hEntitled
      simp only [obeys_pure, returns_ok]
      exact hEntitled
  | oauthCallback info presented =>
      exact oauthCallback_obeys rfl
  | changeField id field value =>
      exact changeField_obeys rfl hFirst

/- A whole handler, its errors turned into refusals. -/
theorem handle_obeys (request : Request) :
    Obeys (runtime.contract request) []
      (runtime.handle request) (fun _ _ => True) := by
  refine obeys_step ⟨rfl, rfl⟩ fun _ _ => ?_
  have hServed :
      Obeys (runtime.contract request)
        [⟨.arrive request, ()⟩] (runtime.serve request)
        (Returns fun past' response =>
          runtime.Answered request past' response) :=
    serve_obeys request rfl
  have hAttempt :
      Obeys (runtime.contract request)
        [⟨.arrive request, ()⟩]
        (runtime.serve request).attempt
        (fun past' result => ∀ response,
          result = .ok (.ok response) →
            runtime.Answered request past' response) := by
    refine Obeys.attempt hServed ?_
    rintro past' result _ hReturns response ⟨rfl⟩
    exact hReturns response rfl
  refine Obeys.bind hAttempt ?_ (fun _ _ _ _ => trivial)
  intro past' result _ hPost
  cases result with
  | ok response =>
      exact obeys_call (hPost response rfl)
        fun _ _ => trivial
  | error error =>
      exact obeys_call trivial fun _ _ => trivial

------------------------------------------------------------
-- Runs
------------------------------------------------------------

variable {ι : Type} [DecidableEq ι]
variable {requests : ι → Request}
variable {condition : Condition ι interface World}
variable {start : World}

/- Configurations of an application from a start. -/
abbrev Reachable
    (runtime : Runtime)
    (requests : ι → Request)
    (condition : Condition ι interface World)
    (start : World)
    (config : Config ι interface World HttpError Unit) :
    Prop :=
  Reaches machine condition
    ⟨start, [], runtime.pool requests⟩ config

/- Histories of an application, its programs forgotten. -/
abbrev Runs
    (runtime : Runtime)
    (requests : ι → Request)
    (condition : Condition ι interface World)
    (start : World)
    (opening : List (Ev ι)) :
    World → List (Ev ι) → Prop :=
  Trace machine (fun thread =>
    runtime.contract (requests thread)) condition start
    opening

/- Whatever the environment does, a run is a trace. -/
theorem trace_of_reaches
    {τ : Type}
    {tick : τ → World → World}
    {config : Config ι interface World HttpError Unit}
    (hReaches :
      Reaches (served tick) condition
        ⟨start, [], runtime.pool requests⟩ config) :
    Trace (served tick)
      (fun thread => runtime.contract (requests thread))
      condition start [] config.state config.history := by
  have hObeys (thread : ι) :
      (runtime.pool requests thread).Obeys
        (runtime.contract (requests thread)) []
        (fun _ _ => True) :=
    handle_obeys (requests thread)
  exact Reaches.trace hObeys
    (fun _ op state => answers_exec op state) hReaches

/- What is left of every handler keeps its contract. -/
theorem obeys_of_reachable
    {config : Config ι interface World HttpError Unit}
    (hReachable :
      runtime.Reachable requests condition start config)
    (thread : ι) :
    (config.pool thread).Obeys
      (runtime.contract (requests thread))
      (own thread config.history) (fun _ _ => True) :=
  Reaches.obeys
    (fun thread => handle_obeys (requests thread))
    (fun _ op state => answers_exec op state)
    hReachable thread

/- A configuration reached is a run of the world. -/
theorem runs_of_reachable
    {config : Config ι interface World HttpError Unit}
    (hReachable :
      runtime.Reachable requests condition start config) :
    runtime.Runs requests condition start []
      config.state config.history :=
  trace_of_reaches hReachable

/- A run that goes on is a trace that goes on. -/
theorem runs_of_reaches
    {config config' :
      Config ι interface World HttpError Unit}
    (hReachable :
      runtime.Reachable requests condition start config)
    (hReaches : Reaches machine condition config config') :
    runtime.Runs requests condition config.state
      config.history config'.state config'.history :=
  Reaches.trace (obeys_of_reachable hReachable)
    (fun _ op state => answers_exec op state) hReaches

/- The next operation of a thread keeps its contract. -/
theorem rule_of_next
    {config : Config ι interface World HttpError Unit}
    {thread : ι}
    {op : Op}
    (hReachable :
      runtime.Reachable requests condition start config)
    (hNext : config.next? thread = some op) :
    runtime.rule (requests thread)
      (own thread config.history) op := by
  have hObeys := obeys_of_reachable hReachable thread
  rcases Config.next?_eq_some.mp hNext with ⟨next, hPool⟩
  rw [hPool] at hObeys
  exact hObeys.1

end Runtime

end CrudAuth
