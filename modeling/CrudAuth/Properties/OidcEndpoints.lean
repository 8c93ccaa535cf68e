import CrudAuth.OAuth.Discovery

/-
  Where a provider's requests go: to endpoints it was built
  with, or to those of a document that was fetched from its
  issuer and that declares this issuer, however first calls
  of `initialize` and other calls run into each other.

  The fields are assigned together, so the endpoints in use
  are those of one document.

  Main declarations:
    * `Discovered`
    * `Trusted`
    * `WellDirected`
    * `provider_of_runs`
    * `wellDirected_of_reaches`
-/

namespace CrudAuth

namespace Oidc

open Concurrency
open Registration
open UrlParser (Text ascii)

------------------------------------------------------------
-- The Property
------------------------------------------------------------

section Property

variable {ι : Type}

/- A step of one of the callers. -/
abbrev Request (ι : Type) := Event ι providerOps

/- All of them, the last one first. -/
abbrev Requests (ι : Type) := List (Request ι)

variable (client : Client)

/- The issuer has answered with this document. -/
def Discovered
    (history : Requests ι)
    (document : Document) : Prop :=
  ∃ thread json,
    (⟨thread, .fetchDocument client.discoveryUrl,
      some json⟩ : Request ι) ∈ history ∧
    client.accept json = .ok document

/-
  All endpoints were given to the constructor, this one
  among them; or a discovered document names it.
-/
def Trusted
    (start : Provider)
    (history : Requests ι)
    (key : Text)
    (given endpoint : Json) : Prop :=
  (start.resolved = true ∧ endpoint = given) ∨
    (start.resolved = false ∧
      ∃ document, Discovered client history document ∧
        document.get key = some endpoint ∧
        endpoint.truthy = true)

/- The document advertises HTTP Basic, and no other. -/
def OnlyBasic (document : Document) : Prop :=
  ∃ supported,
    document.get authMethods = some (.list supported) ∧
    advertises .basic supported = true ∧
    advertises .post supported = false

/- The field of a form that carries the secret. -/
def secretField : Text := ascii "client_secret"

variable [DecidableEq ι]

/- The provider as built, and the calls that are made. -/
def begun
    (start : Provider)
    (answer : Option Json)
    (calls : ι → ProviderCall) :
    Config ι providerOps World OidcError Reply where
  state := ⟨start, answer, 0⟩
  history := []
  pool := fun thread => (calls thread).perform client

/-
  What goes over the network, and what comes of it.

  `secret`: a code exchange carries the client secret once,
  as Basic credentials where a document has asked for that,
  and else in its form; a public client has none to send.
-/
structure WellDirected
    (start : Provider)
    (config :
      Config ι providerOps World OidcError Reply) :
    Prop where
  fetched : ∀ thread url answer,
    (⟨thread, .fetchDocument url, answer⟩ : Request ι) ∈
        config.history →
      url = client.discoveryUrl ∧ start.resolved = false
  exchanged : ∀ thread request sent,
    (⟨thread, .postToken request, sent⟩ : Request ι) ∈
        config.history →
      Trusted client start config.history tokenEndpoint
        start.tokenEndpoint sent.1
  secret : ∀ thread request sent,
    (⟨thread, .postToken request, sent⟩ : Request ι) ∈
        config.history →
      if client.clientSecret = [] then
        request.auth = none ∧
          request.form.get secretField = none
      else
        (request.auth = none ∧
          request.form.get secretField =
            some client.clientSecret) ∨
        (request.auth =
            some (client.clientId, client.clientSecret) ∧
          request.form.get secretField = none ∧
          ∃ document,
            Discovered client config.history document ∧
              OnlyBasic document)
  profiled : ∀ thread accessToken sent,
    (⟨thread, .getUserInfo accessToken, sent⟩ :
      Request ι) ∈ config.history →
      Trusted client start config.history userinfoEndpoint
        start.userinfoEndpoint sent.1
  authorized : ∀ thread authorization,
    config.pool thread =
        .done (.authorization authorization) →
      Trusted client start config.history
        authorizationEndpoint start.authorizeEndpoint
        authorization.endpoint
  whole :
    config.state.provider = start ∨
      ∃ document,
        Discovered client config.history document ∧
          config.state.provider = client.resolvedBy document
  initialized : ∀ thread,
    config.pool thread = .done .initialized →
      config.state.provider.resolved = true
  refused : ∀ thread error document,
    config.pool thread = .raise error →
      (⟨thread, .resolve document, ()⟩ : Request ι) ∉
        config.history
  settled : ∀ thread later earlier other document url answer,
    config.history = later ++ earlier →
    own thread earlier = [] →
    (⟨other, .resolve document, ()⟩ : Request ι) ∈ earlier →
      (⟨thread, .fetchDocument url, answer⟩ : Request ι) ∉
        config.history

end Property

------------------------------------------------------------
-- Documents And Requests
------------------------------------------------------------

section Documents

variable {client : Client}
variable {document : Document}
variable {json : Json}

/- An accepted document lacks nothing. -/
theorem missing_of_accept
    (hAccept : client.accept json = .ok document) :
    missing document = [] := by
  unfold Client.accept at hAccept
  split at hAccept
  · split at hAccept
    · cases hAccept
    · split at hAccept
      · cases hAccept
      · rename_i hMissing
        cases hAccept
        exact not_not.mp hMissing
  · cases hAccept

/- An accepted document has every endpoint. -/
theorem endpoint_of_accept
    {key : Text}
    (hAccept : client.accept json = .ok document)
    (hKey : key ∈ requiredEndpoints) :
    document.get key = some (endpointOf document key) ∧
      (endpointOf document key).truthy = true := by
  have hNone := missing_of_accept hAccept
  have hKeep := List.filter_eq_nil_iff.mp hNone key hKey
  unfold endpointOf
  cases hFound : document.get key with
  | none =>
      rw [hFound] at hKeep
      exact absurd rfl hKeep
  | some endpoint =>
      rw [hFound] at hKeep
      refine ⟨rfl, ?_⟩
      simpa using hKeep

/- Basic is picked where it is the only offer. -/
theorem onlyBasic_of_pick
    (hPick : client.pickTokenAuth document = .basic) :
    OnlyBasic document := by
  unfold Client.pickTokenAuth at hPick
  split at hPick
  · rename_i supported hSupported
    split at hPick
    · cases hPick
    · split at hPick
      · cases hPick
      · rename_i hPost
        split at hPick
        · rename_i hBasic
          exact ⟨supported, hSupported, hBasic,
            Bool.not_eq_true _ ▸ hPost⟩
        · cases hPick
  · cases hPick

end Documents

------------------------------------------------------------
-- Runs
------------------------------------------------------------

section Runs

variable {ι : Type} [DecidableEq ι]
variable {client : Client}
variable {values : Nat → Text}
variable {start : Provider}
variable {answer : Option Json}
variable {world : World}
variable {history earlier : Requests ι}
variable {thread : ι}

/- Every request of a run keeps to the contract. -/
abbrev Runs
    (client : Client)
    (values : Nat → Text)
    (start : Provider)
    (answer : Option Json)
    (world : World)
    (history : Requests ι) : Prop :=
  Trace (machine client values) (fun _ => client.contract)
    anyStep ⟨start, answer, 0⟩ [] world history

/- A document stays discovered. -/
omit [DecidableEq ι] in
theorem Discovered.mono
    {document : Document}
    (hDiscovered : Discovered client earlier document)
    (hSubset : earlier ⊆ history) :
    Discovered client history document := by
  obtain ⟨fetcher, json, hFetched, hAccept⟩ := hDiscovered
  exact ⟨fetcher, json, hSubset hFetched, hAccept⟩

/- An endpoint stays trusted. -/
omit [DecidableEq ι] in
theorem Trusted.mono
    {key : Text}
    {given endpoint : Json}
    (hTrusted :
      Trusted client start earlier key given endpoint)
    (hSubset : earlier ⊆ history) :
    Trusted client start history key given endpoint := by
  rcases hTrusted with
    hGiven | ⟨hUnresolved, document, hDiscovered, hEndpoint⟩
  · exact Or.inl hGiven
  · exact Or.inr ⟨hUnresolved, document,
      hDiscovered.mono hSubset, hEndpoint⟩

/- The provider is as built, or as one document has it. -/
structure Origin
    (client : Client)
    (start : Provider)
    (world : World)
    (history : Requests ι) : Prop where
  provider :
    world.provider = start ∨
      (start.resolved = false ∧
        ∃ document, Discovered client history document ∧
          world.provider = client.resolvedBy document)
  found : ∀ thread,
    (⟨thread, .isResolved, false⟩ : Request ι) ∈ history →
      start.resolved = false

omit [DecidableEq ι] in
/- An operation that assigns nothing keeps the origin. -/
theorem Origin.cons
    {event : Request ι}
    {after : World}
    (hOrigin : Origin client start world history)
    (hSame : after.provider = world.provider)
    (hFound : ∀ thread,
      event = ⟨thread, .isResolved, false⟩ →
        start.resolved = false) :
    Origin client start after (event :: history) := by
  constructor
  · rw [hSame]
    rcases hOrigin.provider with
      hStart | ⟨hUnresolved, document, hDiscovered, hIs⟩
    · exact Or.inl hStart
    · exact Or.inr ⟨hUnresolved, document,
        hDiscovered.mono (List.subset_cons_self _ _), hIs⟩
  · intro thread hEvent
    rcases List.mem_cons.mp hEvent with hNew | hOld
    · exact hFound thread hNew.symm
    · exact hOrigin.found thread hOld

/- Before a fetch, the provider was found unresolved. -/
theorem found_of_fetch
    {url : Text}
    {fetched : Option Json}
    (hRuns : Runs client values start answer world history)
    (hFetch :
      (⟨thread, .fetchDocument url, fetched⟩ : Request ι) ∈
        history) :
    url = client.discoveryUrl ∧
      (⟨thread, .isResolved, false⟩ : Request ι) ∈
        history := by
  obtain ⟨before, earlier, hSuffix, -, ⟨hUrl, hFound⟩, -⟩ :=
    hRuns.at_member hFetch
  exact ⟨hUrl, hSuffix.subset (mem_own_iff.mp hFound)⟩

/- Every provider field has its origin. -/
theorem provider_of_runs
    (hRuns : Runs client values start answer world history) :
    Origin client start world history := by
  apply hRuns.invariant (Origin client start)
  · constructor
    · exact Or.inl rfl
    · intro thread hEvent
      cases hEvent
  · intro before history active op hBefore hRule _ hOrigin
    cases op with
    | isResolved =>
        apply hOrigin.cons rfl
        intro thread hSame
        have hFalse : before.provider.resolved = false := by
          injection hSame
        rcases hOrigin.provider with
          hStart | ⟨hUnresolved, -⟩
        · rw [← hStart]
          exact hFalse
        · exact hUnresolved
    | resolve document =>
        obtain ⟨json, hOwn, hAccept⟩ := hRule
        have hFetched := mem_own_iff.mp hOwn
        have hUnresolved := hOrigin.found active
          (found_of_fetch hBefore hFetched).2
        have hDiscovered : Discovered client
            (⟨active, .resolve document, ()⟩ :: history)
            document :=
          ⟨active, json, List.mem_cons_of_mem _ hFetched,
            hAccept⟩
        constructor
        · exact Or.inr
            ⟨hUnresolved, document, hDiscovered, rfl⟩
        · intro thread hEvent
          rcases List.mem_cons.mp hEvent with hSame | hOld
          · cases hSame
          · exact hOrigin.found thread hOld
    | fetchDocument url =>
        exact hOrigin.cons rfl fun _ hSame => by cases hSame
    | readProvider =>
        exact hOrigin.cons rfl fun _ hSame => by cases hSame
    | drawState =>
        exact hOrigin.cons rfl fun _ hSame => by cases hSame
    | drawVerifier =>
        exact hOrigin.cons rfl fun _ hSame => by cases hSame
    | postToken request =>
        exact hOrigin.cons rfl fun _ hSame => by cases hSame
    | getUserInfo accessToken =>
        exact hOrigin.cons rfl fun _ hSame => by cases hSame
  · intro before history tick hOrigin
    exact ⟨hOrigin.provider, hOrigin.found⟩

/- A provider that is resolved stays resolved. -/
theorem resolved_of_trace
    {before : World}
    {opening : Requests ι}
    (hTrace : Trace (machine client values)
      (fun _ => client.contract) anyStep before opening
      world history)
    (hResolved : before.provider.resolved = true) :
    world.provider.resolved = true := by
  apply hTrace.invariant
    (fun world _ => world.provider.resolved = true) hResolved
  · intro before history active op _ _ _ hBefore
    cases op with
    | resolve document => rfl
    | _ => exact hBefore
  · intro before history tick hBefore
    exact hBefore

/- What has been read is what the provider was. -/
theorem read_of_runs
    {provider : Provider}
    (hRuns : Runs client values start answer world history)
    (hRead :
      (⟨thread, .readProvider, provider⟩ : Request ι) ∈
        history) :
    ∃ before earlier,
      earlier ⊆ history ∧
      Origin client start before earlier ∧
      before.provider = provider ∧
      (provider.resolved = true →
        world.provider.resolved = true) := by
  obtain ⟨later, earlier, rfl⟩ := List.append_of_mem hRead
  obtain ⟨before, hBefore, -, -, hRet, -, hAfter⟩ :=
    hRuns.at_event
  have hIs : provider = before.provider := hRet
  refine ⟨before, earlier, ?_, provider_of_runs hBefore,
    hIs.symm, fun hResolved => ?_⟩
  · exact (suffix_of_split later _ earlier).subset
  · rw [hIs] at hResolved
    exact resolved_of_trace hAfter hResolved

omit [DecidableEq ι] in
/- The endpoints of a resolved provider are trusted. -/
theorem Origin.trusted
    {key : Text}
    (field : Provider → Json)
    (hKey : key ∈ requiredEndpoints)
    (hField : ∀ document,
      field (client.resolvedBy document) =
        endpointOf document key)
    (hOrigin : Origin client start world history)
    (hResolved : world.provider.resolved = true) :
    Trusted client start history key (field start)
      (field world.provider) := by
  rcases hOrigin.provider with
    hStart | ⟨hUnresolved, document, hDiscovered, hIs⟩
  · rw [hStart] at hResolved ⊢
    exact Or.inl ⟨hResolved, rfl⟩
  · obtain ⟨fetcher, json, hFetched, hAccept⟩ := hDiscovered
    obtain ⟨hGet, hTruthy⟩ := endpoint_of_accept hAccept hKey
    rw [hIs, hField]
    exact Or.inr ⟨hUnresolved, document,
      ⟨fetcher, json, hFetched, hAccept⟩, hGet, hTruthy⟩

/- A request is made by a provider that has been ready. -/
theorem request_of_runs
    {op : Op}
    {ret : op.Ret}
    {key : Text}
    {endpoint : Json}
    (field : Provider → Json)
    (hRuns : Runs client values start answer world history)
    (hMade : (⟨thread, op, ret⟩ : Request ι) ∈ history)
    (hReady : ∀ past, client.contract.rule past op →
      ∃ provider, ReadReady past provider)
    (hKey : key ∈ requiredEndpoints)
    (hField : ∀ document,
      field (client.resolvedBy document) =
        endpointOf document key)
    (hSent : ∀ before : World,
      ret = (exec client values op before).1 →
        endpoint = field before.provider) :
    Trusted client start history key (field start)
      endpoint := by
  obtain ⟨before, earlier, hSuffix, hBefore, hRule, -,
    hRet⟩ := hRuns.at_member hMade
  obtain ⟨provider, hRead, hResolved⟩ := hReady _ hRule
  obtain ⟨-, -, -, -, -, hStays⟩ :=
    read_of_runs hBefore (mem_own_iff.mp hRead)
  rw [hSent before hRet]
  exact ((provider_of_runs hBefore).trusted field hKey hField
    (hStays hResolved)).mono hSuffix.subset

end Runs

------------------------------------------------------------
-- Secrets
------------------------------------------------------------

section Secrets

variable {client : Client}
variable {code : Text}
variable {codeVerifier : Option Text}
variable {headers : Dict Text Text}

/- The verifier goes beside the secret. -/
theorem get_withVerifier (data : Dict Text Text) :
    (Client.withVerifier codeVerifier data).get secretField =
      data.get secretField := by
  unfold Client.withVerifier
  split
  · rfl
  · split
    · rfl
    · rw [Dict.get_set, if_neg (by decide)]

/- A public client sends no secret. -/
theorem tokenRequest_public
    {method : TokenAuth}
    (hPublic : client.clientSecret = []) :
    let request :=
      client.tokenRequest method code codeVerifier headers
    request.auth = none ∧
      request.form.get secretField = none := by
  unfold Client.tokenRequest
  rw [hPublic]
  refine ⟨rfl, ?_⟩
  exact (get_withVerifier _).trans rfl

/- The secret is sent in the body. -/
theorem tokenRequest_post
    (hSecret : client.clientSecret ≠ []) :
    let request :=
      client.tokenRequest .post code codeVerifier headers
    request.auth = none ∧
      request.form.get secretField =
        some client.clientSecret := by
  have hFull : client.clientSecret.isEmpty = false :=
    List.isEmpty_eq_false_iff.mpr hSecret
  unfold Client.tokenRequest
  simp only [hFull]
  refine ⟨rfl, ?_⟩
  exact (get_withVerifier _).trans
    (Dict.get_set.trans (if_pos rfl))

/- The secret is sent in the header. -/
theorem tokenRequest_basic
    (hSecret : client.clientSecret ≠ []) :
    let request :=
      client.tokenRequest .basic code codeVerifier headers
    request.auth =
        some (client.clientId, client.clientSecret) ∧
      request.form.get secretField = none := by
  have hFull : client.clientSecret.isEmpty = false :=
    List.isEmpty_eq_false_iff.mpr hSecret
  unfold Client.tokenRequest
  simp only [hFull]
  refine ⟨rfl, ?_⟩
  exact (get_withVerifier _).trans rfl

end Secrets

------------------------------------------------------------
-- Every Run
------------------------------------------------------------

section Reached

variable {ι : Type} [DecidableEq ι]
variable {client : Client}
variable {values : Nat → Text}
variable {start : Provider}
variable {answer : Option Json}
variable {calls : ι → ProviderCall}
variable {config :
  Config ι providerOps World OidcError Reply}
variable {world : World}
variable {history : Requests ι}
variable {thread : ι}

/- A configuration reached is a run. -/
theorem runs_of_reaches
    (hReaches : Reaches (machine client values) anyStep
      (begun client start answer calls) config) :
    Runs client values start answer config.state
      config.history :=
  hReaches.trace
    (fun thread => (calls thread).perform_obeys)
    fun _ _ _ => trivial

/- A call that is done has ended as it answers. -/
theorem ended_of_reaches
    {reply : Reply}
    (hReaches : Reaches (machine client values) anyStep
      (begun client start answer calls) config)
    (hDone : config.pool thread = .done reply) :
    Ended (own thread config.history) (.ok reply) := by
  have hEnds := hReaches.obeys
    (fun thread => (calls thread).perform_obeys)
    (fun _ _ _ => trivial) thread
  rw [hDone] at hEnds
  exact hEnds

/- A call that raised left the provider alone. -/
theorem refused_of_reaches
    {error : OidcError}
    (hReaches : Reaches (machine client values) anyStep
      (begun client start answer calls) config)
    (hRaised : config.pool thread = .raise error) :
    Untouched (own thread config.history) := by
  have hEnds := hReaches.obeys
    (fun thread => (calls thread).perform_obeys)
    (fun _ _ _ => trivial) thread
  rw [hRaised] at hEnds
  exact hEnds

/- After a discovery the provider is resolved. -/
theorem resolved_of_initialized
    (hRuns : Runs client values start answer world history)
    (hInitialized : Initialized (own thread history)) :
    world.provider.resolved = true := by
  rcases hInitialized with hFound | ⟨document, hResolved⟩
  · obtain ⟨later, earlier, rfl⟩ :=
      List.append_of_mem (mem_own_iff.mp hFound)
    obtain ⟨before, -, -, -, hRet, -, hAfter⟩ :=
      hRuns.at_event
    have hBefore : true = before.provider.resolved := hRet
    exact resolved_of_trace hAfter hBefore.symm
  · obtain ⟨later, earlier, rfl⟩ :=
      List.append_of_mem (mem_own_iff.mp hResolved)
    obtain ⟨before, -, -, -, -, -, hAfter⟩ :=
      hRuns.at_event
    exact resolved_of_trace hAfter rfl

/- Once it is resolved, a new call fetches nothing. -/
theorem settled_of_runs
    {later earlier : Requests ι}
    {other : ι}
    {document : Document}
    {url : Text}
    {fetched : Option Json}
    (hRuns : Runs client values start answer world
      (later ++ earlier))
    (hNew : own thread earlier = [])
    (hResolved :
      (⟨other, .resolve document, ()⟩ : Request ι) ∈
        earlier) :
    (⟨thread, .fetchDocument url, fetched⟩ : Request ι) ∉
      later ++ earlier := by
  intro hFetch
  have hFound := (found_of_fetch hRuns hFetch).2
  have hLater :
      (⟨thread, .isResolved, false⟩ :
        Request ι) ∈ later := by
    rcases List.mem_append.mp hFound with hLater | hEarlier
    · exact hLater
    · have hNone :
          (⟨.isResolved, false⟩ : Action providerOps) ∈
            own thread earlier :=
        mem_own_iff.mpr hEarlier
      rw [hNew] at hNone
      cases hNone
  obtain ⟨newer, between, rfl⟩ := List.append_of_mem hLater
  rw [List.append_assoc, List.cons_append] at hRuns
  obtain ⟨before, hBefore, -, -, hRet, -⟩ := hRuns.at_event
  have hUnresolved : false = before.provider.resolved := hRet
  have hIn : Initialized (own other (between ++ earlier)) :=
    Or.inr ⟨document,
      mem_own_iff.mpr (List.mem_append_right _ hResolved)⟩
  rw [resolved_of_initialized hBefore hIn] at hUnresolved
  cases hUnresolved

/- How the secret goes out with a code. -/
theorem secret_of_runs
    {request : TokenRequest}
    {sent : Json × Option Json}
    (hRuns : Runs client values start answer world history)
    (hPost : start.tokenAuthMethod = .post)
    (hMade :
      (⟨thread, .postToken request, sent⟩ : Request ι) ∈
        history) :
    if client.clientSecret = [] then
      request.auth = none ∧
        request.form.get secretField = none
    else
      (request.auth = none ∧
        request.form.get secretField =
          some client.clientSecret) ∨
      (request.auth =
          some (client.clientId, client.clientSecret) ∧
        request.form.get secretField = none ∧
        ∃ document,
          Discovered client history document ∧
            OnlyBasic document) := by
  obtain ⟨before, earlier, hSuffix, hBefore, hRule, -⟩ :=
    hRuns.at_member hMade
  obtain ⟨provider, code, codeVerifier, headers,
    ⟨hOwn, -⟩, rfl⟩ := hRule
  obtain ⟨moment, older, hOlder, hOrigin, rfl, -⟩ :=
    read_of_runs hBefore (mem_own_iff.mp hOwn)
  split
  · rename_i hPublic
    exact tokenRequest_public hPublic
  · rename_i hSecret
    cases hMethod : moment.provider.tokenAuthMethod with
    | post => exact Or.inl (tokenRequest_post hSecret)
    | basic =>
        obtain ⟨hAuth, hForm⟩ := tokenRequest_basic hSecret
        refine Or.inr ⟨hAuth, hForm, ?_⟩
        rcases hOrigin.provider with
          hStart | ⟨-, document, hDiscovered, hIs⟩
        · rw [hStart, hPost] at hMethod
          cases hMethod
        · rw [hIs] at hMethod
          exact ⟨document,
            hDiscovered.mono
              (List.Subset.trans hOlder hSuffix.subset),
            onlyBasic_of_pick hMethod⟩

/-
  However the calls of a provider run into each other, and
  whatever the network answers, its requests are directed
  well.
-/
theorem wellDirected_of_reaches
    {authorize token userinfo : Text}
    (hReaches : Reaches (machine client values) anyStep
      (begun client (constructed authorize token userinfo)
        answer calls) config) :
    WellDirected client
      (constructed authorize token userinfo) config := by
  have hRuns := runs_of_reaches hReaches
  constructor
  · intro thread url fetched hFetch
    obtain ⟨hUrl, hFound⟩ := found_of_fetch hRuns hFetch
    exact ⟨hUrl,
      (provider_of_runs hRuns).found thread hFound⟩
  · intro thread request sent hMade
    apply request_of_runs Provider.tokenEndpoint hRuns hMade
    · rintro past ⟨provider, _, _, _, hReady, -⟩
      exact ⟨provider, hReady⟩
    · decide
    · intro _
      rfl
    · intro before hRet
      rw [hRet]
      rfl
  · intro thread request sent hMade
    exact secret_of_runs hRuns rfl hMade
  · intro thread accessToken sent hMade
    apply request_of_runs Provider.userinfoEndpoint hRuns
      hMade
    · rintro past ⟨provider, hReady⟩
      exact ⟨provider, hReady⟩
    · decide
    · intro _
      rfl
    · intro before hRet
      rw [hRet]
      rfl
  · intro thread authorization hDone
    obtain ⟨provider, ⟨hOwn, hReady⟩, hEndpoint⟩ :=
      ended_of_reaches hReaches hDone
    obtain ⟨before, earlier, hSubset, hOrigin, rfl, -⟩ :=
      read_of_runs hRuns (mem_own_iff.mp hOwn)
    rw [hEndpoint]
    exact (hOrigin.trusted Provider.authorizeEndpoint
      (by decide) (fun _ => rfl) hReady).mono hSubset
  · rcases (provider_of_runs hRuns).provider with
      hStart | ⟨-, document, hDiscovered, hIs⟩
    · exact Or.inl hStart
    · exact Or.inr ⟨document, hDiscovered, hIs⟩
  · intro thread hDone
    exact resolved_of_initialized hRuns
      (ended_of_reaches hReaches hDone)
  · intro thread error document hRaised hResolved
    exact refused_of_reaches hReaches hRaised document
      (mem_own_iff.mpr hResolved)
  · intro thread later earlier other document url fetched
      hHistory hNew hResolved
    rw [hHistory] at hRuns ⊢
    exact settled_of_runs hRuns hNew hResolved

end Reached

------------------------------------------------------------
-- Two First Calls
------------------------------------------------------------

namespace Starting

/- A client of one issuer. -/
def client : Client where
  clientId := ascii "app"
  clientSecret := ascii "s3cret"
  redirectUri := ascii "https://app.example/callback"
  scopes := [ascii "openid"]
  issuer := ascii "https://sso.example"
  providerName := ascii "sso"
  str := fun _ => []
  challenge := id

/- A document of the issuer, with endpoints of a host. -/
def document (host : String) (methods : List Json) : Json :=
  .object
    [(issuerKey, .text (ascii "https://sso.example/")),
      (authorizationEndpoint,
        .text (ascii (host ++ "/authorize"))),
      (tokenEndpoint, .text (ascii (host ++ "/token"))),
      (userinfoEndpoint,
        .text (ascii (host ++ "/userinfo"))),
      (authMethods, .list methods)]

/- A document that asks for Basic credentials. -/
def old : Json :=
  document "https://old.example"
    [.text (ascii "client_secret_basic")]

/- A document that asks for the form. -/
def new : Json :=
  document "https://new.example"
    [.text (ascii "client_secret_post")]

/- Two who initialize, and one who exchanges a code. -/
inductive Caller where
  | first
  | second
  | exchange
deriving DecidableEq

/- What each of them calls. -/
def calls : Caller → ProviderCall
  | .first => .initializeProvider
  | .second => .initializeProvider
  | .exchange => .exchangeCode (ascii "code") none []

/- Random values that are all different. -/
def values (drawn : Nat) : Text := [drawn]

/- The second document arrives while a code is exchanged. -/
def schedule :
    List (Choice Caller (machine client values).Tick) :=
  [.thread .first, .thread .second, .tick (some old),
    .thread .first, .tick (some new), .thread .second,
    .thread .first, .thread .exchange, .thread .second,
    .thread .exchange]

/- The run, if its schedule can be followed. -/
def started? :=
  Config.run (machine client values) anyStep
    (begun client (constructed [] [] []) none calls) schedule

theorem started_ends : started?.isSome = true := by
  decide

/- A first redirect is well directed. -/
theorem started_wellDirected :
    WellDirected client (constructed [] [] [])
      (started?.get started_ends) :=
  wellDirected_of_reaches
    (Reaches.of_run (Option.some_get started_ends).symm)

end Starting

end Oidc

end CrudAuth
