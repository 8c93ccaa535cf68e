import CrudAuth.Concurrency.Interleaving
import CrudAuth.Registration.Dict
import CrudAuth.Utils.UrlParser
import Mathlib.Data.List.DropRight

/-
  An OAuth provider that learns its endpoints from the
  discovery document of its issuer, and the calls that use
  them.

  A call waits for the network between its check and what
  follows, and other calls of the provider run meanwhile.

  Main declarations:
    * `Provider`
    * `Client.accept`
    * `Client.resolvedBy`
    * `Client.initializeProvider`
    * `Client.exchangeCode`
    * `ProviderCall`
    * `Client.contract`
    * `ProviderCall.perform_obeys`
-/

namespace CrudAuth

namespace Oidc

open Concurrency
open Concurrency.Program
open Registration
open UrlParser (Text ascii slash)

------------------------------------------------------------
-- Documents
------------------------------------------------------------

/- A JSON value. -/
inductive Json where
  | null
  | bool (value : Bool)
  | number (value : Int)
  | text (value : Text)
  | list (items : List Json)
  | object (fields : List (Text × Json))

/- What counts as true in a condition. -/
def Json.truthy : Json → Bool
  | .null => false
  | .bool value => value
  | .number value => value != 0
  | .text value => !value.isEmpty
  | .list items => !items.isEmpty
  | .object fields => !fields.isEmpty

/- A value is just this text. -/
def Json.isText (text : Text) : Json → Bool
  | .text value => value == text
  | _ => false

/- A discovery document, as the JSON object it is. -/
abbrev Document := Dict Text Json

/- Where an issuer publishes its document. -/
def discoveryPath : Text :=
  ascii "/.well-known/openid-configuration"

/- The field that declares the issuer. -/
def issuerKey : Text := ascii "issuer"

/- The field of the authorization endpoint. -/
def authorizationEndpoint : Text :=
  ascii "authorization_endpoint"

/- The field of the token endpoint. -/
def tokenEndpoint : Text := ascii "token_endpoint"

/- The field of the endpoint for profiles. -/
def userinfoEndpoint : Text := ascii "userinfo_endpoint"

/- The field that lists how clients may authenticate. -/
def authMethods : Text :=
  ascii "token_endpoint_auth_methods_supported"

/- The endpoints that a document has to declare. -/
def requiredEndpoints : List Text :=
  [authorizationEndpoint, tokenEndpoint, userinfoEndpoint]

/- The required endpoints that a document lacks. -/
def missing (document : Document) : List Text :=
  requiredEndpoints.filter fun key =>
    !(document.get key).any Json.truthy

/- `document[key]`, for a key that is there. -/
def endpointOf (document : Document) (key : Text) : Json :=
  (document.get key).getD .null

/- How the client's secret is sent to the token endpoint. -/
inductive TokenAuth where
  | post
  | basic
deriving DecidableEq, Repr

/- The name of the method in a document. -/
def TokenAuth.value : TokenAuth → Text
  | .post => ascii "client_secret_post"
  | .basic => ascii "client_secret_basic"

/- The list of a document has the method. -/
def advertises (method : TokenAuth) (supported : List Json) :
    Bool :=
  supported.any (Json.isText method.value)

------------------------------------------------------------
-- Providers
------------------------------------------------------------

/-
  What is fixed at construction.  `str` is what Python makes
  of a value that is no string; `challenge` hashes a PKCE
  verifier.
-/
structure Client where
  clientId : Text
  clientSecret : Text
  redirectUri : Text
  scopes : List Text
  issuer : Text
  providerName : Text
  str : Json → Text
  challenge : Text → Text

/- What `initialize` assigns. -/
structure Provider where
  authorizeEndpoint : Json
  tokenEndpoint : Json
  userinfoEndpoint : Json
  tokenAuthMethod : TokenAuth
  discoveryDocument : Document
  resolved : Bool

/- With all three endpoints given, there is no discovery. -/
def constructed (authorize token userinfo : Text) :
    Provider where
  authorizeEndpoint := .text authorize
  tokenEndpoint := .text token
  userinfoEndpoint := .text userinfo
  tokenAuthMethod := .post
  discoveryDocument := []
  resolved :=
    !authorize.isEmpty && !token.isEmpty &&
      !userinfo.isEmpty

/- What the provider raises. -/
inductive OidcError where
  | notReady (providerName : Text)
  | request
  | notObject (url : Text)
  | issuerMismatch (issuer declared : Text)
  | missing (url : Text) (keys : List Text)
deriving DecidableEq, Repr

namespace Client

variable (client : Client)

/- The URL that the document is fetched from. -/
def discoveryUrl : Text := client.issuer ++ discoveryPath

/- `str(document.get("issuer", ""))` -/
def declared (document : Document) : Text :=
  match document.get issuerKey with
  | none => []
  | some (.text issuer) => issuer
  | some other => client.str other

/- The configured issuer, but for trailing slashes. -/
def Declares (document : Document) : Prop :=
  client.declared document = client.issuer ∨
    (client.declared document).rdropWhile (· == slash) =
      client.issuer

instance (document : Document) :
    Decidable (client.Declares document) :=
  inferInstanceAs (Decidable (_ ∨ _))

/- The document of an answer, where it is accepted. -/
def accept : Json → Except OidcError Document
  | .object document =>
      if ¬ client.Declares document then
        .error (.issuerMismatch client.issuer
          (client.declared document))
      else if missing document ≠ [] then
        .error (.missing client.discoveryUrl
          (missing document))
      else
        .ok document
  | _ => .error (.notObject client.discoveryUrl)

/- `_pick_token_auth` -/
def pickTokenAuth (document : Document) : TokenAuth :=
  match document.get authMethods with
  | some (.list supported) =>
      if client.clientSecret.isEmpty then .post
      else if advertises .post supported then .post
      else if advertises .basic supported then .basic
      else .post
  | _ => .post

/- The assignments at the end of `initialize`. -/
def resolvedBy (document : Document) : Provider where
  authorizeEndpoint :=
    endpointOf document authorizationEndpoint
  tokenEndpoint := endpointOf document tokenEndpoint
  userinfoEndpoint := endpointOf document userinfoEndpoint
  tokenAuthMethod := client.pickTokenAuth document
  discoveryDocument := document
  resolved := true

end Client

------------------------------------------------------------
-- Operations
------------------------------------------------------------

/- The body and the credentials of a code exchange. -/
structure TokenRequest where
  form : Dict Text Text
  auth : Option (Text × Text)
  headers : Dict Text Text
deriving DecidableEq, Repr

/-
  The provider's fields, random texts, and the network.  A
  request is answered with the endpoint it went to.
-/
inductive Op where
  | isResolved
  | fetchDocument (url : Text)
  | resolve (document : Document)
  | readProvider
  | drawState
  | drawVerifier
  | postToken (request : TokenRequest)
  | getUserInfo (accessToken : Text)

/- Answers of the provider's operations. -/
@[reducible]
def Op.Ret : Op → Type
  | .isResolved => Bool
  | .fetchDocument _ => Option Json
  | .resolve _ => Unit
  | .readProvider => Provider
  | .drawState => Text
  | .drawVerifier => Text
  | .postToken _ => Json × Option Json
  | .getUserInfo _ => Json × Option Json

/- The provider, its network and its random values. -/
abbrev providerOps : Interface where
  Op := Op
  Ret := Op.Ret

/- The provider, and the answer the network has ready. -/
structure World where
  provider : Provider
  answer : Option Json
  drawn : Nat

/- Each operation on the provider and the network. -/
def exec
    (client : Client)
    (values : Nat → Text) :
    (op : Op) → World → op.Ret × World
  | .isResolved, world => (world.provider.resolved, world)
  | .fetchDocument _, world => (world.answer, world)
  | .resolve document, world =>
      ((), { world with
        provider := client.resolvedBy document })
  | .readProvider, world => (world.provider, world)
  | .drawState, world =>
      (values world.drawn,
        { world with drawn := world.drawn + 1 })
  | .drawVerifier, world =>
      (values world.drawn,
        { world with drawn := world.drawn + 1 })
  | .postToken _, world =>
      ((world.provider.tokenEndpoint, world.answer), world)
  | .getUserInfo _, world =>
      ((world.provider.userinfoEndpoint, world.answer),
        world)

/- The environment says what the network answers next. -/
abbrev machine
    (client : Client)
    (values : Nat → Text) : Machine providerOps World where
  Tick := Option Json
  exec := exec client values
  tick := fun answer world => { world with answer }

------------------------------------------------------------
-- Calls
------------------------------------------------------------

/- A call of the provider, step by step. -/
abbrev Flow := Program providerOps OidcError

/- One operation of a call. -/
def call (op : Op) : Flow op.Ret :=
  Program.call (I := providerOps) op

/- What a call has done, the last operation first. -/
abbrev Past := List (Action providerOps)

/-
  Where a user is sent, and what the callback needs again.
-/
structure Authorization where
  endpoint : Json
  params : Dict Text Text
  state : Text
  codeVerifier : Option Text

namespace Client

variable (client : Client)

/-
  `initialize`: concurrent first calls may each fetch a
  document.
-/
def initializeProvider : Flow Unit := do
  if ← call .isResolved then
    return ()
  else
    match ← call (.fetchDocument client.discoveryUrl) with
    | none => .raise .request
    | some json =>
        match client.accept json with
        | .error error => .raise error
        | .ok document => call (.resolve document)

/- `_ensure_ready`, and what is read at the same moment. -/
def ensureReady : Flow Provider := do
  let provider ← call .readProvider
  if provider.resolved then
    return provider
  else
    .raise (.notReady client.providerName)

/- The caller's state, or a new one. -/
def drawState : Option Text → Flow Text
  | none => call .drawState
  | some state =>
      if state.isEmpty then
        call .drawState
      else
        return state

/- A code verifier, if PKCE is asked for. -/
def drawCodes (pkce : Bool) : Flow (Option Text) := do
  if pkce then
    let verifier ← call .drawVerifier
    return some verifier
  else
    return none

/- The query of an authorization URL. -/
def params
    (state : Text)
    (codeVerifier : Option Text)
    (extraParams : Dict Text Text) : Dict Text Text :=
  let params : Dict Text Text :=
    [(ascii "client_id", client.clientId),
      (ascii "redirect_uri", client.redirectUri),
      (ascii "response_type", ascii "code"),
      (ascii "state", state),
      (ascii "scope", [0x20].intercalate client.scopes)]
  let params : Dict Text Text :=
    match codeVerifier with
    | none => params
    | some verifier =>
        (params.set (ascii "code_challenge")
          (client.challenge verifier)).set
            (ascii "code_challenge_method") (ascii "S256")
  params.update extraParams

/- `get_authorization_url` -/
def getAuthorizationUrl
    (state : Option Text)
    (pkce : Bool)
    (extraParams : Dict Text Text) : Flow Authorization := do
  let provider ← client.ensureReady
  let state ← drawState state
  let codeVerifier ← drawCodes pkce
  return {
    endpoint := provider.authorizeEndpoint
    params := client.params state codeVerifier extraParams
    state := state
    codeVerifier := codeVerifier }

/- The verifier is sent where there is one. -/
def withVerifier
    (codeVerifier : Option Text)
    (data : Dict Text Text) : Dict Text Text :=
  match codeVerifier with
  | none => data
  | some verifier =>
      if verifier.isEmpty then data
      else data.set (ascii "code_verifier") verifier

/- The secret goes into the form, but for HTTP Basic. -/
def tokenRequest
    (method : TokenAuth)
    (code : Text)
    (codeVerifier : Option Text)
    (headers : Dict Text Text) : TokenRequest :=
  let secret := !client.clientSecret.isEmpty
  let basic := secret && method == .basic
  let data : Dict Text Text :=
    [(ascii "client_id", client.clientId),
      (ascii "code", code),
      (ascii "redirect_uri", client.redirectUri),
      (ascii "grant_type", ascii "authorization_code")]
  { form := withVerifier codeVerifier
      (if secret && !basic then
        data.set (ascii "client_secret") client.clientSecret
      else data)
    auth :=
      if basic then
        some (client.clientId, client.clientSecret)
      else none
    headers :=
      Dict.update
        [(ascii "Accept", ascii "application/json")]
          headers }

/- The endpoint is read when the request is sent. -/
def exchangeCode
    (code : Text)
    (codeVerifier : Option Text)
    (headers : Dict Text Text) : Flow Json := do
  let provider ← client.ensureReady
  let sent ← call (.postToken (client.tokenRequest
    provider.tokenAuthMethod code codeVerifier headers))
  match sent.2 with
  | none => .raise .request
  | some tokens => return tokens

/- `get_user_info` -/
def getUserInfo (accessToken : Text) : Flow Json := do
  let _ ← client.ensureReady
  let sent ← call (.getUserInfo accessToken)
  match sent.2 with
  | none => .raise .request
  | some profile => return profile

end Client

/- The calls that a caller can make. -/
inductive ProviderCall where
  | initializeProvider
  | getAuthorizationUrl
      (state : Option Text)
      (pkce : Bool)
      (extraParams : Dict Text Text)
  | exchangeCode
      (code : Text)
      (codeVerifier : Option Text)
      (headers : Dict Text Text)
  | getUserInfo (accessToken : Text)

/- What a call returns. -/
inductive Reply where
  | initialized
  | authorization (authorization : Authorization)
  | tokens (tokens : Json)
  | profile (profile : Json)

/- Each call, as a program. -/
def ProviderCall.perform
    (client : Client) : ProviderCall → Flow Reply
  | .initializeProvider =>
      client.initializeProvider.bind fun _ =>
        .done .initialized
  | .getAuthorizationUrl state pkce extraParams =>
      (client.getAuthorizationUrl state pkce
        extraParams).bind fun authorization =>
          .done (.authorization authorization)
  | .exchangeCode code codeVerifier headers =>
      (client.exchangeCode code codeVerifier headers).bind
        fun tokens => .done (.tokens tokens)
  | .getUserInfo accessToken =>
      (client.getUserInfo accessToken).bind
        fun profile => .done (.profile profile)

------------------------------------------------------------
-- What A Call Owes
------------------------------------------------------------

/- The provider was read, and was ready. -/
def ReadReady (past : Past) (provider : Provider) : Prop :=
  (⟨.readProvider, provider⟩ : Action providerOps) ∈ past ∧
    provider.resolved = true

/-
  Only the discovery URL is fetched, after the provider was
  found unresolved; only an accepted answer is assigned; and
  no other request is made before the provider was ready.
-/
def Client.contract (client : Client) :
    Contract providerOps where
  rule := fun past op =>
    match op with
    | .fetchDocument url =>
        url = client.discoveryUrl ∧
          (⟨.isResolved, false⟩ : Action providerOps) ∈ past
    | .resolve document =>
        ∃ json,
          (⟨.fetchDocument client.discoveryUrl, some json⟩ :
            Action providerOps) ∈ past ∧
          client.accept json = .ok document
    | .postToken request =>
        ∃ provider code codeVerifier headers,
          ReadReady past provider ∧
          request = client.tokenRequest
            provider.tokenAuthMethod code codeVerifier
              headers
    | .getUserInfo _ => ∃ provider, ReadReady past provider
    | _ => True
  answer := fun _ _ => True

/- The provider was found resolved, or was resolved. -/
def Initialized (past : Past) : Prop :=
  (⟨.isResolved, true⟩ : Action providerOps) ∈ past ∨
    ∃ document,
      (⟨.resolve document, ()⟩ : Action providerOps) ∈ past

/- Nothing was assigned. -/
def Untouched (past : Past) : Prop :=
  ∀ document,
    (⟨.resolve document, ()⟩ : Action providerOps) ∉ past

/- What a call has done when it ends. -/
def Ended (past : Past) : Except OidcError Reply → Prop
  | .ok .initialized => Initialized past
  | .ok (.authorization authorization) =>
      ∃ provider, ReadReady past provider ∧
        authorization.endpoint = provider.authorizeEndpoint
  | .ok _ => True
  | .error _ => Untouched past

section Obeys

variable {client : Client}
variable {past : Past}

theorem untouched_nil : Untouched [] :=
  fun _ hMem => nomatch hMem

/- Other operations assign nothing. -/
theorem Untouched.cons
    {op : Op}
    {ret : op.Ret}
    (hPast : Untouched past)
    (hOp : ∀ document, op ≠ .resolve document) :
    Untouched (⟨op, ret⟩ :: past) := by
  intro document hMem
  rcases List.mem_cons.mp hMem with hSame | hOld
  · exact hOp document (congrArg Action.op hSame).symm
  · exact hPast document hOld

/- Discovery at the start. -/
theorem initializeProvider_obeys :
    (ProviderCall.initializeProvider.perform client).Obeys
      client.contract [] Ended := by
  refine ⟨trivial, fun resolved _ => ?_⟩
  cases resolved with
  | true => exact Or.inl List.mem_cons_self
  | false =>
      refine ⟨⟨rfl, List.mem_cons_self⟩, fun answer _ => ?_⟩
      have hUntouched : Untouched
          [⟨.fetchDocument client.discoveryUrl, answer⟩,
            ⟨.isResolved, false⟩] := by
        apply Untouched.cons _ fun _ hOp => by cases hOp
        exact untouched_nil.cons fun _ hOp => by cases hOp
      cases answer with
      | none => exact hUntouched
      | some json =>
          simp only [done_bind]
          cases hAccept : client.accept json with
          | error error => exact hUntouched
          | ok document =>
              refine ⟨⟨json, List.mem_cons_self, hAccept⟩,
                fun _ _ => ?_⟩
              exact Or.inr ⟨document, List.mem_cons_self⟩

/- What is done once the provider has been ready. -/
theorem ensureReady_obeys
    {α β : Type}
    {rest : Provider → Flow α}
    {last : α → Flow β}
    {goal : Past → Except OidcError β → Prop}
    (hRefused : ∀ provider,
      goal [⟨.readProvider, provider⟩]
        (.error (.notReady client.providerName)))
    (hRest : ∀ provider,
      ReadReady [⟨.readProvider, provider⟩] provider →
        ((rest provider).bind last).Obeys client.contract
          [⟨.readProvider, provider⟩] goal) :
    ((client.ensureReady.bind rest).bind last).Obeys
      client.contract [] goal := by
  refine ⟨trivial, fun provider _ => ?_⟩
  simp only [done_bind]
  split
  · rename_i hReady
    exact hRest provider ⟨List.mem_cons_self, hReady⟩
  · exact hRefused provider

/- Reading the provider touches nothing. -/
theorem untouched_read (provider : Provider) :
    Untouched [⟨.readProvider, provider⟩] :=
  untouched_nil.cons fun _ hOp => by cases hOp

/- Drawing texts is free, and does not fail. -/
theorem drawState_obeys (state : Option Text) :
    (Client.drawState state).Obeys client.contract past
      fun _ result => ∃ value, result = .ok value := by
  cases state with
  | none => exact ⟨trivial, fun value _ => ⟨value, rfl⟩⟩
  | some state =>
      cases hEmpty : state.isEmpty with
      | true =>
          simp only [Client.drawState, hEmpty]
          exact ⟨trivial, fun value _ => ⟨value, rfl⟩⟩
      | false =>
          simp only [Client.drawState, hEmpty]
          exact ⟨state, rfl⟩

/- The codes of a redirect are always drawn. -/
theorem drawCodes_obeys (pkce : Bool) :
    (Client.drawCodes pkce).Obeys client.contract past
      fun _ result => ∃ value, result = .ok value := by
  cases pkce with
  | true => exact ⟨trivial, fun value _ => ⟨some value, rfl⟩⟩
  | false => exact ⟨none, rfl⟩

/- The endpoint is that of the provider that was ready. -/
def AuthorizedBy
    (provider : Provider)
    (past : Past)
    (result : Except OidcError Authorization) : Prop :=
  ∃ authorization,
    result = .ok authorization ∧
    ReadReady past provider ∧
    authorization.endpoint = provider.authorizeEndpoint

/- The redirect to the authorization endpoint. -/
theorem getAuthorizationUrl_obeys
    (state : Option Text)
    (pkce : Bool)
    (extraParams : Dict Text Text) :
    ((ProviderCall.getAuthorizationUrl state pkce
      extraParams).perform client).Obeys client.contract []
        Ended := by
  apply ensureReady_obeys untouched_read
  intro provider hReady
  refine Obeys.bind
    (?_ : Obeys _ _ _ (AuthorizedBy provider)) ?_ ?_
  · apply (drawState_obeys state).bind
    · intro past' state hState _
      apply (drawCodes_obeys pkce).bind
      · intro last codeVerifier hCodes _
        refine ⟨_, rfl, ⟨?_, hReady.2⟩, rfl⟩
        exact hCodes.subset (hState.subset hReady.1)
      · rintro last error _ ⟨value, ⟨⟩⟩
    · rintro past' error _ ⟨value, ⟨⟩⟩
  · rintro last authorization _
      ⟨returned, ⟨⟩, hRead, hEndpoint⟩
    exact ⟨provider, hRead, hEndpoint⟩
  · rintro last error _ ⟨returned, ⟨⟩, -⟩

/- A request, and what is made of its answer. -/
theorem sent_obeys
    {provider : Provider}
    {reply : Json → Reply}
    (op : Op)
    (sentOf : op.Ret → Option Json)
    (hRule : client.contract.rule
      [⟨.readProvider, provider⟩] op)
    (hOp : ∀ document, op ≠ .resolve document)
    (hReply : ∀ past json, Ended past (.ok (reply json))) :
    (((call op).bind fun sent =>
      match sentOf sent with
      | none => (.raise .request : Flow Json)
      | some json => .done json).bind fun json =>
        .done (reply json)).Obeys client.contract
          [⟨.readProvider, provider⟩] Ended := by
  refine ⟨hRule, fun sent _ => ?_⟩
  simp only [done_bind]
  cases sentOf sent with
  | none => exact (untouched_read provider).cons hOp
  | some json => exact hReply _ json

/- The request to the token endpoint. -/
theorem exchangeCode_obeys
    (code : Text)
    (codeVerifier : Option Text)
    (headers : Dict Text Text) :
    ((ProviderCall.exchangeCode code codeVerifier
      headers).perform client).Obeys client.contract []
        Ended := by
  apply ensureReady_obeys untouched_read
  intro provider hReady
  apply sent_obeys (.postToken _) Prod.snd
  · exact ⟨provider, code, codeVerifier, headers, hReady,
      rfl⟩
  · intro _ hOp
    cases hOp
  · intro _ _
    trivial

/- The request to the user-info endpoint. -/
theorem getUserInfo_obeys (accessToken : Text) :
    ((ProviderCall.getUserInfo accessToken).perform
      client).Obeys client.contract [] Ended := by
  apply ensureReady_obeys untouched_read
  intro provider hReady
  apply sent_obeys (.getUserInfo _) Prod.snd
  · exact ⟨provider, hReady⟩
  · intro _ hOp
    cases hOp
  · intro _ _
    trivial

/- Any call of the client. -/
theorem ProviderCall.perform_obeys
    (providerCall : ProviderCall) :
    (providerCall.perform client).Obeys client.contract []
      Ended := by
  cases providerCall with
  | initializeProvider => exact initializeProvider_obeys
  | getAuthorizationUrl state pkce extraParams =>
      exact getAuthorizationUrl_obeys state pkce extraParams
  | exchangeCode code codeVerifier headers =>
      exact exchangeCode_obeys code codeVerifier headers
  | getUserInfo accessToken =>
      exact getUserInfo_obeys accessToken

end Obeys

end Oidc

end CrudAuth
