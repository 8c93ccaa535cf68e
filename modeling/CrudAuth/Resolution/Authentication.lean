import CrudAuth.Resolution.Moment

/-
  What `authenticate` of either transport finds at a moment,
  and what the principals it finds are built from.

  Main declarations:
    * `validateSession_accepted`
    * `enforceCsrf_ends`
    * `Built`
    * `authenticateSession_ends`
    * `authenticateBearer_ends`
-/

namespace CrudAuth

namespace Resolution

open Concurrency Program

variable {runtime : Runtime}
variable {request : HttpRequest}
variable {session : SessionTransport}
variable {bearer : BearerTransport}
variable {world after middle : World}
variable {ctx : AuthContext}
variable {principal : Principal}
variable {sessionId : String}
variable {record : SessionRecord}

------------------------------------------------------------
-- The Session Behind A Request
------------------------------------------------------------

/- A request presents one session. -/
theorem presents_unique
    {sessionId' : String}
    (hPresents : session.presents request sessionId)
    (hPresents' : session.presents request sessionId') :
    sessionId = sessionId' :=
  Option.some.inj (hPresents.1.symm.trans hPresents'.1)

/- An activity update of an accepted session. -/
theorem accepts_touched
    (hAccepts : session.Accepts world sessionId record) :
    session.Accepts
      (world.putSession (session.storedAt sessionId)
        (some { record with lastActivity := world.clock }))
      sessionId
      { record with lastActivity := world.clock } := by
  constructor
  · simp [World.putSession]
  · have hLe :
        world.clock ≤ world.clock +
          session.config.timeoutSecondsFor
            record.rememberMe :=
      Nat.le_add_right _ _
    exact decide_eq_false (Nat.not_lt.mpr hLe)
  · exact hAccepts.young

/- Extending a CSRF record changes none. -/
theorem extendCsrf_ends (ttl : Nat) :
    Ends exec (session.extendCsrf record ttl) world
      fun result after =>
        result = .ok () ∧ after = world := by
  unfold SessionTransport.extendCsrf
  split
  · split
    · exact ⟨rfl, rfl⟩
    · exact ⟨rfl, rfl⟩
  · exact ⟨rfl, rfl⟩

/- What validation leaves of an accepted session. -/
structure Validated
    (session : SessionTransport)
    (sessionId : String)
    (record : SessionRecord)
    (world : World)
    (result : Except HttpError (Option SessionRecord))
    (after : World) : Prop where
  csrf : after.csrf = world.csrf
  accepted : ∃ record',
    result = .ok (some record') ∧
      session.Accepts after sessionId record' ∧
      record'.userId = record.userId ∧
      record'.tokenVersion = record.tokenVersion

/- An accepted session validates. -/
theorem validateSession_accepted
    (hAccepts : session.Accepts world sessionId record)
    (updateActivity : Bool) :
    Ends exec
      (session.validateSession sessionId updateActivity)
      world
      (Validated session sessionId record world) := by
  unfold SessionTransport.validateSession
  apply ends_step
  simp only [exec, hAccepts.stored]
  apply ends_step
  simp only [exec, hAccepts.active, hAccepts.young,
    Bool.false_eq_true, if_false]
  split
  · apply ends_step
    simp only [exec, hAccepts.stored]
    refine Ends.bind (extendCsrf_ends _) ?_ ?_
    · rintro _ after ⟨-, rfl⟩
      exact ⟨rfl, _, rfl, accepts_touched hAccepts, rfl, rfl⟩
    · rintro error after ⟨hOk, -⟩
      cases hOk
  · exact ⟨rfl, record, rfl, hAccepts, rfl, rfl⟩

/- Validation finds no session that is not accepted. -/
theorem validateSession_rejected
    (hRejected : ∀ record,
      ¬ session.Accepts world sessionId record)
    (updateActivity : Bool) :
    Ends exec
      (session.validateSession sessionId updateActivity)
      world
      fun result _ =>
        ∀ record, result ≠ .ok (some record) := by
  have hTerminated (record : SessionRecord) (world : World) :
      Ends exec
        (do
          session.terminate sessionId record
          return none : Flow (Option SessionRecord))
        world
        fun result _ =>
          ∀ record, result ≠ .ok (some record) := by
    have hAny :
        Ends exec (session.terminate sessionId record) world
          fun _ _ => True :=
      trivial
    refine Ends.bind hAny ?_ ?_
    · intro _ after _ record' hSame
      cases hSame
    · intro error after _ record' hSame
      cases hSame
  unfold SessionTransport.validateSession
  apply ends_step
  simp only [exec]
  cases hStored :
      world.sessions (session.storedAt sessionId) with
  | none =>
      intro record hSame
      cases hSame
  | some record =>
      apply ends_step
      split
      · exact hTerminated record world
      · rename_i hActive
        split
        · exact hTerminated record world
        · rename_i hYoung
          exact absurd
            ⟨hStored, Bool.eq_false_iff.mpr hActive,
              Bool.eq_false_iff.mpr hYoung⟩
            (hRejected record)

------------------------------------------------------------
-- CSRF And Rows
------------------------------------------------------------

/- The CSRF check reads the moment and leaves it. -/
theorem enforceCsrf_ends :
    Ends exec (session.enforceCsrf request sessionId) world
      fun result after =>
        after = world ∧
          (result = .ok () ↔
            session.csrfPasses request world sessionId =
              true) := by
  unfold SessionTransport.enforceCsrf
    SessionTransport.csrfPasses
  split
  · rename_i hExempt
    have hNone :
        session.csrfEnabled = false ∨
          request.method ∈ safeMethods := by
      simpa using hExempt
    exact ⟨rfl, by simp [hNone]⟩
  · rename_i hChecked
    have hUnsafe :
        session.csrfEnabled = true ∧
          request.method ∉ safeMethods := by
      simpa using hChecked
    cases hHeader : request.csrfHeader with
    | none =>
        refine ⟨rfl, ?_⟩
        simp [hUnsafe]
    | some header =>
        dsimp only
        split
        · rename_i hEmpty
          refine ⟨rfl, ?_⟩
          simp [hUnsafe, hEmpty]
        · rename_i hSome
          unfold SessionTransport.validateCsrfToken
          rw [if_pos hUnsafe.1]
          split
          · rename_i hBlank
            refine ⟨rfl, ?_⟩
            have hId : sessionId.isEmpty = true := by
              simpa [hSome] using hBlank
            simp [hUnsafe, hId]
          · rename_i hBoth
            have hId : sessionId.isEmpty = false := by
              simp at hBoth
              simpa using hBoth.1
            apply ends_step
            simp only [exec]
            cases world.csrf (session.csrfStoredAt header)
              with
            | none =>
                refine ⟨rfl, ?_⟩
                simp [hUnsafe]
            | some record =>
                dsimp only
                by_cases hBound :
                    record.sessionId =
                      session.sessionKey sessionId
                · simp [hSome, hId, hBound]
                · simp [hUnsafe, hBound]

/- The check passes just when the token is right. -/
theorem checkCsrf_ends :
    Ends exec (session.checkCsrf request sessionId ctx) world
      fun result after =>
        after = world ∧
          (result = .ok () ↔
            (ctx.enforceCsrf = true →
              session.csrfPasses request world sessionId =
                true)) := by
  unfold SessionTransport.checkCsrf
  split
  · rename_i hEnforce
    apply Ends.mono enforceCsrf_ends
    rintro result after ⟨hSame, hPasses⟩
    refine ⟨hSame, ?_⟩
    simp [hEnforce, hPasses]
  · rename_i hSkipped
    refine ⟨rfl, ?_⟩
    simp [hSkipped]

/- It hangs on the tokens alone. -/
theorem csrfPasses_congr
    (hCsrf : after.csrf = world.csrf) :
    session.csrfPasses request after sessionId =
      session.csrfPasses request world sessionId := by
  unfold SessionTransport.csrfPasses
  rw [hCsrf]

/- Rows are loaded as the table has them. -/
def LoadedRows (world : World) (ctx : AuthContext) : Prop :=
  ∀ id found, ctx.loaded.lookup id = some found →
    found = world.row? id

/- A row hangs on the table alone. -/
theorem row?_congr
    (hUsers : after.users = world.users)
    (id : UserId) :
    after.row? id = world.row? id := by
  unfold World.row?
  rw [hUsers]

theorem LoadedRows.congr
    (hLoaded : LoadedRows world ctx)
    (hUsers : after.users = world.users) :
    LoadedRows after ctx := by
  intro id found hLookup
  rw [row?_congr hUsers]
  exact hLoaded id found hLookup

/- Loading a user finds the row there is. -/
theorem resolveUser_ends
    (hLoaded : LoadedRows world ctx)
    (id : UserId) :
    Ends exec (ctx.resolveUser id) world
      fun result after =>
        after = world ∧
          ∃ ctx',
            result = .ok (world.row? id, ctx') ∧
              LoadedRows world ctx' := by
  unfold AuthContext.resolveUser
  cases hFound : ctx.loaded.lookup id with
  | some found =>
      obtain rfl := hLoaded id found hFound
      exact ⟨rfl, ctx, rfl, hLoaded⟩
  | none =>
      apply ends_step
      refine ⟨rfl, _, rfl, ?_⟩
      intro id' found hLookup
      rw [List.lookup_cons] at hLookup
      split at hLookup
      · rename_i hSame
        obtain rfl : id' = id := eq_of_beq hSame
        exact (Option.some.inj hLookup).symm
      · exact hLoaded id' found hLookup

/- The principal of an accepted session at a moment. -/
def sessionPrincipal
    (runtime : Runtime)
    (found : Option Account)
    (sessionId : String)
    (tokenVersion : Option Nat) : Option Principal :=
  match found with
  | none => none
  | some user =>
      if !user.isActive then
        none
      else if
          tokenVersion ≠ none ∧
          tokenVersion ≠
            some (runtime.tokenVersion user.toUser) then
        none
      else
        some (buildPrincipal runtime user
          SessionTransport.name [] (some sessionId))

/- Whether a session's version is still the row's. -/
def VersionCurrent
    (runtime : Runtime)
    (tokenVersion : Option Nat)
    (user : Account) : Prop :=
  tokenVersion = none ∨
    tokenVersion = some (runtime.tokenVersion user.toUser)

/- An inactive account has no principal. -/
theorem sessionPrincipal_inactive
    {user : Account}
    {tokenVersion : Option Nat}
    (hInactive : (!user.isActive) = true) :
    sessionPrincipal runtime (some user) sessionId
      tokenVersion = none := by
  simp [sessionPrincipal, hInactive]

theorem sessionPrincipal_moved
    {user : Account}
    {tokenVersion : Option Nat}
    (hMoved :
      tokenVersion ≠ none ∧
        tokenVersion ≠
          some (runtime.tokenVersion user.toUser)) :
    sessionPrincipal runtime (some user) sessionId
      tokenVersion = none := by
  simp only [sessionPrincipal, if_pos hMoved, ite_self]

/- A current, active account has a principal. -/
theorem sessionPrincipal_current
    {user : Account}
    {tokenVersion : Option Nat}
    (hActive : ¬ (!user.isActive) = true)
    (hCurrent :
      ¬ (tokenVersion ≠ none ∧
        tokenVersion ≠
          some (runtime.tokenVersion user.toUser))) :
    sessionPrincipal runtime (some user) sessionId
        tokenVersion =
      some (buildPrincipal runtime user
        SessionTransport.name [] (some sessionId)) := by
  simp only [sessionPrincipal, if_neg hActive,
    if_neg hCurrent]

/- It is built from an active row of the same version. -/
theorem sessionPrincipal_eq_some
    {found : Option Account}
    {tokenVersion : Option Nat} :
    sessionPrincipal runtime found sessionId tokenVersion =
        some principal ↔
      ∃ user,
        found = some user ∧
        user.isActive = true ∧
        VersionCurrent runtime tokenVersion user ∧
        buildPrincipal runtime user SessionTransport.name []
          (some sessionId) = principal := by
  cases found with
  | none => simp [sessionPrincipal]
  | some user =>
      cases hActive : user.isActive with
      | false => simp [sessionPrincipal, hActive]
      | true =>
          by_cases hMoved :
              tokenVersion ≠ none ∧
                tokenVersion ≠
                  some (runtime.tokenVersion user.toUser)
          · have hGone :
                ¬ VersionCurrent runtime tokenVersion
                  user := by
              rintro (hNone | hSame)
              · exact hMoved.1 hNone
              · exact hMoved.2 hSame
            rw [sessionPrincipal_moved hMoved]
            simp [hGone]
          · have hCurrent :
                VersionCurrent runtime tokenVersion
                  user := by
              rwa [not_and_or, not_not, not_not] at hMoved
            rw [sessionPrincipal_current (by simp [hActive])
              hMoved]
            simp [hActive, hCurrent]

/- The account of a live session is identified. -/
theorem identify_ends
    (hLoaded : LoadedRows world ctx) :
    Ends exec
      (SessionTransport.identify runtime sessionId
        record ctx)
      world
      fun result after =>
        after = world ∧
          ∃ ctx',
            result =
              .ok (sessionPrincipal runtime
                (world.row? record.userId) sessionId
                record.tokenVersion, ctx') ∧
              LoadedRows world ctx' := by
  unfold SessionTransport.identify
  refine Ends.bind (resolveUser_ends hLoaded record.userId)
    ?_ ?_
  · rintro value after ⟨rfl, ctx', hOk, hLoaded'⟩
    obtain rfl := Except.ok.inj hOk
    dsimp only
    cases after.row? record.userId with
    | none => exact ⟨rfl, ctx', rfl, hLoaded'⟩
    | some user =>
        dsimp only
        split
        · rename_i hInactive
          refine ⟨rfl, ctx', ?_, hLoaded'⟩
          rw [sessionPrincipal_inactive hInactive]
          rfl
        · rename_i hActive
          split
          · rename_i hMoved
            refine ⟨rfl, ctx', ?_, hLoaded'⟩
            rw [sessionPrincipal_moved hMoved]
            rfl
          · rename_i hCurrent
            refine ⟨rfl, ctx', ?_, hLoaded'⟩
            rw [sessionPrincipal_current hActive hCurrent]
            rfl
  · rintro error after ⟨-, ctx', hOk, -⟩
    cases hOk

------------------------------------------------------------
-- Built Principals
------------------------------------------------------------

/-
  A principal that was built from a row, for the credential
  of the request; the row it shows may be a later one.
-/
def Built
    (runtime : Runtime)
    (session : SessionTransport)
    (bearer : BearerTransport)
    (request : HttpRequest)
    (before : Account)
    (principal : Principal) : Transport → Prop
  | .session transport =>
      transport = session ∧
      ∃ sessionId,
        session.presents request sessionId ∧
        { principal with user := before } =
          buildPrincipal runtime before SessionTransport.name
            [] (some sessionId)
  | .bearer transport =>
      transport = bearer ∧
      ∃ payload,
        bearer.presents request payload ∧
        payload.sub = before.id ∧
        { principal with user := before } =
          buildPrincipal runtime before BearerTransport.name
            payload.scopes none
  | .custom _ => False

/- It was built from the row there was at a moment. -/
def BuiltAt
    (runtime : Runtime)
    (session : SessionTransport)
    (bearer : BearerTransport)
    (request : HttpRequest)
    (world : World)
    (principal : Principal)
    (transport : Transport) : Prop :=
  ∃ before,
    world.row? principal.userId = some before ∧
      Built runtime session bearer request before principal
        transport

/- What an authentication finds. -/
structure Authenticates
    (runtime : Runtime)
    (session : SessionTransport)
    (bearer : BearerTransport)
    (request : HttpRequest)
    (transport : Transport)
    (world : World)
    (result :
      Except HttpError (Option Principal × AuthContext)) :
    Prop where
  rows : ∀ found ctx', result = .ok (found, ctx') →
    LoadedRows world ctx'
  built : ∀ principal ctx',
    result = .ok (some principal, ctx') →
    BuiltAt runtime session bearer request world principal
      transport

/- Where nobody is found, no row has been loaded. -/
theorem authenticates_none
    {transport : Transport}
    (hLoaded : LoadedRows world ctx) :
    Authenticates runtime session bearer request transport
      world (.ok (none, ctx)) where
  rows := by
    rintro found ctx' hSame
    obtain ⟨-, rfl⟩ := by simpa using hSame
    exact hLoaded
  built := by
    intro principal ctx' hSame
    simp at hSame

/- A refusal authenticates nobody. -/
theorem authenticates_error
    {transport : Transport}
    {error : HttpError} :
    Authenticates runtime session bearer request transport
      world (.error error) where
  rows := by
    intro found ctx' hSame
    cases hSame
  built := by
    intro principal ctx' hSame
    cases hSame

/- Whatever `flow` does, the users are the same after it. -/
theorem ends_users
    {α : Type}
    (flow : Flow α)
    (world : World) :
    Ends exec flow world
      fun _ after => after.users = world.users :=
  run_users flow world

/- The session transport builds from the row there is. -/
theorem authenticateSession_ends
    (hLoaded : LoadedRows world ctx) :
    Ends exec (session.authenticate runtime request ctx)
      world
      fun result _ =>
        Authenticates runtime session bearer request
          (.session session) world result := by
  unfold SessionTransport.authenticate
  cases hCookie : request.cookies session.cookieName with
  | none => exact authenticates_none hLoaded
  | some sessionId =>
  dsimp only
  split
  · exact authenticates_none hLoaded
  · rename_i hSome
    have hPresents : session.presents request sessionId :=
      ⟨hCookie, by simpa using hSome⟩
    refine Ends.bind (ends_users _ world) ?_ ?_
    · intro value valid hValid
      cases value with
      | none => exact authenticates_none hLoaded
      | some record =>
      dsimp only
      refine Ends.bind (ends_users _ valid) ?_ ?_
      · intro _ checked hChecked
        have hUsers : checked.users = world.users :=
          hChecked.trans hValid
        apply Ends.mono
          (identify_ends (hLoaded.congr hUsers))
        rintro result last ⟨rfl, ctx', rfl, hLoaded'⟩
        rw [row?_congr hUsers]
        constructor
        · rintro found ctx'' hSame
          obtain ⟨-, rfl⟩ := by simpa using hSame
          exact hLoaded'.congr hUsers.symm
        · intro principal ctx'' hSame
          obtain ⟨hPrincipal, rfl⟩ := by simpa using hSame
          rcases sessionPrincipal_eq_some.mp hPrincipal with
            ⟨user, hRow, -, -, rfl⟩
          have hId : user.id = record.userId :=
            World.id_of_row? hRow
          refine ⟨user, ?_, rfl, sessionId, hPresents, rfl⟩
          change world.row? user.id = some user
          rw [hId, hRow]
      · intro error checked _
        exact authenticates_error
    · intro error valid _
      exact authenticates_error

/- The principal of a live access token at a moment. -/
def bearerPrincipal
    (runtime : Runtime)
    (found : Option Account)
    (payload : Jwt) : Option Principal :=
  match found with
  | none => none
  | some user =>
      if !user.isActive then
        none
      else if payload.ver ≠
          runtime.tokenVersion user.toUser then
        none
      else
        some (buildPrincipal runtime user
          BearerTransport.name payload.scopes none)

/- It is built from an active row of the same version. -/
theorem bearerPrincipal_eq_some
    {found : Option Account}
    {payload : Jwt} :
    bearerPrincipal runtime found payload =
        some principal ↔
      ∃ user,
        found = some user ∧
        user.isActive = true ∧
        payload.ver = runtime.tokenVersion user.toUser ∧
        buildPrincipal runtime user BearerTransport.name
          payload.scopes none = principal := by
  cases found with
  | none => simp [bearerPrincipal]
  | some user =>
      cases hActive : user.isActive with
      | false => simp [bearerPrincipal, hActive]
      | true =>
          by_cases hCurrent :
              payload.ver = runtime.tokenVersion user.toUser
          · simp [bearerPrincipal, hActive, hCurrent]
          · simp [bearerPrincipal, hActive, hCurrent]

/- What follows the verification of a token. -/
theorem bearer_identify_ends
    (hLoaded : LoadedRows world ctx)
    (payload : Jwt) :
    Ends exec
      (do
        let (found, ctx) ← ctx.resolveUser payload.sub
        match found with
        | none => return (none, ctx)
        | some user =>
            if !user.isActive then
              return (none, ctx)
            else if payload.ver ≠
                runtime.tokenVersion user.toUser then
              return (none, ctx)
            else
              return (some (buildPrincipal runtime user
                BearerTransport.name payload.scopes none),
                ctx) :
        Flow (Option Principal × AuthContext))
      world
      fun result after =>
        after = world ∧
          ∃ ctx',
            result =
              .ok (bearerPrincipal runtime
                (world.row? payload.sub) payload, ctx') ∧
              LoadedRows world ctx' := by
  refine Ends.bind (resolveUser_ends hLoaded payload.sub)
    ?_ ?_
  · rintro value after ⟨rfl, ctx', hOk, hLoaded'⟩
    obtain rfl := Except.ok.inj hOk
    dsimp only
    cases after.row? payload.sub with
    | none => exact ⟨rfl, ctx', rfl, hLoaded'⟩
    | some user =>
        dsimp only
        split
        · rename_i hInactive
          refine ⟨rfl, ctx', ?_, hLoaded'⟩
          simp only [bearerPrincipal, if_pos hInactive]
          rfl
        · rename_i hActive
          split
          · rename_i hMoved
            refine ⟨rfl, ctx', ?_, hLoaded'⟩
            simp only [bearerPrincipal, if_neg hActive,
              if_pos hMoved]
            rfl
          · rename_i hCurrent
            refine ⟨rfl, ctx', ?_, hLoaded'⟩
            simp only [bearerPrincipal, if_neg hActive,
              if_neg hCurrent]
            rfl
  · rintro error after ⟨-, ctx', hOk, -⟩
    cases hOk

/- Verifying a token finds the claims that are accepted. -/
theorem verifyToken_ends
    (token : String) :
    Ends exec (bearer.verifyToken token) world
      fun result after =>
        after = world ∧
          ∃ verified,
            result = .ok verified ∧
              ∀ payload, verified = some payload ↔
                bearer.decode token = some payload ∧
                  world.clock < payload.exp ∧
                  payload.tokenType = .access := by
  unfold BearerTransport.verifyToken
  apply ends_step
  cases hDecoded : bearer.decode token with
  | none => exact ⟨rfl, none, rfl, by simp⟩
  | some payload =>
      dsimp only
      split
      · rename_i hExpired
        refine ⟨rfl, none, rfl, ?_⟩
        rintro payload'
        constructor
        · intro hNone
          cases hNone
        · rintro ⟨hSame, hLive, -⟩
          obtain rfl := Option.some.inj hSame
          exact absurd hExpired (Nat.not_le.mpr hLive)
      · rename_i hLive
        split
        · rename_i hRefresh
          refine ⟨rfl, none, rfl, ?_⟩
          rintro payload'
          constructor
          · intro hNone
            cases hNone
          · rintro ⟨hSame, -, hAccess⟩
            obtain rfl := Option.some.inj hSame
            exact absurd hAccess hRefresh
        · rename_i hAccess
          refine ⟨rfl, some payload, rfl, ?_⟩
          intro payload'
          constructor
          · intro hSame
            obtain rfl := Option.some.inj hSame
            exact ⟨rfl, Nat.lt_of_not_le hLive,
              not_not.mp hAccess⟩
          · exact fun hAll => hAll.1

/- A token that is not accepted finds nobody. -/
theorem unverified_ends
    (token : String) :
    Ends exec
      (do
        if ← bearer.isExpiredToken token then
          return (none, ctx)
        else
          .raise (.unauthorized "Invalid token") :
        Flow (Option Principal × AuthContext))
      world
      fun result after =>
        after = world ∧
          ∀ found ctx', result = .ok (found, ctx') →
            found = none ∧ ctx' = ctx := by
  have hDone (expired : Bool) :
      Ends exec
        (if expired then
          return (none, ctx)
        else
          .raise (.unauthorized "Invalid token") :
          Flow (Option Principal × AuthContext))
        world
        fun result after =>
          after = world ∧
            ∀ found ctx', result = .ok (found, ctx') →
              found = none ∧ ctx' = ctx := by
    cases expired with
    | false => exact ⟨rfl, by simp⟩
    | true =>
        refine ⟨rfl, ?_⟩
        rintro found ctx' hSame
        obtain ⟨rfl, rfl⟩ := by simpa using hSame
        exact ⟨rfl, rfl⟩
  unfold BearerTransport.isExpiredToken
  apply ends_step
  simp only [exec]
  cases bearer.decode token with
  | none => exact hDone false
  | some payload => exact hDone _

/- The bearer transport builds from the row there is. -/
theorem authenticateBearer_ends
    (hLoaded : LoadedRows world ctx) :
    Ends exec (bearer.authenticate runtime request ctx) world
      fun result _ =>
        Authenticates runtime session bearer request
          (.bearer bearer) world result := by
  unfold BearerTransport.authenticate
  cases hHeader : request.authorization with
  | none => exact authenticates_none hLoaded
  | some header =>
  rcases header with ⟨scheme, token⟩
  dsimp only
  split
  · exact authenticates_none hLoaded
  · rename_i hGiven
    rw [not_or, not_not] at hGiven
    refine Ends.bind (verifyToken_ends token) ?_ ?_
    · rintro value after ⟨rfl, verified, hOk, hVerified⟩
      obtain rfl := Except.ok.inj hOk
      cases value with
      | none =>
          apply Ends.mono (unverified_ends token)
          rintro result after' ⟨rfl, hNone⟩
          constructor
          · intro found ctx' hSame
            rw [(hNone found ctx' hSame).2]
            exact hLoaded
          · intro principal ctx' hSame
            cases (hNone _ ctx' hSame).1
      | some payload =>
          rcases (hVerified payload).mp rfl with
            ⟨hDecoded, -, -⟩
          apply Ends.mono
            (bearer_identify_ends hLoaded payload)
          rintro result after' ⟨rfl, ctx', rfl, hLoaded'⟩
          constructor
          · rintro found ctx'' hSame
            obtain ⟨-, rfl⟩ := by simpa using hSame
            exact hLoaded'
          · intro principal ctx'' hSame
            obtain ⟨hPrincipal, rfl⟩ := by simpa using hSame
            rcases bearerPrincipal_eq_some.mp hPrincipal with
              ⟨user, hRow, -, -, rfl⟩
            have hId : user.id = payload.sub :=
              World.id_of_row? hRow
            have hPresents :
                bearer.presents request payload :=
              ⟨scheme, token, hHeader, hGiven.1,
                by simpa using hGiven.2, hDecoded⟩
            refine ⟨user, ?_, rfl, payload, hPresents,
              hId.symm, rfl⟩
            change after'.row? user.id = some user
            rw [hId, hRow]
    · rintro error after ⟨-, verified, hOk, -⟩
      cases hOk

end Resolution

end CrudAuth
