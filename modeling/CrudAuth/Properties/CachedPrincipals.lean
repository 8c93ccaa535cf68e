import CrudAuth.Resolution.Caching
import CrudAuth.Resolution.Scenario

/-
  A principal from the cache against a fresh authentication
  at the same moment, when the user table, the stores and
  the clock have moved since and the call is on another
  database session.

  Main declarations:
    * `Agrees`
    * `Credited`
    * `SameStatus`
    * `Unmoved`
    * `returns_cached_iff`
    * `freshSame_iff`
    * `agrees_iff_unmoved`
-/

namespace CrudAuth

namespace Resolution

open Concurrency Program

variable {runtime : Runtime}
variable {request : HttpRequest}
variable {session : SessionTransport}
variable {bearer : BearerTransport}
variable {world after middle : World}
variable {ctx : AuthContext}
variable {principal : Principal}
variable {sessionId : String}
variable {record : SessionRecord}
variable {cache : Cache}
variable {origin : List String → World}
variable {before user : Account}
variable {db : DbSession}

------------------------------------------------------------
-- Fresh Authentication
------------------------------------------------------------

/- The context of a call that enforces every check. -/
def enforcing (db : DbSession) : AuthContext where
  db := db
  enforceCsrf := true
  updateActivity := true

/- It has loaded no row yet. -/
theorem enforcing_loaded :
    LoadedRows world (enforcing db) := by
  intro id found hLookup
  cases hLookup

/- The record that a session is accepted by is its own. -/
theorem exists_accepted_iff
    {record : SessionRecord}
    {holds : SessionRecord → Prop}
    (hAccepts : session.Accepts world sessionId record) :
    (∃ record',
      session.Accepts world sessionId record' ∧
        holds record') ↔
      holds record := by
  constructor
  · rintro ⟨record', hAccepts', hHolds⟩
    obtain rfl : record = record' :=
      Option.some.inj
        (hAccepts.stored.symm.trans hAccepts'.stored)
    exact hHolds
  · exact fun hHolds => ⟨record, hAccepts, hHolds⟩

/- A request presents one token. -/
theorem payload_unique
    {payload payload' : Jwt}
    (hPresents : bearer.presents request payload)
    (hPresents' : bearer.presents request payload') :
    payload = payload' := by
  rcases hPresents with
    ⟨scheme, token, hHeader, -, -, hDecoded⟩
  rcases hPresents' with
    ⟨scheme', token', hHeader', -, -, hDecoded'⟩
  obtain ⟨rfl, rfl⟩ : scheme = scheme' ∧ token = token' := by
    simpa [hHeader] using hHeader'
  exact Option.some.inj (hDecoded.symm.trans hDecoded')

/- Whom a fresh authentication of a session finds. -/
theorem freshSession_ends
    (db : DbSession)
    (hPresents : session.presents request sessionId) :
    Ends exec
      (session.authenticate runtime request (enforcing db))
      world
      fun result _ => ∀ fresh,
        (∃ ctx', result = .ok (some fresh, ctx')) ↔
          ∃ record,
            session.Accepts world sessionId record ∧
            session.csrfPasses request world sessionId =
              true ∧
            sessionPrincipal runtime
                (world.row? record.userId) sessionId
                record.tokenVersion =
              some fresh := by
  unfold SessionTransport.authenticate
  rw [hPresents.1]
  simp only [hPresents.2, Bool.false_eq_true, if_false]
  by_cases hAny :
      ∃ record, session.Accepts world sessionId record
  · rcases hAny with ⟨record, hAccepts⟩
    have hValid :
        Ends exec
          (session.validateSession sessionId true) world
          fun result after =>
            Validated session sessionId record world result
              after ∧
            after.users = world.users :=
      ⟨validateSession_accepted hAccepts true,
        ends_users _ world⟩
    refine Ends.bind hValid ?_ ?_
    · rintro value after ⟨hValidated, hUsers⟩
      rcases hValidated.accepted with
        ⟨record', hOk, -, hUser, hVersion⟩
      obtain rfl := Except.ok.inj hOk
      dsimp only
      refine Ends.bind checkCsrf_ends ?_ ?_
      · rintro _ after' ⟨rfl, hChecked⟩
        have hPasses := hChecked.mp rfl rfl
        rw [csrfPasses_congr hValidated.csrf] at hPasses
        apply Ends.mono (identify_ends enforcing_loaded)
        rintro result last ⟨rfl, ctx', rfl, -⟩ fresh
        rw [exists_accepted_iff hAccepts, hUser, hVersion,
          row?_congr hUsers]
        simp [hPasses]
      · rintro error after' ⟨rfl, hChecked⟩ fresh
        rw [csrfPasses_congr hValidated.csrf] at hChecked
        rw [exists_accepted_iff hAccepts]
        refine iff_of_false (by simp) fun hBoth => ?_
        cases hChecked.mpr fun _ => hBoth.1
    · rintro error after ⟨hValidated, -⟩
      rcases hValidated.accepted with ⟨record', hOk, -⟩
      cases hOk
  · have hNever (fresh : Principal) :
        ¬ ∃ record,
          session.Accepts world sessionId record ∧
          session.csrfPasses request world sessionId =
            true ∧
          sessionPrincipal runtime
              (world.row? record.userId) sessionId
              record.tokenVersion =
            some fresh := by
      rintro ⟨record, hAccepts, -⟩
      exact hAny ⟨record, hAccepts⟩
    rw [not_exists] at hAny
    refine Ends.bind
      (validateSession_rejected hAny true) ?_ ?_
    · intro value after hNone
      cases value with
      | some record => exact absurd rfl (hNone record)
      | none =>
          exact fun fresh =>
            iff_of_false (by simp) (hNever fresh)
    · intro error after _ fresh
      exact iff_of_false (by simp) (hNever fresh)

/- Whom a fresh authentication of a token finds. -/
theorem freshBearer_ends
    {payload : Jwt}
    (db : DbSession)
    (hPresents : bearer.presents request payload) :
    Ends exec
      (bearer.authenticate runtime request (enforcing db))
      world
      fun result _ => ∀ fresh,
        (∃ ctx', result = .ok (some fresh, ctx')) ↔
          bearer.Accepts request world payload ∧
          bearerPrincipal runtime (world.row? payload.sub)
              payload =
            some fresh := by
  have hGiven := hPresents
  rcases hGiven with
    ⟨scheme, token, hHeader, hScheme, hToken, hDecoded⟩
  unfold BearerTransport.authenticate
  rw [hHeader]
  dsimp only
  rw [if_neg (by simp [hScheme, hToken])]
  refine Ends.bind (verifyToken_ends token) ?_ ?_
  · rintro value after ⟨rfl, verified, hOk, hVerified⟩
    obtain rfl := Except.ok.inj hOk
    cases value with
    | some verified =>
        rcases (hVerified verified).mp rfl with
          ⟨hSame, hLive, hAccess⟩
        obtain rfl : payload = verified :=
          Option.some.inj (hDecoded.symm.trans hSame)
        apply Ends.mono
          (bearer_identify_ends enforcing_loaded payload)
        rintro result last ⟨rfl, ctx', rfl, -⟩ fresh
        have hAccepts :
            bearer.Accepts request last payload :=
          ⟨hPresents, hLive, hAccess⟩
        simp [hAccepts]
    | none =>
        apply Ends.mono (unverified_ends token)
        rintro result last ⟨rfl, hNone⟩ fresh
        refine iff_of_false ?_ ?_
        · rintro ⟨ctx', hSame⟩
          cases (hNone _ ctx' hSame).1
        · rintro ⟨hAccepts, -⟩
          cases (hVerified payload).mpr
            ⟨hDecoded, hAccepts.live, hAccepts.access⟩
  · rintro error after ⟨-, verified, hOk, -⟩
    cases hOk

------------------------------------------------------------
-- Agreement
------------------------------------------------------------

/- What two principals of one account have in common. -/
structure SamePrincipal
    (principal fresh : Principal) : Prop where
  user : principal.user = fresh.user
  isSuperuser : principal.isSuperuser = fresh.isSuperuser
  emailVerified :
    principal.emailVerified = fresh.emailVerified
  recoveryVerified :
    principal.recoveryVerified = fresh.recoveryVerified
  scopes : principal.scopes = fresh.scopes
  transport : principal.transport = fresh.transport

/- A fresh authentication finds the same principal. -/
def FreshSame
    (runtime : Runtime)
    (request : HttpRequest)
    (db : DbSession)
    (world : World)
    (transport : Transport)
    (principal : Principal) : Prop :=
  ∃ fresh ctx',
    ((transport.authenticate runtime request
        (enforcing db)).run exec world).1 =
      .ok (some fresh, ctx') ∧
    SamePrincipal principal fresh

/-
  A principal that the call returns from the cache is the
  one that its transport would authenticate at that moment,
  which therefore does not refuse.
-/
def Agrees
    (runtime : Runtime)
    (request : HttpRequest)
    (db : DbSession)
    (transports : List Transport)
    (cache : Cache)
    (cached : CachedPrincipal)
    (world : World) : Prop :=
  ∀ principal cache',
    ((resolve runtime request db transports true true
        cache).run exec world).1 =
      .ok (.ok (some principal), cache') →
    FreshSame runtime request db world cached.transport
      principal

/- A principal in the cache always agrees. -/
def CacheAgrees
    (runtime : Runtime)
    (session : SessionTransport)
    (bearer : BearerTransport)
    (request : HttpRequest) : Prop :=
  ∀ world cache origin db transports cached,
    Progress runtime session bearer request world cache
      origin →
    cache (transports.map Transport.name) = some cached →
    cached.db ≠ db →
    Agrees runtime request db transports cache cached world

------------------------------------------------------------
-- Conditions
------------------------------------------------------------

/-
  The credential of the request is good for the account at
  the moment: a live session of its, and a CSRF token where
  one is asked for, or a live token, of its version.
-/
def Credited
    (runtime : Runtime)
    (request : HttpRequest)
    (world : World)
    (user : Account) : Transport → Prop
  | .session transport =>
      ∃ sessionId record,
        transport.presents request sessionId ∧
        transport.Accepts world sessionId record ∧
        transport.csrfPasses request world sessionId =
          true ∧
        record.userId = user.id ∧
        VersionCurrent runtime record.tokenVersion user
  | .bearer transport =>
      ∃ payload,
        transport.Accepts request world payload ∧
        payload.sub = user.id ∧
        payload.ver = runtime.tokenVersion user.toUser
  | .custom _ => False

/- A row shows the same flags as it did before. -/
structure SameStatus
    (runtime : Runtime)
    (before user : Account) : Prop where
  isSuperuser : before.isSuperuser = user.isSuperuser
  emailVerified : before.emailVerified = user.emailVerified
  recoveryVerified :
    runtime.recoveryVerified before.toUser =
      runtime.recoveryVerified user.toUser

/-
  If the row is there, active, and the checks that are still
  owed pass, then the credential is good for it, and it has
  the flags that it had when the principal was cached.
-/
def Unmoved
    (runtime : Runtime)
    (request : HttpRequest)
    (before world : World)
    (cached : CachedPrincipal) : Prop :=
  ∀ user,
    world.row? cached.principal.userId = some user →
    user.isActive = true →
    Passes request world true true cached →
    Credited runtime request world user cached.transport ∧
      ∀ row,
        before.row? cached.principal.userId = some row →
        SameStatus runtime row user

/- When a call on another session returns the cached one. -/
theorem returns_cached_iff
    {transports : List Transport}
    {cached : CachedPrincipal}
    (hBuilt :
      BuiltCache runtime session bearer request origin cache)
    (hCached :
      cache (transports.map Transport.name) = some cached)
    (hDb : cached.db ≠ db) :
    (∃ cache',
      ((resolve runtime request db transports true true
          cache).run exec world).1 =
        .ok (.ok (some principal), cache')) ↔
      ∃ user,
        world.row? cached.principal.userId = some user ∧
        user.isActive = true ∧
        Passes request world true true cached ∧
        principal = { cached.principal with user } := by
  rcases resolveCached_ends hCached hBuilt with
    ⟨outcome, cache', hOk, -, hReturns⟩
  rw [hOk]
  have hOutcome :
      (∃ cache'',
        (Except.ok (outcome, cache') :
            Except HttpError (Outcome × Cache)) =
          .ok (.ok (some principal), cache'')) ↔
        outcome = .ok (some principal) := by
    simp
  rw [hOutcome, hReturns]
  unfold reloaded
  rw [if_pos hDb]
  cases hRow : world.row? cached.principal.userId with
  | none => simp
  | some user =>
      cases hActive : user.isActive with
      | false => simp [hActive]
      | true =>
          simp only [hActive, Bool.not_true,
            Bool.false_eq_true, if_false,
            Option.some.injEq, exists_eq_left',
            true_and]
          rfl

/- Principals of one row differ in their flags only. -/
theorem same_buildPrincipal
    {name : String}
    {scopes : List String}
    {sessionId? : Option String}
    (hBuilt :
      { principal with user := before } =
        buildPrincipal runtime before name scopes
          sessionId?) :
    SamePrincipal { principal with user }
        (buildPrincipal runtime user name scopes
          sessionId?) ↔
      SameStatus runtime before user := by
  have hSuperuser :
      principal.isSuperuser = before.isSuperuser :=
    congrArg Principal.isSuperuser hBuilt
  have hEmail :
      principal.emailVerified = before.emailVerified :=
    congrArg Principal.emailVerified hBuilt
  have hRecovery :
      principal.recoveryVerified =
        runtime.recoveryVerified before.toUser :=
    congrArg Principal.recoveryVerified hBuilt
  have hScopes : principal.scopes = scopes :=
    congrArg Principal.scopes hBuilt
  have hName : principal.transport = name :=
    congrArg Principal.transport hBuilt
  constructor
  · intro hSame
    exact ⟨hSuperuser.symm.trans hSame.isSuperuser,
      hEmail.symm.trans hSame.emailVerified,
      hRecovery.symm.trans hSame.recoveryVerified⟩
  · intro hStatus
    exact ⟨rfl, hSuperuser.trans hStatus.isSuperuser,
      hEmail.trans hStatus.emailVerified,
      hRecovery.trans hStatus.recoveryVerified,
      hScopes, hName⟩

/- A fresh principal is the cached one if nothing moved. -/
theorem freshSame_iff
    {transport : Transport}
    (hBuilt :
      Built runtime session bearer request before principal
        transport)
    (hRow : world.row? user.id = some user)
    (hActive : user.isActive = true) :
    FreshSame runtime request db world transport
        { principal with user } ↔
      Credited runtime request world user transport ∧
        SameStatus runtime before user := by
  unfold FreshSame
  cases transport with
  | custom transport => exact hBuilt.elim
  | session transport =>
      rcases hBuilt with ⟨rfl, sessionId, hPresents, hBuilt⟩
      have hFresh := @freshSession_ends runtime request
        transport world sessionId db hPresents
      constructor
      · rintro ⟨fresh, ctx', hOk, hSame⟩
        rcases (hFresh fresh).mp ⟨ctx', hOk⟩ with
          ⟨record, hAccepts, hPasses, hFound⟩
        rcases sessionPrincipal_eq_some.mp hFound with
          ⟨user', hRow', -, hCurrent, rfl⟩
        obtain rfl : user = user' := hSame.user
        have hUser : user.id = record.userId :=
          World.id_of_row? hRow'
        exact ⟨⟨sessionId, record, hPresents, hAccepts,
          hPasses, hUser.symm, hCurrent⟩,
          (same_buildPrincipal hBuilt).mp hSame⟩
      · rintro ⟨⟨sessionId', record, hPresents', hAccepts,
          hPasses, hUser, hCurrent⟩, hStatus⟩
        obtain rfl := presents_unique hPresents hPresents'
        rw [← hUser] at hRow
        have hFound := (@sessionPrincipal_eq_some runtime _
          sessionId _ _).mpr
          ⟨user, hRow, hActive, hCurrent, rfl⟩
        rcases (hFresh _).mpr
            ⟨record, hAccepts, hPasses, hFound⟩ with
          ⟨ctx', hOk⟩
        exact ⟨_, ctx', hOk,
          (same_buildPrincipal hBuilt).mpr hStatus⟩
  | bearer transport =>
      rcases hBuilt with ⟨rfl, payload, hPresents, -, hBuilt⟩
      have hFresh := @freshBearer_ends runtime request
        transport world payload db hPresents
      constructor
      · rintro ⟨fresh, ctx', hOk, hSame⟩
        rcases (hFresh fresh).mp ⟨ctx', hOk⟩ with
          ⟨hAccepts, hFound⟩
        rcases bearerPrincipal_eq_some.mp hFound with
          ⟨user', hRow', -, hCurrent, rfl⟩
        obtain rfl : user = user' := hSame.user
        have hUser : user.id = payload.sub :=
          World.id_of_row? hRow'
        exact ⟨⟨payload, hAccepts, hUser.symm, hCurrent⟩,
          (same_buildPrincipal hBuilt).mp hSame⟩
      · rintro ⟨⟨payload', hAccepts, hUser, hCurrent⟩,
          hStatus⟩
        obtain rfl :=
          payload_unique hPresents hAccepts.presented
        rw [← hUser] at hRow
        have hFound := bearerPrincipal_eq_some.mpr
          ⟨user, hRow, hActive, hCurrent, rfl⟩
        rcases (hFresh _).mpr ⟨hAccepts, hFound⟩ with
          ⟨ctx', hOk⟩
        exact ⟨_, ctx', hOk,
          (same_buildPrincipal hBuilt).mpr hStatus⟩

/-
  The cache agrees with a fresh authentication exactly when
  neither the credential nor the row's flags have moved.
-/
theorem agrees_iff_unmoved
    (runtime : Runtime)
    (session : SessionTransport)
    (bearer : BearerTransport)
    (request : HttpRequest)
    (world : World)
    (cache : Cache)
    (origin : List String → World)
    (db : DbSession)
    (transports : List Transport)
    (cached : CachedPrincipal)
    (hProgress :
      Progress runtime session bearer request world cache
        origin)
    (hCached :
      cache (transports.map Transport.name) = some cached)
    (hDb : cached.db ≠ db) :
    Agrees runtime request db transports cache cached
        world ↔
      Unmoved runtime request
        (origin (transports.map Transport.name)) world
        cached := by
  have hBuilt := progress_built hProgress
  rcases hBuilt _ cached hCached with
    ⟨before, hBefore, hOne⟩
  constructor
  · intro hAgrees user hRow hActive hPasses
    rcases (returns_cached_iff hBuilt hCached hDb).mpr
        ⟨user, hRow, hActive, hPasses, rfl⟩ with
      ⟨cache', hReturned⟩
    have hFresh := hAgrees _ cache' hReturned
    rw [← World.id_of_row? hRow] at hRow
    rcases (freshSame_iff hOne hRow hActive).mp hFresh with
      ⟨hCredited, hStatus⟩
    refine ⟨hCredited, fun row hOld => ?_⟩
    obtain rfl : before = row :=
      Option.some.inj (hBefore.symm.trans hOld)
    exact hStatus
  · intro hUnmoved principal cache' hReturned
    rcases (returns_cached_iff hBuilt hCached hDb).mp
        ⟨cache', hReturned⟩ with
      ⟨user, hRow, hActive, hPasses, rfl⟩
    rcases hUnmoved user hRow hActive hPasses with
      ⟨hCredited, hStatus⟩
    rw [← World.id_of_row? hRow] at hRow
    exact (freshSame_iff hOne hRow hActive).mpr
      ⟨hCredited, hStatus before hBefore⟩

/- The small application accepts no bearer token. -/
def noBearer : BearerTransport where
  decode := fun _ => none

/- What middleware leaves in the cache. -/
def afterMiddleware : Outcome × Cache :=
  match ((Scenario.middleware.serve CrudAuth.Scenario.runtime
      Scenario.request fun _ => none).run exec
      Scenario.world).1 with
  | .ok left => left
  | .error error => (.error error, fun _ => none)

/- Its origin is the moment of the call. -/
def middlewareOrigin : List String → World :=
  originAfter Scenario.world (fun _ => none)
    (fun _ => Scenario.world) Scenario.middleware

/- The middleware's resolve is such a call. -/
theorem progress_middleware :
    Progress CrudAuth.Scenario.runtime Scenario.transport
      noBearer Scenario.request Scenario.world
      afterMiddleware.2 middlewareOrigin := by
  have hSelected :
      Scenario.middleware.transports ⊆
        builtIn Scenario.transport noBearer := by
    simp [Scenario.middleware, Call.transports]
  exact .call (.start Scenario.world) hSelected rfl

/- The account is no superuser any more. -/
def demoted : World :=
  { Scenario.world with
    users :=
      [{ Scenario.account with isSuperuser := false }] }

/- Whether a fresh authentication finds a superuser. -/
def findsSuperuser :
    Except HttpError (Option Principal × AuthContext) →
    Option Bool
  | .ok (some principal, _) => some principal.isSuperuser
  | .ok (none, _) => none
  | .error _ => none

/- The gate still gets a superuser. -/
theorem not_cacheAgrees_of_demotion :
    ¬ CacheAgrees CrudAuth.Scenario.runtime
      Scenario.transport noBearer Scenario.request := by
  intro hAgrees
  have hProgress := progress_middleware.change demoted
  rcases hAgrees _ _ _ 1 [.session Scenario.transport] _
      hProgress rfl (by decide) _ _ rfl with
    ⟨fresh, ctx', hFresh, hSame⟩
  have hDemoted : some false = some fresh.isSuperuser :=
    congrArg findsSuperuser hFresh
  have hCached : true = fresh.isSuperuser :=
    hSame.isSuperuser
  rw [← hCached] at hDemoted
  cases hDemoted

/- A minute later the account has another name. -/
def renamed : World :=
  { Scenario.world with
    users :=
      [{ Scenario.account with username := some "bea" }]
    clock := 1060 }

/- The principal that middleware has cached. -/
def afterMiddlewareEntry : CachedPrincipal :=
  (afterMiddleware.2 ["session"]).get rfl

/- Its session is still live, and its flags are the same. -/
theorem unmoved_renamed :
    Unmoved CrudAuth.Scenario.runtime Scenario.request
      (middlewareOrigin ["session"]) renamed
      afterMiddlewareEntry := by
  intro user hRow _ _
  obtain rfl :
      { Scenario.account with username := some "bea" } =
        user :=
    Option.some.inj hRow
  refine ⟨⟨"s1", _, ⟨rfl, rfl⟩, ⟨rfl, ?_, ?_⟩, ?_, rfl,
    Or.inr rfl⟩, ?_⟩
  · decide
  · decide
  · decide
  · intro row hOld
    obtain rfl : Scenario.account = row :=
      Option.some.inj hOld
    exact ⟨rfl, rfl, rfl⟩

/- So the gate agrees, although time and the row moved. -/
theorem gate_agrees :
    Agrees CrudAuth.Scenario.runtime Scenario.request 1
      [.session Scenario.transport] afterMiddleware.2
      afterMiddlewareEntry renamed :=
  (agrees_iff_unmoved CrudAuth.Scenario.runtime
    Scenario.transport noBearer Scenario.request renamed
    afterMiddleware.2 middlewareOrigin 1
    [.session Scenario.transport] afterMiddlewareEntry
    (progress_middleware.change renamed) rfl
    (by decide)).mpr unmoved_renamed

end Resolution

end CrudAuth
