import CrudAuth.Resolution.Authentication

/-
  The resolver's cache over the calls of one request, while
  time passes and the user table and the stores change
  between them: every principal in it was built from the row
  there was at the call that cached it.

  Main declarations:
    * `BuiltCache`
    * `Passes`
    * `resolveCached_ends`
    * `Progress`
    * `progress_built`
-/

namespace CrudAuth

namespace Resolution

open Concurrency Program

variable {runtime : Runtime}
variable {request : HttpRequest}
variable {session : SessionTransport}
variable {bearer : BearerTransport}
variable {world after middle : World}
variable {ctx : AuthContext}
variable {principal : Principal}
variable {sessionId : String}
variable {cache cache' : Cache}
variable {transports : List Transport}
variable {origin : List String → World}
variable {key : List String}

------------------------------------------------------------
-- The Cache
------------------------------------------------------------

/- The transports of the application, session and bearer. -/
abbrev builtIn
    (session : SessionTransport)
    (bearer : BearerTransport) : List Transport :=
  [.session session, .bearer bearer]

/- Every cached principal was built where it was cached. -/
def BuiltCache
    (runtime : Runtime)
    (session : SessionTransport)
    (bearer : BearerTransport)
    (request : HttpRequest)
    (origin : List String → World)
    (cache : Cache) : Prop :=
  ∀ key cached, cache key = some cached →
    BuiltAt runtime session bearer request (origin key)
      cached.principal cached.transport

/- A principal that is cached was built. -/
theorem BuiltCache.insert
    {cached : CachedPrincipal}
    (hBuilt :
      BuiltCache runtime session bearer request origin cache)
    (hNew :
      BuiltAt runtime session bearer request (origin key)
        cached.principal cached.transport) :
    BuiltCache runtime session bearer request origin
      (Function.update cache key (some cached)) := by
  intro key' cached' hCached
  by_cases hKey : key' = key
  · subst hKey
    obtain rfl : cached = cached' := by
      simpa using hCached
    exact hNew
  · rw [Function.update_of_ne hKey] at hCached
    exact hBuilt key' cached' hCached

/- Dropping one leaves the others. -/
theorem BuiltCache.erase
    (hBuilt :
      BuiltCache runtime session bearer request origin
        cache) :
    BuiltCache runtime session bearer request origin
      (Function.update cache key none) := by
  intro key' cached' hCached
  by_cases hKey : key' = key
  · subst hKey
    simp at hCached
  · rw [Function.update_of_ne hKey] at hCached
    exact hBuilt key' cached' hCached

/- Where nothing is cached, the origin is of no matter. -/
theorem BuiltCache.move
    (hBuilt :
      BuiltCache runtime session bearer request origin cache)
    (hNone : cache key = none) :
    BuiltCache runtime session bearer request
      (Function.update origin key world) cache := by
  intro key' cached' hCached
  by_cases hKey : key' = key
  · subst hKey
    rw [hNone] at hCached
    cases hCached
  · rw [Function.update_of_ne hKey]
    exact hBuilt key' cached' hCached

/- What is built hangs on the table alone. -/
theorem BuiltAt.congr
    {transport : Transport}
    (hBuilt :
      BuiltAt runtime session bearer request after principal
        transport)
    (hUsers : after.users = world.users) :
    BuiltAt runtime session bearer request world principal
      transport := by
  rcases hBuilt with ⟨before, hRow, hBefore⟩
  rw [row?_congr hUsers] at hRow
  exact ⟨before, hRow, hBefore⟩

------------------------------------------------------------
-- The First Call
------------------------------------------------------------

/- What is found was built from a row there is. -/
theorem authenticateFirst_ends
    (hBuiltIn : transports ⊆ builtIn session bearer)
    (hLoaded : LoadedRows world ctx) :
    Ends exec
      (authenticateFirst runtime request transports ctx)
      world
      fun result _ =>
        ∀ transport principal,
          result = .ok (some (transport, principal)) →
          BuiltAt runtime session bearer request world
            principal transport := by
  induction transports generalizing world ctx with
  | nil =>
      unfold authenticateFirst
      rw [ends_pure]
      simp
  | cons transport transports ih =>
      have hRest : transports ⊆ builtIn session bearer :=
        fun _ hMem => hBuiltIn (List.mem_cons_of_mem _ hMem)
      have hTried :
          Ends exec
            (transport.authenticate runtime request ctx)
            world
            fun result after =>
              Authenticates runtime session bearer request
                transport world result ∧
              after.users = world.users := by
        refine ⟨?_, ends_users _ world⟩
        have hMem :
            transport ∈ builtIn session bearer :=
          hBuiltIn List.mem_cons_self
        simp only [builtIn, List.mem_cons, List.not_mem_nil,
          or_false] at hMem
        rcases hMem with rfl | rfl
        · exact authenticateSession_ends hLoaded
        · exact authenticateBearer_ends hLoaded
      unfold authenticateFirst
      refine Ends.bind hTried ?_ ?_
      · rintro ⟨found, ctx'⟩ after ⟨hAuthenticated, hUsers⟩
        cases found with
        | some principal =>
            intro transport' principal' hSame
            obtain ⟨rfl, rfl⟩ := by simpa using hSame
            exact hAuthenticated.built principal ctx' rfl
        | none =>
            have hLoaded' :
                LoadedRows after
                  { ctx with loaded := ctx'.loaded } :=
              (hAuthenticated.rows none ctx' rfl).congr
                hUsers
            apply Ends.mono (ih hRest hLoaded')
            intro result last hBuilt transport' principal'
              hSame
            exact (hBuilt transport' principal' hSame).congr
              hUsers
      · intro error after _ transport' principal' hSame
        cases hSame

/- What a first call leaves in the cache. -/
theorem resolveFirst_ends
    {db : DbSession}
    {enforceCsrf updateActivity : Bool}
    (hBuiltIn : transports ⊆ builtIn session bearer)
    (hBuilt :
      BuiltCache runtime session bearer request origin cache)
    (hOrigin :
      origin (transports.map Transport.name) = world) :
    Ends exec
      (resolveFirst runtime request db transports enforceCsrf
        updateActivity cache) world
      fun result _ =>
        ∃ outcome cache',
          result = .ok (outcome, cache') ∧
            BuiltCache runtime session bearer request origin
              cache' := by
  have hTried :
      Ends exec
        (authenticateFirst runtime request transports
          { db, enforceCsrf, updateActivity }).attempt world
        fun result _ =>
          ∃ tried,
            result = .ok tried ∧
              ∀ transport principal,
                tried = .ok (some (transport, principal)) →
                BuiltAt runtime session bearer request world
                  principal transport := by
    have hNone :
        LoadedRows world
          ({ db, enforceCsrf, updateActivity } :
            AuthContext) := by
      intro id user hLookup
      simp at hLookup
    apply Ends.attempt
      (authenticateFirst_ends hBuiltIn hNone)
    intro tried after hFound
    exact ⟨tried, rfl, hFound⟩
  unfold resolveFirst
  refine Ends.bind hTried ?_ ?_
  · rintro value after ⟨tried, hOk, hFound⟩
    obtain rfl := Except.ok.inj hOk
    cases value with
    | error error => exact ⟨_, _, rfl, hBuilt⟩
    | ok found =>
        cases found with
        | none => exact ⟨_, _, rfl, hBuilt⟩
        | some resolved =>
            rcases resolved with ⟨transport, principal⟩
            refine ⟨_, _, rfl, hBuilt.insert ?_⟩
            rw [hOrigin]
            exact hFound transport principal rfl
  · rintro error after ⟨tried, hOk, -⟩
    cases hOk

------------------------------------------------------------
-- Later Calls
------------------------------------------------------------

/- What a reload makes of a cached principal. -/
def reloaded
    (db : DbSession)
    (world : World)
    (cached : CachedPrincipal) : Option CachedPrincipal :=
  if cached.db ≠ db then
    match world.row? cached.principal.userId with
    | none => none
    | some user =>
        if !user.isActive then
          none
        else
          some
            { cached with
              principal := { cached.principal with user }
              db := db }
  else
    some cached

/- A reload reads the row of the principal. -/
theorem reload_ends
    {db : DbSession}
    {cached : CachedPrincipal} :
    Ends exec (reload db cached) world
      fun result after =>
        after = world ∧
          result = .ok (reloaded db world cached) := by
  unfold reload reloaded
  split
  · apply ends_step
    simp only [exec]
    cases world.row? cached.principal.userId with
    | none => exact ⟨rfl, rfl⟩
    | some user =>
        cases hActive : user.isActive with
        | false => simp [hActive]
        | true => simp [hActive]
  · exact ⟨rfl, rfl⟩

/-
  Replacing the row leaves what a principal is built from.
-/
theorem built_of_reloaded
    {db : DbSession}
    {cached cached' : CachedPrincipal}
    (hBuilt :
      BuiltAt runtime session bearer request middle
        cached.principal cached.transport)
    (hReloaded : reloaded db world cached = some cached') :
    BuiltAt runtime session bearer request middle
      cached'.principal cached'.transport := by
  unfold reloaded at hReloaded
  split at hReloaded
  · split at hReloaded
    · cases hReloaded
    · split at hReloaded
      · cases hReloaded
      · obtain rfl := Option.some.inj hReloaded
        rcases cached with ⟨principal, transport, _⟩
        cases transport with
        | session transport => exact hBuilt
        | bearer transport => exact hBuilt
        | custom transport => exact hBuilt
  · obtain rfl := Option.some.inj hReloaded
    exact hBuilt

/- The activity update of a live session, where it is due. -/
theorem checkActivity_ends :
    Ends exec (session.checkActivity sessionId ctx) world
      fun result after =>
        (result = .ok true ↔
          (ctx.updateActivity = true →
            ∃ record,
              session.Accepts world sessionId record)) ∧
        (result = .ok true → after.csrf = world.csrf) := by
  unfold SessionTransport.checkActivity
  split
  case isFalse hSkipped =>
    refine ⟨?_, fun _ => rfl⟩
    simp [hSkipped]
  case isTrue hDue =>
    by_cases hAny :
        ∃ record, session.Accepts world sessionId record
    · rcases hAny with ⟨record, hAccepts⟩
      refine Ends.bind
        (validateSession_accepted hAccepts true) ?_ ?_
      · intro value after hValidated
        rcases hValidated.accepted with ⟨record', hOk, -⟩
        obtain rfl := Except.ok.inj hOk
        refine ⟨?_, fun _ => hValidated.csrf⟩
        exact iff_of_true rfl fun _ => ⟨record, hAccepts⟩
      · intro error after hValidated
        rcases hValidated.accepted with ⟨record', hOk, -⟩
        cases hOk
    · rw [not_exists] at hAny
      have hNever :
          ¬ (ctx.updateActivity = true →
            ∃ record,
              session.Accepts world sessionId record) := by
        intro hAll
        rcases hAll hDue with ⟨record, hAccepts⟩
        exact hAny record hAccepts
      refine Ends.bind
        (validateSession_rejected hAny true) ?_ ?_
      · intro value after hNone
        cases value with
        | some record => exact absurd rfl (hNone record)
        | none =>
            have hFalse :
                (Except.ok (none :
                  Option SessionRecord).isSome :
                  Except HttpError Bool) ≠ .ok true := by
              simp
            exact ⟨iff_of_false hFalse hNever,
              fun hSame => absurd hSame hFalse⟩
      · intro error after _
        have hFalse :
            (Except.error error : Except HttpError Bool) ≠
              .ok true := by
          simp
        exact ⟨iff_of_false hFalse hNever,
          fun hSame => absurd hSame hFalse⟩

/- A session revalidates if the checks it lacks pass. -/
theorem revalidate_ends
    (hId : principal.sessionId = some sessionId)
    (hSome : sessionId.isEmpty = false) :
    Ends exec (session.revalidate request principal ctx)
      world
      fun result _ =>
        result = .ok true ↔
          (ctx.updateActivity = true →
            ∃ record,
              session.Accepts world sessionId record) ∧
          (ctx.enforceCsrf = true →
            session.csrfPasses request world sessionId =
              true) := by
  unfold SessionTransport.revalidate
  rw [hId]
  simp only [hSome, Bool.false_eq_true, if_false]
  refine Ends.bind checkActivity_ends ?_ ?_
  · rintro value active ⟨hActive, hCsrf⟩
    cases value with
    | false =>
        have hFalse :
            (Except.ok false : Except HttpError Bool) ≠
              .ok true := by
          simp
        refine iff_of_false hFalse fun hBoth => ?_
        exact hFalse (hActive.mpr hBoth.1)
    | true =>
        rw [if_pos rfl]
        have hUpdated := hActive.mp rfl
        refine Ends.bind checkCsrf_ends ?_ ?_
        · rintro _ checked ⟨rfl, hChecked⟩
          have hPasses := hChecked.mp rfl
          rw [csrfPasses_congr (hCsrf rfl)] at hPasses
          exact iff_of_true rfl ⟨hUpdated, hPasses⟩
        · rintro error checked ⟨rfl, hChecked⟩
          rw [csrfPasses_congr (hCsrf rfl)] at hChecked
          refine iff_of_false (by simp) fun hBoth => ?_
          cases hChecked.mpr hBoth.2
  · rintro error active ⟨hActive, -⟩
    refine iff_of_false (by simp) fun hBoth => ?_
    cases hActive.mpr hBoth.1

/- The checks that a cached principal still owes pass. -/
def Passes
    (request : HttpRequest)
    (world : World)
    (enforceCsrf updateActivity : Bool)
    (cached : CachedPrincipal) : Prop :=
  ∀ transport sessionId,
    cached.transport = .session transport →
    cached.principal.sessionId = some sessionId →
    (updateActivity = true → cached.activityUpdated = false →
      ∃ record,
        transport.Accepts world sessionId record) ∧
    (enforceCsrf = true → cached.csrfEnforced = false →
      transport.csrfPasses request world sessionId = true)

/- They pass on a later call exactly if they do. -/
theorem completeChecks_ends
    {before : Account}
    {db : DbSession}
    {enforceCsrf updateActivity : Bool}
    {cached : CachedPrincipal}
    (hBuilt :
      Built runtime session bearer request before
        cached.principal cached.transport) :
    Ends exec
      (completeChecks request db enforceCsrf updateActivity
        cached) world
      fun result _ =>
        result = .ok true ↔
          Passes request world enforceCsrf updateActivity
            cached := by
  rcases cached with ⟨principal, transport, db', done, slid⟩
  cases transport with
  | custom transport => exact hBuilt.elim
  | bearer transport =>
      have hPasses :
          Passes request world enforceCsrf updateActivity
            ⟨principal, .bearer transport, db', done,
              slid⟩ := by
        intro other sessionId hSame
        cases hSame
      unfold completeChecks
      dsimp only
      split
      · exact iff_of_true rfl hPasses
      · exact iff_of_true rfl hPasses
  | session transport =>
      rcases hBuilt with ⟨rfl, sessionId, hPresents, hBuilt⟩
      have hId : principal.sessionId = some sessionId :=
        congrArg Principal.sessionId hBuilt
      have hPasses :
          Passes request world enforceCsrf updateActivity
              ⟨principal, .session transport, db', done,
                slid⟩ ↔
            ((updateActivity && !slid) = true →
              ∃ record,
                transport.Accepts world sessionId record) ∧
            ((enforceCsrf && !done) = true →
              transport.csrfPasses request world sessionId =
                true) := by
        unfold Passes
        simp [hId]
      rw [hPasses]
      unfold completeChecks
      dsimp only
      split
      · exact revalidate_ends hId hPresents.2
      · rename_i hNothing
        rw [Bool.not_eq_true, Bool.or_eq_false_iff]
          at hNothing
        refine iff_of_true rfl ⟨?_, ?_⟩
        · intro hDue
          rw [hNothing.2] at hDue
          cases hDue
        · intro hDue
          rw [hNothing.1] at hDue
          cases hDue

/- What the later call sees of them. -/
theorem triedChecks_ends
    {before : Account}
    {db : DbSession}
    {enforceCsrf updateActivity : Bool}
    {cached : CachedPrincipal}
    (hBuilt :
      Built runtime session bearer request before
        cached.principal cached.transport) :
    Ends exec
      (completeChecks request db enforceCsrf updateActivity
        cached).attempt world
      fun result _ =>
        ∃ tried,
          result = .ok tried ∧
            (tried = .ok true ↔
              Passes request world enforceCsrf
                updateActivity cached) := by
  apply Ends.attempt (completeChecks_ends hBuilt)
  intro tried last hPassed
  exact ⟨tried, rfl, hPassed⟩

/- What a call on a cached principal comes to. -/
theorem resolveCached_ends
    {db : DbSession}
    {enforceCsrf updateActivity : Bool}
    {cached : CachedPrincipal}
    (hCached :
      cache (transports.map Transport.name) = some cached)
    (hBuilt :
      BuiltCache runtime session bearer request origin
        cache) :
    Ends exec
      (resolve runtime request db transports enforceCsrf
        updateActivity cache) world
      fun result _ =>
        ∃ outcome cache',
          result = .ok (outcome, cache') ∧
          BuiltCache runtime session bearer request origin
            cache' ∧
          ∀ principal, outcome = .ok (some principal) ↔
            ∃ cached',
              reloaded db world cached = some cached' ∧
              Passes request world enforceCsrf
                updateActivity cached' ∧
              principal = cached'.principal := by
  have hOne := hBuilt _ cached hCached
  unfold resolve
  dsimp only
  rw [hCached]
  refine Ends.bind reload_ends ?_ ?_
  · rintro value after ⟨rfl, hOk⟩
    obtain rfl := Except.ok.inj hOk
    cases hReloaded : reloaded db after cached with
    | none => exact ⟨_, _, rfl, hBuilt.erase, by simp⟩
    | some cached' =>
        have hOne' := built_of_reloaded hOne hReloaded
        have hOthers (principal : Principal) :
            (∃ cached'',
              (some cached' : Option CachedPrincipal) =
                  some cached'' ∧
                Passes request after enforceCsrf
                  updateActivity cached'' ∧
                principal = cached''.principal) ↔
              Passes request after enforceCsrf
                  updateActivity cached' ∧
                principal = cached'.principal := by
          simp
        have hFrom := hOne'
        rcases hFrom with ⟨before, -, hFrom⟩
        refine Ends.bind (triedChecks_ends hFrom) ?_ ?_
        · rintro tried last ⟨tried', hOk', hPassed⟩
          obtain rfl := Except.ok.inj hOk'
          cases tried with
          | error error =>
              refine ⟨_, _, rfl, hBuilt.insert hOne', ?_⟩
              intro principal
              rw [hOthers, ← hPassed]
              simp
          | ok passed =>
              cases passed with
              | false =>
                  refine ⟨_, _, rfl, hBuilt.erase, ?_⟩
                  intro principal
                  rw [hOthers, ← hPassed]
                  simp
              | true =>
                  refine ⟨_, _, rfl, hBuilt.insert hOne', ?_⟩
                  intro principal
                  rw [hOthers, ← hPassed]
                  simp [eq_comm]
        · rintro error last ⟨tried, hOk', -⟩
          cases hOk'
  · rintro error after ⟨-, hOk⟩
    cases hOk

------------------------------------------------------------
-- One Request While Everything Changes
------------------------------------------------------------

/- Where principals are from, after a call at a moment. -/
def originAfter
    (world : World)
    (cache : Cache)
    (origin : List String → World)
    (call : Call) : List String → World :=
  let key := call.transports.map Transport.name
  if (cache key).isNone then
    Function.update origin key world
  else
    origin

/- A first call on a selection is an origin. -/
theorem originAfter_of_none
    {call : Call}
    (hNone :
      cache (call.transports.map Transport.name) = none) :
    originAfter world cache origin call =
      Function.update origin
        (call.transports.map Transport.name) world := by
  unfold originAfter
  dsimp only
  rw [hNone, Option.isNone_none, if_pos rfl]

/- A later one is not. -/
theorem originAfter_of_some
    {call : Call}
    {cached : CachedPrincipal}
    (hCached :
      cache (call.transports.map Transport.name) =
        some cached) :
    originAfter world cache origin call = origin := by
  unfold originAfter
  dsimp only
  rw [hCached, Option.isNone_some,
    if_neg Bool.false_ne_true]

/- A call, on a selection that may have been cached. -/
theorem resolve_ends
    {call : Call}
    {db : DbSession}
    {enforceCsrf updateActivity : Bool}
    (hBuiltIn : call.transports ⊆ builtIn session bearer)
    (hBuilt :
      BuiltCache runtime session bearer request origin
        cache) :
    Ends exec
      (resolve runtime request db call.transports
        enforceCsrf updateActivity cache) world
      fun result _ =>
        ∃ outcome cache',
          result = .ok (outcome, cache') ∧
            BuiltCache runtime session bearer request
              (originAfter world cache origin call)
              cache' := by
  cases hCached :
      cache (call.transports.map Transport.name) with
  | none =>
      rw [originAfter_of_none hCached]
      unfold resolve
      dsimp only
      rw [hCached]
      exact resolveFirst_ends hBuiltIn
        (hBuilt.move hCached)
        (Function.update_self _ _ _)
  | some cached =>
      rw [originAfter_of_some hCached]
      apply Ends.mono (resolveCached_ends hCached hBuilt)
      rintro result after
        ⟨outcome, cache', hOk, hBuilt', -⟩
      exact ⟨outcome, cache', hOk, hBuilt'⟩

/- One call leaves what was built where it was cached. -/
theorem serve_ends
    (call : Call)
    (hBuiltIn : call.transports ⊆ builtIn session bearer)
    (hBuilt :
      BuiltCache runtime session bearer request origin
        cache) :
    Ends exec (call.serve runtime request cache) world
      fun result _ =>
        ∀ outcome cache', result = .ok (outcome, cache') →
          BuiltCache runtime session bearer request
            (originAfter world cache origin call)
            cache' := by
  cases call with
  | resolve db transports enforceCsrf updateActivity =>
      apply Ends.mono (resolve_ends hBuiltIn hBuilt)
      rintro result after
        ⟨outcome, cache', rfl, hBuilt'⟩ outcome' cache''
        hSame
      obtain ⟨-, rfl⟩ := by simpa using hSame
      exact hBuilt'
  | resolveOutsideDependencies db transports
      updateActivity =>
      refine Ends.bind (resolve_ends hBuiltIn hBuilt) ?_ ?_
      · rintro value after ⟨outcome, cache', hOk, hBuilt'⟩
        obtain rfl := Except.ok.inj hOk
        dsimp only
        cases outcome with
        | ok found =>
            rintro outcome' cache'' hSame
            obtain ⟨-, rfl⟩ := by simpa using hSame
            exact hBuilt'
        | error error =>
            dsimp only
            split
            · rintro outcome' cache'' hSame
              obtain ⟨-, rfl⟩ := by simpa using hSame
              exact hBuilt'
            · rintro outcome' cache'' hSame
              obtain ⟨-, rfl⟩ := by simpa using hSame
              exact hBuilt'
      · rintro error after ⟨outcome, cache', hOk, -⟩
        cases hOk

/-
  What calls on one request come to.  Between two of them
  time passes, and the user table and the stores may become
  anything.  `origin` is the moment of the call that cached
  the principal of a selection.
-/
inductive Progress
    (runtime : Runtime)
    (session : SessionTransport)
    (bearer : BearerTransport)
    (request : HttpRequest) :
    World → Cache → (List String → World) → Prop
  | start (world : World) :
      Progress runtime session bearer request world
        (fun _ => none) (fun _ => world)
  | change
      {world : World}
      {cache : Cache}
      {origin : List String → World}
      (hProgress :
        Progress runtime session bearer request world cache
          origin)
      (later : World) :
      Progress runtime session bearer request later cache
        origin
  | call
      {world after : World}
      {cache cache' : Cache}
      {origin : List String → World}
      {call : Call}
      {outcome : Outcome}
      (hProgress :
        Progress runtime session bearer request world cache
          origin)
      (hSelected :
        call.transports ⊆ builtIn session bearer)
      (hRun :
        (call.serve runtime request cache).run exec world =
          (.ok (outcome, cache'), after)) :
      Progress runtime session bearer request after cache'
        (originAfter world cache origin call)

/- Along a request, the cache holds what was built. -/
theorem progress_built
    (hProgress :
      Progress runtime session bearer request world cache
        origin) :
    BuiltCache runtime session bearer request origin
      cache := by
  induction hProgress with
  | start world =>
      intro key cached hCached
      cases hCached
  | change hProgress later ih => exact ih
  | @call world after cache cache' origin call outcome
      hProgress hSelected hRun ih =>
      have hServed :
          Ends exec (call.serve runtime request cache) world
            fun result _ =>
              ∀ outcome cache',
                result = .ok (outcome, cache') →
                BuiltCache runtime session bearer request
                  (originAfter world cache origin call)
                  cache' :=
        serve_ends call hSelected ih
      unfold Ends at hServed
      rw [hRun] at hServed
      exact hServed outcome cache' rfl

end Resolution

end CrudAuth
