import CrudAuth.Resolution.Transports

/-
  `PrincipalResolver`: one authentication per request and
  transport selection, cached on the request.

  Main declarations:
    * `Transport`
    * `CachedPrincipal`
    * `resolve`
    * `Served`
-/

namespace CrudAuth

namespace Resolution

open Concurrency

------------------------------------------------------------
-- Transports
------------------------------------------------------------

/-
  A transport of the application's own, under a name of its
  own.  Whatever it does, it names the principals it builds
  after itself.
-/
structure CustomTransport where
  name : String
  authenticate : HttpRequest → AuthContext →
    Flow (Option Principal × AuthContext)
  revalidate : HttpRequest → Principal → AuthContext →
    Flow Bool
  ownName : ∀ request ctx past principal ctx' past',
    (authenticate request ctx).Yields past past'
      (.ok (some principal, ctx')) →
    principal.transport = name
  name_ne : name ≠ SessionTransport.name

/-
  The transports of the package, or one of the app's own.
-/
inductive Transport
  | session (transport : SessionTransport)
  | bearer (transport : BearerTransport)
  | custom (transport : CustomTransport)

namespace Transport

/- `name` of a transport. -/
def name : Transport → String
  | .session _ => SessionTransport.name
  | .bearer _ => BearerTransport.name
  | .custom transport => transport.name

/- Each transport authenticates in its own way. -/
def authenticate
    (runtime : Runtime)
    (request : HttpRequest)
    (ctx : AuthContext) :
    Transport → Flow (Option Principal × AuthContext)
  | .session transport =>
      transport.authenticate runtime request ctx
  | .bearer transport =>
      transport.authenticate runtime request ctx
  | .custom transport => transport.authenticate request ctx

/- The default has nothing to check again. -/
def revalidate
    (request : HttpRequest)
    (principal : Principal)
    (ctx : AuthContext) : Transport → Flow Bool
  | .session transport =>
      transport.revalidate request principal ctx
  | .bearer _ => return true
  | .custom transport =>
      transport.revalidate request principal ctx

end Transport

------------------------------------------------------------
-- The Cache
------------------------------------------------------------

/- `_CachedPrincipal` -/
structure CachedPrincipal where
  principal : Principal
  transport : Transport
  db : DbSession
  csrfEnforced : Bool
  activityUpdated : Bool

/- Principals by the names of the selected transports. -/
abbrev Cache := List String → Option CachedPrincipal

/- What a call returns or raises. -/
abbrev Outcome := Except HttpError (Option Principal)

/-
  The first transport that finds a credential; the rows one
  has loaded are there for the next.
-/
def authenticateFirst
    (runtime : Runtime)
    (request : HttpRequest) :
    List Transport → AuthContext →
    Flow (Option (Transport × Principal))
  | [], _ => return none
  | transport :: transports, ctx => do
      match ← transport.authenticate runtime request ctx with
      | (some principal, _) =>
          return some (transport, principal)
      | (none, after) =>
          authenticateFirst runtime request transports
            { ctx with loaded := after.loaded }

/- Nothing is cached yet for the selection. -/
def resolveFirst
    (runtime : Runtime)
    (request : HttpRequest)
    (db : DbSession)
    (transports : List Transport)
    (enforceCsrf updateActivity : Bool)
    (cache : Cache) : Flow (Outcome × Cache) := do
  let ctx : AuthContext :=
    { db, enforceCsrf, updateActivity }
  match ← (authenticateFirst runtime request transports
      ctx).attempt with
  | .error error => return (.error error, cache)
  | .ok none => return (.ok none, cache)
  | .ok (some (transport, principal)) =>
      return (.ok (some principal),
        Function.update cache (transports.map Transport.name)
          (some
            { principal, transport, db
              csrfEnforced := enforceCsrf
              activityUpdated := updateActivity }))

/-
  On another database session the user is loaded again,
  and only the row of the principal is replaced.
-/
def reload
    (db : DbSession)
    (cached : CachedPrincipal) :
    Flow (Option CachedPrincipal) :=
  if cached.db ≠ db then do
    match ← call (.getById db cached.principal.userId) with
    | none => return none
    | some user =>
        if !user.isActive then
          return none
        else
          return some
            { cached with
              principal := { cached.principal with user }
              db := db }
  else
    return some cached

/- Run the checks that earlier calls have skipped. -/
def completeChecks
    (request : HttpRequest)
    (db : DbSession)
    (enforceCsrf updateActivity : Bool)
    (cached : CachedPrincipal) : Flow Bool :=
  let missingCsrf := enforceCsrf && !cached.csrfEnforced
  let missingActivity :=
    updateActivity && !cached.activityUpdated
  if missingCsrf || missingActivity then
    cached.transport.revalidate request cached.principal
      { db
        enforceCsrf := missingCsrf
        updateActivity := missingActivity }
  else
    return true

/- An entry that fails its checks is dropped. -/
def resolve
    (runtime : Runtime)
    (request : HttpRequest)
    (db : DbSession)
    (transports : List Transport)
    (enforceCsrf updateActivity : Bool)
    (cache : Cache) : Flow (Outcome × Cache) :=
  let key := transports.map Transport.name
  match cache key with
  | none =>
      resolveFirst runtime request db transports enforceCsrf
        updateActivity cache
  | some cached => do
      match ← reload db cached with
      | none =>
        return (.ok none, Function.update cache key none)
      | some cached =>
          match ← (completeChecks request db enforceCsrf
              updateActivity cached).attempt with
          | .error error =>
              return (.error error,
                Function.update cache key (some cached))
          | .ok false =>
              return (.ok none,
                Function.update cache key none)
          | .ok true =>
              return (.ok (some cached.principal),
                Function.update cache key
                  (some
                    { cached with
                      csrfEnforced :=
                        cached.csrfEnforced || enforceCsrf
                      activityUpdated :=
                        cached.activityUpdated ||
                          updateActivity }))

------------------------------------------------------------
-- Calls On One Request
------------------------------------------------------------

/- A call on a request's resolver. -/
inductive Call
  | resolve
      (db : DbSession)
      (transports : List Transport)
      (enforceCsrf updateActivity : Bool)
  | resolveOutsideDependencies
      (db : DbSession)
      (transports : List Transport)
      (updateActivity : Bool)

namespace Call

/- The transports that a call tries. -/
def transports : Call → List Transport
  | .resolve _ transports _ _ => transports
  | .resolveOutsideDependencies _ transports _ => transports

/- A call asks for the CSRF check. -/
def enforcesCsrf : Call → Bool
  | .resolve _ _ enforceCsrf _ => enforceCsrf
  | .resolveOutsideDependencies _ _ _ => false

/- Middleware gets `none` for an invalid credential. -/
def serve
    (runtime : Runtime)
    (request : HttpRequest)
    (cache : Cache) : Call → Flow (Outcome × Cache)
  | .resolve db transports enforceCsrf updateActivity =>
      Resolution.resolve runtime request db transports
        enforceCsrf updateActivity cache
  | .resolveOutsideDependencies db transports
      updateActivity => do
      let (outcome, cache) ← Resolution.resolve runtime
        request db transports false updateActivity cache
      match outcome with
      | .error error =>
          if error.status = 401 then
            return (.ok none, cache)
          else
            return (.error error, cache)
      | .ok found => return (.ok found, cache)

end Call

/-
  What the calls on one request can come to, newest first:
  one after the other, with any answers in between, on the
  transports that are configured.
-/
inductive Served
    (runtime : Runtime)
    (configured : List Transport)
    (request : HttpRequest) :
    List (Call × Outcome) → Cache → List Act → Prop
  | start :
      Served runtime configured request [] (fun _ => none) []
  | call
      {done : List (Call × Outcome)}
      {cache cache' : Cache}
      {past past' : List Act}
      {call : Call}
      {outcome : Outcome}
      (hServed :
        Served runtime configured request done cache past)
      (hSelected : call.transports ⊆ configured)
      (hYields :
        (call.serve runtime request cache).Yields past past'
          (.ok (outcome, cache'))) :
      Served runtime configured request
        ((call, outcome) :: done) cache' past'

end Resolution

end CrudAuth
