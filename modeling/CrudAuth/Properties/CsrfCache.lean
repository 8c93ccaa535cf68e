import CrudAuth.Resolution.Scenario

/-
  The per-request cache and CSRF: whichever call on a
  request resolved a session principal first, a call that
  enforces CSRF gets it only after the header was checked.

  Main declarations:
    * `CsrfNamed`
    * `Genuine`
    * `resolve_genuine`
    * `served_genuine`
    * `csrf_named`
-/

namespace CrudAuth

namespace Resolution

open Concurrency Program

variable {runtime : Runtime}
variable {request : HttpRequest}
variable {configured transports : List Transport}
variable {past : List Act}
variable {cache : Cache}
variable {ctx : AuthContext}
variable {principal : Principal}
variable {sessionId : String}

------------------------------------------------------------
-- One Transport
------------------------------------------------------------

/-
  The header of the request was looked up, and named a live
  record that is bound to the session.
-/
def CsrfNamed
    (transport : SessionTransport)
    (request : HttpRequest)
    (past : List Act)
    (sessionId : String) : Prop :=
  ∃ (header : String) (record : CSRFToken),
    request.csrfHeader = some header ∧
    (⟨.csrfGet (transport.csrfStoredAt header),
      some record⟩ : Act) ∈ past ∧
    record.sessionId = transport.sessionKey sessionId

/- A check stays in the past. -/
theorem CsrfNamed.mono
    {transport : SessionTransport}
    {past' : List Act}
    (hNamed : CsrfNamed transport request past sessionId)
    (hSuffix : past <:+ past') :
    CsrfNamed transport request past' sessionId := by
  rcases hNamed with ⟨header, record, hHeader, hRead, hBound⟩
  exact ⟨header, record, hHeader, hSuffix.subset hRead,
    hBound⟩

/-
  What is known of a principal that a transport resolved,
  and whose CSRF check is marked as done or not.
-/
def Genuine
    (request : HttpRequest)
    (past : List Act)
    (csrfEnforced : Bool)
    (principal : Principal) : Transport → Prop
  | .session transport =>
      principal.transport = SessionTransport.name ∧
      ∃ sessionId : String,
        principal.sessionId = some sessionId ∧
        sessionId.isEmpty = false ∧
        (csrfEnforced = true →
          transport.csrfEnabled = true →
          request.method ∉ safeMethods →
          CsrfNamed transport request past sessionId)
  | .bearer _ => principal.transport = BearerTransport.name
  | .custom transport => principal.transport = transport.name

/- A principal stays as genuine as it was. -/
theorem Genuine.mono
    {transport : Transport}
    {csrfEnforced : Bool}
    {past' : List Act}
    (hGenuine :
      Genuine request past csrfEnforced principal transport)
    (hSuffix : past <:+ past') :
    Genuine request past' csrfEnforced principal
      transport := by
  cases transport with
  | session transport =>
      rcases hGenuine with
        ⟨hName, sessionId, hId, hSome, hNamed⟩
      refine ⟨hName, sessionId, hId, hSome, ?_⟩
      intro hEnforced hEnabled hUnsafe
      exact (hNamed hEnforced hEnabled hUnsafe).mono hSuffix
  | bearer transport => exact hGenuine
  | custom transport => exact hGenuine

/- The CSRF check passes only on a header that names it. -/
theorem enforceCsrf_obeys
    (transport : SessionTransport) :
    Obeys anything past
      (transport.enforceCsrf request sessionId)
      (Program.Returns fun past' _ =>
        transport.csrfEnabled = true →
        request.method ∉ safeMethods →
        CsrfNamed transport request past' sessionId) := by
  unfold SessionTransport.enforceCsrf
  split
  · rename_i hExempt
    simp only [obeys_pure, returns_ok]
    intro hEnabled hUnsafe
    simp [hEnabled, hUnsafe] at hExempt
  · rename_i hChecked
    split
    · simp
    · rename_i header hHeader
      split
      · simp
      · rename_i hSome
        have hEnabled : transport.csrfEnabled = true := by
          simp at hChecked
          exact hChecked.1
        unfold SessionTransport.validateCsrfToken
        rw [if_pos hEnabled]
        split
        · simp
        · refine ⟨trivial, fun found _ => ?_⟩
          cases found with
          | none => simp
          | some record =>
              simp only [pure_eq_done, done_bind]
              split
              · rename_i hBound
                simp only [obeys_done, returns_ok]
                intro _ _
                exact ⟨header, record, hHeader,
                  List.mem_cons_self, eq_of_beq hBound⟩
              · simp

/- A program that nothing is asked of. -/
theorem obeys_anything
    {α : Type}
    {flow : Flow α} :
    Obeys anything past flow
      (Program.Returns fun _ _ => True) := by
  apply Obeys.mono (obeys_of_free fun _ _ _ => trivial)
  intro _ _ _ _ _ _
  trivial

/- An enforced check has named a stored token. -/
theorem checkCsrf_obeys
    (transport : SessionTransport) :
    Obeys anything past
      (transport.checkCsrf request sessionId ctx)
      (Program.Returns fun past' _ =>
        ctx.enforceCsrf = true →
        transport.csrfEnabled = true →
        request.method ∉ safeMethods →
        CsrfNamed transport request past' sessionId) := by
  unfold SessionTransport.checkCsrf
  split
  · rename_i hEnforce
    apply Obeys.mono (enforceCsrf_obeys transport)
    intro past' result _ hNamed value hValue _
    exact hNamed value hValue
  · rename_i hSkipped
    simp only [obeys_pure, returns_ok]
    intro hEnforce
    exact absurd hEnforce hSkipped

/- The principal of a session carries its id. -/
theorem identify_obeys
    {session : SessionRecord} :
    Obeys anything past
      (SessionTransport.identify runtime sessionId session
        ctx)
      (Program.Returns fun _ result => ∀ principal,
        result.1 = some principal →
        principal.transport = SessionTransport.name ∧
          principal.sessionId = some sessionId) := by
  unfold SessionTransport.identify
  refine Obeys.andThen obeys_anything ?_
  rintro past' ⟨found, ctx'⟩ - -
  dsimp only
  split
  · simp
  · split
    · simp
    · split
      · simp
      · simp only [obeys_pure, returns_ok,
          Option.some.injEq, forall_eq']
        exact ⟨rfl, rfl⟩

/- A session principal passed CSRF if it was asked to. -/
theorem authenticateSession_obeys
    (transport : SessionTransport) :
    Obeys anything past
      (transport.authenticate runtime request ctx)
      (Program.Returns fun past' result => ∀ principal,
        result.1 = some principal →
        Genuine request past' ctx.enforceCsrf principal
          (.session transport)) := by
  unfold SessionTransport.authenticate
  split
  · simp
  · rename_i sessionId hCookie
    split
    · simp
    · rename_i hSome
      refine Obeys.andThen obeys_anything ?_
      intro past₁ found _ _
      cases found with
      | none => simp
      | some session =>
      refine Obeys.andThen (checkCsrf_obeys transport) ?_
      intro past₂ _ _ hNamed
      apply Obeys.mono identify_obeys
      intro past₃ result hSuffix hIdentified value hValue
        principal hPrincipal
      rcases hIdentified value hValue principal hPrincipal
        with ⟨hName, hId⟩
      refine ⟨hName, sessionId, hId, by simpa using hSome,
        ?_⟩
      intro hEnforced hEnabled hUnsafe
      exact (hNamed hEnforced hEnabled hUnsafe).mono hSuffix

/- A bearer principal has no session. -/
theorem authenticateBearer_obeys
    (transport : BearerTransport) :
    Obeys anything past
      (transport.authenticate runtime request ctx)
      (Program.Returns fun _ result => ∀ principal,
        result.1 = some principal →
        principal.transport = BearerTransport.name) := by
  unfold BearerTransport.authenticate
  split
  · simp
  · split
    · simp
    · refine Obeys.andThen obeys_anything ?_
      intro past₁ verified _ _
      cases verified with
      | none =>
          refine Obeys.andThen obeys_anything ?_
          intro past₂ expired _ _
          cases expired <;> simp
      | some payload =>
          refine Obeys.andThen obeys_anything ?_
          rintro past₂ ⟨found, ctx'⟩ - -
          dsimp only
          split
          · simp
          · split
            · simp
            · split
              · simp
              · simp only [obeys_pure, returns_ok,
                  Option.some.injEq, forall_eq']
                rfl

/- Either transport vouches for its principal. -/
theorem authenticate_obeys
    (transport : Transport) :
    Obeys anything past
      (transport.authenticate runtime request ctx)
      (Program.Returns fun past' result => ∀ principal,
        result.1 = some principal →
        Genuine request past' ctx.enforceCsrf principal
          transport) := by
  cases transport with
  | session transport =>
      exact authenticateSession_obeys transport
  | bearer transport =>
      exact authenticateBearer_obeys transport
  | custom transport =>
      apply obeys_of_yields
      rintro past' result hYields ⟨found, ctx'⟩ rfl principal
        hPrincipal
      obtain rfl : found = some principal := hPrincipal
      exact transport.ownName request ctx past principal ctx'
        past' hYields

/- Revalidation that enforces CSRF checks the header too. -/
theorem revalidate_obeys
    {transport : Transport}
    {csrfEnforced : Bool}
    (hGenuine :
      Genuine request past csrfEnforced principal
        transport) :
    Obeys anything past
      (transport.revalidate request principal ctx)
      (Program.Returns fun past' passed =>
        passed = true →
        Genuine request past'
          (csrfEnforced || ctx.enforceCsrf) principal
          transport) := by
  cases transport with
  | bearer transport =>
      simp only [Transport.revalidate, obeys_pure,
        returns_ok]
      intro _
      exact hGenuine
  | custom transport =>
      apply Obeys.mono (obeys_of_free fun _ _ _ => trivial)
      intro _ _ _ _ _ _ _
      exact hGenuine
  | session transport =>
      rcases hGenuine with
        ⟨hName, sessionId, hId, hSome, hNamed⟩
      simp only [Transport.revalidate,
        SessionTransport.revalidate, hId, hSome,
        Bool.false_eq_true, if_false]
      refine Obeys.andThen obeys_anything ?_
      intro past₁ live hSuffix₁ _
      cases live with
      | false => simp
      | true =>
      refine Obeys.andThen (checkCsrf_obeys transport) ?_
      intro past₂ _ hSuffix₂ hChecked
      simp only [obeys_pure, returns_ok]
      intro _
      refine ⟨hName, sessionId, hId, hSome, ?_⟩
      intro hEnforced hEnabled hUnsafe
      rcases Bool.or_eq_true_iff.mp hEnforced with
        hFirst | hNow
      · exact (hNamed hFirst hEnabled hUnsafe).mono
          (hSuffix₁.trans hSuffix₂)
      · exact hChecked hNow hEnabled hUnsafe

------------------------------------------------------------
-- The Cache
------------------------------------------------------------

/- Every cached principal is genuine, checks included. -/
def Vouched
    (configured : List Transport)
    (request : HttpRequest)
    (past : List Act)
    (cache : Cache) : Prop :=
  ∀ key cached, cache key = some cached →
    cached.transport ∈ configured ∧
      Genuine request past cached.csrfEnforced
        cached.principal cached.transport

/- A vouched cache stays so. -/
theorem Vouched.mono
    {past' : List Act}
    (hVouched : Vouched configured request past cache)
    (hSuffix : past <:+ past') :
    Vouched configured request past' cache := by
  intro key cached hCached
  rcases hVouched key cached hCached with
    ⟨hMem, hGenuine⟩
  exact ⟨hMem, hGenuine.mono hSuffix⟩

/- A genuine principal may be added. -/
theorem Vouched.insert
    {key : List String}
    {cached : CachedPrincipal}
    (hVouched : Vouched configured request past cache)
    (hMem : cached.transport ∈ configured)
    (hGenuine :
      Genuine request past cached.csrfEnforced
        cached.principal cached.transport) :
    Vouched configured request past
      (Function.update cache key (some cached)) := by
  intro key' cached' hCached
  by_cases hKey : key' = key
  · subst hKey
    obtain rfl : cached = cached' := by
      simpa using hCached
    exact ⟨hMem, hGenuine⟩
  · rw [Function.update_of_ne hKey] at hCached
    exact hVouched key' cached' hCached

theorem Vouched.erase
    {key : List String}
    (hVouched : Vouched configured request past cache) :
    Vouched configured request past
      (Function.update cache key none) := by
  intro key' cached' hCached
  by_cases hKey : key' = key
  · subst hKey
    simp at hCached
  · rw [Function.update_of_ne hKey] at hCached
    exact hVouched key' cached' hCached

/-
  What a call leaves: a cache that is vouched for, and a
  principal that is genuine for what the call asked.
-/
structure Leaves
    (configured : List Transport)
    (request : HttpRequest)
    (enforceCsrf : Bool)
    (past : List Act)
    (left : Outcome × Cache) : Prop where
  vouched : Vouched configured request past left.2
  genuine : ∀ principal, left.1 = .ok (some principal) →
    ∃ transport ∈ configured,
      Genuine request past enforceCsrf principal transport

/- The first transport that answers is genuine. -/
theorem authenticateFirst_obeys
    (transports : List Transport) :
    Obeys anything past
      (authenticateFirst runtime request transports ctx)
      (Program.Returns fun past' result =>
        ∀ transport principal,
          result = some (transport, principal) →
          transport ∈ transports ∧
            Genuine request past' ctx.enforceCsrf principal
              transport) := by
  induction transports generalizing past ctx with
  | nil => simp [authenticateFirst]
  | cons transport transports ih =>
      unfold authenticateFirst
      refine Obeys.andThen (authenticate_obeys transport) ?_
      rintro past₁ ⟨found, after⟩ _ hFound
      cases found with
      | none =>
          apply Obeys.mono ih
          intro past₂ result _ hRest value hValue found
            principal hSome
          rcases hRest value hValue found principal
            hSome with
            ⟨hMem, hGenuine⟩
          exact ⟨List.mem_cons_of_mem _ hMem, hGenuine⟩
      | some principal =>
          simp only [obeys_pure, returns_ok,
            Option.some.injEq, Prod.mk.injEq]
          rintro _ _ ⟨rfl, rfl⟩
          exact ⟨List.mem_cons_self, hFound principal rfl⟩

/- So is what is found without the cache. -/
theorem resolveFirst_obeys
    {db : DbSession}
    {enforceCsrf updateActivity : Bool}
    (hVouched : Vouched configured request past cache)
    (hSelected : transports ⊆ configured) :
    Obeys anything past
      (resolveFirst runtime request db transports enforceCsrf
        updateActivity cache)
      (Program.Returns fun past' left =>
        Leaves configured request enforceCsrf past'
          left) := by
  have hTried :
      Obeys anything past
        (authenticateFirst runtime request transports
          { db, enforceCsrf, updateActivity }).attempt
        (Program.Returns fun past' tried =>
          past <:+ past' ∧
          ∀ transport principal,
            tried = .ok (some (transport, principal)) →
            transport ∈ transports ∧
              Genuine request past' enforceCsrf principal
                transport) := by
    apply Obeys.attempt (authenticateFirst_obeys transports)
    rintro past' result hSuffix hFound tried ⟨rfl⟩
    refine ⟨hSuffix, ?_⟩
    rintro transport principal rfl
    exact hFound _ rfl transport principal rfl
  unfold resolveFirst
  refine Obeys.andThen hTried ?_
  rintro past' tried - ⟨hSuffix, hFound⟩
  have hKept := hVouched.mono hSuffix
  cases tried with
  | error error =>
      simp only [obeys_pure, returns_ok]
      exact ⟨hKept, by simp⟩
  | ok found =>
      cases found with
      | none =>
          simp only [obeys_pure, returns_ok]
          exact ⟨hKept, by simp⟩
      | some resolved =>
          rcases resolved with ⟨transport, principal⟩
          rcases hFound transport principal rfl with
            ⟨hMem, hGenuine⟩
          simp only [obeys_pure, returns_ok]
          refine ⟨hKept.insert (hSelected hMem) hGenuine, ?_⟩
          intro principal' hSame
          obtain rfl : principal = principal' := by
            simpa using hSame
          exact ⟨transport, hSelected hMem, hGenuine⟩

/- A reload touches nothing the checks rest on. -/
theorem reload_obeys
    {db : DbSession}
    {cached : CachedPrincipal}
    (hGenuine :
      Genuine request past cached.csrfEnforced
        cached.principal cached.transport) :
    Obeys anything past (reload db cached)
      (Program.Returns fun past' result => ∀ reloaded,
        result = some reloaded →
        reloaded.transport = cached.transport ∧
        Genuine request past' reloaded.csrfEnforced
          reloaded.principal reloaded.transport) := by
  unfold reload
  split
  · refine ⟨trivial, fun found _ => ?_⟩
    have hLater := hGenuine.mono
      (List.suffix_cons
        ⟨.getById db cached.principal.userId, found⟩ past)
    cases found with
    | none => simp
    | some user =>
        simp only [pure_eq_done, done_bind]
        split
        · simp
        · simp only [obeys_done, returns_ok,
            Option.some.injEq, forall_eq']
          refine ⟨trivial, ?_⟩
          rcases cached with ⟨principal, transport, _⟩
          cases transport with
          | session transport => exact hLater
          | bearer transport => exact hLater
          | custom transport => exact hLater
  · simp only [obeys_pure, returns_ok, Option.some.injEq,
      forall_eq']
    exact ⟨trivial, hGenuine⟩

/- Once the checks are complete, they cover the call. -/
theorem completeChecks_obeys
    {db : DbSession}
    {enforceCsrf updateActivity : Bool}
    {cached : CachedPrincipal}
    (hGenuine :
      Genuine request past cached.csrfEnforced
        cached.principal cached.transport) :
    Obeys anything past
      (completeChecks request db enforceCsrf updateActivity
        cached)
      (Program.Returns fun past' passed =>
        passed = true →
        Genuine request past'
          (cached.csrfEnforced || enforceCsrf)
          cached.principal cached.transport) := by
  unfold completeChecks
  dsimp only
  split
  · apply Obeys.mono (revalidate_obeys hGenuine)
    intro past' result _ hChecked value hValue hPassed
    have hFlag :
        (cached.csrfEnforced ||
            (enforceCsrf && !cached.csrfEnforced)) =
          (cached.csrfEnforced || enforceCsrf) := by
      cases enforceCsrf <;> cases cached.csrfEnforced <;> rfl
    rw [← hFlag]
    exact hChecked value hValue hPassed
  · rename_i hNothing
    simp only [obeys_pure, returns_ok]
    intro _
    have hFlag :
        (cached.csrfEnforced || enforceCsrf) =
          cached.csrfEnforced := by
      cases enforceCsrf <;> cases hDone : cached.csrfEnforced
        <;> simp [hDone] at hNothing ⊢
    rw [hFlag]
    exact hGenuine

/- Whatever was asked before does not stand for less. -/
theorem Genuine.weaken
    {transport : Transport}
    {done enforceCsrf : Bool}
    (hGenuine :
      Genuine request past (done || enforceCsrf) principal
        transport) :
    Genuine request past enforceCsrf principal
      transport := by
  cases transport with
  | session transport =>
      rcases hGenuine with
        ⟨hName, sessionId, hId, hSome, hNamed⟩
      refine ⟨hName, sessionId, hId, hSome, ?_⟩
      intro hEnforced
      exact hNamed (by simp [hEnforced])
  | bearer transport => exact hGenuine
  | custom transport => exact hGenuine

/- What `resolve` returns is genuine. -/
theorem resolve_genuine
    {db : DbSession}
    {enforceCsrf updateActivity : Bool}
    (hVouched : Vouched configured request past cache)
    (hSelected : transports ⊆ configured) :
    Obeys anything past
      (resolve runtime request db transports enforceCsrf
        updateActivity cache)
      (Program.Returns fun past' left =>
        Leaves configured request enforceCsrf past'
          left) := by
  unfold resolve
  dsimp only
  split
  · exact resolveFirst_obeys hVouched hSelected
  · rename_i cached hCached
    rcases hVouched _ cached hCached with ⟨hMem, hGenuine⟩
    refine Obeys.andThen (reload_obeys hGenuine) ?_
    intro past₁ reloaded hSuffix₁ hReloaded
    have hVouched₁ := hVouched.mono hSuffix₁
    cases reloaded with
    | none =>
        simp only [obeys_pure, returns_ok]
        exact ⟨hVouched₁.erase, by simp⟩
    | some reloaded =>
    rcases hReloaded reloaded rfl with
      ⟨hTransport, hGenuine₁⟩
    have hMem₁ : reloaded.transport ∈ configured :=
      hTransport ▸ hMem
    have hTried :
        Obeys anything past₁
          (completeChecks request db enforceCsrf
            updateActivity reloaded).attempt
          (Program.Returns fun past' tried =>
            tried = .ok true →
            Genuine request past'
              (reloaded.csrfEnforced || enforceCsrf)
              reloaded.principal reloaded.transport) := by
      apply Obeys.attempt (completeChecks_obeys hGenuine₁)
      rintro past' result _ hChecked tried ⟨rfl⟩ rfl
      exact hChecked true rfl rfl
    refine Obeys.andThen hTried ?_
    intro past₂ tried hSuffix₂ hChecked
    have hVouched₂ := hVouched₁.mono hSuffix₂
    cases tried with
    | error error =>
        simp only [obeys_pure, returns_ok]
        exact ⟨hVouched₂.insert hMem₁
          (hGenuine₁.mono hSuffix₂), by simp⟩
    | ok passed =>
        cases passed with
        | false =>
            simp only [obeys_pure, returns_ok]
            exact ⟨hVouched₂.erase, by simp⟩
        | true =>
            simp only [obeys_pure, returns_ok]
            refine ⟨hVouched₂.insert hMem₁ (hChecked rfl),
              ?_⟩
            intro principal hSame
            obtain rfl : reloaded.principal = principal := by
              simpa using hSame
            exact ⟨reloaded.transport, hMem₁,
              (hChecked rfl).weaken⟩

------------------------------------------------------------
-- Calls On One Request
------------------------------------------------------------

theorem serve_genuine
    (call : Call)
    (hVouched : Vouched configured request past cache)
    (hSelected : call.transports ⊆ configured) :
    Obeys anything past (call.serve runtime request cache)
      (Program.Returns fun past' left =>
        Leaves configured request call.enforcesCsrf past'
          left) := by
  cases call with
  | resolve db transports enforceCsrf updateActivity =>
      exact resolve_genuine hVouched hSelected
  | resolveOutsideDependencies db transports
      updateActivity =>
      refine Obeys.andThen
        (resolve_genuine hVouched hSelected) ?_
      rintro past' ⟨outcome, cache'⟩ - hLeaves
      cases outcome with
      | error error =>
          dsimp only
          split
          · simp only [obeys_pure, returns_ok]
            exact ⟨hLeaves.vouched, by simp⟩
          · simp only [obeys_pure, returns_ok]
            exact hLeaves
      | ok found =>
          simp only [obeys_pure, returns_ok]
          exact hLeaves

/- After any calls, the cache is vouched for. -/
theorem served_vouched
    {done : List (Call × Outcome)}
    (hServed :
      Served runtime configured request done cache past) :
    Vouched configured request past cache := by
  induction hServed with
  | start =>
      intro key cached hCached
      cases hCached
  | @call done cache cache' past past' call outcome hServed
      hSelected hYields ih =>
      have hLeaves := hYields.ends
        (serve_genuine call ih hSelected)
      exact (hLeaves _ rfl).vouched

/- What all calls of a request return is genuine. -/
theorem served_genuine
    {done : List (Call × Outcome)}
    {call : Call}
    (hServed :
      Served runtime configured request
        ((call, .ok (some principal)) :: done) cache past) :
    ∃ transport ∈ configured,
      Genuine request past call.enforcesCsrf principal
        transport := by
  cases hServed with
  | call hBefore hSelected hYields =>
      have hLeaves := hYields.ends
        (serve_genuine call (served_vouched hBefore)
          hSelected)
      exact (hLeaves _ rfl).genuine principal rfl

/-
  After any calls, one that enforces CSRF and returns a
  session principal rests on the header of the request,
  which named a live record of that session.
-/
theorem csrf_named
    (runtime : Runtime)
    (configured : List Transport)
    (request : HttpRequest)
    (hEnabled : ∀ transport,
      .session transport ∈ configured →
        transport.csrfEnabled = true)
    (hUnsafe : request.method ∉ safeMethods)
    (done : List (Call × Outcome))
    (call : Call)
    (principal : Principal)
    (cache : Cache)
    (past : List Act)
    (hServed :
      Served runtime configured request
        ((call, .ok (some principal)) :: done) cache past)
    (hEnforces : call.enforcesCsrf = true)
    (hSession :
      principal.transport = SessionTransport.name) :
    ∃ transport sessionId,
      .session transport ∈ configured ∧
        principal.sessionId = some sessionId ∧
        CsrfNamed transport request past sessionId := by
  rcases served_genuine hServed with
    ⟨transport, hMem, hGenuine⟩
  cases transport with
  | session transport =>
      rcases hGenuine with ⟨-, sessionId, hId, -, hNamed⟩
      exact ⟨transport, sessionId, hMem, hId,
        hNamed hEnforces (hEnabled transport hMem) hUnsafe⟩
  | bearer transport =>
      have hName :
          principal.transport = BearerTransport.name :=
        hGenuine
      rw [hSession] at hName
      exact absurd hName (by decide)
  | custom transport =>
      have hName : principal.transport = transport.name :=
        hGenuine
      exact absurd (hName.symm.trans hSession)
        transport.name_ne

/- The gate gets what middleware cached, and checks it. -/
theorem gate_csrf_named :
    ∃ done cache past principal,
      Served CrudAuth.Scenario.runtime
        [.session Scenario.transport] Scenario.request
        ((Scenario.gate, .ok (some principal)) :: done)
        cache past ∧
      ∃ transport sessionId,
        .session transport ∈
            [Transport.session Scenario.transport] ∧
          principal.sessionId = some sessionId ∧
          CsrfNamed transport Scenario.request past
            sessionId := by
  have hMiddleware :
      Served CrudAuth.Scenario.runtime
        [.session Scenario.transport] Scenario.request
        [(Scenario.middleware, _)] _ _ :=
    .alone .start Scenario.world (List.Subset.refl _) rfl
  have hGate :
      Served CrudAuth.Scenario.runtime
        [.session Scenario.transport] Scenario.request
        [(Scenario.gate, _), (Scenario.middleware, _)] _ _ :=
    .alone hMiddleware Scenario.world
      (List.Subset.refl _) rfl
  refine ⟨_, _, _, _, hGate, ?_⟩
  apply csrf_named CrudAuth.Scenario.runtime
    [.session Scenario.transport] Scenario.request ?_
    (by decide) _ _ _ _ _ hGate rfl rfl
  intro transport hMem
  obtain rfl : transport = Scenario.transport := by
    simpa using hMem
  rfl

end Resolution

end CrudAuth
