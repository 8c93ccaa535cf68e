import CrudAuth.Discipline.Repository

/-
  Session calls, authentication and the issue of
  credentials keep the contract.

  Main declarations:
    * `terminateAllUserSessions_obeys`
    * `createSession_obeys`
    * `currentUser_obeys`
    * `completeLogin_obeys`
-/

namespace CrudAuth

open Concurrency
open Concurrency.Program

variable {runtime : Runtime}
variable {request : Request}
variable {past : List Act}

------------------------------------------------------------
-- Termination
------------------------------------------------------------

namespace Sessions

/- A session that was read is deleted with its owner. -/
theorem terminate_obeys
    {key : Nat}
    {session : SessionData}
    (hRead :
      (⟨.sessionGet key, some session⟩ : Act) ∈ past) :
    Obeys (runtime.contract request) past
      (terminate key session)
      (Returns fun past' _ =>
        Kept past past' ∧
        past' =
          ⟨.sessionDelete key session.userId, ()⟩ ::
            past) := by
  refine obeys_call ⟨session, hRead, rfl⟩ fun _ _ => ?_
  intro _ _
  exact ⟨Kept.cons rfl rfl, rfl⟩

/- A deletion changes no row. -/
theorem terminateSession_obeys (key : Nat) :
    Obeys (runtime.contract request) past
      (terminateSession key)
      (Returns fun past' _ => Kept past past') := by
  refine obeys_step trivial fun found _ => ?_
  cases found with
  | none =>
      simp only [obeys_pure, returns_ok]
      exact Kept.cons rfl rfl
  | some session =>
      refine Obeys.andThen
        (terminate_obeys List.mem_cons_self) ?_
      intro past' _ _ hKept
      simp only [obeys_pure, returns_ok]
      exact (Kept.cons rfl rfl).trans hKept.1

/-
  Every indexed key is read dead, and pruned, or is
  returned with the session it was read with.
-/
theorem loadSessions_obeys
    {userId : UserId}
    {ids : List Nat}
    {keys : List Nat}
    (hIndex :
      (⟨.userSessions userId, ids⟩ : Act) ∈ past)
    (hKeys : keys ⊆ ids) :
    Obeys (runtime.contract request) past
      (loadSessions userId keys)
      (Returns fun past' live =>
        Kept past past' ∧
        (∀ key ∈ keys,
          Seen past' ⟨.sessionGet key, none⟩
              ⟨.userSessions userId, ids⟩ ∨
            ∃ session, (key, session) ∈ live) ∧
        ∀ entry ∈ live,
          (⟨.sessionGet entry.1, some entry.2⟩ : Act) ∈
            past') := by
  induction keys generalizing past with
  | nil =>
      simp only [loadSessions, obeys_pure, returns_ok]
      exact ⟨Kept.refl, by simp, by simp⟩
  | cons key keys ih =>
      have hRest : keys ⊆ ids := fun other hOther =>
        hKeys (List.mem_cons_of_mem key hOther)
      refine obeys_step trivial fun found _ => ?_
      cases found with
      | none =>
          have hSeen :
              Seen (⟨.sessionGet key, none⟩ :: past)
                ⟨.sessionGet key, none⟩
                ⟨.userSessions userId, ids⟩ :=
            seen_cons hIndex _
          refine obeys_step
            ⟨ids, hKeys List.mem_cons_self, hSeen⟩
            fun _ _ => ?_
          refine Obeys.mono
            (ih (List.mem_cons_of_mem _
              (List.mem_cons_of_mem _ hIndex)) hRest) ?_
          intro past' result hSuffix hPost live hResult
          rcases hPost live hResult with
            ⟨hKept, hCleared, hLive⟩
          refine ⟨?_, ?_, hLive⟩
          · exact (Kept.cons rfl rfl).trans
              ((Kept.cons rfl rfl).trans hKept)
          · intro other hOther
            rcases List.mem_cons.mp hOther with
              rfl | hOther
            · exact Or.inl (hSeen.mono
                ((List.suffix_cons _ _).trans hSuffix))
            · exact hCleared other hOther
      | some session =>
          refine Obeys.andThen
            (ih (List.mem_cons_of_mem _ hIndex) hRest) ?_
          intro past' live hSuffix hPost
          rcases hPost with ⟨hKept, hCleared, hLive⟩
          simp only [obeys_pure, returns_ok]
          refine ⟨(Kept.cons rfl rfl).trans hKept, ?_, ?_⟩
          · intro other hOther
            rcases List.mem_cons.mp hOther with
              rfl | hOther
            · exact Or.inr ⟨session, List.mem_cons_self⟩
            · rcases hCleared other hOther with
                hSeen | ⟨data, hData⟩
              · exact Or.inl hSeen
              · exact Or.inr
                  ⟨data, List.mem_cons_of_mem _ hData⟩
          · intro entry hEntry
            rcases List.mem_cons.mp hEntry with
              rfl | hEntry
            · exact hSuffix.subset List.mem_cons_self
            · exact hLive entry hEntry

/- The sessions listed are those stored. -/
theorem userSessions_obeys (userId : UserId) :
    Obeys (runtime.contract request) past
      (userSessions userId)
      (Returns fun past' live =>
        Kept past past' ∧
        (∃ ids : List Nat,
          (⟨.userSessions userId, ids⟩ :: past) <:+ past' ∧
          ∀ key ∈ ids,
            Seen past' ⟨.sessionGet key, none⟩
                ⟨.userSessions userId, ids⟩ ∨
              ∃ session, (key, session) ∈ live) ∧
        ∀ entry ∈ live,
          (⟨.sessionGet entry.1, some entry.2⟩ : Act) ∈
            past') := by
  refine obeys_step trivial fun ids _ => ?_
  refine Obeys.mono
    (loadSessions_obeys List.mem_cons_self
      (List.Subset.refl ids)) ?_
  intro past' result hSuffix hPost live hResult
  rcases hPost live hResult with ⟨hKept, hCleared, hLive⟩
  exact ⟨(Kept.cons rfl rfl).trans hKept,
    ⟨ids, hSuffix, hCleared⟩, hLive⟩

/- Every session of the list but the excluded is deleted. -/
theorem terminateEach_obeys
    {excluded : Option Nat}
    {entries : List (Nat × SessionData)}
    (hRead : ∀ entry ∈ entries,
      (⟨.sessionGet entry.1, some entry.2⟩ : Act) ∈ past) :
    Obeys (runtime.contract request) past
      (terminateEach excluded entries)
      (Returns fun past' _ =>
        Kept past past' ∧
        ∀ entry ∈ entries, some entry.1 ≠ excluded →
          ∀ earlier ∈ past,
            Seen past'
              ⟨.sessionDelete entry.1 entry.2.userId, ()⟩
              earlier) := by
  induction entries generalizing past with
  | nil =>
      simp only [terminateEach, obeys_pure, returns_ok]
      exact ⟨Kept.refl, by simp⟩
  | cons entry entries ih =>
      rcases entry with ⟨key, session⟩
      have hRest : ∀ entry ∈ entries,
          (⟨.sessionGet entry.1, some entry.2⟩ : Act) ∈
            past :=
        fun other hOther =>
          hRead other (List.mem_cons_of_mem _ hOther)
      unfold terminateEach
      by_cases hExcluded : some key = excluded
      · rw [if_neg (not_not_intro hExcluded)]
        refine Obeys.mono (ih hRest) ?_
        intro past' result _ hPost _ hResult
        rcases hPost () hResult with ⟨hKept, hDeleted⟩
        refine ⟨hKept, ?_⟩
        intro other hOther hKey
        rcases List.mem_cons.mp hOther with rfl | hOther
        · exact absurd hExcluded hKey
        · exact hDeleted other hOther hKey
      · rw [if_pos hExcluded]
        refine Obeys.andThen
          (terminate_obeys
            (hRead _ List.mem_cons_self)) ?_
        rintro past' _ _ ⟨hKept, rfl⟩
        refine Obeys.mono
          (ih fun other hOther =>
            List.mem_cons_of_mem _
              (hRest other hOther)) ?_
        intro past'' result hSuffix hPost _ hResult
        rcases hPost () hResult with ⟨hKept', hDeleted⟩
        refine ⟨hKept.trans hKept', ?_⟩
        intro other hOther hKey earlier hEarlier
        rcases List.mem_cons.mp hOther with rfl | hOther
        · exact (seen_cons hEarlier _).mono hSuffix
        · exact hDeleted other hOther hKey earlier
            (List.mem_cons_of_mem _ hEarlier)

/- After it, every indexed session has been cleared. -/
theorem terminateAllUserSessions_obeys
    (userId : UserId)
    (exclude : Option Nat) :
    Obeys (runtime.contract request) past
      (terminateAllUserSessions userId exclude)
      (Returns fun past' _ =>
        Kept past past' ∧
        ∃ ids : List Nat,
          (⟨.userSessions userId, ids⟩ :: past) <:+ past' ∧
          ∀ key ∈ ids, some key ≠ exclude →
            Runtime.Cleared past' userId ids key) := by
  refine Obeys.andThen (userSessions_obeys userId) ?_
  rintro past' live _ ⟨hKept, ⟨ids, hIds, hCleared⟩, hLive⟩
  refine Obeys.mono (terminateEach_obeys hLive) ?_
  intro past'' result hSuffix hPost _ hResult
  rcases hPost () hResult with ⟨hKept', hDeleted⟩
  refine ⟨hKept.trans hKept', ids, hIds.trans hSuffix, ?_⟩
  intro key hKey hExcluded
  rcases hCleared key hKey with hDead | ⟨session, hSession⟩
  · exact Or.inl (hDead.mono hSuffix)
  · exact Or.inr ⟨session.userId,
      hDeleted (key, session) hSession hExcluded _
        (hIds.subset List.mem_cons_self)⟩

------------------------------------------------------------
-- Creation And Validation
------------------------------------------------------------

/- Making room changes no row. -/
theorem enforceSessionLimit_obeys
    (config : SessionConfig)
    (userId : UserId) :
    Obeys (runtime.contract request) past
      (enforceSessionLimit config userId)
      (Returns fun past' _ => Kept past past') := by
  refine Obeys.andThen (userSessions_obeys userId) ?_
  rintro past' live _ ⟨hKept, -, hLive⟩
  dsimp only
  split
  · refine Obeys.mono (terminateEach_obeys ?_) ?_
    · intro entry hEntry
      have hSorted := List.mem_of_mem_take hEntry
      rw [List.mem_mergeSort] at hSorted
      exact hLive entry hSorted
    · intro past'' result _ hPost _ hResult
      exact hKept.trans (hPost () hResult).1
  · simp only [obeys_pure, returns_ok]
    exact hKept

/- Nor does replacing the presented session. -/
theorem replacePresented_obeys (presented : Option Nat) :
    Obeys (runtime.contract request) past
      (replacePresented presented)
      (Returns fun past' _ => Kept past past') := by
  cases presented with
  | none =>
      simp only [replacePresented, obeys_pure, returns_ok]
      exact Kept.refl
  | some old =>
      refine Obeys.andThen (terminateSession_obeys old) ?_
      intro past' _ _ hKept
      simp only [obeys_pure, returns_ok]
      exact hKept

/- A new session is bound to the version of the copy. -/
theorem createSession_obeys
    {config : SessionConfig}
    {presented : Option Nat}
    {rememberMe : Bool}
    {loginType : Option String}
    {user : User}
    (hRead : lastRead past = some user)
    (hSignsIn : runtime.SignsIn request past user.id)
    (hUnchallenged : runtime.Unchallenged request user) :
    Obeys (runtime.contract request) past
      (createSession config presented user.id rememberMe
        loginType (runtime.tokenVersion user))
      (Returns fun past' key =>
        Kept past past' ∧
        ∃ (data : SessionData) (ttl : Nat),
          (⟨.sessionCreate key data ttl, ()⟩ : Act) ∈
            past' ∧
          data.userId = user.id) := by
  refine Obeys.andThen (replacePresented_obeys presented) ?_
  intro past₁ _ hSuffix₁ hKept₁
  refine Obeys.andThen
    (enforceSessionLimit_obeys config user.id) ?_
  intro past₂ _ hSuffix₂ hKept₂
  refine obeys_step trivial fun now _ => ?_
  refine obeys_step trivial fun key _ => ?_
  have hKept :
      Kept past (⟨.fresh, key⟩ :: ⟨.now, now⟩ :: past₂) :=
    (hKept₁.trans hKept₂).trans
      ((Kept.cons rfl rfl).trans (Kept.cons rfl rfl))
  have hSuffix :
      past <:+ ⟨.fresh, key⟩ :: ⟨.now, now⟩ :: past₂ :=
    (hSuffix₁.trans hSuffix₂).trans
      ((List.suffix_cons _ _).trans (List.suffix_cons _ _))
  refine obeys_step
    ⟨rfl, user, hKept.read.trans hRead,
      hSignsIn.mono hSuffix, hUnchallenged, rfl, rfl⟩
    fun _ _ => ?_
  simp only [obeys_pure, returns_ok]
  exact ⟨hKept.trans (Kept.cons rfl rfl), _, _,
    List.mem_cons_self, rfl⟩

/- A validated session was read and touched. -/
theorem validateSession_obeys
    (config : SessionConfig)
    (key : Nat) :
    Obeys (runtime.contract request) past
      (validateSession config key)
      (Returns fun past' result =>
        Kept past past' ∧
        ∀ session, result = some session →
          ∃ change : SessionChange,
            (⟨.sessionModify key change, some session⟩ :
              Act) ∈ past') := by
  refine obeys_step trivial fun found _ => ?_
  cases found with
  | none =>
      simp only [obeys_pure, returns_ok]
      exact ⟨Kept.cons rfl rfl, by simp⟩
  | some session =>
      have hRead (now : Nat) :
          (⟨.sessionGet key, some session⟩ : Act) ∈
            ⟨.now, now⟩ ::
              ⟨.sessionGet key, some session⟩ :: past :=
        List.mem_cons_of_mem _ List.mem_cons_self
      have hKept (now : Nat) :
          Kept past
            (⟨.now, now⟩ ::
              ⟨.sessionGet key, some session⟩ :: past) :=
        (Kept.cons rfl rfl).trans (Kept.cons rfl rfl)
      refine obeys_step trivial fun now _ => ?_
      dsimp only
      split
      · refine Obeys.andThen
          (terminate_obeys (hRead now)) ?_
        intro past' _ _ hTerminated
        simp only [obeys_pure, returns_ok]
        exact ⟨(hKept now).trans hTerminated.1, by simp⟩
      · split
        · refine Obeys.andThen
            (terminate_obeys (hRead now)) ?_
          intro past' _ _ hTerminated
          simp only [obeys_pure, returns_ok]
          exact ⟨(hKept now).trans hTerminated.1, by simp⟩
        · refine obeys_call ⟨session, hRead now⟩
            fun touched _ => ?_
          intro result hResult
          obtain rfl : touched = result := by
            simpa using hResult
          refine ⟨(hKept now).trans (Kept.cons rfl rfl), ?_⟩
          rintro current rfl
          exact ⟨_, List.mem_cons_self⟩

end Sessions

------------------------------------------------------------
-- Authentication
------------------------------------------------------------

namespace Runtime

/- What a resolved principal was checked for. -/
structure Resolves
    (runtime : Runtime)
    (past : List Act)
    (credential : Credential)
    (principal : Principal) : Prop where
  read : lastRead past = some principal.user
  selected : lastSelected past = some principal.user
  signed :
    runtime.Authenticated past credential principal.user.id
  session :
    principal.sessionId =
      match credential with
      | .session key => some key
      | .bearer _ => none

private theorem selected_by_id
    {id : UserId}
    {user : User}
    (hAnswer : answers (.select (.byId id)) (some user)) :
    user.id = id := by
  simpa [World.matchesSelector] using hAnswer user rfl

/- The account of a session is its owner's row. -/
theorem authenticateSession_obeys
    {config : SessionConfig}
    {key : Nat}
    (hSessions : runtime.sessions = some config)
    (hFirst :
      request.readsOnce = true →
        lastSelected past = none) :
    Obeys (runtime.contract request) past
      (runtime.authenticateSession config key)
      (Returns fun past' result =>
        ∀ principal, result = some principal →
          runtime.Resolves past' (.session key)
            principal) := by
  refine Obeys.andThen
    (Sessions.validateSession_obeys config key) ?_
  rintro past₁ result _ ⟨hKept, hTouched⟩
  cases result with
  | none => simp
  | some session =>
      rcases hTouched session rfl with ⟨change, hModified⟩
      have hFirst₁ :
          request.readsOnce = true →
            lastSelected past₁ = none :=
        fun hOnce => hKept.selected.trans (hFirst hOnce)
      refine obeys_step hFirst₁ fun found hAnswer => ?_
      cases found with
      | none => simp
      | some user =>
          have hId := selected_by_id hAnswer
          dsimp only
          split
          · simp
          · rename_i hActive
            split
            · simp
            · rename_i hVersion
              simp only [obeys_pure, returns_ok,
                Option.some.injEq]
              rintro _ rfl
              refine ⟨rfl, rfl, ?_, rfl⟩
              refine ⟨by simp [hSessions], session, change,
                user, seen_cons hModified _, hId.symm,
                ?_, ?_⟩
              · simpa using hActive
              · by_cases hNone : session.tokenVersion = none
                · exact Or.inl hNone
                · right
                  by_contra hDiffers
                  exact hVersion ⟨hNone, hDiffers⟩

/- The account of a token is its subject's row. -/
theorem authenticateBearer_obeys
    {token : Jwt}
    (hBearer : runtime.bearer.isSome = true)
    (hFirst :
      request.readsOnce = true →
        lastSelected past = none) :
    Obeys (runtime.contract request) past
      (runtime.authenticateBearer token)
      (Returns fun past' result =>
        ∀ principal, result = some principal →
          runtime.Resolves past' (.bearer token)
            principal) := by
  refine obeys_step trivial fun now _ => ?_
  split
  · simp
  · split
    · simp
    · rename_i hType
      refine obeys_step hFirst fun found hAnswer => ?_
      cases found with
      | none => simp
      | some user =>
          have hId := selected_by_id hAnswer
          dsimp only
          split
          · simp
          · rename_i hActive
            split
            · simp
            · rename_i hVersion
              simp only [obeys_pure, returns_ok,
                Option.some.injEq]
              rintro _ rfl
              refine ⟨rfl, rfl, ?_, rfl⟩
              exact ⟨hBearer, user, List.mem_cons_self,
                hId.symm, by simpa using hActive,
                not_not.mp hType, not_not.mp hVersion⟩

/- The account of any credential. -/
theorem currentUser_obeys
    {credential : Credential}
    (hFirst :
      request.readsOnce = true →
        lastSelected past = none) :
    Obeys (runtime.contract request) past
      (runtime.currentUser credential)
      (Returns fun past' principal =>
        runtime.Resolves past' credential principal) := by
  have hAuthenticate :
      Obeys (runtime.contract request) past
        (runtime.authenticate credential)
        (Returns fun past' result =>
          ∀ principal, result = some principal →
            runtime.Resolves past' credential
              principal) := by
    unfold authenticate
    cases credential with
    | session key =>
        cases hSessions : runtime.sessions with
        | none => simp
        | some config =>
            exact authenticateSession_obeys hSessions hFirst
    | bearer token =>
        cases hBearer : runtime.bearer with
        | none => cases runtime.sessions <;> simp
        | some config =>
            have hSome : runtime.bearer.isSome = true := by
              simp [hBearer]
            cases runtime.sessions <;>
              exact authenticateBearer_obeys hSome hFirst
  refine Obeys.andThen hAuthenticate ?_
  intro past' result _ hResult
  cases result with
  | none => simp
  | some principal =>
      simp only [obeys_pure, returns_ok]
      exact hResult principal rfl

------------------------------------------------------------
-- Issuing Credentials
------------------------------------------------------------

/- What a finished login hands out, and for whom. -/
def IssuedFor
    (runtime : Runtime)
    (past : List Act)
    (user : User) : Issued → Prop
  | .session id key =>
      id = user.id ∧
      ∃ (data : SessionData) (ttl : Nat),
        (⟨.sessionCreate key data ttl, ()⟩ : Act) ∈ past ∧
        data.userId = id
  | .tokens access refresh =>
      access.sub = user.id ∧
      access.ver = runtime.tokenVersion user ∧
      refresh.sub = user.id ∧
      refresh.ver = runtime.tokenVersion user

/- A login ends with a session or with tokens. -/
theorem completeLogin_obeys
    {transport : TransportName}
    {presented : Option Nat}
    {user : User}
    {options : LoginOptions}
    (hRead : lastRead past = some user)
    (hSignsIn : runtime.SignsIn request past user.id)
    (hUnchallenged : runtime.Unchallenged request user) :
    Obeys (runtime.contract request) past
      (runtime.completeLogin transport presented user
        options)
      (Returns fun past' issued =>
        Kept past past' ∧
        runtime.IssuedFor past' user issued) := by
  unfold completeLogin
  cases transport with
  | session =>
      cases hSessions : runtime.sessions with
      | none => simp
      | some config =>
          refine Obeys.andThen
            (Sessions.createSession_obeys hRead
              hSignsIn hUnchallenged) ?_
          rintro past' key _ ⟨hKept, data, ttl, hCreated,
            hOwner⟩
          simp only [obeys_pure, returns_ok]
          exact ⟨hKept, rfl, data, ttl, hCreated, hOwner⟩
  | bearer =>
      cases hBearer : runtime.bearer with
      | none => simp
      | some config =>
          refine obeys_step trivial fun now _ => ?_
          simp only [obeys_pure, returns_ok]
          exact ⟨Kept.cons rfl rfl, rfl, rfl, rfl, rfl⟩

/- The response to a login that handed out a credential. -/
theorem answered_signedIn
    {past past' : List Act}
    {user : User}
    {issued : Issued}
    {codes : Option (List RecoveryCode)}
    (hRead : lastRead past' = some user)
    (hSignsIn : runtime.SignsIn request past user.id)
    (hUnchallenged : runtime.Unchallenged request user)
    (hSuffix : past <:+ past')
    (hIssued : runtime.IssuedFor past' user issued) :
    runtime.Answered request past'
      (.signedIn issued codes) := by
  have hSignsIn' := hSignsIn.mono hSuffix
  cases issued with
  | session id key =>
      rcases hIssued with ⟨rfl, hCreated⟩
      exact ⟨hSignsIn', hCreated⟩
  | tokens access refresh =>
      exact ⟨user, hRead, hSignsIn', hUnchallenged,
        hIssued⟩

end Runtime

end CrudAuth
