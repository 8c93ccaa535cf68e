import CrudAuth.Discipline.Email

/-
  The account routes and the OAuth callback keep the
  contract.

  Main declarations:
    * `changePassword_obeys`
    * `claim_obeys`
    * `oauthCallback_obeys`
-/

namespace CrudAuth

open Concurrency
open Concurrency.Program

namespace Runtime

variable {runtime : Runtime}
variable {request : Request}
variable {past : List Act}
variable {user : User}

------------------------------------------------------------
-- Recent Sign-In
------------------------------------------------------------

/- Reading the elevation changes nothing. -/
theorem isElevated_obeys (key : Nat) :
    Obeys (runtime.contract request) past
      (isElevated key)
      (Returns fun past' _ => Kept past past') := by
  refine obeys_step trivial fun found _ => ?_
  cases found with
  | none =>
      simp only [obeys_pure, returns_ok]
      exact Kept.cons rfl rfl
  | some session =>
      refine obeys_step trivial fun now _ => ?_
      simp only [obeys_pure, returns_ok]
      exact (Kept.cons rfl rfl).trans (Kept.cons rfl rfl)

/- Nor does asking for it. -/
theorem holdsSudo_obeys (key : Nat) :
    Obeys (runtime.contract request) past
      (runtime.holdsSudo key)
      (Returns fun past' _ => Kept past past') := by
  unfold holdsSudo
  split
  · exact isElevated_obeys key
  · simp only [obeys_pure, returns_ok]
    exact Kept.refl

/- Reading the age of a session changes nothing. -/
theorem signedInWithin_obeys (key : Nat) :
    Obeys (runtime.contract request) past
      (runtime.signedInWithin key)
      (Returns fun past' _ => Kept past past') := by
  refine obeys_step trivial fun found _ => ?_
  cases found with
  | none =>
      simp only [obeys_pure, returns_ok]
      exact Kept.cons rfl rfl
  | some session =>
      refine obeys_step trivial fun now _ => ?_
      simp only [obeys_pure, returns_ok]
      exact (Kept.cons rfl rfl).trans (Kept.cons rfl rfl)

/- Nor does asking for a recent sign-in. -/
theorem signedInRecently_obeys (principal : Principal) :
    Obeys (runtime.contract request) past
      (runtime.signedInRecently principal)
      (Returns fun past' _ => Kept past past') := by
  unfold signedInRecently
  split
  · split
    · simp only [obeys_pure, returns_ok]
      exact Kept.refl
    · refine Obeys.andThen (holdsSudo_obeys _) ?_
      intro past' elevated _ hKept
      split
      · simp only [obeys_pure, returns_ok]
        exact hKept
      · refine Obeys.mono (signedInWithin_obeys _) ?_
        intro past'' result _ hPost value hResult
        exact hKept.trans (hPost value hResult)
  · simp only [obeys_pure, returns_ok]
    exact Kept.refl
  · simp only [obeys_pure, returns_ok]
    exact Kept.refl

------------------------------------------------------------
-- Passwords
------------------------------------------------------------

/- A first password, for an account without one. -/
theorem setPassword_obeys
    {credential : Credential}
    {newPassword : String}
    {principal : Principal}
    (hRequest :
      request = .setPassword credential newPassword)
    (hRead : lastRead past = some principal.user)
    (hEntitled :
      runtime.Entitled request past principal.user.id) :
    Obeys (runtime.contract request) past
      (runtime.setPassword principal newPassword)
      (Returns fun _ _ => True) := by
  unfold setPassword
  dsimp only
  split
  · simp
  · rename_i hUnusable
    have hAuthorized :
        runtime.Authorizes request principal.user := by
      subst hRequest
      simpa [Authorizes] using hUnusable
    refine Obeys.andThen
      (signedInRecently_obeys principal) ?_
    intro past₁ recent hSuffix₁ hKept₁
    split
    · simp
    · split
      · simp
      · refine Obeys.andThen
          (getPasswordHash_obeys newPassword) ?_
        rintro past₂ hash _
          ⟨hKept₂, hSuffix₂, salt, rfl, hDrawn⟩
        have hWrite :
            runtime.Write request past₂ principal.user
              (runtime.canonical
                { hashedPassword :=
                    some (.bcrypt
                      (runtime.normalizePassword
                        newPassword) salt) }) :=
          .password hDrawn hAuthorized
        refine Obeys.andThen
          (update_obeys
            ((hKept₁.trans hKept₂).read.trans hRead)
            (hEntitled.mono (hSuffix₁.trans hSuffix₂))
            hWrite) ?_
        simp

/- Only the kept session is rebound. -/
theorem evictOthers_obeys
    {current : Option Nat}
    (hRead : lastRead past = some user)
    (hEntitled : runtime.Entitled request past user.id)
    (hCurrent : request.keptSession = current) :
    Obeys (runtime.contract request) past
      (runtime.evictOthers user current)
      (Returns fun past' _ =>
        Kept past past' ∧
        (runtime.sessions.isSome = true →
          ∃ ids : List Nat,
            ∃ middle, past <:+ middle ∧
            (⟨.userSessions user.id, ids⟩ :: middle) <:+
              past' ∧
            ∀ key ∈ ids, some key ≠ current →
              Cleared past' user.id ids key)) := by
  unfold evictOthers
  split
  · rename_i hSessions
    cases current with
    | none =>
        refine Obeys.mono
          (Sessions.terminateAllUserSessions_obeys user.id
            none) ?_
        intro past' result _ hPost value hResult
        rcases hPost value hResult with
          ⟨hKept, ids, hIds, hCleared⟩
        exact ⟨hKept, fun _ =>
          ⟨ids, past, List.suffix_rfl, hIds, hCleared⟩⟩
    | some key =>
        refine obeys_step
          ⟨hSessions, user, hRead, rfl, hCurrent,
            hEntitled⟩ fun rebound _ => ?_
        refine Obeys.mono
          (Sessions.terminateAllUserSessions_obeys user.id
            (some key)) ?_
        intro past' result _ hPost value hResult
        rcases hPost value hResult with
          ⟨hKept, ids, hIds, hCleared⟩
        exact ⟨(Kept.cons rfl rfl).trans hKept, fun _ =>
          ⟨ids, _, List.suffix_cons _ _, hIds, hCleared⟩⟩
  · rename_i hNone
    simp only [obeys_pure, returns_ok]
    exact ⟨Kept.refl, fun hSessions =>
      absurd hSessions hNone⟩

/- A new password, once the old one is checked. -/
theorem applyChange_obeys
    {newPassword : String}
    {current : Option Nat}
    (hRead : lastRead past = some user)
    (hEntitled : runtime.Entitled request past user.id)
    (hAuthorized : runtime.Authorizes request user)
    (hCurrent : request.keptSession = current) :
    Obeys (runtime.contract request) past
      (runtime.applyChange user newPassword current)
      (Returns fun past' _ =>
        ∃ user', lastRead past' = some user' ∧
          runtime.Entitled request past' user'.id ∧
          runtime.Evicted past' user'.id current) := by
  refine Obeys.andThen (getPasswordHash_obeys newPassword) ?_
  rintro past₁ hash _ ⟨hKept, hSuffix₁, salt, rfl, hDrawn⟩
  have hWrite :
      runtime.Write request past₁ user
        (runtime.canonical
          { hashedPassword :=
              some (.bcrypt
                (runtime.normalizePassword newPassword)
                salt) }) :=
    .password hDrawn hAuthorized
  refine Obeys.andThen
    (update_obeys (hKept.read.trans hRead)
      (hEntitled.mono hSuffix₁) hWrite) ?_
  rintro past₂ user₂ hSuffix₂ ⟨hReread₂, hCommitted⟩
  refine Obeys.andThen
    (incrementTokenVersion_obeys hReread₂.read hCommitted
      hReread₂.id.symm rfl) ?_
  rintro past₃ user₃ hSuffix₃ ⟨hReread₃, hBumped⟩
  have hEntitled₃ :
      runtime.Entitled request past₃ user₃.id := by
    rw [hReread₃.id, hReread₂.id]
    exact hEntitled.mono
      (hSuffix₁.trans (hSuffix₂.trans hSuffix₃))
  rw [← hReread₃.id] at hBumped
  refine Obeys.mono
    (evictOthers_obeys hReread₃.read hEntitled₃
      hCurrent) ?_
  intro past₄ result hSuffix₄ hPost value hResult
  rcases hPost value hResult with ⟨hKept₄, hCleared⟩
  refine ⟨user₃, hKept₄.read.trans hReread₃.read,
    hEntitled₃.mono hSuffix₄, fun hVersion =>
      hSuffix₄.subset (hBumped hVersion), ?_⟩
  intro hVersion hSessions
  rcases hCleared hSessions with
    ⟨ids, middle, hMiddle, hIds, hKeys⟩
  exact ⟨ids,
    ⟨middle, hIds, hMiddle.subset (hBumped hVersion)⟩,
    hKeys⟩

/- A change of password, the check included. -/
theorem changePassword_obeys
    {credential : Credential}
    {currentPassword newPassword : String}
    {principal : Principal}
    (hRequest :
      request =
        .changePassword credential currentPassword
          newPassword)
    (hResolves :
      runtime.Resolves past credential principal)
    (hEntitled :
      runtime.Entitled request past principal.user.id) :
    Obeys (runtime.contract request) past
      (runtime.changePassword principal currentPassword
        newPassword)
      (Returns fun past' _ =>
        runtime.Answered request past'
          .passwordChanged) := by
  have hKept :
      request.keptSession = principal.sessionId := by
    rw [hResolves.session]
    subst hRequest
    cases credential <;> rfl
  unfold changePassword
  dsimp only
  split
  · simp
  · split
    · simp
    · rename_i hVerified
      have hAuthorized :
          runtime.Authorizes request principal.user := by
        subst hRequest
        simpa [Authorizes] using hVerified
      split
      · simp
      · refine Obeys.mono
          (applyChange_obeys hResolves.read hEntitled
            hAuthorized hKept) ?_
        intro past' result _ hPost value hResult
        rw [← hKept] at hPost
        exact hPost value hResult

------------------------------------------------------------
-- Two-Factor Enrollment
------------------------------------------------------------

variable {config : MfaConfig}

/- A secret is stored for the caller only. -/
theorem totpSetup_obeys
    {principal : Principal}
    {password : Option String}
    (hRead : lastRead past = some principal.user)
    (hEntitled :
      runtime.Entitled request past principal.user.id) :
    Obeys (runtime.contract request) past
      (runtime.totpSetup principal password)
      (Returns fun _ _ => True) := by
  unfold totpSetup
  dsimp only
  split
  · refine Obeys.andThen
      (signedInRecently_obeys principal) ?_
    intro past' recent hSuffix hKept
    split
    · exact beginSetup_obeys (hKept.read.trans hRead)
        (hEntitled.mono hSuffix)
    · simp
  · split
    · exact beginSetup_obeys hRead hEntitled
    · simp

/- Removal takes a code that was accepted. -/
theorem totpDisable_obeys
    {credential : Credential}
    {code : Code}
    {principal : Principal}
    (hMfa : runtime.mfa = some config)
    (hRequest : request = .totpDisable credential code)
    (hRead : lastRead past = some principal.user)
    (hEntitled :
      runtime.Entitled request past principal.user.id) :
    Obeys (runtime.contract request) past
      (runtime.totpDisable config principal code)
      (Returns fun _ _ => True) := by
  unfold totpDisable
  split
  · simp
  · have hCode : request.code? = some code := by
      subst hRequest
      rfl
    refine Obeys.andThen
      (MfaConfig.verifyCode_obeys hMfa hCode hRead
        hEntitled) ?_
    rintro past' ⟨accepted, user'⟩ hSuffix
      ⟨hReread, hVerified⟩
    dsimp only at hReread hVerified ⊢
    split
    · rename_i hTrue
      have hEntitled' :
          runtime.Entitled request past' user'.id := by
        rw [hReread.id]
        exact hEntitled.mono hSuffix
      have hAccepted :
          Accepted request past' user'.id := by
        rw [hReread.id]
        exact (hVerified hTrue).2
      refine Obeys.andThen
        (disable_obeys hReread.read hEntitled' hAccepted
          hRequest) ?_
      simp
    · simp

/- New recovery codes take one too. -/
theorem regenerate_obeys
    {principal : Principal}
    {code : Code}
    (hMfa : runtime.mfa = some config)
    (hCode : request.code? = some code)
    (hRead : lastRead past = some principal.user)
    (hEntitled :
      runtime.Entitled request past principal.user.id) :
    Obeys (runtime.contract request) past
      (runtime.regenerate config principal code)
      (Returns fun _ _ => True) := by
  refine Obeys.andThen
    (MfaConfig.verifyCode_obeys hMfa hCode hRead
      hEntitled) ?_
  rintro past' ⟨accepted, user'⟩ hSuffix
    ⟨hReread, hVerified⟩
  dsimp only at hReread hVerified ⊢
  split
  · rename_i hTrue
    have hEntitled' :
        runtime.Entitled request past' user'.id := by
      rw [hReread.id]
      exact hEntitled.mono hSuffix
    have hAccepted : Accepted request past' user'.id := by
      rw [hReread.id]
      exact (hVerified hTrue).2
    exact regenerateRecoveryCodes_obeys hReread.read
      hEntitled' hAccepted
  · simp

end Runtime

end CrudAuth
