import CrudAuth.Discipline.Login

/-
  The recovery flows and the account routes keep the
  contract.

  Main declarations:
    * `redeemToken_obeys`
    * `resetPassword_obeys`
    * `confirmEmailChange_obeys`
-/

namespace CrudAuth

open Concurrency
open Concurrency.Program

namespace Runtime

variable {runtime : Runtime}
variable {request : Request}
variable {past : List Act}
variable {user : User}
variable {flows : EmailFlows}

------------------------------------------------------------
-- Tokens
------------------------------------------------------------

/- A redeemed token matches the copy it is redeemed on. -/
theorem redeemToken_obeys
    {token : SignedToken}
    {purpose : Purpose}
    (hFirst :
      request.readsOnce = true →
        lastSelected past = none) :
    Obeys (runtime.contract request) past
      (runtime.redeemToken token purpose)
      (Returns fun past' user =>
        lastRead past' = some user ∧
        token.state =
          runtime.stateFingerprint purpose user ∧
        runtime.Redeemed past' token purpose user.id) := by
  refine obeys_step trivial fun now _ => ?_
  split
  · simp
  · refine obeys_step hFirst fun found hAnswer => ?_
    cases found with
    | none => simp
    | some user =>
        have hId : user.id = token.sub := by
          simpa [World.matchesSelector] using
            hAnswer user rfl
        dsimp only
        split
        · simp
        · rename_i hCurrent
          rw [not_or, not_not] at hCurrent
          simp only [obeys_pure, returns_ok]
          exact ⟨rfl, hCurrent.2, user,
            List.mem_cons_self, hId.symm,
            by simpa using hCurrent.1, hCurrent.2⟩

/- Marking a token changes no row. -/
theorem consume_obeys
    {token : SignedToken}
    {ttl : Nat} :
    Obeys (runtime.contract request) past
      (consume flows token ttl)
      (Returns fun past' _ => Kept past past') := by
  unfold consume
  split
  · refine obeys_call trivial fun _ _ => ?_
    intro _ _
    exact Kept.cons rfl rfl
  · simp only [obeys_pure, returns_ok]
    exact Kept.refl

/- A token is minted from the copy and then delivered. -/
theorem mintToken_obeys
    {purpose : Purpose}
    {ttl : Nat}
    {newEmail : Option String} :
    Obeys (runtime.contract request) past
      (runtime.mintToken purpose user ttl newEmail)
      (Returns fun _ token =>
        token.sub = user.id ∧
        token.state =
          runtime.stateFingerprint purpose user) := by
  refine obeys_step trivial fun now _ => ?_
  simp

------------------------------------------------------------
-- Recovery Verification
------------------------------------------------------------

/- The recovery factor is where these tokens are sent. -/
theorem recoveryValue_of_factor
    {factor : Field}
    (hFactor : runtime.recovery = some factor)
    (user : User) :
    runtime.recoveryValue user = user.get factor := by
  simp [recoveryValue, hFactor]

/- A link for the recovery address. -/
theorem requestRecoveryVerification_obeys
    {value : String}
    (hMints : request.mints = some .verify)
    (hFirst :
      request.readsOnce = true →
        lastSelected past = none) :
    Obeys (runtime.contract request) past
      (runtime.requestRecoveryVerification flows value)
      (Returns fun _ _ => True) := by
  unfold requestRecoveryVerification
  split
  · simp
  · rename_i factor hFactor
    refine obeys_step trivial fun allowed _ => ?_
    cases allowed with
    | false => simp
    | true =>
        refine Obeys.andThen
          (getByField_obeys hFirst) ?_
        rintro past' found _ ⟨selector, rfl⟩
        cases found with
        | none => simp
        | some user =>
            dsimp only
            split
            · simp
            · refine Obeys.andThen mintToken_obeys ?_
              rintro past'' token hSuffix ⟨hSub, hState⟩
              refine obeys_call ?_ fun _ _ => by simp
              rintro _ ⟨rfl⟩
              refine ⟨?_, _, user,
                hSuffix.subset List.mem_cons_self,
                rfl, hSub, ?_, ?_⟩
              · rw [hState, purpose_stateFingerprint,
                  hMints]
              · rw [hState, purpose_stateFingerprint]
              · rw [hState, purpose_stateFingerprint,
                  recoveryValue_of_factor hFactor]

/- The address is marked on the row that was read. -/
theorem markRecoveryVerified_obeys
    (hRead : lastRead past = some user)
    (hEntitled : runtime.Entitled request past user.id) :
    Obeys (runtime.contract request) past
      (runtime.markRecoveryVerified user)
      (Returns fun _ _ => True) := by
  have hFactor :
      runtime.Write request past user
        (runtime.canonical
          { factorVerified := some true }) :=
    .factorVerified
  have hEmail :
      runtime.Write request past user
        (runtime.canonical
          { emailVerified := some true }) :=
    .emailVerified
  unfold markRecoveryVerified
  split
  · simp
  · refine Obeys.mono
      (update_obeys hRead hEntitled hEmail) ?_
    intro past' result _ _ user' _
    trivial
  · refine Obeys.mono
      (update_obeys hRead hEntitled hFactor) ?_
    intro past' result _ _ user' _
    trivial

/- The link of that address is redeemed. -/
theorem confirmRecoveryVerification_obeys
    {token : SignedToken}
    (hRequest : request = .confirmVerification token)
    (hFirst : lastSelected past = none) :
    Obeys (runtime.contract request) past
      (runtime.confirmRecoveryVerification flows token)
      (Returns fun past' _ =>
        ∃ id, runtime.Entitled request past' id) := by
  refine Obeys.andThen
    (redeemToken_obeys fun _ => hFirst) ?_
  rintro past₁ user _ ⟨hRead, -, hRedeemed⟩
  have hEntitled :
      runtime.Entitled request past₁ user.id := by
    subst hRequest
    exact hRedeemed
  refine Obeys.andThen consume_obeys ?_
  intro past₂ fresh hSuffix hKept
  have hEntitled₂ := hEntitled.mono hSuffix
  cases fresh with
  | false => simp
  | true =>
      rw [if_pos rfl]
      split
      · refine Obeys.andThen
          (markRecoveryVerified_obeys
            (hKept.read.trans hRead) hEntitled₂) ?_
        intro past₃ _ hSuffix₃ _
        simp only [obeys_pure, returns_ok]
        exact ⟨user.id, hEntitled₂.mono hSuffix₃⟩
      · simp only [obeys_pure, returns_ok]
        exact ⟨user.id, hEntitled₂⟩

------------------------------------------------------------
-- Password Reset
------------------------------------------------------------

/- A link for a new password. -/
theorem requestPasswordReset_obeys
    {value : String}
    (hMints : request.mints = some .reset)
    (hFirst :
      request.readsOnce = true →
        lastSelected past = none) :
    Obeys (runtime.contract request) past
      (runtime.requestPasswordReset flows value)
      (Returns fun _ _ => True) := by
  unfold requestPasswordReset
  split
  · simp
  · rename_i factor hFactor
    refine obeys_step trivial fun allowed _ => ?_
    cases allowed with
    | false => simp
    | true =>
        refine Obeys.andThen
          (getByField_obeys hFirst) ?_
        rintro past' found _ ⟨selector, rfl⟩
        cases found with
        | none => simp
        | some user =>
            dsimp only
            split
            · simp
            · refine Obeys.andThen mintToken_obeys ?_
              rintro past'' token hSuffix ⟨hSub, hState⟩
              refine obeys_call ?_ fun _ _ => by simp
              rintro _ ⟨rfl⟩
              refine ⟨?_, _, user,
                hSuffix.subset List.mem_cons_self,
                rfl, hSub, ?_, ?_⟩
              · rw [hState, purpose_stateFingerprint,
                  hMints]
              · rw [hState, purpose_stateFingerprint]
              · rw [hState, purpose_stateFingerprint,
                  recoveryValue_of_factor hFactor]

/- The index is read after everything done so far. -/
private theorem seen_of_suffix
    {past' : List Act}
    {later earlier : Act}
    (hSuffix : later :: past <:+ past')
    (hEarlier : earlier ∈ past) :
    Seen past' later earlier :=
  ⟨past, hSuffix, hEarlier⟩

/- The sessions of an account are deleted. -/
theorem terminateSessions_obeys
    {exclude : Option Nat} :
    Obeys (runtime.contract request) past
      (runtime.terminateSessions user.id exclude)
      (Returns fun past' _ =>
        Kept past past' ∧
        (runtime.sessions.isSome = true →
          ∃ ids : List Nat,
            (⟨.userSessions user.id, ids⟩ :: past) <:+
              past' ∧
            ∀ key ∈ ids, some key ≠ exclude →
              Cleared past' user.id ids key)) := by
  unfold terminateSessions
  split
  · rename_i hNone
    simp only [obeys_pure, returns_ok]
    exact ⟨Kept.refl, by simp [hNone]⟩
  · refine Obeys.mono
      (Sessions.terminateAllUserSessions_obeys user.id
        exclude) ?_
    intro past' result _ hPost value hResult
    rcases hPost value hResult with ⟨hKept, hCleared⟩
    exact ⟨hKept, fun _ => hCleared⟩

/- What a bump and an eviction after it amount to. -/
theorem evicted_of
    {past' : List Act}
    {id : UserId}
    {excluded : Option Nat}
    (hBumped : runtime.hasTokenVersion = true →
      (⟨.incrementVersion id, ()⟩ : Act) ∈ past)
    (hSuffix : past <:+ past')
    (hCleared : runtime.sessions.isSome = true →
      ∃ ids : List Nat,
        (⟨.userSessions id, ids⟩ :: past) <:+ past' ∧
        ∀ key ∈ ids, some key ≠ excluded →
          Cleared past' id ids key) :
    runtime.Evicted past' id excluded := by
  refine ⟨fun hVersion =>
    hSuffix.subset (hBumped hVersion), ?_⟩
  intro hVersion hSessions
  rcases hCleared hSessions with ⟨ids, hIds, hKeys⟩
  exact ⟨ids, seen_of_suffix hIds (hBumped hVersion), hKeys⟩

/- The password is written and the sessions end. -/
theorem applyReset_obeys
    {newPassword : String}
    (hRead : lastRead past = some user)
    (hEntitled : runtime.Entitled request past user.id)
    (hAuthorized : runtime.Authorizes request user) :
    Obeys (runtime.contract request) past
      (runtime.applyReset user newPassword)
      (Returns fun past' _ =>
        ∃ user', lastRead past' = some user' ∧
          runtime.Entitled request past' user'.id ∧
          runtime.Evicted past' user'.id none) := by
  refine Obeys.andThen (getPasswordHash_obeys newPassword) ?_
  rintro past₁ hash _ ⟨hKept, hSuffix₁, salt, rfl, hDrawn⟩
  have hWrite :
      runtime.Write request past₁ user
        (runtime.canonical
          { hashedPassword :=
              some (.bcrypt
                (runtime.normalizePassword newPassword)
                salt) }) :=
    .password hDrawn hAuthorized
  refine Obeys.andThen
    (update_obeys (hKept.read.trans hRead)
      (hEntitled.mono hSuffix₁) hWrite) ?_
  rintro past₂ user₂ hSuffix₂ ⟨hReread₂, hCommitted⟩
  refine Obeys.andThen
    (incrementTokenVersion_obeys hReread₂.read hCommitted
      hReread₂.id.symm rfl) ?_
  rintro past₃ user₃ hSuffix₃ ⟨hReread₃, hBumped⟩
  have hEntitled₃ :
      runtime.Entitled request past₃ user₃.id := by
    rw [hReread₃.id, hReread₂.id]
    exact hEntitled.mono
      (hSuffix₁.trans (hSuffix₂.trans hSuffix₃))
  rw [← hReread₃.id] at hBumped
  refine Obeys.mono terminateSessions_obeys ?_
  intro past₄ result hSuffix₄ hPost value hResult
  rcases hPost value hResult with ⟨hKept₄, hCleared⟩
  exact ⟨user₃, hKept₄.read.trans hReread₃.read,
    hEntitled₃.mono hSuffix₄,
    evicted_of hBumped hSuffix₄ hCleared⟩

/- The link for a new password is redeemed. -/
theorem resetPassword_obeys
    {token : SignedToken}
    {newPassword : String}
    (hRequest : request = .resetPassword token newPassword)
    (hFirst : lastSelected past = none) :
    Obeys (runtime.contract request) past
      (runtime.resetPassword flows token newPassword)
      (Returns fun past' _ =>
        runtime.Answered request past' .passwordReset) := by
  refine Obeys.andThen
    (redeemToken_obeys fun _ => hFirst) ?_
  rintro past₁ user _ ⟨hRead, hState, hRedeemed⟩
  have hEntitled :
      runtime.Entitled request past₁ user.id := by
    subst hRequest
    exact hRedeemed
  have hAuthorized : runtime.Authorizes request user := by
    subst hRequest
    exact hState
  split
  · simp
  · refine Obeys.andThen consume_obeys ?_
    intro past₂ fresh hSuffix hKept
    cases fresh with
    | false => simp
    | true =>
        exact applyReset_obeys (hKept.read.trans hRead)
          (hEntitled.mono hSuffix) hAuthorized

------------------------------------------------------------
-- Email Change
------------------------------------------------------------

/- A link for a new address. -/
theorem requestEmailChange_obeys
    {credential : Credential}
    {newEmail password : String}
    (hRequest :
      request =
        .requestEmailChange credential newEmail password)
    (hRead : lastRead past = some user)
    (hEntitled : runtime.Entitled request past user.id) :
    Obeys (runtime.contract request) past
      (runtime.requestEmailChange flows user newEmail
        password)
      (Returns fun _ _ => True) := by
  have hOften {past' : List Act} :
      request.readsOnce = true →
        lastSelected past' = none := by
    subst hRequest
    simp [Request.readsOnce]
  have hCopy : ∃ action ∈ past, copyOf action = some user :=
    List.exists_of_findSome?_eq_some hRead
  rcases hCopy with ⟨action, hAction, hCopied⟩
  unfold requestEmailChange
  split
  · simp
  · rename_i hVerified
    dsimp only
    split
    · simp
    · refine obeys_step trivial fun allowed _ => ?_
      cases allowed with
      | false => simp
      | true =>
          refine Obeys.andThen (getByField_obeys hOften) ?_
          rintro past₁ found hSuffix₁ _
          cases found with
          | some other => simp
          | none =>
              refine Obeys.andThen mintToken_obeys ?_
              rintro past₂ token hSuffix₂ ⟨hSub, hState⟩
              have hSuffix : past <:+ past₂ :=
                (List.suffix_cons _ _).trans
                  (hSuffix₁.trans hSuffix₂)
              refine obeys_call ?_ fun _ _ => by simp
              rintro _ ⟨rfl⟩
              refine ⟨?_, action, user,
                hSuffix.subset hAction, hCopied, hSub,
                ?_, ?_⟩
              · rw [hState, purpose_stateFingerprint,
                  hRequest]
                rfl
              · rw [hState, purpose_stateFingerprint]
              · rw [hState, purpose_stateFingerprint]
                exact ⟨hEntitled.mono hSuffix, credential,
                  newEmail, password, hRequest,
                  by simpa using hVerified⟩

/- The link for a new address is redeemed. -/
theorem confirmEmailChange_obeys
    {token : SignedToken}
    (hRequest : request = .confirmEmailChange token) :
    Obeys (runtime.contract request) past
      (runtime.confirmEmailChange flows token)
      (Returns fun past' _ =>
        ∃ id, runtime.Entitled request past' id) := by
  have hOften {past' : List Act} :
      request.readsOnce = true →
        lastSelected past' = none := by
    subst hRequest
    simp [Request.readsOnce]
  refine Obeys.andThen (redeemToken_obeys hOften) ?_
  rintro past₁ user _ ⟨hRead, -, hRedeemed⟩
  have hEntitled :
      runtime.Entitled request past₁ user.id := by
    subst hRequest
    exact hRedeemed
  split
  · simp
  · simp
  · rename_i newEmail _ hNew
    refine Obeys.andThen (getByField_obeys hOften) ?_
    rintro past₂ found hSuffix₂ ⟨selector, rfl⟩
    cases found with
    | some other => simp
    | none =>
        refine Obeys.andThen consume_obeys ?_
        intro past₃ fresh hSuffix₃ hKept
        have hSuffix := hSuffix₂.trans hSuffix₃
        cases fresh with
        | false => simp
        | true =>
            have hRead₃ : lastRead past₃ = some user :=
              hKept.read.trans hRead
            have hWrite :
                runtime.Write request past₃ user
                  (runtime.canonical
                    { email := some (some newEmail)
                      emailVerified := some true }) :=
              .email hRequest hNew
            refine Obeys.andThen
              (update?_obeys hRead₃
                (hEntitled.mono hSuffix) hWrite) ?_
            intro past₄ updated hSuffix₄ _
            have hEntitled₄ :
                runtime.Entitled request past₄ user.id :=
              hEntitled.mono (hSuffix.trans hSuffix₄)
            cases updated with
            | none => simp
            | some user' =>
                dsimp only
                split
                · refine obeys_call
                    (by simp [contract, rule])
                    fun _ _ => ?_
                  simp only [returns_ok]
                  exact ⟨user.id,
                    hEntitled₄.mono (List.suffix_cons _ _)⟩
                · simp only [obeys_pure, returns_ok]
                  exact ⟨user.id, hEntitled₄⟩

end Runtime

end CrudAuth
