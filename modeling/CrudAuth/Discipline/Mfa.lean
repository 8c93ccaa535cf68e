import CrudAuth.Discipline.Sessions

/-
  The MFA service keeps the contract.

  The copy of a flow may be reread many times on the way;
  the row selected first stays the one whose pending secret
  is enabled.

  Main declarations:
    * `verifyCode_obeys`
    * `confirmSetup_obeys`
    * `challengeLogin_obeys`
    * `completeChallenge_obeys`
-/

namespace CrudAuth

open Concurrency
open Concurrency.Program

variable {runtime : Runtime}
variable {request : Request}
variable {past : List Act}
variable {user : User}
variable {config : MfaConfig}

------------------------------------------------------------
-- Codes
------------------------------------------------------------

namespace MfaConfig

/- An accepted code has claimed the step it matches. -/
theorem acceptTotp_obeys
    {secret : Secret}
    {code : Code}
    (hMfa : runtime.mfa = some config)
    (hCode : request.code? = some code)
    (hRead : lastRead past = some user)
    (hSecret : runtime.HoldsSecret user secret) :
    Obeys (runtime.contract request) past
      (config.acceptTotp user secret code)
      (Returns fun past' result =>
        Reread past past' user result.2 ∧
        (result.1 = true →
          Accepted request past' user.id)) := by
  cases code with
  | recovery recovery =>
      simp only [acceptTotp, obeys_pure, returns_ok]
      exact ⟨Reread.refl hRead, by simp⟩
  | digits digits =>
      refine obeys_step trivial fun now _ => ?_
      have hNow : Kept past (⟨.now, now⟩ :: past) :=
        Kept.cons rfl rfl
      split
      · simp only [obeys_pure, returns_ok]
        exact ⟨(Reread.refl hRead).keep hNow, by simp⟩
      · rename_i step hStep
        have hMatches :
            runtime.Matches request (⟨.now, now⟩ :: past)
              user.id step :=
          ⟨config, user, secret, digits, now, hMfa, hCode,
            rfl, hRead, rfl, hSecret, hStep⟩
        refine Obeys.mono
          (Runtime.claimTotpStep_obeys hRead hMatches) ?_
        intro past' result _ hPost value hResult
        rcases hPost value hResult with
          ⟨hReread, hClaimed⟩
        refine ⟨hNow.reread hReread, fun hTrue => ?_⟩
        exact ⟨_, hCode, step, hClaimed hTrue⟩

/- A code accepted is a step claimed. -/
theorem verifyTotp_obeys
    {code : Code}
    (hMfa : runtime.mfa = some config)
    (hCode : request.code? = some code)
    (hRead : lastRead past = some user) :
    Obeys (runtime.contract request) past
      (config.verifyTotp user code)
      (Returns fun past' result =>
        Reread past past' user result.2 ∧
        (result.1 = true →
          user.isEnrolled = true ∧
            Accepted request past' user.id)) := by
  unfold verifyTotp
  split
  · rename_i hEnrolled
    split
    · rename_i secret hSecret
      refine Obeys.mono
        (acceptTotp_obeys hMfa hCode hRead
          (Or.inl ⟨hEnrolled, hSecret⟩)) ?_
      intro past' result _ hPost value hResult
      rcases hPost value hResult with ⟨hReread, hAccepted⟩
      exact ⟨hReread, fun hTrue =>
        ⟨hEnrolled, hAccepted hTrue⟩⟩
    · simp
    · simp only [obeys_pure, returns_ok]
      exact ⟨Reread.refl hRead, by simp⟩
    · simp only [obeys_pure, returns_ok]
      exact ⟨Reread.refl hRead, by simp⟩
  · simp only [obeys_pure, returns_ok]
    exact ⟨Reread.refl hRead, by simp⟩

/- Every attempt spends from the copy it has. -/
theorem consumeRecoveryCode_obeys
    {code : RecoveryCode}
    {attempts : Nat}
    (hCode : request.code? = some (.recovery code))
    (hRead : lastRead past = some user)
    (hEntitled : runtime.Entitled request past user.id) :
    Obeys (runtime.contract request) past
      (consumeRecoveryCode code attempts user)
      (Returns fun past' result =>
        Reread past past' user result.2 ∧
        (result.1 = true →
          Accepted request past' user.id)) := by
  induction attempts generalizing past user with
  | zero =>
      simp only [consumeRecoveryCode, obeys_pure,
        returns_ok]
      exact ⟨Reread.refl hRead, by simp⟩
  | succ attempts ih =>
      unfold consumeRecoveryCode
      dsimp only
      split
      · rename_i hMem
        refine Obeys.andThen
          (Runtime.updateIfUnchanged_obeys hRead hEntitled
            (.spend hCode hMem)) ?_
        rintro past' ⟨spent, user'⟩ hSuffix
          ⟨hReread, hSpent⟩
        dsimp only at hReread hSpent ⊢
        split
        · rename_i hTrue
          simp only [obeys_pure, returns_ok]
          exact ⟨hReread, fun _ =>
            ⟨_, hCode, _, hMem, hSpent hTrue⟩⟩
        · have hEntitled' :
              runtime.Entitled request past' user'.id := by
            rw [hReread.id]
            exact hEntitled.mono hSuffix
          refine Obeys.mono
            (ih hReread.read hEntitled') ?_
          intro past'' result _ hPost value hResult
          rcases hPost value hResult with
            ⟨hReread', hAccepted⟩
          refine ⟨hReread.trans hReread', fun hTrue => ?_⟩
          rw [← hReread.id]
          exact hAccepted hTrue
      · simp only [obeys_pure, returns_ok]
        exact ⟨Reread.refl hRead, by simp⟩

/- A code of either kind, accepted. -/
theorem verifyCode_obeys
    {code : Code}
    (hMfa : runtime.mfa = some config)
    (hCode : request.code? = some code)
    (hRead : lastRead past = some user)
    (hEntitled : runtime.Entitled request past user.id) :
    Obeys (runtime.contract request) past
      (config.verifyCode user code)
      (Returns fun past' result =>
        Reread past past' user result.2 ∧
        (result.1 = true →
          user.isEnrolled = true ∧
            Accepted request past' user.id)) := by
  cases code with
  | digits digits => exact verifyTotp_obeys hMfa hCode hRead
  | recovery recovery =>
      unfold verifyCode
      dsimp only
      split
      · rename_i hEnrolled
        refine Obeys.mono
          (consumeRecoveryCode_obeys hCode hRead
            hEntitled) ?_
        intro past' result _ hPost value hResult
        rcases hPost value hResult with
          ⟨hReread, hAccepted⟩
        exact ⟨hReread, fun hTrue =>
          ⟨hEnrolled, hAccepted hTrue⟩⟩
      · simp only [obeys_pure, returns_ok]
        exact ⟨Reread.refl hRead, by simp⟩

end MfaConfig

------------------------------------------------------------
-- Enrollment
------------------------------------------------------------

namespace Runtime

/- A fresh secret is stored as pending. -/
theorem storePending_obeys
    {secret : Secret}
    (hRead : lastRead past = some user)
    (hEntitled : runtime.Entitled request past user.id)
    (hDrawn : Drawn past secret)
    (hNotEnrolled : user.isEnrolled = false) :
    Obeys (runtime.contract request) past
      (runtime.storePending user secret)
      (Returns fun past' user' =>
        Reread past past' user user') := by
  have hWrite :
      runtime.Write request past user
        (runtime.canonical
          (runtime.pendingPatch user secret)) :=
    .pending hDrawn hNotEnrolled
  refine Obeys.mono
    (update_obeys hRead hEntitled hWrite) ?_
  intro past' result _ hPost user' hResult
  exact (hPost user' hResult).1

/- A setup, up to the stored secret. -/
theorem beginSetup_obeys
    (hRead : lastRead past = some user)
    (hEntitled : runtime.Entitled request past user.id) :
    Obeys (runtime.contract request) past
      (runtime.beginSetup user)
      (Returns fun _ _ => True) := by
  unfold beginSetup
  split
  · simp
  · rename_i hNotEnrolled
    refine obeys_step trivial fun secret _ => ?_
    have hEntitled' :
        runtime.Entitled request (⟨.fresh, secret⟩ :: past)
          user.id :=
      hEntitled.mono (List.suffix_cons _ _)
    refine Obeys.andThen
      (storePending_obeys hRead hEntitled' rfl
        (Bool.eq_false_iff.mpr hNotEnrolled)) ?_
    simp

/- A copy that shows a pending secret is not reread. -/
theorem pendingOrNewSecret_obeys
    (hRead : lastRead past = some user)
    (hEntitled : runtime.Entitled request past user.id)
    (hNotEnrolled : user.isEnrolled = false) :
    Obeys (runtime.contract request) past
      (runtime.pendingOrNewSecret user)
      (Returns fun past' result =>
        Reread past past' user result.2) := by
  unfold pendingOrNewSecret
  split
  · simp only [obeys_pure, returns_ok]
    exact Reread.refl hRead
  · refine obeys_step trivial fun secret _ => ?_
    refine Obeys.andThen
      (storePending_obeys hRead
        (hEntitled.mono (List.suffix_cons _ _)) rfl
        hNotEnrolled) ?_
    intro past' user' _ hReread
    simp only [obeys_pure, returns_ok]
    exact (Kept.cons rfl rfl).reread hReread

/- Enabling uses the secret of the row selected first. -/
theorem enable_obeys
    {secret : Secret}
    {selected : User}
    (hRead : lastRead past = some user)
    (hEntitled : runtime.Entitled request past user.id)
    (hAccepted : Accepted request past user.id)
    (hSelected : lastSelected past = some selected)
    (hId : selected.id = user.id)
    (hPending :
      runtime.pendingSecret selected = some secret) :
    Obeys (runtime.contract request) past
      (enable config user secret)
      (Returns fun past' result =>
        Reread past past' user result.2) := by
  refine obeys_step trivial fun batch _ => ?_
  refine obeys_step trivial fun now _ => ?_
  have hKept :
      Kept past (⟨.now, now⟩ :: ⟨.fresh, batch⟩ :: past) :=
    (Kept.cons rfl rfl).trans (Kept.cons rfl rfl)
  have hSuffix :
      past <:+ ⟨.now, now⟩ :: ⟨.fresh, batch⟩ :: past :=
    (List.suffix_cons _ _).trans (List.suffix_cons _ _)
  have hSwap :
      runtime.Swap request
        (⟨.now, now⟩ :: ⟨.fresh, batch⟩ :: past) user.id
        (.totpConfirmedAt none)
        (enablePatch secret now
          (recoveryBatch batch config.recoveryCodeCount)) :=
    .enable (List.prefix_append _ past)
      (hAccepted.mono hSuffix) hSelected hId hPending
  refine Obeys.andThen
    (updateIfUnchanged_obeys hRead
      (hEntitled.mono hSuffix) hSwap) ?_
  rintro past' ⟨enabled, user'⟩ _ ⟨hReread, -⟩
  dsimp only at hReread ⊢
  split
  · simp only [obeys_pure, returns_ok]
    exact hKept.reread hReread
  · simp only [obeys_pure, returns_ok]
    exact hKept.reread hReread

/- A setup is confirmed by a code. -/
theorem confirmSetup_obeys
    {code : Code}
    (hMfa : runtime.mfa = some config)
    (hCode : request.code? = some code)
    (hRead : lastRead past = some user)
    (hSelected : lastSelected past = some user)
    (hEntitled : runtime.Entitled request past user.id) :
    Obeys (runtime.contract request) past
      (runtime.confirmSetup config user code)
      (Returns fun _ _ => True) := by
  unfold confirmSetup
  split
  · simp
  · split
    · simp
    · rename_i secret hPending
      refine Obeys.andThen
        (MfaConfig.acceptTotp_obeys hMfa hCode hRead
          (Or.inr hPending)) ?_
      rintro past' ⟨accepted, user'⟩ hSuffix
        ⟨hReread, hAccepted⟩
      dsimp only at hReread hAccepted ⊢
      split
      · rename_i hTrue
        have hEntitled' :
            runtime.Entitled request past' user'.id := by
          rw [hReread.id]
          exact hEntitled.mono hSuffix
        have hAccepted' :
            Accepted request past' user'.id := by
          rw [hReread.id]
          exact hAccepted hTrue
        refine Obeys.andThen
          (enable_obeys hReread.read hEntitled' hAccepted'
            (hReread.selected.trans hSelected)
            hReread.id.symm hPending) ?_
        rintro past'' ⟨codes, user''⟩ _ _
        cases codes with
        | none => simp
        | some codes => simp
      · simp

/- The authenticator is removed. -/
theorem disable_obeys
    {credential : Credential}
    {code : Code}
    (hRead : lastRead past = some user)
    (hEntitled : runtime.Entitled request past user.id)
    (hAccepted : Accepted request past user.id)
    (hRequest : request = .totpDisable credential code) :
    Obeys (runtime.contract request) past
      (runtime.disable user)
      (Returns fun _ _ => True) := by
  have hWrite :
      runtime.Write request past user
        (runtime.canonical disablePatch) :=
    .disable hRequest hAccepted
  refine Obeys.mono
    (update_obeys hRead hEntitled hWrite) ?_
  intro past' result _ _ user' _
  trivial

/- The recovery codes are replaced. -/
theorem regenerateRecoveryCodes_obeys
    (hRead : lastRead past = some user)
    (hEntitled : runtime.Entitled request past user.id)
    (hAccepted : Accepted request past user.id) :
    Obeys (runtime.contract request) past
      (runtime.regenerateRecoveryCodes config user)
      (Returns fun _ _ => True) := by
  unfold regenerateRecoveryCodes
  split
  · rename_i hEnrolled
    refine obeys_step trivial fun batch _ => ?_
    have hWrite :
        runtime.Write request (⟨.fresh, batch⟩ :: past) user
          (runtime.canonical
            (codesPatch
              (recoveryBatch batch
                config.recoveryCodeCount))) :=
      .codes rfl config.recoveryCodeCount_pos hEnrolled
        (hAccepted.mono (List.suffix_cons _ _))
    refine Obeys.andThen
      (update_obeys hRead
        (hEntitled.mono (List.suffix_cons _ _)) hWrite) ?_
    simp
  · simp

------------------------------------------------------------
-- Login Challenges
------------------------------------------------------------

/- The throttles see no row. -/
theorem recordLoginSuccess_obeys
    (ip identifier : String) :
    Obeys (runtime.contract request) past
      (runtime.recordLoginSuccess ip identifier)
      (Returns fun past' _ => Kept past past') := by
  unfold recordLoginSuccess
  split
  · refine obeys_call trivial fun _ _ => ?_
    intro _ _
    exact Kept.cons rfl rfl
  · simp only [obeys_pure, returns_ok]
    exact Kept.refl

theorem countLoginAttempt_obeys
    (ip identifier : String) :
    Obeys (runtime.contract request) past
      (runtime.countLoginAttempt ip identifier)
      (Returns fun past' _ => Kept past past') := by
  unfold countLoginAttempt
  split
  · refine obeys_call trivial fun _ _ => ?_
    intro _ _
    exact Kept.cons rfl rfl
  · simp only [obeys_pure, returns_ok]
    exact Kept.refl

/- A challenge is bound to the newest copy. -/
theorem createChallenge_obeys
    {transport : TransportName}
    {ip identifier : String}
    {options : LoginOptions}
    {setup : Option Secret}
    (hRead : lastRead past = some user)
    (hEntitled : runtime.Entitled request past user.id) :
    Obeys (runtime.contract request) past
      (runtime.createChallenge config user transport ip
        identifier options setup)
      (Returns fun past' result =>
        ∃ (challenge : MfaChallenge) (ttl : Nat),
          (⟨.challengeCreate result.1 challenge ttl, ()⟩ :
            Act) ∈ past') := by
  refine obeys_step trivial fun token _ => ?_
  have hEntitled' :
      runtime.Entitled request (⟨.fresh, token⟩ :: past)
        user.id :=
    hEntitled.mono (List.suffix_cons _ _)
  refine obeys_step
    ⟨rfl, user, hRead, hEntitled', rfl, rfl⟩ fun _ _ => ?_
  simp only [obeys_pure, returns_ok]
  exact ⟨_, _, List.mem_cons_self⟩

/- Without a challenge the copy is the one that came. -/
theorem challengeLogin_obeys
    {transport : TransportName}
    {ip identifier : String}
    {options : LoginOptions}
    (hRead : lastRead past = some user)
    (hEntitled : runtime.Entitled request past user.id) :
    Obeys (runtime.contract request) past
      (runtime.challengeLogin config user transport ip
        identifier options)
      (Returns fun past' result =>
        match result with
        | none =>
            Kept past past' ∧ user.isEnrolled = false
        | some (token, _) =>
            ∃ (challenge : MfaChallenge) (ttl : Nat),
              (⟨.challengeCreate token challenge ttl, ()⟩ :
                Act) ∈ past') := by
  unfold challengeLogin
  split
  · rename_i hNeither
    refine Obeys.andThen
      (recordLoginSuccess_obeys ip identifier) ?_
    intro past' _ _ hKept
    simp only [obeys_pure, returns_ok]
    rw [Bool.and_eq_true, Bool.not_eq_true'] at hNeither
    exact ⟨hKept, hNeither.1⟩
  · split
    · refine Obeys.andThen
        (createChallenge_obeys hRead hEntitled) ?_
      intro past' created _ hCreated
      simp only [obeys_pure, returns_ok]
      exact hCreated
    · rename_i hNotEnrolled
      refine Obeys.andThen
        (pendingOrNewSecret_obeys hRead hEntitled
          (Bool.eq_false_iff.mpr hNotEnrolled)) ?_
      rintro past' ⟨secret, user'⟩ hSuffix hReread
      have hEntitled' :
          runtime.Entitled request past' user'.id := by
        rw [hReread.id]
        exact hEntitled.mono hSuffix
      refine Obeys.andThen
        (createChallenge_obeys hReread.read hEntitled') ?_
      intro past'' created _ hCreated
      simp only [obeys_pure, returns_ok]
      exact hCreated

/- The secret of a setup is that of the selected copy. -/
theorem checkChallengeCode_obeys
    {challenge : MfaChallenge}
    {code : Code}
    (hMfa : runtime.mfa = some config)
    (hCode : request.code? = some code)
    (hRead : lastRead past = some user)
    (hEntitled : runtime.Entitled request past user.id) :
    Obeys (runtime.contract request) past
      (runtime.checkChallengeCode config challenge user
        code)
      (Returns fun past' result =>
        Reread past past' user result.2.2 ∧
        (∀ secret, result.1 = some secret →
          runtime.pendingSecret user = some secret) ∧
        (result.2.1 = true →
          Accepted request past' user.id ∧
          (user.isEnrolled = true ∨
            (runtime.pendingSecret user).isSome =
              true))) := by
  unfold checkChallengeCode
  split
  · dsimp only
    split
    · simp only [obeys_pure, returns_ok]
      exact ⟨Reread.refl hRead, by simp, by simp⟩
    · rename_i secret hPending
      have hSecret :
          runtime.pendingSecret user = some secret := by
        split at hPending
        · simp at hPending
        · exact hPending
      refine Obeys.andThen
        (MfaConfig.acceptTotp_obeys hMfa hCode hRead
          (Or.inr hSecret)) ?_
      rintro past' ⟨accepted, user'⟩ _ ⟨hReread, hAccepted⟩
      simp only [obeys_pure, returns_ok,
        Option.some.injEq]
      refine ⟨hReread, ?_, fun hTrue =>
        ⟨hAccepted hTrue, by simp [hSecret]⟩⟩
      rintro _ rfl
      exact hSecret
  · refine Obeys.andThen
      (MfaConfig.verifyCode_obeys hMfa hCode hRead
        hEntitled) ?_
    rintro past' ⟨accepted, user'⟩ _ ⟨hReread, hVerified⟩
    simp only [obeys_pure, returns_ok]
    refine ⟨hReread, by simp, fun hTrue => ?_⟩
    rcases hVerified hTrue with ⟨hEnrolled, hAccepted⟩
    exact ⟨hAccepted, Or.inl hEnrolled⟩

/- A login ends with its challenge. -/
theorem finishChallenge_obeys
    {challenge : MfaChallenge}
    {secret : Option Secret}
    {presented : Option Nat}
    {selected : User}
    (hRead : lastRead past = some user)
    (hSignsIn : runtime.SignsIn request past user.id)
    (hUnchallenged : ∀ user',
      runtime.Unchallenged request user')
    (hAccepted : Accepted request past user.id)
    (hSelected : lastSelected past = some selected)
    (hId : selected.id = user.id)
    (hPending : ∀ pending, secret = some pending →
      runtime.pendingSecret selected = some pending) :
    Obeys (runtime.contract request) past
      (runtime.finishChallenge config challenge secret
        presented user)
      (Returns fun past' response =>
        runtime.Answered request past' response) := by
  have hEnabled :
      Obeys (runtime.contract request) past
        (enableSetup config user secret)
        (Returns fun past' result =>
          Reread past past' user result.2) := by
    cases secret with
    | none =>
        simp only [enableSetup, obeys_pure, returns_ok]
        exact Reread.refl hRead
    | some pending =>
        exact enable_obeys hRead hSignsIn.1 hAccepted
          hSelected hId (hPending pending rfl)
  refine Obeys.andThen hEnabled ?_
  rintro past₁ ⟨codes, user₁⟩ hSuffix₁ hReread
  refine Obeys.andThen
    (recordLoginSuccess_obeys challenge.ipAddress
      challenge.lockoutIdentifier) ?_
  intro past₂ _ hSuffix₂ hKept
  have hRead₂ : lastRead past₂ = some user₁ :=
    hKept.read.trans hReread.read
  have hSignsIn₂ :
      runtime.SignsIn request past₂ user₁.id := by
    rw [hReread.id]
    exact hSignsIn.mono (hSuffix₁.trans hSuffix₂)
  refine Obeys.andThen
    (completeLogin_obeys hRead₂ hSignsIn₂
      (hUnchallenged user₁)) ?_
  rintro past₃ issued hSuffix₃ ⟨hKept₃, hIssued⟩
  simp only [obeys_pure, returns_ok]
  exact answered_signedIn (hKept₃.read.trans hRead₂)
    hSignsIn₂ (hUnchallenged user₁) hSuffix₃ hIssued

/- Delete the challenge on the way to a refusal. -/
private theorem abandon_obeys
    {α : Type}
    {token : Nat}
    {error : HttpError}
    {goal : List Act → α → Prop} :
    Obeys (runtime.contract request) past
      (do
        call (.challengeDelete token)
        .raise error : Flow α)
      (Returns goal) := by
  refine obeys_step trivial fun _ _ => ?_
  simp

/-
  The copy that is rebound to is read before the code is
  checked; every reread on the way is the same row's.
-/
theorem completeChallenge_obeys
    {token : Nat}
    {code : Code}
    {presented : Option Nat}
    (hMfa : runtime.mfa = some config)
    (hRequest : request = .mfaVerify token code presented)
    (hFirst : lastSelected past = none) :
    Obeys (runtime.contract request) past
      (runtime.completeChallenge config token code
        presented)
      (Returns fun past' response =>
        runtime.Answered request past' response) := by
  unfold completeChallenge
  refine obeys_step trivial fun pending _ => ?_
  cases pending with
  | none => simp
  | some pending =>
  dsimp only
  split
  · simp
  · refine obeys_step trivial fun attempted _ => ?_
    cases attempted with
    | none => simp
    | some challenge =>
    dsimp only
    split
    · exact abandon_obeys
    · have hAttempted :
          (⟨.challengeAttempt token, some challenge⟩ : Act) ∈
            ⟨.challengeAttempt token, some challenge⟩ ::
              ⟨.challengeGet token, some pending⟩ ::
                past :=
        List.mem_cons_self
      refine Obeys.andThen
        (countLoginAttempt_obeys challenge.ipAddress
          challenge.lockoutIdentifier) ?_
      intro past₁ refused hSuffix₁ hKept₁
      have hAttempted₁ := hSuffix₁.subset hAttempted
      have hFirst₁ : lastSelected past₁ = none :=
        hKept₁.selected.trans hFirst
      cases refused with
      | some retryAfter => exact abandon_obeys
      | none =>
      refine obeys_step (fun _ => hFirst₁)
        fun found hAnswer => ?_
      cases found with
      | none => exact abandon_obeys
      | some user =>
      have hId : user.id = challenge.accountId := by
        simpa [World.matchesSelector] using
          hAnswer user rfl
      dsimp only
      split
      · exact abandon_obeys
      · rename_i hCurrent
        rw [not_or] at hCurrent
        have hEntitled :
            runtime.Entitled request
              (⟨.select (.byId challenge.accountId),
                some user⟩ :: past₁) user.id := by
          subst hRequest
          exact ⟨challenge, user,
            seen_cons hAttempted₁ _, hId.symm,
            by simpa using hCurrent.1,
            not_not.mp hCurrent.2⟩
        have hCode : request.code? = some code := by
          subst hRequest
          rfl
        refine Obeys.andThen
          (checkChallengeCode_obeys hMfa hCode rfl
            hEntitled) ?_
        rintro past₂ ⟨secret, accepted, user₂⟩ hSuffix₂
          ⟨hReread, hSecret, hAccepted⟩
        dsimp only at hReread hSecret hAccepted ⊢
        have hEntitled₂ :
            runtime.Entitled request past₂ user₂.id := by
          rw [hReread.id]
          exact hEntitled.mono hSuffix₂
        split
        · split
          · exact abandon_obeys
          · simp
        · rename_i hPassed
          rcases hAccepted (by simpa using hPassed) with
            ⟨hAccepted', hProven⟩
          rw [← hReread.id] at hAccepted'
          refine obeys_step
            ⟨code, presented, user₂, user, hRequest,
              hReread.read, hEntitled₂, hAccepted',
              hReread.selected, hReread.id.symm,
              hProven⟩ fun taken _ => ?_
          cases taken with
          | none => simp
          | some taken =>
          have hSignsIn :
              runtime.SignsIn request
                (⟨.challengeTake token, some taken⟩ ::
                  past₂) user₂.id := by
            refine ⟨hEntitled₂.mono
              (List.suffix_cons _ _), ?_⟩
            subst hRequest
            exact ⟨taken, List.mem_cons_self⟩
          have hUnchallenged (user' : User) :
              runtime.Unchallenged request user' := by
            subst hRequest
            trivial
          exact finishChallenge_obeys hReread.read hSignsIn
            hUnchallenged
            (hAccepted'.mono (List.suffix_cons _ _))
            hReread.selected hReread.id.symm hSecret

end Runtime

end CrudAuth
