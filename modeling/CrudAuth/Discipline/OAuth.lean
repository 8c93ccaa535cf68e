import CrudAuth.Discipline.Account

/-
  Provider sign-ins keep the contract.

  Main declarations:
    * `claim_obeys`
    * `getOrCreateUser_obeys`
    * `oauthCallback_obeys`
-/

namespace CrudAuth

open Concurrency
open Concurrency.Program

namespace Runtime

variable {runtime : Runtime}
variable {request : Request}
variable {past : List Act}
variable {user : User}
variable {info : OAuthUserInfo}
variable {presented : Option Nat}

------------------------------------------------------------
-- Linking
------------------------------------------------------------

/- A claim ends like a reset: bumped, then signed out. -/
theorem claim_obeys
    (hRequest : request = .oauthCallback info presented)
    (hRead : lastRead past = some user)
    (hEntitled : runtime.Entitled request past user.id)
    (hUnverified : user.emailVerified = false) :
    Obeys (runtime.contract request) past
      (runtime.claim user info)
      (Returns fun past' user' =>
        user'.id = user.id ∧
        lastRead past' = some user' ∧
        runtime.Evicted past' user.id none) := by
  refine obeys_step trivial fun suffix _ => ?_
  have hWrite :
      runtime.Write request (⟨.fresh, suffix⟩ :: past) user
        (runtime.canonical (claimPatch info suffix)) :=
    .claim hRequest hUnverified rfl
  refine Obeys.andThen
    (update_obeys hRead
      (hEntitled.mono (List.suffix_cons _ _)) hWrite) ?_
  rintro past₂ user₂ hSuffix₂ ⟨hReread₂, hCommitted⟩
  refine Obeys.andThen
    (incrementTokenVersion_obeys hReread₂.read hCommitted
      hReread₂.id.symm rfl) ?_
  rintro past₃ user₃ hSuffix₃ ⟨hReread₃, hBumped⟩
  have hId : user₃.id = user.id :=
    hReread₃.id.trans hReread₂.id
  rw [hReread₂.id] at hBumped
  refine Obeys.andThen terminateSessions_obeys ?_
  rintro past₄ _ hSuffix₄ ⟨hKept₄, hCleared⟩
  simp only [obeys_pure, returns_ok]
  rw [hId] at hCleared
  exact ⟨hId, hKept₄.read.trans hReread₃.read,
    evicted_of hBumped hSuffix₄ hCleared⟩

/- Linking ends with a copy of the row it started with. -/
theorem link_obeys
    (hRequest : request = .oauthCallback info presented)
    (hRead : lastRead past = some user)
    (hEntitled : runtime.Entitled request past user.id) :
    Obeys (runtime.contract request) past
      (runtime.link user info)
      (Returns fun past' user' =>
        user'.id = user.id ∧
        lastRead past' = some user') := by
  unfold link
  split
  · simp
  · split
    · rename_i hVerified
      have hWrite :
          runtime.Write request past user
            (runtime.canonical (linkPatch info)) :=
        .link hRequest hVerified
      refine Obeys.mono
        (update_obeys hRead hEntitled hWrite) ?_
      intro past' result _ hPost user' hResult
      have hReread := (hPost user' hResult).1
      exact ⟨hReread.id, hReread.read⟩
    · rename_i hUnverified
      refine Obeys.mono
        (claim_obeys hRequest hRead hEntitled
          (Bool.eq_false_iff.mpr hUnverified)) ?_
      intro past' result _ hPost user' hResult
      rcases hPost user' hResult with ⟨hId, hRead', -⟩
      exact ⟨hId, hRead'⟩

------------------------------------------------------------
-- Creation
------------------------------------------------------------

/- The first free name of a list. -/
theorem firstFree_obeys
    {candidates : List String}
    (hOften : request.readsOnce = false) :
    Obeys (runtime.contract request) past
      (runtime.firstFree candidates)
      (Returns fun _ _ => True) := by
  induction candidates generalizing past with
  | nil => simp [firstFree]
  | cons candidate candidates ih =>
      refine Obeys.andThen
        (getByField_obeys (by simp [hOften])) ?_
      rintro past' found _ _
      cases found with
      | none => simp
      | some user => exact ih

theorem randomUsername_obeys (base : String) :
    Obeys (runtime.contract request) past
      (runtime.randomUsername base)
      (Returns fun _ _ => True) := by
  refine obeys_step trivial fun suffix _ => ?_
  simp

/- A name that no account has. -/
theorem uniqueUsername_obeys
    {base : String}
    (hOften : request.readsOnce = false) :
    Obeys (runtime.contract request) past
      (runtime.uniqueUsername base)
      (Returns fun _ _ => True) := by
  refine Obeys.andThen (firstFree_obeys hOften) ?_
  intro past' free _ _
  cases free with
  | some username => simp
  | none => exact randomUsername_obeys base

/- An insert, and the reread of what it inserted. -/
private theorem inserted_obeys
    {row created : User}
    (hInserted :
      (⟨.insert row, some created⟩ : Act) ∈ past)
    (hRead : lastRead past = some created) :
    Obeys (runtime.contract request) past
      (refreshRow created.id)
      (Returns fun past' user =>
        lastRead past' = some user ∧
        ∃ row created : User,
          (⟨.insert row, some created⟩ : Act) ∈ past' ∧
          created.id = user.id) := by
  refine Obeys.mono (refreshRow_obeys hRead rfl) ?_
  intro past' result hSuffix hPost user hResult
  have hReread := hPost user hResult
  exact ⟨hReread.read, row, created,
    hSuffix.subset hInserted, hReread.id.symm⟩

/- A new account for an identity. -/
theorem createUser_obeys
    {email : String}
    (hOften : request.readsOnce = false) :
    Obeys (runtime.contract request) past
      (runtime.createUser info email)
      (Returns fun past' user =>
        lastRead past' = some user ∧
        ∃ row created : User,
          (⟨.insert row, some created⟩ : Act) ∈ past' ∧
          created.id = user.id) := by
  refine Obeys.andThen (uniqueUsername_obeys hOften) ?_
  intro past₁ username _ _
  refine obeys_step trivial fun suffix _ => ?_
  have hDrawn :
      (⟨.fresh, suffix⟩ : Act) ∈
        ⟨.fresh, suffix⟩ :: past₁ :=
    List.mem_cons_self
  refine obeys_step
    ⟨hOften, rfl, rfl, suffix, rfl, hDrawn⟩
    fun created _ => ?_
  cases created with
  | some user => exact inserted_obeys List.mem_cons_self rfl
  | none =>
      refine Obeys.andThen (randomUsername_obeys _) ?_
      intro past₂ renamed hSuffix _
      have hDrawn₂ := hSuffix.subset
        (List.mem_cons_of_mem _ hDrawn)
      refine obeys_step
        ⟨hOften, rfl, rfl, suffix, rfl, hDrawn₂⟩
        fun retried _ => ?_
      cases retried with
      | some user =>
          exact inserted_obeys List.mem_cons_self rfl
      | none => simp

------------------------------------------------------------
-- Resolution And Callback
------------------------------------------------------------

/- The account of an identity, old or new. -/
theorem getOrCreateUser_obeys
    (hRequest : request = .oauthCallback info presented) :
    Obeys (runtime.contract request) past
      (runtime.getOrCreateUser info)
      (Returns fun past' user =>
        lastRead past' = some user ∧
        runtime.Entitled request past' user.id) := by
  have hOften : request.readsOnce = false := by
    subst hRequest
    rfl
  refine obeys_step (by simp [contract, rule, hOften])
    fun linked _ => ?_
  cases linked with
  | some user =>
      dsimp only
      split
      · simp only [obeys_pure, returns_ok]
        subst hRequest
        exact ⟨rfl, Or.inl
          ⟨user, List.mem_cons_self, rfl⟩⟩
      · simp
  | none =>
      dsimp only
      split
      · simp
      · rename_i email hEmail
        split
        · simp
        · rename_i hVerified
          refine obeys_step
            (by simp [contract, rule, hOften])
            fun found _ => ?_
          cases found with
          | none =>
              refine Obeys.mono (createUser_obeys hOften) ?_
              intro past' result _ hPost user hResult
              rcases hPost user hResult with
                ⟨hRead, hInserted⟩
              subst hRequest
              exact ⟨hRead, Or.inr (Or.inr hInserted)⟩
          | some existing =>
              dsimp only
              split
              · have hEntitled :
                    runtime.Entitled request
                      (⟨.select (.byField .email
                          (runtime.canonicalEmail email)),
                        some existing⟩ ::
                        ⟨.select (.byOauth info.provider
                            info.providerUserId),
                          none⟩ :: past)
                      existing.id := by
                  subst hRequest
                  exact Or.inr (Or.inl
                    ⟨email, existing, hEmail,
                      by simpa using hVerified,
                      List.mem_cons_self, rfl⟩)
                refine Obeys.mono
                  (link_obeys hRequest rfl hEntitled) ?_
                intro past' result hSuffix hPost user hResult
                rcases hPost user hResult with ⟨hId, hRead⟩
                rw [hId]
                exact ⟨hRead, hEntitled.mono hSuffix⟩
              · simp

/- A sign-in through a provider. -/
theorem oauthCallback_obeys
    (hRequest : request = .oauthCallback info presented) :
    Obeys (runtime.contract request) past
      (runtime.oauthCallback info presented)
      (Returns fun past' response =>
        runtime.Answered request past' response) := by
  refine Obeys.andThen (getOrCreateUser_obeys hRequest) ?_
  rintro past₁ user _ ⟨hRead, hEntitled⟩
  have hFinish {past' : List Act}
      (hRead' : lastRead past' = some user)
      (hEntitled' :
        runtime.Entitled request past' user.id) :
      Obeys (runtime.contract request) past'
        (runtime.finishOauth user presented)
        (Returns fun past'' response =>
          runtime.Answered request past'' response) := by
    have hSignsIn :
        runtime.SignsIn request past' user.id := by
      refine ⟨hEntitled', ?_⟩
      subst hRequest
      trivial
    have hUnchallenged :
        runtime.Unchallenged request user := by
      subst hRequest
      trivial
    refine Obeys.andThen
      (completeLogin_obeys hRead' hSignsIn
        hUnchallenged) ?_
    rintro past'' issued hSuffix ⟨hKept, hIssued⟩
    simp only [obeys_pure, returns_ok]
    exact answered_signedIn (hKept.read.trans hRead')
      hSignsIn hUnchallenged hSuffix hIssued
  split
  · simp
  · split
    · exact hFinish hRead hEntitled
    · refine Obeys.andThen
        (challengeLogin_obeys hRead hEntitled) ?_
      intro past₂ challenge hSuffix₂ hChallenge
      cases challenge with
      | none =>
          exact hFinish (hChallenge.1.read.trans hRead)
            (hEntitled.mono hSuffix₂)
      | some created =>
          rcases created with ⟨token, setup⟩
          simp only [obeys_pure, returns_ok]
          exact hChallenge

end Runtime

end CrudAuth
