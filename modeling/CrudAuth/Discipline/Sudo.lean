import CrudAuth.Discipline.Mfa

/-
  Sudo keeps the contract: a session is only stamped by a
  request of its own.

  Main declarations:
    * `elevate_obeys`
-/

namespace CrudAuth

open Concurrency
open Concurrency.Program

namespace Runtime

variable {runtime : Runtime}
variable {request : Request}
variable {past : List Act}
variable {user : User}
variable {config : SudoConfig}
variable {credential : Credential}
variable {proof : Reauthentication}
variable {key : Nat}

/- A lock is set for the account only. -/
theorem lock_obeys
    {α : Type}
    (hRequest : request = .elevate (.session key) proof)
    (hRead : lastRead past = some user)
    (hEntitled : runtime.Entitled request past user.id) :
    Obeys (runtime.contract request) past
      (Sudo.lock config key user.id : Flow α)
      (Returns fun _ _ => True) := by
  refine obeys_step trivial fun _ _ => ?_
  refine obeys_step
    ⟨proof, user, hRequest, hRead,
      hEntitled.mono (List.suffix_cons _ _), by simp⟩
    fun _ _ => ?_
  simp

/- A code that was verified was accepted. -/
theorem verifySudo_obeys
    (hRequest : request = .elevate credential proof)
    (hRead : lastRead past = some user) :
    Obeys (runtime.contract request) past
      (runtime.verifySudo user proof)
      (Returns fun past' result =>
        Reread past past' user result.2 ∧
        (result.1 = true → ∀ code, proof = .code code →
          Accepted request past' user.id)) := by
  cases proof with
  | password password =>
      simp only [verifySudo, obeys_pure, returns_ok]
      exact ⟨Reread.refl hRead, by simp⟩
  | code code =>
      simp only [verifySudo]
      split
      · rename_i config hMfa
        have hCode : request.code? = some code := by
          subst hRequest
          rfl
        refine Obeys.mono
          (MfaConfig.verifyTotp_obeys hMfa hCode hRead) ?_
        intro past' result _ hPost value hResult
        rcases hPost value hResult with
          ⟨hReread, hVerified⟩
        exact ⟨hReread, fun hTrue _ _ =>
          (hVerified hTrue).2⟩
      · simp

/- A session is elevated for its owner. -/
theorem elevateSession_obeys
    (hRequest : request = .elevate (.session key) proof)
    (hRead : lastRead past = some user)
    (hEntitled : runtime.Entitled request past user.id) :
    Obeys (runtime.contract request) past
      (runtime.elevateSession config key user proof)
      (Returns fun _ _ => True) := by
  refine obeys_step trivial fun ttl _ => ?_
  dsimp only
  split
  · simp
  · refine obeys_step trivial fun attempt _ => ?_
    have hSuffix :
        past <:+ ⟨.sudoAttempt user.id, attempt⟩ ::
          ⟨.sudoTtl user.id, ttl⟩ :: past :=
      (List.suffix_cons _ _).trans (List.suffix_cons _ _)
    have hEntitled₁ := hEntitled.mono hSuffix
    have hRead₁ :
        lastRead (⟨.sudoAttempt user.id, attempt⟩ ::
          ⟨.sudoTtl user.id, ttl⟩ :: past) = some user :=
      hRead
    split
    · exact lock_obeys hRequest hRead₁ hEntitled₁
    · refine Obeys.andThen
        (verifySudo_obeys hRequest hRead₁) ?_
      rintro past₂ ⟨verified, user₂⟩ hSuffix₂
        ⟨hReread, hAccepted⟩
      dsimp only at hReread hAccepted ⊢
      have hEntitled₂ :
          runtime.Entitled request past₂ user₂.id := by
        rw [hReread.id]
        exact hEntitled₁.mono hSuffix₂
      split
      · rename_i hVerified
        refine obeys_step trivial fun _ _ => ?_
        refine obeys_step trivial fun now _ => ?_
        have hLater :
            past₂ <:+ ⟨.now, now⟩ ::
              ⟨.sudoClear user₂.id, ()⟩ :: past₂ :=
          (List.suffix_cons _ _).trans
            (List.suffix_cons _ _)
        have hProven (code : Code)
            (hCode : proof = .code code) :
            Accepted request past₂ user₂.id := by
          rw [hReread.id]
          exact hAccepted hVerified code hCode
        refine obeys_step
          ⟨proof, user₂, hRequest, hReread.read,
            hEntitled₂.mono hLater,
            fun _ code hCode =>
              (hProven code hCode).mono hLater⟩
          fun stamped _ => ?_
        cases stamped with
        | none => simp
        | some session => simp
      · split
        · exact lock_obeys hRequest hReread.read hEntitled₂
        · simp

/- The route that elevates. -/
theorem elevate_obeys
    {principal : Principal}
    (hRequest : request = .elevate credential proof)
    (hResolves :
      runtime.Resolves past credential principal)
    (hEntitled :
      runtime.Entitled request past principal.user.id) :
    Obeys (runtime.contract request) past
      (runtime.elevate config principal proof)
      (Returns fun _ _ => True) := by
  have hSession := hResolves.session
  unfold elevate
  split
  · simp
  · split
    · simp
    · rename_i key hKey
      rw [hKey] at hSession
      cases credential with
      | bearer token => cases hSession
      | session key' =>
          obtain rfl := Option.some.inj hSession
          exact elevateSession_obeys hRequest
            hResolves.read hEntitled

end Runtime

end CrudAuth
