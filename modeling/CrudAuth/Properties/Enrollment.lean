import CrudAuth.Scenario

/-
  A confirmed authenticator: what the account keeps from
  the write that enabled it to the one that ends it.

  Main declarations:
    * `UnenrolledSetups`
    * `validCodes`
    * `enrolled_step`
    * `KeepsAuthenticator`
    * `keepsAuthenticator_of_unenrolled`
-/

namespace CrudAuth

open Concurrency

variable {ι : Type} [DecidableEq ι]
variable {runtime : Runtime}
variable {request : Request}
variable {requests : ι → Request}
variable {past : List Act}
variable {condition : Condition ι interface World}
variable {start state world : World}
variable {history : List (Ev ι)}
variable {id : UserId}
variable {row loaded : User}
variable {thread : ι}

------------------------------------------------------------
-- Setups, Codes And Ends
------------------------------------------------------------

/- The account an operation stores a pending secret on. -/
def setsUp? : Op → Option UserId
  | .commit loaded data =>
      match data.totpSecretEncrypted with
      | some (some (.bound _ _)) => some loaded.id
      | _ => none
  | _ => none

/-
  A pending secret is only stored on an account that is not
  enrolled when it is stored.
-/
def UnenrolledSetups : Condition ι interface World :=
  fun state _ _ op =>
    ∀ id ∈ setsUp? op,
      ∀ row ∈ state.row? id, row.isEnrolled = false

instance :
    ∀ (state : World) (history : List (Ev ι))
      (thread : ι) (op : Op),
      Decidable
        (UnenrolledSetups state history thread op) :=
  fun state _ _ op =>
    inferInstanceAs (Decidable
      (∀ id ∈ setsUp? op,
        ∀ row ∈ state.row? id, row.isEnrolled = false))

/- A disable, or a claim by a provider, has committed. -/
def endsEnrollment (id : UserId) : Act → Bool
  | ⟨.commit loaded data, committed⟩ =>
      committed &&
        (loaded.id == id &&
          data.totpSecretEncrypted == some none)
  | _ => false

/- The codes that are valid after one more action. -/
def codesAfter
    (id : UserId)
    (codes : List RecoveryCode) :
    Act → List RecoveryCode
  | ⟨.commit loaded data, committed⟩ =>
      match data.mfaRecoveryCodes with
      | some (some handedOut) =>
          if committed = true ∧ loaded.id = id then
            handedOut
          else
            codes
      | some none => codes
      | none => codes
  | ⟨.updateIf target (.mfaRecoveryCodes _) data,
      spent⟩ =>
      match data.mfaRecoveryCodes with
      | some (some kept) =>
          if spent = true ∧ target = id then
            codes.filter fun code => code ∈ kept
          else
            codes
      | some none => codes
      | none => codes
  | _ => codes

/-
  The codes handed out first, or by the last regeneration
  since, less the ones spent since.
-/
def validCodes
    (id : UserId)
    (codes : List RecoveryCode) :
    List (Ev ι) → List RecoveryCode
  | [] => codes
  | event :: history =>
      codesAfter id (validCodes id codes history)
        event.action

/- What an enrolled account has. -/
structure HasAuthenticator
    (row : User)
    (secret : Secret)
    (now : Nat)
    (codes : List RecoveryCode) : Prop where
  confirmed : row.totpConfirmedAt = some now
  secret : row.totpSecretEncrypted = some (.bare secret)
  codes : row.mfaRecoveryCodes = some codes

/- An account with an authenticator is enrolled. -/
theorem HasAuthenticator.isEnrolled
    {secret : Secret}
    {now : Nat}
    {codes : List RecoveryCode}
    (hHas : HasAuthenticator row secret now codes) :
    row.isEnrolled = true := by
  simp [User.isEnrolled, hHas.confirmed, hHas.secret]

/-
  From an enabling write until a disable or a claim, the
  account has what the write gave it, its codes as handed
  out since and not spent.
-/
def KeepsAuthenticator
    (runtime : Runtime)
    (requests : ι → Request)
    (condition : Condition ι interface World)
    (start : World) : Prop :=
  ∀ config later earlier thread id secret now codes row,
    runtime.Reachable requests condition start config →
    config.history =
      later ++ ⟨thread,
        .updateIf id (.totpConfirmedAt none)
          (enablePatch secret now codes), true⟩ ::
        earlier →
    (∀ event ∈ later,
      endsEnrollment id event.action = false) →
    config.state.row? id = some row →
    HasAuthenticator row secret now
      (validCodes id codes later)

------------------------------------------------------------
-- One Step
------------------------------------------------------------

/- A regenerated batch is new, so the flush writes it. -/
private theorem regenerated_ne
    {batch count : Nat}
    (hStart : start.Seasoned)
    (hRuns : runtime.Runs requests condition start []
      state history)
    (hRead : lastRead (own thread history) = some loaded)
    (hDrawn : Drawn (own thread history) batch)
    (hCount : 0 < count) :
    some (recoveryBatch batch count) ≠
      loaded.mfaRecoveryCodes := by
  intro hSame
  have hFirst :
      (⟨batch, 0⟩ : RecoveryCode) ∈
        recoveryBatch batch count :=
    List.mem_map.mpr ⟨0, List.mem_range.mpr hCount, rfl⟩
  have hUsed : batch ∈ loaded.drawn := by
    simp only [User.drawn, List.mem_append, ← hSame]
    exact Or.inr (Or.inr
      (List.mem_map.mpr ⟨_, hFirst, rfl⟩))
  rcases mem_of_lastRead hRead with ⟨action, hAction, hCopy⟩
  have hSpent := spent_of_copy hStart hRuns hAction hCopy
    hUsed
  exact hSpent.free thread hDrawn

/- What has not happened hands out no codes. -/
private theorem codesAfter_commit_false
    (id : UserId)
    (codes : List RecoveryCode)
    (loaded : User)
    (data : Patch) :
    codesAfter id codes ⟨.commit loaded data, false⟩ =
      codes := by
  simp only [codesAfter]
  split <;> simp

private theorem codesAfter_commit_of_ne
    {data : Patch}
    {committed : Bool}
    (hOther : loaded.id ≠ id)
    (codes : List RecoveryCode) :
    codesAfter id codes ⟨.commit loaded data, committed⟩ =
      codes := by
  simp only [codesAfter]
  split <;> simp [hOther]

private theorem codesAfter_updateIf_of_ne
    {target : UserId}
    {guard : Guard}
    {data : Patch}
    {spent : Bool}
    (hOther : ¬(spent = true ∧ target = id))
    (codes : List RecoveryCode) :
    codesAfter id codes
        ⟨.updateIf target guard data, spent⟩ =
      codes := by
  cases guard with
  | totpConfirmedAt expected => rfl
  | mfaRecoveryCodes expected =>
      simp only [codesAfter]
      split <;> simp [hOther]

/- A commit keeps what it neither sets up nor ends. -/
private theorem enrolled_commit
    {secret : Secret}
    {now : Nat}
    {codes : List RecoveryCode}
    {data : Patch}
    (hStart : start.Seasoned)
    (hRuns : runtime.Runs requests condition start []
      state history)
    (hRule :
      runtime.rule (requests thread) (own thread history)
        (.commit loaded data))
    (hUnenrolled : UnenrolledSetups state history thread
      (.commit loaded data))
    (hRow : state.row? id = some row)
    (hEnds :
      endsEnrollment id ⟨.commit loaded data,
        (World.exec (.commit loaded data) state).1⟩ = false)
    (hHas : HasAuthenticator row secret now codes) :
    HasAuthenticator
      (state.rowAfter (.commit loaded data) row) secret now
      (codesAfter id codes ⟨.commit loaded data,
        (World.exec (.commit loaded data) state).1⟩) := by
  have hId : row.id = id := World.id_of_row? hRow
  by_cases hLoaded : loaded.id = id
  · subst hLoaded
    rw [World.rowAfter_commit hRow]
    cases hRet :
        (World.exec (.commit loaded data) state).1 with
    | false =>
        rw [codesAfter_commit_false]
        exact hHas
    | true =>
        rw [hRet] at hEnds
        rw [if_pos rfl]
        rcases hRule with ⟨hRead, -, hWrite⟩
        rcases hHas with ⟨hConfirmed, hSecret, hCodes⟩
        cases hWrite with
        | pending hDrawn hNotEnrolled =>
            have hOpen := hUnenrolled loaded.id rfl row hRow
            simp [User.isEnrolled, hConfirmed, hSecret]
              at hOpen
        | disable =>
            simp [endsEnrollment, disablePatch] at hEnds
        | claim =>
            simp [endsEnrollment, Runtime.claimPatch,
              disablePatch] at hEnds
        | codes hDrawn hCount hEnrolled =>
            have hNew := regenerated_ne hStart hRuns hRead
              hDrawn hCount
            refine ⟨hConfirmed, hSecret, ?_⟩
            simp [Patch.flush, codesPatch, codesAfter,
              flushColumn_some, hNew]
        | @field field value hRequest =>
            cases field <;>
              exact ⟨hConfirmed, hSecret, hCodes⟩
        | password => exact ⟨hConfirmed, hSecret, hCodes⟩
        | emailVerified =>
            exact ⟨hConfirmed, hSecret, hCodes⟩
        | factorVerified =>
            exact ⟨hConfirmed, hSecret, hCodes⟩
        | email => exact ⟨hConfirmed, hSecret, hCodes⟩
        | link => exact ⟨hConfirmed, hSecret, hCodes⟩
  · rw [World.rowAfter_commit_of_ne (hId ▸ hLoaded),
      codesAfter_commit_of_ne hLoaded]
    exact hHas

/- A spent code is all that a compare-and-set takes. -/
private theorem enrolled_swap
    {secret : Secret}
    {now : Nat}
    {codes : List RecoveryCode}
    {target : UserId}
    {guard : Guard}
    {data : Patch}
    (hSwap : runtime.Swap request past target guard data)
    (hRow : state.row? id = some row)
    (hHas : HasAuthenticator row secret now codes) :
    HasAuthenticator
      (state.rowAfter (.updateIf target guard data) row)
      secret now
      (codesAfter id codes ⟨.updateIf target guard data,
        (World.exec (.updateIf target guard data)
          state).1⟩) := by
  have hId : row.id = id := World.id_of_row? hRow
  by_cases hTarget : target = id
  · subst hTarget
    rw [World.rowAfter_updateIf hRow,
      World.updateIf_ret hRow]
    cases hHolds : World.holds guard row with
    | false =>
        rw [codesAfter_updateIf_of_ne (by simp)]
        exact hHas
    | true =>
        rw [if_pos rfl]
        rcases hHas with ⟨hConfirmed, hSecret, hCodes⟩
        cases hSwap with
        | enable =>
            simp [World.holds, hConfirmed] at hHolds
        | @spend stored code hSubmitted hCode =>
            have hStored :
                row.mfaRecoveryCodes = stored := by
              simpa [World.holds] using hHolds
            obtain rfl : stored = some codes :=
              hStored.symm.trans hCodes
            refine ⟨hConfirmed, hSecret, ?_⟩
            simp only [Patch.assign, Patch.flush,
              without, codesPatch, codesAfter,
                flushColumn_self,
              Option.getD_some, Option.some.injEq,
              and_self, if_true]
            apply List.filter_congr
            intro other hOther
            simp [List.mem_filter, hOther]
  · rw [World.rowAfter_updateIf_of_ne (hId ▸ hTarget),
      codesAfter_updateIf_of_ne (fun h => hTarget h.2)]
    exact hHas

/- Every step but an end keeps the authenticator. -/
theorem enrolled_step
    {secret : Secret}
    {now : Nat}
    {codes : List RecoveryCode}
    {op : Op}
    (hStart : start.Seasoned)
    (hRuns : runtime.Runs requests condition start []
      state history)
    (hRule :
      runtime.rule (requests thread) (own thread history)
        op)
    (hUnenrolled : UnenrolledSetups state history thread op)
    (hRow : state.row? id = some row)
    (hEnds :
      endsEnrollment id ⟨op, (World.exec op state).1⟩ =
        false)
    (hHas : HasAuthenticator row secret now codes) :
    HasAuthenticator (state.rowAfter op row) secret now
      (codesAfter id codes
        ⟨op, (World.exec op state).1⟩) := by
  have hAfter {row' : User}
      (hConfirmed :
        row'.totpConfirmedAt = row.totpConfirmedAt)
      (hSecret :
        row'.totpSecretEncrypted =
          row.totpSecretEncrypted)
      (hCodes :
        row'.mfaRecoveryCodes = row.mfaRecoveryCodes) :
      HasAuthenticator row' secret now codes :=
    ⟨hConfirmed.trans hHas.confirmed,
      hSecret.trans hHas.secret, hCodes.trans hHas.codes⟩
  cases op with
  | commit loaded data =>
      exact enrolled_commit hStart hRuns hRule hUnenrolled
        hRow hEnds hHas
  | updateIf target guard data =>
      exact enrolled_swap hRule.2.2 hRow hHas
  | incrementVersion target =>
      simp only [World.rowAfter]
      split <;> exact hAfter rfl rfl rfl
  | claimStep target step =>
      simp only [World.rowAfter]
      split <;> exact hAfter rfl rfl rfl
  | _ => exact hHas

------------------------------------------------------------
-- Whole Runs
------------------------------------------------------------

/-
  Where pending secrets are only stored on accounts that
  are not enrolled, an authenticator once confirmed stays.
-/
theorem keepsAuthenticator_of_unenrolled
    (runtime : Runtime)
    (requests : ι → Request)
    (start : World)
    (hStart : start.Seasoned) :
    KeepsAuthenticator runtime requests UnenrolledSetups
      start := by
  intro config later earlier thread id secret now codes row
    hReachable hHistory hLasts hRow
  have hRuns := Runtime.runs_of_reachable hReachable
  rw [hHistory] at hRuns
  rcases hRuns.at_event with
    ⟨before, hBefore, hRule, -, hRet, hThen, hAfter⟩
  rcases hRule with ⟨-, ⟨copy, hRead, hId⟩, -⟩
  rcases row_of_lastRead hStart.wellFormed hBefore hRead with
    ⟨old, hOld, -⟩
  rw [hId] at hOld
  have hEnabled := World.row?_exec hOld
    (.updateIf id (.totpConfirmedAt none)
      (enablePatch secret now codes))
  have hHas : HasAuthenticator
      (before.rowAfter
        (.updateIf id (.totpConfirmedAt none)
          (enablePatch secret now codes)) old)
      secret now codes := by
    rw [World.rowAfter_updateIf hOld, ← hRet]
    exact ⟨by simp [Patch.assign, Patch.flush, enablePatch],
      by simp [Patch.assign, Patch.flush, enablePatch],
      by simp [Patch.assign, Patch.flush, enablePatch]⟩
  have hAlong := row_along
    (fun history row => ∃ newer,
      history =
        newer ++ ⟨thread,
          .updateIf id (.totpConfirmedAt none)
            (enablePatch secret now codes), true⟩ ::
          earlier ∧
      ((∀ event ∈ newer,
          endsEnrollment id event.action = false) →
        HasAuthenticator row secret now
          (validCodes id codes newer)))
    hAfter hEnabled ⟨[], rfl, fun _ => hHas⟩ (by
      rintro state _ active op stored hSoFar hRule
        hUnenrolled hStored ⟨newer, rfl, hKept⟩
      refine ⟨_ :: newer, rfl, fun hNewer => ?_⟩
      rw [List.forall_mem_cons] at hNewer
      exact enrolled_step hStart (hThen.trans hSoFar) hRule
        hUnenrolled hStored hNewer.1 (hKept hNewer.2))
  rcases hAlong with ⟨found, hFound, newer, hNewer, hKept⟩
  obtain rfl := List.append_cancel_right hNewer
  obtain rfl : found = row := by
    simpa [hFound] using hRow
  exact hKept hLasts

------------------------------------------------------------
-- Two Setups At Once
------------------------------------------------------------

/- Thread 1 confirms the first of two setups. -/
def setUpTwice : Nat → Request
  | 1 => .totpConfirm (.session 7) (.digits "100")
  | _ => .totpSetup (.session 7) (some "old")

/- One setup after the other is confirmed as shown. -/
theorem setup_kept :
    ∃ row,
      (Scenario.mfaRuntime.scheduled setUpTwice
        UnenrolledSetups Scenario.memberStart
        (Scenario.steps 0 9 ++ Scenario.steps 1 13)
        (by decide)).state.row? 1 = some row ∧
      HasAuthenticator row 100 1000 (recoveryBatch 101 2) :=
  ⟨_, rfl,
    keepsAuthenticator_of_unenrolled Scenario.mfaRuntime
      setUpTwice Scenario.memberStart
      Scenario.memberStart_seasoned _ _ _ 1 1 100 1000
      (recoveryBatch 101 2) _
      (Runtime.reachable_scheduled Scenario.mfaRuntime
        setUpTwice UnenrolledSetups Scenario.memberStart
        (Scenario.steps 0 9 ++ Scenario.steps 1 13)
        (by decide))
      (List.take_append_drop 2 _).symm (by decide) rfl⟩

/- The second setup reads before, and writes after. -/
def setupRace : List (Choice Nat Nat) :=
  Scenario.steps 0 9 ++ Scenario.steps 2 6 ++
    Scenario.steps 1 13 ++ Scenario.steps 2 1

/- It replaces the secret that has just been confirmed. -/
theorem not_keepsAuthenticator_of_setup :
    ¬ KeepsAuthenticator Scenario.mfaRuntime setUpTwice
      anyStep Scenario.memberStart := by
  intro hKeeps
  have hReached := Runtime.reachable_scheduled
    Scenario.mfaRuntime setUpTwice anyStep
    Scenario.memberStart setupRace (by decide)
  have hHas := hKeeps _ _ _ 1 1 100 1000
    (recoveryBatch 102 2) _ hReached
    (List.take_append_drop 3 _).symm (by decide) rfl
  have hReplaced :
      ((Scenario.mfaRuntime.scheduled setUpTwice anyStep
        Scenario.memberStart setupRace
        (by decide)).state.row? 1).map
          User.totpSecretEncrypted =
        some (some (.bound 0 101)) := by
    decide
  have hSecret := congrArg some hHas.secret
  exact absurd (hReplaced.symm.trans hSecret) (by decide)

end CrudAuth
