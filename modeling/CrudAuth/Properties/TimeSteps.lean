import CrudAuth.Invariants.Rows

/-
  TOTP time steps: every accepted code claims one, and the
  claimed steps of an account grow until a reset.

  Main declarations:
    * `StepsReset`
    * `lastStep_rowAfter`
    * `completes`
    * `StepsOnce`
    * `stepsOnce`
-/

namespace CrudAuth

open Concurrency

variable {ι : Type} [DecidableEq ι]
variable {runtime : Runtime}
variable {request : Request}
variable {requests : ι → Request}
variable {past : List Act}
variable {condition : Condition ι interface World}
variable {start state : World}
variable {history later between earlier : List (Ev ι)}
variable {thread thread' : ι}
variable {op : Op}
variable {id : UserId}
variable {row : User}
variable {step step' : Nat}

------------------------------------------------------------
-- Resets
------------------------------------------------------------

/-
  A new pending secret, a disable or an OAuth claim: the
  writes that assign the last accepted step anew.
-/
def StepsReset (id : UserId) (event : Ev ι) : Prop :=
  ∃ (loaded : User) (data : Patch),
    event.action = ⟨.commit loaded data, true⟩ ∧
    loaded.id = id ∧
    data.totpLastStep.isSome = true

/- The last accepted step after one operation. -/
theorem lastStep_rowAfter
    {last : Nat}
    (hRule : runtime.rule request past op)
    (hRow : state.row? id = some row)
    (hLast : row.totpLastStep = some last) :
    (∃ next, last ≤ next ∧
      (state.rowAfter op row).totpLastStep = some next) ∨
    ∃ loaded data,
      (⟨op, (World.exec op state).1⟩ : Act) =
        ⟨.commit loaded data, true⟩ ∧
      loaded.id = id ∧
      data.totpLastStep.isSome = true := by
  have hId : row.id = id := World.id_of_row? hRow
  have hKept (hSame :
      (state.rowAfter op row).totpLastStep =
        row.totpLastStep) :
      ∃ next, last ≤ next ∧
        (state.rowAfter op row).totpLastStep = some next :=
    ⟨last, le_refl _, hSame.trans hLast⟩
  cases op with
  | commit loaded data =>
      by_cases hLoaded : loaded.id = id
      · subst hLoaded
        rw [World.rowAfter_commit hRow]
        cases hRet :
            (World.exec (.commit loaded data) state).1 with
        | false => exact Or.inl ⟨last, le_refl _, hLast⟩
        | true =>
            cases hData : data.totpLastStep with
            | none =>
                refine Or.inl ⟨last, le_refl _, ?_⟩
                simp [Patch.flush, hData, hLast]
            | some value =>
                exact Or.inr
                  ⟨loaded, data, rfl, rfl, by simp [hData]⟩
      · left
        rw [World.rowAfter_commit_of_ne (hId ▸ hLoaded)]
        exact ⟨last, le_refl _, hLast⟩
  | incrementVersion target =>
      left
      apply hKept
      simp only [World.rowAfter]
      split <;> rfl
  | claimStep target step =>
      left
      simp only [World.rowAfter]
      split
      · rename_i hClaim
        have hNewer := hClaim.2
        rw [World.stepIsNewer, hLast] at hNewer
        exact ⟨step, (of_decide_eq_true hNewer).le, rfl⟩
      · exact ⟨last, le_refl _, hLast⟩
  | updateIf target guard data =>
      left
      apply hKept
      simp only [World.rowAfter]
      split
      · rcases hRule with ⟨-, -, hSwap⟩
        cases hSwap with
        | enable => simp [Patch.assign, Patch.flush,
            enablePatch]
        | spend => simp [Patch.assign, Patch.flush,
            without, codesPatch]
      · rfl
  | _ => exact Or.inl ⟨last, le_refl _, hLast⟩

------------------------------------------------------------
-- Claims
------------------------------------------------------------

/- A claim reports whether the step was a newer one. -/
theorem claimed_newer
    (hClaimed :
      true = (World.exec (.claimStep id step) state).1) :
    ∃ row, state.row? id = some row ∧
      World.stepIsNewer row step = true := by
  simp only [World.exec, World.updateWhere] at hClaimed
  split at hClaimed
  · cases hClaimed
  · rename_i row hRow
    split at hClaimed
    · rename_i hNewer
      exact ⟨row, hRow, hNewer⟩
    · cases hClaimed

/- The histories of runs whose clock is set at will. -/
abbrev UnsteadyRuns
    (runtime : Runtime)
    (requests : ι → Request)
    (condition : Condition ι interface World)
    (start : World) :
    World → List (Ev ι) → Prop :=
  Trace unsteady
    (fun thread => runtime.contract (requests thread))
    condition start []

/- Without a reset the last step only moves forward. -/
theorem lastStep_along
    (hRuns : UnsteadyRuns runtime requests condition start
      state
      (later ++ ⟨thread, .claimStep id step, true⟩ ::
        earlier))
    (hKept : ∀ event ∈ later, ¬ StepsReset id event) :
    ∃ row last,
      state.row? id = some row ∧
      row.totpLastStep = some last ∧
      step ≤ last := by
  rcases hRuns.at_event with
    ⟨before, -, -, -, hRet, -, hAfter⟩
  rcases claimed_newer hRet with ⟨row, hRow, hNewer⟩
  have hId : row.id = id := World.id_of_row? hRow
  let holds : List (Ev ι) → User → Prop :=
    fun history row =>
      ∃ newer,
        history =
          newer ++ ⟨thread, .claimStep id step, true⟩ ::
            earlier ∧
        ((∀ event ∈ newer, ¬ StepsReset id event) →
          ∃ last, row.totpLastStep = some last ∧
            step ≤ last)
  have hStart :
      holds
        (⟨thread, .claimStep id step, true⟩ :: earlier)
        (before.rowAfter (.claimStep id step) row) := by
    refine ⟨[], rfl, fun _ => ⟨step, ?_, le_refl _⟩⟩
    simp [World.rowAfter, hId, hNewer]
  have hHolds := row_along_of_users holds hAfter
    (fun _ _ => rfl)
    (World.row?_exec hRow (.claimStep id step)) hStart
    (by
      rintro state history other op row - hRule - hRow
        ⟨newer, rfl, hNewer⟩
      refine ⟨_ :: newer, rfl, fun hQuiet => ?_⟩
      rcases hNewer (fun event hEvent =>
          hQuiet event (List.mem_cons_of_mem _ hEvent)) with
        ⟨last, hLast, hLe⟩
      rcases lastStep_rowAfter hRule hRow hLast with
        ⟨next, hNext, hAfter⟩ |
          ⟨loaded, data, hAction, hLoaded, hSet⟩
      · exact ⟨next, hAfter, hLe.trans hNext⟩
      · exact absurd
          ⟨loaded, data, hAction, hLoaded, hSet⟩
          (hQuiet _ List.mem_cons_self))
  rcases hHolds with ⟨row', hRow', newer, hSame, hLast⟩
  obtain rfl : later = newer :=
    List.append_cancel_right hSame
  rcases hLast hKept with ⟨last, hLast, hLe⟩
  exact ⟨row', last, hRow', hLast, hLe⟩

------------------------------------------------------------
-- Accepted Codes
------------------------------------------------------------

/-
  The operations that only an accepted code leads to: the
  consumption of a login challenge, an enabled setup, a
  disable, new recovery codes, and a sudo stamp.
-/
def completes : Op → Prop
  | .challengeTake _ => True
  | .updateIf _ (.totpConfirmedAt _) _ => True
  | .commit _ data =>
      data = disablePatch ∨ ∃ codes, data = codesPatch codes
  | .sessionModify _ (.stamp (some _)) => True
  | _ => False

/-
  A step belongs to six digits: they are its code under the
  secret of a copy the thread has read, within the drift
  around a time that it has read.
-/
def Belongs
    (runtime : Runtime)
    (history : List (Ev ι))
    (thread : ι)
    (id : UserId)
    (digits : String)
    (step : Nat) : Prop :=
  ∃ (config : MfaConfig) (user : User) (secret : Secret)
    (now : Nat),
    runtime.mfa = some config ∧
    (⟨thread, .now, now⟩ : Ev ι) ∈ history ∧
    (∃ action ∈ own thread history,
      copyOf action = some user) ∧
    user.id = id ∧
    runtime.HoldsSecret user secret ∧
    config.matchingStep secret digits now = some step

/-
  The steps that codes claim on an account grow strictly
  between two resets, and whatever a six-digit code leads
  to, it has first claimed a step that it belongs to.
-/
structure ClaimedOnce
    (runtime : Runtime)
    (requests : ι → Request)
    (history : List (Ev ι)) : Prop where
  increasing :
    ∀ later between earlier thread thread' id step step',
      history =
        later ++ ⟨thread', .claimStep id step', true⟩ ::
          (between ++ ⟨thread, .claimStep id step, true⟩ ::
            earlier) →
      (∀ event ∈ between, ¬ StepsReset id event) →
      step < step'
  claimed :
    ∀ later earlier (event : Ev ι) digits,
      history = later ++ event :: earlier →
      (requests event.thread).code? = some (.digits digits) →
      completes event.op →
      ∃ id step,
        runtime.Entitled (requests event.thread)
          (own event.thread earlier) id ∧
        (⟨event.thread, .claimStep id step, true⟩ : Ev ι) ∈
          earlier ∧
        Belongs runtime earlier event.thread id digits step

/-
  The steps of every run are claimed once, in order, however
  the clock is set in between.
-/
def StepsOnce
    (runtime : Runtime)
    (requests : ι → Request)
    (condition : Condition ι interface World)
    (start : World) : Prop :=
  ∀ config : Config ι interface World HttpError Unit,
    Reaches unsteady condition
      ⟨start, [], runtime.pool requests⟩ config →
    ClaimedOnce runtime requests config.history

/- Every gate that is passed with a code had it accepted. -/
theorem accepted_of_completes
    {code : Code}
    (hRule : runtime.rule request past op)
    (hCode : request.code? = some code)
    (hCompletes : completes op) :
    ∃ id, runtime.Entitled request past id ∧
      Accepted request past id := by
  cases op with
  | challengeTake key =>
      rcases hRule with
        ⟨_, _, user, _, -, -, hEntitled, hAccepted, -⟩
      exact ⟨user.id, hEntitled, hAccepted⟩
  | updateIf target guard data =>
      rcases hRule with ⟨hEntitled, -, hSwap⟩
      cases hSwap with
      | enable hDrawn hAccepted =>
          exact ⟨target, hEntitled, hAccepted⟩
      | spend => exact hCompletes.elim
  | commit loaded data =>
      rcases hRule with ⟨-, hEntitled, hWrite⟩
      refine ⟨loaded.id, hEntitled, ?_⟩
      cases hWrite with
      | disable hRequest hAccepted => exact hAccepted
      | codes hDrawn hCount hEnrolled hAccepted =>
          exact hAccepted
      | claim hRequest =>
          subst hRequest
          cases hCode
      | link hRequest =>
          subst hRequest
          cases hCode
      | @field field value hRequest =>
          subst hRequest
          cases hCode
      | email hRequest =>
          subst hRequest
          cases hCode
      | _ =>
          simp [completes, disablePatch, codesPatch,
            Runtime.pendingPatch] at hCompletes
  | sessionModify key change =>
      cases change with
      | stamp elevatedUntil =>
          cases elevatedUntil with
          | none => exact hCompletes.elim
          | some moment =>
              rcases hRule with
                ⟨proof, user, rfl, -, hEntitled, hProven⟩
              refine ⟨user.id, hEntitled, ?_⟩
              cases proof with
              | password password => cases hCode
              | code submitted =>
                  exact hProven rfl submitted rfl
      | touch now ttl => exact hCompletes.elim
      | rebind version => exact hCompletes.elim
  | _ => exact hCompletes.elim

/-
  No start, no order of steps and no setting of the clock
  makes a step repeat.
-/
theorem stepsOnce
    (runtime : Runtime)
    (requests : ι → Request)
    (condition : Condition ι interface World)
    (start : World) :
    StepsOnce runtime requests condition start := by
  intro config hReachable
  have hRuns := Runtime.trace_of_reaches hReachable
  constructor
  · intro later between earlier thread thread' id step step'
      hHistory hKept
    rw [hHistory] at hRuns
    rcases hRuns.at_event with
      ⟨before, hBefore, -, -, hRet, -⟩
    rcases lastStep_along hBefore hKept with
      ⟨row, last, hRow, hLast, hLe⟩
    rcases claimed_newer hRet with ⟨row', hRow', hNewer⟩
    obtain rfl : row = row' :=
      Option.some.inj (hRow.symm.trans hRow')
    rw [World.stepIsNewer, hLast] at hNewer
    exact hLe.trans_lt (of_decide_eq_true hNewer)
  · intro later earlier event digits hHistory hCode
      hCompletes
    rw [hHistory] at hRuns
    rcases hRuns.at_event with ⟨before, hBefore, hRule, -⟩
    rcases accepted_of_completes hRule hCode hCompletes with
      ⟨id, hEntitled, code, hSame, hAccepted⟩
    obtain rfl : Code.digits digits = code :=
      Option.some.inj (hCode.symm.trans hSame)
    rcases hAccepted with ⟨step, hClaimed⟩
    have hMem := mem_own_iff.mp hClaimed
    refine ⟨id, step, hEntitled, hMem, ?_⟩
    rcases hBefore.at_member hMem with
      ⟨-, older, hOlder, -, hMatches, -⟩
    rcases hMatches with
      ⟨config', user, secret, digits', now, hMfa, hDigits,
        hNow, hRead, hId, hSecret, hStep⟩
    obtain rfl : digits = digits' := by
      have hBoth := hCode.symm.trans hDigits
      simpa using hBoth
    have hSuffix := own_suffix event.thread hOlder
    rcases mem_of_lastRead hRead with
      ⟨action, hAction, hCopy⟩
    exact ⟨config', user, secret, now, hMfa,
      mem_own_iff.mp
        (hSuffix.subset (List.mem_of_mem_head? hNow)),
      ⟨action, hSuffix.subset hAction, hCopy⟩, hId, hSecret,
      hStep⟩

end CrudAuth
