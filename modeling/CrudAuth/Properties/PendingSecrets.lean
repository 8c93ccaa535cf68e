import CrudAuth.Invariants.Fresh
import CrudAuth.Scenario

/-
  Pending TOTP secrets and the epoch they were issued
  under: when a secret is enabled, has the epoch moved?

  Main declarations:
    * `SteadyEpoch`
    * `bound_once`
    * `EnablesCurrent`
    * `enablesCurrent_of_steady`
-/

namespace CrudAuth

open Concurrency

variable {ι : Type} [DecidableEq ι]
variable {runtime : Runtime}
variable {request : Request}
variable {requests : ι → Request}
variable {past : List Act}
variable {condition : Condition ι interface World}
variable {start state : World}
variable {history later earlier : List (Ev ι)}
variable {thread issuer : ι}
variable {loaded selected : User}
variable {data : Patch}
variable {version : Nat}
variable {secret : Secret}
variable {committed : Bool}

------------------------------------------------------------
-- Enabling
------------------------------------------------------------

/- The account an operation enables a second factor on. -/
def enables? : Op → Option UserId
  | .updateIf id (.totpConfirmedAt _) _ => some id
  | _ => none

/-
  A secret that is enabled is enabled under the epoch of the
  copy it was taken from: the one that was selected, whatever
  the refresh after the claimed step has loaded since.
-/
def SteadyEpoch : Condition ι interface World :=
  fun state history thread op =>
    ∀ id ∈ enables? op,
      ∀ row ∈ state.row? id,
        row.totpConfirmedAt = none →
        ∀ selected ∈ lastSelected (own thread history),
          row.tokenVersion = selected.tokenVersion

instance :
    ∀ (state : World) (history : List (Ev ι))
      (thread : ι) (op : Op),
      Decidable (SteadyEpoch state history thread op) :=
  fun state history thread op =>
    inferInstanceAs (Decidable
      (∀ id ∈ enables? op,
        ∀ row ∈ state.row? id,
          row.totpConfirmedAt = none →
          ∀ selected ∈ lastSelected (own thread history),
            row.tokenVersion = selected.tokenVersion))

/-
  When a secret is enabled, the epoch has not moved since
  the secret was stored as pending.
-/
def EnablesCurrent
    (runtime : Runtime)
    (requests : ι → Request)
    (condition : Condition ι interface World)
    (start : World) : Prop :=
  ∀ config thread id data secret,
    runtime.Reachable requests condition start config →
    config.next? thread =
      some (.updateIf id (.totpConfirmedAt none) data) →
    condition config.state config.history thread
      (.updateIf id (.totpConfirmedAt none) data) →
    (World.exec (.updateIf id (.totpConfirmedAt none) data)
      config.state).1 = true →
    data.totpSecretEncrypted = some (some (.bare secret)) →
    ∀ later earlier issuer loaded pending version,
      config.history =
        later ++ ⟨issuer, .commit loaded pending, true⟩ ::
          earlier →
      loaded.id = id →
      pending.totpSecretEncrypted =
        some (some (.bound version secret)) →
      ∀ event ∈ later, event.op ≠ .incrementVersion id

------------------------------------------------------------
-- Issued Secrets
------------------------------------------------------------

/- Where a pending secret in a row comes from. -/
theorem bound_after
    {op : Op}
    {id : UserId}
    {row : User}
    (hRule : runtime.rule request past op)
    (hRow : (World.exec op state).2.row? id = some row)
    (hBound :
      row.totpSecretEncrypted =
        some (.bound version secret)) :
    (∃ old,
      state.row? id = some old ∧
        old.totpSecretEncrypted =
          some (.bound version secret)) ∨
    ∃ loaded data,
      op = .commit loaded data ∧
        data.totpSecretEncrypted =
          some (some (.bound version secret)) := by
  cases hOld : state.row? id with
  | some old =>
      obtain rfl : state.rowAfter op old = row := by
        rw [World.row?_exec hOld op] at hRow
        exact Option.some.inj hRow
      rcases ciphertext_rowAfter hRule hBound with
        hKept | ⟨loaded, data, hOp, hNew⟩
      · exact Or.inl ⟨old, rfl, hKept⟩
      · exact Or.inr ⟨loaded, data, hOp, hNew⟩
  | none =>
      rcases World.row?_exec_of_none hOld hRow with
        ⟨created, rfl, rfl⟩
      rcases hRule with ⟨-, hNone, -⟩
      simp [hNone] at hBound

/- A secret is only ever pending under one version. -/
theorem bound_once
    (hStart : start.Seasoned)
    (hRuns : runtime.Runs requests condition start [] state
      (later ++ ⟨issuer, .commit loaded data, committed⟩ ::
        earlier))
    (hIssued :
      data.totpSecretEncrypted =
        some (some (.bound version secret))) :
    ∀ id row, state.row? id = some row →
      ∀ version',
        row.totpSecretEncrypted =
          some (.bound version' secret) →
        version' = version := by
  rcases hRuns.at_event with
    ⟨before, hBefore, hRule, -, -, -, hAfter⟩
  have hIssue :
      runtime.rule (requests issuer) (own issuer earlier)
        (.commit loaded data) :=
    hRule
  have hDrawn := (pending_of_write hIssue.2.2 hIssued).1
  have hSpent :
      Spent (World.exec (.commit loaded data) before).2
        (⟨issuer, .commit loaded data, committed⟩ ::
          earlier)
        secret :=
    spent_of_fresh hBefore (fresh_of_drawn hDrawn)
      (by simp)
  have hOnce := Trace.invariant
    (fun state history =>
      Spent state history secret ∧
      ∀ id row, state.row? id = some row →
        ∀ version',
          row.totpSecretEncrypted =
            some (.bound version' secret) →
          version' = version)
    hAfter ⟨hSpent, ?_⟩ ?_ ?_
  · exact hOnce.2
  · intro id row hRow version' hBound
    rcases bound_after hIssue hRow hBound with
      ⟨old, hOld, hPending⟩ | ⟨_, _, ⟨rfl, rfl⟩, hNew⟩
    · have hOldSpent := spent_of_row hStart hBefore id old
        hOld secret (mem_drawn_of_bound hPending)
      exact absurd hDrawn (hOldSpent.free issuer)
    · rw [hIssued] at hNew
      obtain ⟨rfl, -⟩ := by simpa using hNew
      rfl
  · rintro state history active op hSoFar hActive -
      ⟨hSpent, hRows⟩
    refine ⟨hSpent.exec active, ?_⟩
    intro id row hRow version' hBound
    rcases bound_after hActive hRow hBound with
      ⟨old, hOld, hPending⟩ | ⟨other, new, rfl, hNew⟩
    · exact hRows id old hOld version' hPending
    · have hAgain := (pending_of_write hActive.2.2 hNew).1
      exact absurd hAgain (hSpent.free active)
  · intro state history tick hSoFar
    exact ⟨hSoFar.1.tick tick, hSoFar.2⟩

/- A pending secret that is shown shows its version. -/
theorem bound_of_pendingSecret
    (hPending :
      runtime.pendingSecret selected = some secret) :
    selected.totpSecretEncrypted =
      some (.bound (runtime.tokenVersion selected)
        secret) := by
  unfold Runtime.pendingSecret at hPending
  split at hPending
  · cases hPending
  · split at hPending
    · rename_i version stored hStored
      split at hPending
      · rename_i hVersion
        obtain rfl : stored = secret := by
          simpa using hPending
        rw [hStored, hVersion]
      · cases hPending
    · cases hPending
    · cases hPending
    · cases hPending

/-
  The copy a pending secret is taken from was selected
  after the secret was stored, so it shows the epoch the
  secret was issued under.
-/
theorem version_of_issued
    (hStart : start.Seasoned)
    (hRuns : runtime.Runs requests condition start [] state
      (later ++ ⟨issuer, .commit loaded data, committed⟩ ::
        earlier))
    (hIssued :
      data.totpSecretEncrypted =
        some (some (.bound version secret)))
    (hSelected :
      lastSelected (own thread
        (later ++ ⟨issuer, .commit loaded data,
          committed⟩ :: earlier)) = some selected)
    (hPending :
      runtime.pendingSecret selected = some secret) :
    runtime.tokenVersion selected = version := by
  have hBound := bound_of_pendingSecret hPending
  rcases lastSelected_split hSelected with
    ⟨newer, event, older, hHistory, -, hCopy⟩
  have hRuns' := hRuns
  rw [hHistory] at hRuns'
  rcases hRuns'.at_event with
    ⟨moment, hMoment, -, -, hRet, -, hRest⟩
  have hWellFormed :=
    wellFormed_of_runs hMoment hStart.wellFormed
  have hRow : moment.row? selected.id = some selected := by
    apply row_of_selected hWellFormed
    rw [← hRet]
    exact hCopy
  rcases order_of_splits hHistory with
    ⟨between, hEarlier, -⟩ | ⟨between, hOlder, -⟩ |
      ⟨hSame, -, -⟩
  · -- selected before it was issued: the secret was spent
    rcases hRuns.at_event with ⟨before, hBefore, hRule, -⟩
    have hDrawn := (pending_of_write hRule.2.2 hIssued).1
    rw [hEarlier] at hBefore hDrawn
    rcases hBefore.at_event with
      ⟨moment', hMoment', -, -, hRet', -, hLater⟩
    have hRow' :
        moment'.row? selected.id = some selected := by
      apply row_of_selected
        (wellFormed_of_runs hMoment' hStart.wellFormed)
      rw [← hRet']
      exact hCopy
    have hSpent := spent_of_row hStart hMoment' _ _ hRow'
      secret (mem_drawn_of_bound hBound)
    have hSpent' := spent_along hLater
      (hRet' ▸ hSpent.exec event.thread)
    exact absurd hDrawn (hSpent'.free issuer)
  · rw [hOlder] at hMoment
    exact bound_once hStart hMoment hIssued _ _ hRow _
      hBound
  · rw [← hSame] at hCopy
    simp [Event.action, selectedBy] at hCopy

/- An epoch only moves where there is one. -/
theorem hasTokenVersion_of_bump
    {bump : Ev ι}
    {id : UserId}
    (hRuns : runtime.Runs requests condition start []
      state history)
    (hBump : bump ∈ history)
    (hOp : bump.op = .incrementVersion id) :
    runtime.hasTokenVersion = true := by
  rcases hRuns.at_member hBump with
    ⟨before, earlier, -, -, hRule, -⟩
  rw [hOp] at hRule
  exact hRule.1

/-
  Where every enabling write still meets the epoch of its
  copy, none enables a secret of an earlier epoch.
-/
theorem enablesCurrent_of_steady
    (runtime : Runtime)
    (requests : ι → Request)
    (start : World)
    (hStart : start.Seasoned) :
    EnablesCurrent runtime requests SteadyEpoch start := by
  intro config thread id data secret hReachable hNext
    hSteady hCommits hSecret later earlier issuer loaded
    pending version hHistory hLoaded hIssued bump hBump hOp
  have hRuns := Runtime.runs_of_reachable hReachable
  have hRule := Runtime.rule_of_next hReachable hNext
  rcases hRule with ⟨-, -, hSwap⟩
  cases hSwap with
  | @enable selected enabled now batch count hDrawn hAccepted
      hSelected hId hPending =>
  obtain rfl : enabled = secret := by
    simpa [enablePatch] using hSecret
  rw [hHistory] at hRuns hSelected
  have hVersion := version_of_issued hStart hRuns hIssued
    hSelected hPending
  have hColumn : runtime.hasTokenVersion = true :=
    hasTokenVersion_of_bump hRuns
      (List.mem_append_left _ hBump) hOp
  -- the row when the secret was stored, and the row now
  rcases hRuns.at_event with
    ⟨before, hBefore, hIssue, -, -, -, hAfter⟩
  rcases row_of_lastRead hStart.wellFormed hBefore
      hIssue.1 with
    ⟨old, hOld, hLoadedLe⟩
  rw [hLoaded] at hOld
  have hStored := World.row?_exec hOld
    (.commit loaded pending)
  rcases exists_row hAfter hStored with ⟨row, hRow⟩
  have hConfirmed : row.totpConfirmedAt = none := by
    rw [World.updateIf_ret hRow] at hCommits
    simpa [World.holds] using hCommits
  have hSelected' :
      lastSelected (own thread config.history) =
        some selected := by
    rw [hHistory]
    exact hSelected
  have hNow : row.tokenVersion = selected.tokenVersion :=
    hSteady id rfl row hRow hConfirmed selected hSelected'
  -- the epoch of the copy is the one of the issue
  have hIssuedUnder :
      version = runtime.tokenVersion loaded :=
    (pending_of_write hIssue.2.2 hIssued).2
  have hSame :
      selected.tokenVersion = loaded.tokenVersion := by
    rw [hIssuedUnder] at hVersion
    simpa [Runtime.tokenVersion, hColumn] using hVersion
  have hMoved := version_lt_of_bumped hAfter hBump hOp
    hStored hRow
  have hKept := version_le_rowAfter before
    (.commit loaded pending) old
  omega

------------------------------------------------------------
-- An Enrollment And A Reset
------------------------------------------------------------

/- A signed-in enrollment, and a reset by thread 2. -/
def enrollAndReset : Nat → Request
  | 0 => .totpSetup (.session 7) (some "old")
  | 1 => .totpConfirm (.session 7) (.digits "100")
  | _ =>
      .resetPassword (Scenario.resetToken Scenario.member)
        "new"

/- The write that enables secret `100`. -/
def enabling (batch : Nat) : Patch :=
  enablePatch 100 1000 (recoveryBatch batch 2)

/- A setup that nothing disturbs is confirmed as shown. -/
theorem enroll_current :
    ∃ newer,
      newer =
        (Scenario.mfaRuntime.scheduled enrollAndReset
          SteadyEpoch Scenario.memberStart
          (Scenario.steps 0 9 ++ Scenario.steps 1 10)
          (by decide)).history.take 12 ∧
      ∀ event ∈ newer, event.op ≠ .incrementVersion 1 := by
  refine ⟨_, rfl, ?_⟩
  exact enablesCurrent_of_steady Scenario.mfaRuntime
    enrollAndReset Scenario.memberStart
    Scenario.memberStart_seasoned _ 1 1 (enabling 101) 100
    (Runtime.reachable_scheduled Scenario.mfaRuntime
      enrollAndReset SteadyEpoch Scenario.memberStart
      (Scenario.steps 0 9 ++ Scenario.steps 1 10)
      (by decide))
    rfl (by decide) (by decide) rfl _ _ 0 Scenario.member
    (Scenario.mfaRuntime.pendingPatch Scenario.member 100) 0
    (List.take_append_drop 12 _).symm rfl rfl

/- The reset runs after the confirmation has read the row. -/
def enrollRace : List (Choice Nat Nat) :=
  Scenario.steps 0 9 ++ Scenario.steps 1 5 ++
    Scenario.steps 2 13 ++ Scenario.steps 1 5

/- The enabling write still commits, in the next epoch. -/
theorem not_enablesCurrent_of_reset :
    ¬ EnablesCurrent Scenario.mfaRuntime enrollAndReset
      anyStep
      Scenario.memberStart := by
  intro hCurrent
  have hReached :=
    Runtime.reachable_scheduled Scenario.mfaRuntime
    enrollAndReset anyStep Scenario.memberStart enrollRace
    (by decide)
  have hDead := hCurrent _ 1 1 (enabling 102) 100 hReached
    rfl trivial (by decide) rfl _ _ 0 Scenario.member
    (Scenario.mfaRuntime.pendingPatch Scenario.member 100) 0
    (List.take_append_drop 25 _).symm rfl rfl
  have hBump :
      ((Scenario.mfaRuntime.scheduled enrollAndReset anyStep
        Scenario.memberStart enrollRace
        (by decide)).history.take 25)[10]? =
        some ⟨2, .incrementVersion 1, ()⟩ :=
    rfl
  exact hDead _ (List.mem_of_getElem? hBump) rfl

end CrudAuth
