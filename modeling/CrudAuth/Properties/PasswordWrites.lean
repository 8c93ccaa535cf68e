import CrudAuth.Scenario

/-
  Writes of the password column: what each one was
  authorized against, and what is stored when it commits.

  Main declarations:
    * `writesPassword`
    * `UnracedWrites`
    * `hash_current`
    * `checkedWrites_of_unraced`
-/

namespace CrudAuth

open Concurrency

------------------------------------------------------------
-- Password Writes
------------------------------------------------------------

/- The account whose password an operation sets. -/
def passwordWrite? : Op → Option UserId
  | .commit loaded data =>
      if data.hashedPassword.isSome then
        some loaded.id
      else
        none
  | _ => none

/- A password of the account was set, and committed. -/
def writesPassword (id : UserId) : Act → Bool
  | ⟨.commit loaded data, committed⟩ =>
      committed &&
        (loaded.id == id && data.hashedPassword.isSome)
  | _ => false

variable {ι : Type} [DecidableEq ι]
variable {runtime : Runtime}
variable {request : Request}
variable {requests : ι → Request}
variable {condition : Condition ι interface World}
variable {past : List Act}
variable {start state world : World}
variable {opening history : List (Ev ι)}
variable {id : UserId}
variable {row loaded : User}
variable {data : Patch}
variable {thread : ι}

/-
  No password of the account has been set since the thread
  that is about to set one read its copy of the row.
-/
def UnracedWrites : Condition ι interface World :=
  fun _ history thread op =>
    ∀ id ∈ passwordWrite? op,
      ∀ event ∈ sinceRead thread history,
        writesPassword id event.action = false

instance :
    ∀ (state : World) (history : List (Ev ι))
      (thread : ι) (op : Op),
      Decidable (UnracedWrites state history thread op) :=
  fun _ history thread op =>
    inferInstanceAs (Decidable
      (∀ id ∈ passwordWrite? op,
        ∀ event ∈ sinceRead thread history,
          writesPassword id event.action = false))

/- Nothing else changes the hash of a row. -/
theorem hash_rowAfter
    {op : Op}
    (hRule : runtime.rule request past op)
    (hRow : world.row? id = some row)
    (hQuiet :
      writesPassword id ⟨op, (World.exec op world).1⟩ =
        false) :
    (world.rowAfter op row).hashedPassword =
      row.hashedPassword := by
  have hId : row.id = id := World.id_of_row? hRow
  cases op with
  | commit loaded data =>
      simp only [World.rowAfter]
      split
      · rename_i hCommits
        rcases hCommits with ⟨hLoaded, hUnique⟩
        rw [← hLoaded] at hId
        subst hId
        have hNone : data.hashedPassword = none := by
          have hRet := World.commit_ret hRow data
          simpa [writesPassword, hRet, hUnique]
            using hQuiet
        simp [Patch.flush, hNone]
      · rfl
  | incrementVersion target =>
      simp only [World.rowAfter]
      split <;> rfl
  | claimStep target step =>
      simp only [World.rowAfter]
      split <;> rfl
  | updateIf target guard data =>
      rcases hRule with ⟨-, -, hSwap⟩
      simp only [World.rowAfter]
      split
      · cases hSwap with
        | enable =>
            simp [Patch.assign, Patch.flush, enablePatch]
        | spend =>
            simp [Patch.assign, Patch.flush, without,
              codesPatch]
      · rfl
  | _ => rfl

/-
  What lets a request set a password on the copy it has: a
  check of the copy's hash, or a claim by a provider.
-/
def MaySetPassword
    (runtime : Runtime)
    (request : Request)
    (loaded : User) : Prop :=
  runtime.Authorizes request loaded ∨
    ∃ info presented,
      request = .oauthCallback info presented

/- A password is written by who may set it. -/
theorem maySetPassword_of_write
    (hWrite : runtime.Write request past loaded data)
    (hPassword : data.hashedPassword.isSome = true) :
    MaySetPassword runtime request loaded := by
  cases hWrite with
  | password hDrawn hAuthorized => exact Or.inl hAuthorized
  | claim hRequest => exact Or.inr ⟨_, _, hRequest⟩
  | @field field value hRequest =>
      cases field <;>
        simp [Runtime.canonical, Runtime.fieldPatch]
          at hPassword
  | pending => simp [Runtime.pendingPatch] at hPassword
  | disable => simp [disablePatch] at hPassword
  | codes => simp [codesPatch] at hPassword
  | emailVerified => simp at hPassword
  | factorVerified => simp at hPassword
  | email => simp [Runtime.canonical] at hPassword
  | link => simp [Runtime.linkPatch] at hPassword

/- Some event rightly replaced the hash of the account. -/
def Superseded
    (runtime : Runtime)
    (requests : ι → Request)
    (id : UserId)
    (hash : StoredHash)
    (events : List (Ev ι)) : Prop :=
  ∃ successor loaded data,
    (⟨successor, .commit loaded data, true⟩ : Ev ι) ∈
      events ∧
    data.hashedPassword.isSome = true ∧
    loaded.id = id ∧
    loaded.hashedPassword = hash ∧
    MaySetPassword runtime (requests successor) loaded

/-
  Every password that is set replaces the hash it was
  authorized against, and a password that has been set is
  only replaced by a write authorized against it.
-/
structure CheckedWrites
    (runtime : Runtime)
    (requests : ι → Request)
    (condition : Condition ι interface World)
    (start : World) : Prop where
  current : ∀ config thread loaded data,
    runtime.Reachable requests condition start config →
    config.next? thread = some (.commit loaded data) →
    condition config.state config.history thread
      (.commit loaded data) →
    data.hashedPassword.isSome = true →
    MaySetPassword runtime (requests thread) loaded ∧
    ∃ row,
      config.state.row? loaded.id = some row ∧
        row.hashedPassword = loaded.hashedPassword
  lasting : ∀ config later earlier thread loaded data
      newHash row,
    runtime.Reachable requests condition start config →
    config.history =
      later ++ ⟨thread, .commit loaded data, true⟩ ::
        earlier →
    data.hashedPassword = some newHash →
    config.state.row? loaded.id = some row →
    row.hashedPassword ≠ newHash →
    Superseded runtime requests loaded.id newHash later

------------------------------------------------------------
-- The Stored Hash At A Write
------------------------------------------------------------

/- An unraced write finds the hash its copy shows. -/
theorem hash_current
    (hStart : start.WellFormed)
    (hRuns : runtime.Runs requests condition start []
      state history)
    (hRule :
      runtime.rule (requests thread) (own thread history)
        (.commit loaded data))
    (hUnraced : UnracedWrites state history thread
      (.commit loaded data))
    (hPassword : data.hashedPassword.isSome = true) :
    ∃ row,
      state.row? loaded.id = some row ∧
        row.hashedPassword = loaded.hashedPassword := by
  have hQuiet : ∀ event ∈ sinceRead thread history,
      writesPassword loaded.id event.action = false := by
    apply hUnraced
    simp [passwordWrite?, hPassword]
  exact copy_kept User.hashedPassword
    (writesPassword loaded.id)
    (fun _ _ _ _ _ hRule hRow hQuiet =>
      hash_rowAfter hRule hRow hQuiet)
    hStart hRuns hRule.1 hQuiet

/- A committed password is the one stored. -/
private theorem hash_after_commit
    {newHash : StoredHash}
    (hRow : world.row? loaded.id = some row)
    (hSame : row.hashedPassword = loaded.hashedPassword)
    (hNew : data.hashedPassword = some newHash)
    (hCommitted :
      (World.exec (.commit loaded data) world).1 = true) :
    (world.rowAfter (.commit loaded data)
      row).hashedPassword = newHash := by
  have hRet := World.commit_ret hRow data
  have hUnique :
      world.violatesUnique loaded.id data = false := by
    simpa [hRet] using hCommitted
  have hId : loaded.id = row.id :=
    (World.id_of_row? hRow).symm
  simp [World.rowAfter, hId, hId ▸ hUnique, Patch.flush,
    hNew, hSame]

/- What a recorded password write is made of. -/
private theorem write_of_writesPassword
    {action : Act}
    (hWrites : writesPassword id action = true) :
    ∃ loaded data,
      action = ⟨.commit loaded data, true⟩ ∧
        loaded.id = id ∧
        data.hashedPassword.isSome = true := by
  rcases action with ⟨op, ret⟩
  cases op with
  | commit loaded data =>
      obtain ⟨rfl, hId, hPassword⟩ := by
        simpa [writesPassword] using hWrites
      exact ⟨loaded, data, rfl, hId, hPassword⟩
  | _ => simp [writesPassword] at hWrites

/- One step keeps a hash or supersedes it. -/
private theorem superseded_step
    {op : Op}
    {newHash : StoredHash}
    {newer : List (Ev ι)}
    (hStart : start.WellFormed)
    (hRuns : runtime.Runs requests UnracedWrites start []
      state history)
    (hRule :
      runtime.rule (requests thread) (own thread history)
        op)
    (hUnraced : UnracedWrites state history thread op)
    (hRow : state.row? id = some row)
    (hSoFar :
      row.hashedPassword = newHash ∨
        Superseded runtime requests id newHash newer) :
    (state.rowAfter op row).hashedPassword = newHash ∨
      Superseded runtime requests id newHash
        (⟨thread, op, (World.exec op state).1⟩ ::
          newer) := by
  rcases hSoFar with hKept | hSuperseded
  · cases hWrites :
        writesPassword id ⟨op, (World.exec op state).1⟩ with
    | false =>
        rw [hash_rowAfter hRule hRow hWrites]
        exact Or.inl hKept
    | true =>
        rcases write_of_writesPassword hWrites with
          ⟨loaded, data, hAction, rfl, hPassword⟩
        obtain ⟨rfl, hRet⟩ :
            op = .commit loaded data ∧
              HEq (World.exec op state).1 true := by
          simpa using hAction
        have hRet' := eq_of_heq hRet
        rcases hash_current hStart hRuns hRule hUnraced
            hPassword with
          ⟨stored, hStored, hSame⟩
        obtain rfl : stored = row := by
          simpa [hStored] using hRow
        refine Or.inr ⟨thread, loaded, data, ?_, hPassword,
          rfl, hSame.symm.trans hKept,
          maySetPassword_of_write hRule.2.2 hPassword⟩
        rw [hRet']
        exact List.mem_cons_self
  · rcases hSuperseded with
      ⟨successor, loaded, data, hMem, hRest⟩
    exact Or.inr ⟨successor, loaded, data,
      List.mem_cons_of_mem _ hMem, hRest⟩

/-
  In every run without races each password write is one of
  a chain: authorized against the one it replaces.
-/
theorem checkedWrites_of_unraced
    (runtime : Runtime)
    (requests : ι → Request)
    (start : World)
    (hStart : start.WellFormed) :
    CheckedWrites runtime requests UnracedWrites start := by
  refine ⟨?_, ?_⟩
  · intro config thread loaded data hReachable hNext
      hUnraced hPassword
    have hRule := Runtime.rule_of_next hReachable hNext
    exact ⟨maySetPassword_of_write hRule.2.2 hPassword,
      hash_current hStart
        (Runtime.runs_of_reachable hReachable) hRule
        hUnraced hPassword⟩
  · intro config later earlier thread loaded data newHash
      row hReachable hHistory hNew hRow hDiffers
    have hRuns := Runtime.runs_of_reachable hReachable
    rw [hHistory] at hRuns
    have hPassword : data.hashedPassword.isSome = true := by
      simp [hNew]
    rcases hRuns.at_event with
      ⟨before, hBefore, hRule, hUnraced, hRet, hThen,
        hAfter⟩
    rcases hash_current hStart hBefore hRule hUnraced
        hPassword with
      ⟨stored, hStored, hSame⟩
    have hWritten := hash_after_commit hStored hSame hNew
      hRet.symm
    have hAlong := row_along
      (fun history row => ∃ newer,
        history =
          newer ++ ⟨thread, .commit loaded data, true⟩ ::
            earlier ∧
        (row.hashedPassword = newHash ∨
          Superseded runtime requests loaded.id newHash
            newer))
      hAfter (World.row?_exec hStored _)
      ⟨[], rfl, Or.inl hWritten⟩ (by
        rintro state _ active op stored hSoFar hRule
          hUnraced hStored ⟨newer, rfl, hKept⟩
        exact ⟨_ :: newer, rfl,
          superseded_step hStart (hThen.trans hSoFar) hRule
            hUnraced hStored hKept⟩)
    rcases hAlong with ⟨found, hFound, newer, hNewer, hKept⟩
    obtain rfl := List.append_cancel_right hNewer
    obtain rfl : found = row := by
      simpa [hFound] using hRow
    rcases hKept with hKept | hSuperseded
    · exact absurd hKept hDiffers
    · exact hSuperseded

------------------------------------------------------------
-- A Rehash And A Reset
------------------------------------------------------------

/- Thread 0 signs in with the password thread 1 resets. -/
def rehashAndReset : Nat → Request
  | 0 => .login .session "ip" "ada" "old" {} none
  | _ =>
      .resetPassword (Scenario.resetToken Scenario.account)
        "new"

/- One account with an old hash. -/
def rehashStart : World :=
  Scenario.world [Scenario.account]

theorem rehashStart_wellFormed :
    rehashStart.WellFormed :=
  (Scenario.seasoned rfl (by decide)
    (by decide)).wellFormed

/- A login alone rehashes the hash it has checked. -/
theorem rehash_current :
    MaySetPassword Scenario.runtime (rehashAndReset 0)
      Scenario.account ∧
    ∃ row,
      (Scenario.runtime.scheduled rehashAndReset
        UnracedWrites rehashStart (Scenario.steps 0 5)
        (by decide)).state.row? 1 = some row ∧
      row.hashedPassword =
        Scenario.account.hashedPassword :=
  (checkedWrites_of_unraced Scenario.runtime rehashAndReset
    rehashStart rehashStart_wellFormed).current _ 0
    Scenario.account
    { hashedPassword := some (.bcrypt "old" 100) }
    (Runtime.reachable_scheduled Scenario.runtime
      rehashAndReset UnracedWrites rehashStart
      (Scenario.steps 0 5) (by decide))
    rfl (by decide) rfl

/-
  The reset commits between the login's check and its
  rehash: the old password is written over the new one.
-/
theorem not_checkedWrites_of_rehash :
    ¬ CheckedWrites Scenario.runtime rehashAndReset
      anyStep rehashStart := by
  intro hChecked
  have hReached := Runtime.reachable_scheduled
    Scenario.runtime rehashAndReset anyStep rehashStart
    (Scenario.steps 0 5 ++ Scenario.steps 1 11) (by decide)
  rcases (hChecked.current _ 0 Scenario.account
      { hashedPassword := some (.bcrypt "old" 100) }
      hReached rfl trivial rfl).2 with
    ⟨row, hRow, hSame⟩
  have hReset :
      ((Scenario.runtime.scheduled rehashAndReset anyStep
        rehashStart
        (Scenario.steps 0 5 ++ Scenario.steps 1 11)
        (by decide)).state.row? 1).map
          User.hashedPassword =
        some (.bcrypt "new" 101) := by
    decide
  have hStored : (some row).map User.hashedPassword =
      some (.bcrypt "new" 101) := by
    rw [← hRow]
    exact hReset
  rw [Option.map_some, hSame] at hStored
  exact absurd hStored (by decide)

/- Once the login ends, the old password works again. -/
example :
    (Scenario.runtime.scheduled? rehashAndReset anyStep
        rehashStart
        (Scenario.steps 0 5 ++ Scenario.steps 1 11 ++
          Scenario.steps 0 3)).map (fun config =>
      (config.state.row? 1).map fun row =>
        Scenario.runtime.verifyPassword "old"
          row.hashedPassword) =
      some (some true) := by
  decide

end CrudAuth
