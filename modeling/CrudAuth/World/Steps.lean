import CrudAuth.World
import Mathlib.Data.List.Nodup

/-
  What one operation does to each part of the world.

  Every invariant of the stores is derived from these
  equations, never from `exec` itself.

  Main declarations:
    * `World.rowAfter`
    * `World.row?_exec`
    * `World.sessionAfter`
    * `World.challengeAfter`
    * `World.WellFormed`
    * `World.answers`
-/

namespace CrudAuth

open Concurrency

namespace World

------------------------------------------------------------
-- Rows
------------------------------------------------------------

/- The row an operation leaves in place of `row`. -/
def rowAfter
    (world : World)
    (op : Op)
    (row : User) : User :=
  match op with
  | .commit loaded data =>
      if loaded.id = row.id ∧
          world.violatesUnique loaded.id data = false then
        data.flush loaded row
      else
        row
  | .incrementVersion id =>
      if id = row.id then
        { row with tokenVersion := row.tokenVersion + 1 }
      else
        row
  | .claimStep id step =>
      if id = row.id ∧ stepIsNewer row step = true then
        { row with totpLastStep := some step }
      else
        row
  | .updateIf id guard data =>
      if id = row.id ∧ holds guard row = true then
        data.assign row
      else
        row
  | _ => row

/- A replaced row is found in its place. -/
private theorem find_replaced
    (users : List User)
    (row : User)
    (id : UserId) :
    ((users.map fun user =>
        if user.id = row.id then row else user).find?
          fun user => user.id == id) =
      (users.find? fun user => user.id == id).map
        fun user =>
          if user.id = row.id then row else user := by
  induction users with
  | nil => rfl
  | cons user users ih =>
      have hKept :
          (if user.id = row.id then row else user).id =
            user.id := by
        by_cases hId : user.id = row.id
        · rw [if_pos hId, hId]
        · rw [if_neg hId]
      rw [List.map_cons, List.find?_cons, List.find?_cons,
        hKept]
      cases hFound : user.id == id with
      | true => rfl
      | false => exact ih

/- A row is found under its id. -/
theorem id_of_row?
    {world : World}
    {id : UserId}
    {row : User}
    (hRow : world.row? id = some row) :
    row.id = id := by
  have hFound := List.find?_some hRow
  simpa using hFound

/- Replacing a row is seen by exactly its own key. -/
theorem row?_setRow
    (world : World)
    (row : User)
    (id : UserId) :
    (world.setRow row).row? id =
      (world.row? id).map fun stored =>
        if stored.id = row.id then row else stored :=
  find_replaced world.users row id

/- A conditional UPDATE changes the row it is about. -/
theorem row?_updateWhere
    {world : World}
    {id : UserId}
    {row : User}
    (hRow : world.row? id = some row)
    (target : UserId)
    (condition : User → Bool)
    (change : User → User)
    (hChange : ∀ user, (change user).id = user.id) :
    (world.updateWhere target condition change).2.row? id =
      some
        (if target = id ∧ condition row = true then
          change row
        else
          row) := by
  by_cases hTarget : target = id
  · subst hTarget
    by_cases hCondition : condition row = true
    · simp [updateWhere, hRow, hCondition, row?_setRow,
        hChange]
    · simp [updateWhere, hRow, hCondition]
  · cases hOther : world.row? target with
    | none => simp [updateWhere, hOther, hTarget, hRow]
    | some other =>
        have hKeys : row.id ≠ (change other).id := by
          rw [hChange, id_of_row? hOther, id_of_row? hRow]
          exact Ne.symm hTarget
        by_cases hCondition : condition other = true
        · simp [updateWhere, hOther, hCondition,
            row?_setRow, hRow, hKeys, hTarget]
        · simp [updateWhere, hOther, hCondition, hRow,
            hTarget]

/- A commit writes the row that was loaded. -/
theorem row?_commit
    {world : World}
    {id : UserId}
    {row : User}
    (hRow : world.row? id = some row)
    (loaded : User)
    (data : Patch) :
    (world.commit loaded data).2.row? id =
      some
        (if loaded.id = id ∧
            world.violatesUnique loaded.id data = false
        then
          data.flush loaded row
        else
          row) := by
  cases hUnique : world.violatesUnique loaded.id data with
  | true => simp [commit, hUnique, hRow]
  | false =>
      by_cases hId : loaded.id = id
      · rw [hId] at hUnique
        simp [commit, hId, hUnique, hRow, row?_setRow]
      · cases hOther : world.row? loaded.id with
        | none => simp [commit, hUnique, hOther, hId, hRow]
        | some other =>
            have hKeys : row.id ≠ other.id := by
              rw [id_of_row? hOther, id_of_row? hRow]
              exact Ne.symm hId
            simp [commit, hUnique, hOther, row?_setRow,
              hRow, hKeys, hId]

/- An insert leaves the rows there are. -/
theorem row?_insert
    {world : World}
    {id : UserId}
    {row : User}
    (hRow : world.row? id = some row)
    (created : User) :
    (world.insert created).2.row? id = some row := by
  have hFound :
      world.users.find? (fun user => user.id == id) =
        some row := hRow
  unfold insert
  dsimp only
  split
  · exact hRow
  · simp [row?, List.find?_append, hFound]

/- An inserted row is found under the key it was given. -/
theorem row?_inserted
    {world : World}
    {row created : User}
    (hNew : ∀ user ∈ world.users, user.id ≠ world.nonce)
    (hInserted : (world.insert row).1 = some created) :
    (world.insert row).2.row? created.id =
      some created := by
  unfold insert at hInserted ⊢
  dsimp only at hInserted ⊢
  split at hInserted
  · simp at hInserted
  · rename_i hUnique
    rw [if_neg hUnique]
    obtain rfl := by simpa using hInserted
    have hMissing :
        world.users.find?
          (fun user => user.id == world.nonce) = none := by
      rw [List.find?_eq_none]
      intro user hUser
      simpa using hNew user hUser
    simp [row?, List.find?_append, hMissing]

/- One operation takes a row to `rowAfter`. -/
theorem row?_exec
    {world : World}
    {id : UserId}
    {row : User}
    (hRow : world.row? id = some row)
    (op : Op) :
    (exec op world).2.row? id =
      some (world.rowAfter op row) := by
  have hId : row.id = id := id_of_row? hRow
  cases op with
  | insert created => exact row?_insert hRow created
  | commit loaded data =>
      have hStep := row?_commit hRow loaded data
      simpa [exec, rowAfter, hId] using hStep
  | incrementVersion target =>
      have hStep := row?_updateWhere hRow target
        (fun _ => true)
        (fun user =>
          { user with
            tokenVersion := user.tokenVersion + 1 })
        (fun _ => rfl)
      simpa [exec, rowAfter, hId] using hStep
  | claimStep target step =>
      have hStep := row?_updateWhere hRow target
        (fun user => stepIsNewer user step)
        (fun user =>
          { user with totpLastStep := some step })
        (fun _ => rfl)
      simpa [exec, rowAfter, hId] using hStep
  | updateIf target guard data =>
      have hStep := row?_updateWhere hRow target
        (holds guard) data.assign
        (fun _ => rfl)
      simpa [exec, rowAfter, hId] using hStep
  | sessionModify key change =>
      simp only [exec, rowAfter]
      split
      · exact hRow
      · exact hRow
  | challengeAttempt key =>
      simp only [exec, rowAfter]
      split
      · exact hRow
      · exact hRow
  | consumeToken token ttl =>
      simp only [exec, rowAfter]
      split
      · exact hRow
      · exact hRow
  | sudoTtl | sudoAttempt =>
      simp only [exec, verdict, rowAfter]
      split
      · exact hRow
      · exact hRow
  | recordFailure ip identifier =>
      simp only [exec, verdict, rowAfter]
      split
      · exact hRow
      · exact hRow
  | withinLimit action target =>
      simp only [exec, verdict, rowAfter]
      split
      · exact hRow
      · exact hRow
  | _ => exact hRow

/- A row that is absent stays so. -/
private theorem row?_setRow_of_none
    {world : World}
    {id : UserId}
    (hNone : world.row? id = none)
    (row : User) :
    (world.setRow row).row? id = none := by
  rw [row?_setRow, hNone]
  rfl

private theorem row?_updateWhere_of_none
    {world : World}
    {id : UserId}
    (hNone : world.row? id = none)
    (target : UserId)
    (condition : User → Bool)
    (change : User → User) :
    (world.updateWhere target condition change).2.row? id =
      none := by
  unfold updateWhere
  split
  · exact hNone
  · split
    · exact row?_setRow_of_none hNone _
    · exact hNone

private theorem row?_commit_of_none
    {world : World}
    {id : UserId}
    (hNone : world.row? id = none)
    (loaded : User)
    (data : Patch) :
    (world.commit loaded data).2.row? id = none := by
  unfold commit
  split
  · exact hNone
  · split
    · exact hNone
    · exact row?_setRow_of_none hNone _

/- Only an insert makes a row under a new key. -/
theorem row?_exec_of_none
    {world : World}
    {op : Op}
    {id : UserId}
    {row : User}
    (hNone : world.row? id = none)
    (hRow : (exec op world).2.row? id = some row) :
    ∃ created,
      op = .insert created ∧
        row = { created with id := world.nonce } := by
  have hGone (hSame : (exec op world).2.row? id = none) :
      ∃ created,
        op = .insert created ∧
          row = { created with id := world.nonce } := by
    rw [hRow] at hSame
    cases hSame
  cases op with
  | insert created =>
      refine ⟨created, rfl, ?_⟩
      have hFound :
          world.users.find? (fun user => user.id == id) =
            none := hNone
      unfold exec insert at hRow
      dsimp only at hRow
      split at hRow
      · rw [row?, hFound] at hRow
        cases hRow
      · simp only [row?, List.find?_append, hFound,
          Option.none_or, List.find?_cons] at hRow
        split at hRow
        · exact (Option.some.inj hRow).symm
        · cases hRow
  | commit loaded data =>
      exact hGone (row?_commit_of_none hNone loaded data)
  | incrementVersion target =>
      exact hGone (row?_updateWhere_of_none hNone target _ _)
  | claimStep target step =>
      exact hGone (row?_updateWhere_of_none hNone target _ _)
  | updateIf target guard data =>
      exact hGone (row?_updateWhere_of_none hNone target _ _)
  | sessionModify key change =>
      apply hGone
      simp only [exec]
      split
      · exact hNone
      · exact hNone
  | challengeAttempt key =>
      apply hGone
      simp only [exec]
      split
      · exact hNone
      · exact hNone
  | consumeToken token ttl =>
      apply hGone
      simp only [exec]
      split
      · exact hNone
      · exact hNone
  | sudoTtl | sudoAttempt =>
      apply hGone
      simp only [exec, verdict]
      split
      · exact hNone
      · exact hNone
  | recordFailure ip identifier =>
      apply hGone
      simp only [exec, verdict]
      split
      · exact hNone
      · exact hNone
  | withinLimit action target =>
      apply hGone
      simp only [exec, verdict]
      split
      · exact hNone
      · exact hNone
  | _ => exact hGone hNone

/- A row keeps its id. -/
@[simp]
theorem rowAfter_id
    (world : World)
    (op : Op)
    (row : User) :
    (world.rowAfter op row).id = row.id := by
  cases op with
  | commit loaded data =>
      simp only [rowAfter]
      split <;> rfl
  | incrementVersion id =>
      simp only [rowAfter]
      split <;> rfl
  | claimStep id step =>
      simp only [rowAfter]
      split <;> rfl
  | updateIf id guard data =>
      simp only [rowAfter]
      split <;> rfl
  | _ => rfl

/- A commit of a stored row fails only for uniqueness. -/
theorem commit_ret
    {world : World}
    {loaded row : User}
    (hRow : world.row? loaded.id = some row)
    (data : Patch) :
    (exec (.commit loaded data) world).1 =
      !world.violatesUnique loaded.id data := by
  cases hUnique : world.violatesUnique loaded.id data with
  | true => simp [exec, commit, hUnique]
  | false => simp [exec, commit, hUnique, hRow]

/- A compare-and-set reports whether its guard held. -/
theorem updateIf_ret
    {world : World}
    {id : UserId}
    {row : User}
    (hRow : world.row? id = some row)
    (guard : Guard)
    (data : Patch) :
    (exec (.updateIf id guard data) world).1 =
      holds guard row := by
  cases hHolds : holds guard row with
  | true => simp [exec, updateWhere, hRow, hHolds]
  | false => simp [exec, updateWhere, hRow, hHolds]

/- What a commit reports is what it did to its row. -/
theorem rowAfter_commit
    {world : World}
    {loaded row : User}
    (hRow : world.row? loaded.id = some row)
    (data : Patch) :
    world.rowAfter (.commit loaded data) row =
      if (exec (.commit loaded data) world).1 = true then
        data.flush loaded row
      else
        row := by
  have hId : loaded.id = row.id := (id_of_row? hRow).symm
  rw [commit_ret hRow]
  cases hUnique : world.violatesUnique loaded.id data with
  | true => simp [rowAfter, hUnique]
  | false =>
      rw [hId] at hUnique
      simp [rowAfter, hId, hUnique]

/- The same for a compare-and-set. -/
theorem rowAfter_updateIf
    {world : World}
    {id : UserId}
    {row : User}
    (hRow : world.row? id = some row)
    (guard : Guard)
    (data : Patch) :
    world.rowAfter (.updateIf id guard data) row =
      if (exec (.updateIf id guard data) world).1 = true
      then
        data.assign row
      else
        row := by
  have hId : id = row.id := (id_of_row? hRow).symm
  rw [updateIf_ret hRow]
  simp [rowAfter, hId]

/- An operation on one row leaves the others alone. -/
theorem rowAfter_commit_of_ne
    {world : World}
    {loaded row : User}
    (hOther : loaded.id ≠ row.id)
    (data : Patch) :
    world.rowAfter (.commit loaded data) row = row := by
  simp [rowAfter, hOther]

/- A guarded write leaves the other rows. -/
theorem rowAfter_updateIf_of_ne
    {world : World}
    {id : UserId}
    {row : User}
    (hOther : id ≠ row.id)
    (guard : Guard)
    (data : Patch) :
    world.rowAfter (.updateIf id guard data) row = row := by
  simp [rowAfter, hOther]

------------------------------------------------------------
-- Frames
------------------------------------------------------------

/- The operations on the session and challenge stores. -/
def isStore : Op → Bool
  | .sessionCreate _ _ _ => true
  | .sessionModify _ _ => true
  | .sessionDelete _ _ => true
  | .unindex _ _ => true
  | .challengeCreate _ _ _ => true
  | .challengeAttempt _ => true
  | .challengeDelete _ => true
  | .challengeTake _ => true
  | _ => false

/- An update writes the table only. -/
private theorem updateWhere_frame
    (id : UserId)
    (condition : User → Bool)
    (change : User → User)
    (world : World) :
    ∃ users,
      (world.updateWhere id condition change).2 =
        { world with users := users } := by
  unfold updateWhere
  split
  · exact ⟨world.users, rfl⟩
  · split
    · exact ⟨_, rfl⟩
    · exact ⟨world.users, rfl⟩

private theorem commit_frame
    (loaded : User)
    (data : Patch)
    (world : World) :
    ∃ users,
      (world.commit loaded data).2 =
        { world with users := users } := by
  unfold commit
  split
  · exact ⟨world.users, rfl⟩
  · split
    · exact ⟨world.users, rfl⟩
    · exact ⟨_, rfl⟩

/- An insert may draw a value as well. -/
private theorem insert_frame
    (row : User)
    (world : World) :
    ∃ users nonce,
      world.nonce ≤ nonce ∧
      (world.insert row).2 =
        { world with users := users, nonce := nonce } := by
  unfold insert
  dsimp only
  split
  · exact ⟨world.users, world.nonce, le_refl _, rfl⟩
  · exact ⟨_, world.nonce + 1, Nat.le_succ _, rfl⟩

/- A verdict uses up one answer. -/
private theorem verdict_frame (world : World) :
    ∃ verdicts,
      world.verdict.2 =
        { world with verdicts := verdicts } := by
  unfold verdict
  split
  · exact ⟨world.verdicts, rfl⟩
  · exact ⟨_, rfl⟩

/- Every other operation leaves the two stores alone. -/
theorem exec_of_not_isStore
    {op : Op}
    (hOp : isStore op = false)
    (world : World) :
    ∃ users usedTokens nonce verdicts,
      world.nonce ≤ nonce ∧
      (exec op world).2 =
        { world with
          users := users
          usedTokens := usedTokens
          nonce := nonce
          verdicts := verdicts } := by
  cases op with
  | fresh =>
      exact ⟨world.users, world.usedTokens,
        world.nonce + 1, world.verdicts,
        Nat.le_succ _, rfl⟩
  | insert row =>
      rcases insert_frame row world with
        ⟨users, nonce, hNonce, hFrame⟩
      exact ⟨users, world.usedTokens, nonce,
        world.verdicts, hNonce, hFrame⟩
  | commit loaded data =>
      rcases commit_frame loaded data world with
        ⟨users, hFrame⟩
      exact ⟨users, world.usedTokens, world.nonce,
        world.verdicts, le_refl _, hFrame⟩
  | incrementVersion id =>
      rcases updateWhere_frame id (fun _ => true)
          (fun user =>
            { user with
              tokenVersion := user.tokenVersion + 1 })
          world with
        ⟨users, hFrame⟩
      exact ⟨users, world.usedTokens, world.nonce,
        world.verdicts, le_refl _, hFrame⟩
  | claimStep id step =>
      rcases updateWhere_frame id
          (fun user => stepIsNewer user step)
          (fun user =>
            { user with totpLastStep := some step })
          world with
        ⟨users, hFrame⟩
      exact ⟨users, world.usedTokens, world.nonce,
        world.verdicts, le_refl _, hFrame⟩
  | updateIf id guard data =>
      rcases updateWhere_frame id (holds guard) data.assign
          world with
        ⟨users, hFrame⟩
      exact ⟨users, world.usedTokens, world.nonce,
        world.verdicts, le_refl _, hFrame⟩
  | consumeToken token ttl =>
      simp only [exec]
      split
      · exact ⟨world.users, world.usedTokens, world.nonce,
          world.verdicts, le_refl _, rfl⟩
      · exact ⟨world.users, _, world.nonce,
          world.verdicts, le_refl _, rfl⟩
  | sudoTtl | sudoAttempt =>
      rcases verdict_frame world with ⟨verdicts, hFrame⟩
      exact ⟨world.users, world.usedTokens, world.nonce,
        verdicts, le_refl _, hFrame⟩
  | recordFailure ip identifier =>
      rcases verdict_frame world with ⟨verdicts, hFrame⟩
      exact ⟨world.users, world.usedTokens, world.nonce,
        verdicts, le_refl _, hFrame⟩
  | withinLimit action target =>
      rcases verdict_frame world with ⟨verdicts, hFrame⟩
      exact ⟨world.users, world.usedTokens, world.nonce,
        verdicts, le_refl _, hFrame⟩
  | sessionCreate => simp [isStore] at hOp
  | sessionModify => simp [isStore] at hOp
  | sessionDelete => simp [isStore] at hOp
  | unindex => simp [isStore] at hOp
  | challengeCreate => simp [isStore] at hOp
  | challengeAttempt => simp [isStore] at hOp
  | challengeDelete => simp [isStore] at hOp
  | challengeTake => simp [isStore] at hOp
  | _ =>
      exact ⟨world.users, world.usedTokens, world.nonce,
        world.verdicts, le_refl _, rfl⟩

/- Store operations hand out no random values. -/
private theorem nonce_exec_store
    {op : Op}
    (hOp : isStore op = true)
    (world : World) :
    (exec op world).2.nonce = world.nonce ∧
      (exec op world).2.clock = world.clock := by
  cases op with
  | sessionModify key change =>
      simp only [exec]
      split <;> exact ⟨rfl, rfl⟩
  | challengeAttempt key =>
      simp only [exec]
      split <;> exact ⟨rfl, rfl⟩
  | sessionCreate => exact ⟨rfl, rfl⟩
  | sessionDelete => exact ⟨rfl, rfl⟩
  | unindex => exact ⟨rfl, rfl⟩
  | challengeCreate => exact ⟨rfl, rfl⟩
  | challengeDelete => exact ⟨rfl, rfl⟩
  | challengeTake => exact ⟨rfl, rfl⟩
  | _ => simp [isStore] at hOp

/- Only the environment moves the clock. -/
@[simp]
theorem clock_exec (world : World) (op : Op) :
    (exec op world).2.clock = world.clock := by
  cases hOp : isStore op with
  | true => exact (nonce_exec_store hOp world).2
  | false =>
      rcases exec_of_not_isStore hOp world with
        ⟨users, usedTokens, nonce, verdicts, -, hFrame⟩
      rw [hFrame]

/- A random value once handed out never comes again. -/
theorem nonce_le_exec (world : World) (op : Op) :
    world.nonce ≤ (exec op world).2.nonce := by
  cases hOp : isStore op with
  | true => rw [(nonce_exec_store hOp world).1]
  | false =>
      rcases exec_of_not_isStore hOp world with
        ⟨users, usedTokens, nonce, verdicts, hNonce,
          hFrame⟩
      rw [hFrame]
      exact hNonce

------------------------------------------------------------
-- Sessions And Challenges
------------------------------------------------------------

/- The record an operation leaves under a session key. -/
def sessionAfter
    (world : World)
    (op : Op)
    (key : Nat) : Option (Stored SessionData) :=
  match op with
  | .sessionCreate created data ttl =>
      if key = created then
        some ⟨data, world.clock + ttl⟩
      else
        world.sessions key
  | .sessionModify modified change =>
      if key = modified then
        match world.session? key with
        | some stored =>
            some (change.apply world.clock stored)
        | none => world.sessions key
      else
        world.sessions key
  | .sessionDelete deleted _ =>
      if key = deleted then none else world.sessions key
  | _ => world.sessions key

/- The sessions after an operation. -/
theorem sessions_exec
    (world : World)
    (op : Op)
    (key : Nat) :
    (exec op world).2.sessions key =
      world.sessionAfter op key := by
  cases hOp : isStore op with
  | false =>
      rcases exec_of_not_isStore hOp world with
        ⟨users, usedTokens, nonce, verdicts, -, hFrame⟩
      rw [hFrame]
      cases op with
      | sessionCreate => simp [isStore] at hOp
      | sessionModify => simp [isStore] at hOp
      | sessionDelete => simp [isStore] at hOp
      | _ => rfl
  | true =>
      cases op with
      | sessionCreate created data ttl =>
          simp [exec, index, putSession, sessionAfter,
            Function.update_apply]
      | sessionModify modified change =>
          by_cases hKey : key = modified
          · subst hKey
            simp only [exec, sessionAfter, if_pos]
            split
            · rename_i hSession
              rw [hSession]
            · rename_i stored hSession
              rw [hSession]
              simp [putSession]
          · simp only [exec, sessionAfter, if_neg hKey]
            split
            · rfl
            · simp [putSession, hKey]
      | sessionDelete deleted userId =>
          simp [exec, unindex, putSession, sessionAfter,
            Function.update_apply]
      | challengeAttempt attempted =>
          simp only [exec]
          split <;> rfl
      | unindex => rfl
      | challengeCreate => rfl
      | challengeDelete => rfl
      | challengeTake => rfl
      | _ => simp [isStore] at hOp

/- The record an operation leaves under a challenge key. -/
def challengeAfter
    (world : World)
    (op : Op)
    (key : Nat) : Option (Stored MfaChallenge) :=
  match op with
  | .challengeCreate created challenge ttl =>
      if key = created then
        some ⟨challenge, world.clock + ttl⟩
      else
        world.challenges key
  | .challengeAttempt attempted =>
      if key = attempted then
        match world.challenge? key with
        | some stored =>
            some { stored with
              value :=
                { stored.value with
                  attempts := stored.value.attempts + 1 } }
        | none => world.challenges key
      else
        world.challenges key
  | .challengeDelete deleted =>
      if key = deleted then none else world.challenges key
  | .challengeTake taken =>
      if key = taken then none else world.challenges key
  | _ => world.challenges key

theorem challenges_exec
    (world : World)
    (op : Op)
    (key : Nat) :
    (exec op world).2.challenges key =
      world.challengeAfter op key := by
  cases hOp : isStore op with
  | false =>
      rcases exec_of_not_isStore hOp world with
        ⟨users, usedTokens, nonce, verdicts, -, hFrame⟩
      rw [hFrame]
      cases op with
      | challengeCreate => simp [isStore] at hOp
      | challengeAttempt => simp [isStore] at hOp
      | challengeDelete => simp [isStore] at hOp
      | challengeTake => simp [isStore] at hOp
      | _ => rfl
  | true =>
      cases op with
      | challengeCreate created challenge ttl =>
          simp [exec, putChallenge, challengeAfter,
            Function.update_apply]
      | challengeAttempt attempted =>
          by_cases hKey : key = attempted
          · subst hKey
            simp only [exec, challengeAfter, if_pos]
            split
            · rename_i hChallenge
              rw [hChallenge]
            · rename_i stored hChallenge
              rw [hChallenge]
              simp [putChallenge]
          · simp only [exec, challengeAfter, if_neg hKey]
            split
            · rfl
            · simp [putChallenge, hKey]
      | challengeDelete deleted =>
          simp [exec, putChallenge, challengeAfter,
            Function.update_apply]
      | challengeTake taken =>
          simp [exec, putChallenge, challengeAfter,
            Function.update_apply]
      | sessionModify modified change =>
          simp only [exec]
          split <;> rfl
      | sessionCreate => rfl
      | sessionDelete => rfl
      | unindex => rfl
      | _ => simp [isStore] at hOp

/- The index an operation leaves for a user. -/
def indexAfter
    (world : World)
    (op : Op)
    (userId : UserId) : List Nat :=
  match op with
  | .sessionCreate created data _ =>
      if userId = data.userId then
        created :: world.userIndex userId
      else
        world.userIndex userId
  | .sessionDelete deleted owner =>
      if userId = owner then
        (world.userIndex userId).filter (· != deleted)
      else
        world.userIndex userId
  | .unindex owner removed =>
      if userId = owner then
        (world.userIndex userId).filter (· != removed)
      else
        world.userIndex userId
  | _ => world.userIndex userId

theorem userIndex_exec
    (world : World)
    (op : Op)
    (userId : UserId) :
    (exec op world).2.userIndex userId =
      world.indexAfter op userId := by
  cases hOp : isStore op with
  | false =>
      rcases exec_of_not_isStore hOp world with
        ⟨users, usedTokens, nonce, verdicts, -, hFrame⟩
      rw [hFrame]
      cases op with
      | sessionCreate => simp [isStore] at hOp
      | sessionDelete => simp [isStore] at hOp
      | unindex => simp [isStore] at hOp
      | _ => rfl
  | true =>
      cases op with
      | sessionCreate created data ttl =>
          by_cases hUser : userId = data.userId
          · subst hUser
            simp [exec, index, putSession, indexAfter]
          · simp [exec, index, putSession, indexAfter,
              hUser]
      | sessionDelete deleted owner =>
          by_cases hUser : userId = owner
          · subst hUser
            simp [exec, unindex, putSession, indexAfter]
          · simp [exec, unindex, putSession, indexAfter,
              hUser]
      | unindex owner removed =>
          by_cases hUser : userId = owner
          · subst hUser
            simp [exec, unindex, indexAfter]
          · simp [exec, unindex, indexAfter, hUser]
      | sessionModify modified change =>
          simp only [exec]
          split <;> rfl
      | challengeAttempt attempted =>
          simp only [exec]
          split <;> rfl
      | challengeCreate => rfl
      | challengeDelete => rfl
      | challengeTake => rfl
      | _ => simp [isStore] at hOp

------------------------------------------------------------
-- Well-Formed Worlds
------------------------------------------------------------

/- Primary keys are unique and come from the sequence. -/
structure WellFormed (world : World) : Prop where
  nodup : (world.users.map User.id).Nodup
  lt : ∀ user ∈ world.users, user.id < world.nonce

/- Writing a row keeps the ids. -/
private theorem map_id_setRow
    (world : World)
    (row : User) :
    (world.setRow row).users.map User.id =
      world.users.map User.id := by
  unfold setRow
  rw [List.map_map]
  apply List.map_congr_left
  intro user _
  by_cases hId : user.id = row.id
  · simp [hId]
  · simp [hId]

/- With the same ids a state stays well formed. -/
private theorem WellFormed.of_map_id
    {world world' : World}
    (hWellFormed : world.WellFormed)
    (hUsers : world'.users.map User.id =
      world.users.map User.id)
    (hNonce : world.nonce ≤ world'.nonce) :
    world'.WellFormed := by
  refine ⟨by rw [hUsers]; exact hWellFormed.nodup, ?_⟩
  intro user hUser
  have hId : user.id ∈ world.users.map User.id := by
    rw [← hUsers]
    exact List.mem_map_of_mem hUser
  rcases List.mem_map.mp hId with ⟨stored, hStored, hSame⟩
  rw [← hSame]
  exact lt_of_lt_of_le (hWellFormed.lt stored hStored)
    hNonce

private theorem map_id_updateWhere
    (id : UserId)
    (condition : User → Bool)
    (change : User → User)
    (world : World) :
    (world.updateWhere id condition change).2.users.map
        User.id =
      world.users.map User.id := by
  unfold updateWhere
  split
  · rfl
  · split
    · exact map_id_setRow world _
    · rfl

private theorem map_id_commit
    (loaded : User)
    (data : Patch)
    (world : World) :
    (world.commit loaded data).2.users.map User.id =
      world.users.map User.id := by
  unfold commit
  split
  · rfl
  · split
    · rfl
    · exact map_id_setRow world _

/- Store operations leave the rows alone. -/
private theorem users_exec_store
    {op : Op}
    (hOp : isStore op = true)
    (world : World) :
    (World.exec op world).2.users = world.users := by
  cases op with
  | sessionModify key change =>
      simp only [World.exec]
      split <;> rfl
  | challengeAttempt key =>
      simp only [World.exec]
      split <;> rfl
  | sessionCreate => rfl
  | sessionDelete => rfl
  | unindex => rfl
  | challengeCreate => rfl
  | challengeDelete => rfl
  | challengeTake => rfl
  | _ => simp [isStore] at hOp

/- It stays so when a row is inserted. -/
private theorem WellFormed.insert
    {world : World}
    (hWellFormed : world.WellFormed)
    (row : User) :
    (world.insert row).2.WellFormed := by
  unfold World.insert
  dsimp only
  split
  · exact hWellFormed
  · refine ⟨?_, ?_⟩
    · have hNew :
          world.nonce ∉ world.users.map User.id := by
        intro hUsed
        rcases List.mem_map.mp hUsed with
          ⟨user, hUser, hId⟩
        have hLess := hWellFormed.lt user hUser
        exact absurd hId (Nat.ne_of_lt hLess)
      simpa [List.nodup_append, hWellFormed.nodup]
        using hNew
    · intro user hUser
      rcases List.mem_append.mp hUser with hOld | hCreated
      · exact Nat.lt_succ_of_lt (hWellFormed.lt user hOld)
      · rw [List.mem_singleton] at hCreated
        simp [hCreated]

/- Operations keep the primary keys unique. -/
theorem WellFormed.exec
    {world : World}
    (hWellFormed : world.WellFormed)
    (op : Op) :
    (World.exec op world).2.WellFormed := by
  have hKept
      (hUsers :
        (World.exec op world).2.users.map User.id =
          world.users.map User.id) :
      (World.exec op world).2.WellFormed :=
    hWellFormed.of_map_id hUsers (nonce_le_exec world op)
  cases op with
  | insert row => exact hWellFormed.insert row
  | commit loaded data =>
      exact hKept (map_id_commit loaded data world)
  | incrementVersion id =>
      exact hKept (map_id_updateWhere id _ _ world)
  | claimStep id step =>
      exact hKept (map_id_updateWhere id _ _ world)
  | updateIf id guard data =>
      exact hKept (map_id_updateWhere id _ _ world)
  | consumeToken token ttl =>
      apply hKept
      simp only [World.exec]
      split <;> rfl
  | sudoTtl | sudoAttempt =>
      apply hKept
      simp only [World.exec, verdict]
      split <;> rfl
  | recordFailure ip identifier =>
      apply hKept
      simp only [World.exec, verdict]
      split <;> rfl
  | withinLimit action target =>
      apply hKept
      simp only [World.exec, verdict]
      split <;> rfl
  | sessionModify key change =>
      exact hKept (by
        rw [users_exec_store rfl world])
  | challengeAttempt key =>
      exact hKept (by
        rw [users_exec_store rfl world])
  | _ => exact hKept rfl

/- A row in the table is found under its key. -/
theorem WellFormed.row?_of_mem
    {world : World}
    (hWellFormed : world.WellFormed)
    {user : User}
    (hUser : user ∈ world.users) :
    world.row? user.id = some user := by
  have hNodup := hWellFormed.nodup
  unfold row?
  generalize world.users = users at hUser hNodup
  induction users with
  | nil => simp at hUser
  | cons first users ih =>
      rw [List.map_cons, List.nodup_cons] at hNodup
      rcases List.mem_cons.mp hUser with rfl | hRest
      · simp
      · have hDistinct : first.id ≠ user.id := by
          intro hSame
          exact hNodup.1
            (hSame ▸ List.mem_map_of_mem hRest)
        have hMiss : (first.id == user.id) = false := by
          simpa using hDistinct
        rw [List.find?_cons, hMiss]
        exact ih hRest hNodup.2

/- A selected row is stored under its key. -/
theorem WellFormed.row?_of_select
    {world : World}
    (hWellFormed : world.WellFormed)
    {selector : Selector}
    {user : User}
    (hSelect : world.select selector = some user) :
    world.row? user.id = some user :=
  hWellFormed.row?_of_mem (List.mem_of_find?_eq_some hSelect)

end World

------------------------------------------------------------
-- Answers
------------------------------------------------------------

/- What a handler may rely on about an answer. -/
def answers : (op : Op) → op.Ret → Prop
  | .select selector, ret =>
      ∀ user : User, ret = some user →
        World.matchesSelector selector user = true
  | .refresh id, ret =>
      ∀ user : User, ret = some user → user.id = id
  | _, _ => True

/- The world only gives such answers. -/
theorem answers_exec (op : Op) (world : World) :
    answers op (World.exec op world).1 := by
  cases op with
  | select selector =>
      intro user hUser
      exact List.find?_some hUser
  | refresh id =>
      intro user hUser
      exact World.id_of_row? hUser
  | _ => exact trivial

end CrudAuth
