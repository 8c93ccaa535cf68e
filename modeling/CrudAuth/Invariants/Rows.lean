import CrudAuth.Discipline.Handlers

/-
  Rows along a run: a copy is the row as stored when it was
  read, rows stay under their keys, versions only grow.

  Main declarations:
    * `wellFormed_of_runs`
    * `row_of_copy`
    * `row_along`
    * `rows_along`
    * `row_since`
    * `version_le`
    * `copy_kept`
-/

namespace CrudAuth

open Concurrency

variable {ι : Type} [DecidableEq ι]
variable {runtime : Runtime}
variable {requests : ι → Request}
variable {condition : Condition ι interface World}
variable {start state world : World}
variable {opening history : List (Ev ι)}
variable {id : UserId}
variable {row user : User}
variable {thread : ι}

------------------------------------------------------------
-- Keys And Copies
------------------------------------------------------------

/- Every state of a run is well formed. -/
theorem wellFormed_of_runs
    (hRuns : runtime.Runs requests condition start opening
      state history)
    (hStart : start.WellFormed) :
    state.WellFormed := by
  refine Trace.invariant
    (fun state _ => state.WellFormed) hRuns hStart ?_ ?_
  · intro state history thread op _ _ _ hWellFormed
    exact hWellFormed.exec op
  · intro state history tick hWellFormed
    exact ⟨hWellFormed.nodup, hWellFormed.lt⟩

/- A copy is the row as it is when the copy is brought. -/
theorem row_of_copy
    {op : Op}
    (hWellFormed : world.WellFormed)
    (hCopy :
      copyOf ⟨op, (World.exec op world).1⟩ = some user) :
    (World.exec op world).2.row? user.id = some user := by
  cases op with
  | select selector =>
      exact hWellFormed.row?_of_select hCopy
  | refresh id =>
      have hId : user.id = id := World.id_of_row? hCopy
      rw [hId]
      exact hCopy
  | insert row =>
      refine World.row?_inserted ?_ hCopy
      intro stored hStored
      exact Nat.ne_of_lt (hWellFormed.lt stored hStored)
  | _ => simp [copyOf] at hCopy

/- A selected copy is a row of the world it was read in. -/
theorem row_of_selected
    {op : Op}
    (hWellFormed : world.WellFormed)
    (hSelected :
      selectedBy ⟨op, (World.exec op world).1⟩ =
        some user) :
    world.row? user.id = some user := by
  cases op with
  | select selector =>
      exact hWellFormed.row?_of_select hSelected
  | _ => simp [selectedBy] at hSelected

------------------------------------------------------------
-- Rows Along A Run
------------------------------------------------------------

/-
  What holds of a row and is kept by every operation on it
  holds of the same row later, if only operations write.
-/
theorem row_along_of_users
    {τ : Type}
    {tick : τ → World → World}
    (holds : List (Ev ι) → User → Prop)
    (hRuns : Trace (served tick)
      (fun thread => runtime.contract (requests thread))
      condition start opening state history)
    (hUsers : ∀ step world,
      (tick step world).users = world.users)
    (hRow : start.row? id = some row)
    (hStart : holds opening row)
    (hStep : ∀ state history thread op row,
      Trace (served tick)
        (fun thread => runtime.contract (requests thread))
        condition start opening state history →
      runtime.rule (requests thread)
        (own thread history) op →
      condition state history thread op →
      state.row? id = some row →
      holds history row →
      holds
        (⟨thread, op, (World.exec op state).1⟩ :: history)
        (state.rowAfter op row)) :
    ∃ row',
      state.row? id = some row' ∧ holds history row' := by
  refine Trace.invariant
    (fun state history => ∃ row',
      state.row? id = some row' ∧ holds history row')
    hRuns ⟨row, hRow, hStart⟩ ?_ ?_
  · rintro state history thread op hSoFar hRule hCondition
      ⟨row', hRow', hHolds⟩
    exact ⟨_, World.row?_exec hRow' op,
      hStep state history thread op row' hSoFar hRule
        hCondition hRow' hHolds⟩
  · rintro state history step ⟨row', hRow', hHolds⟩
    refine ⟨row', ?_, hHolds⟩
    unfold World.row?
    rw [hUsers step state]
    exact hRow'

/- Where time only passes, nothing else does. -/
theorem row_along
    (holds : List (Ev ι) → User → Prop)
    (hRuns : runtime.Runs requests condition start opening
      state history)
    (hRow : start.row? id = some row)
    (hStart : holds opening row)
    (hStep : ∀ state history thread op row,
      runtime.Runs requests condition start opening
        state history →
      runtime.rule (requests thread)
        (own thread history) op →
      condition state history thread op →
      state.row? id = some row →
      holds history row →
      holds
        (⟨thread, op, (World.exec op state).1⟩ :: history)
        (state.rowAfter op row)) :
    ∃ row',
      state.row? id = some row' ∧ holds history row' :=
  row_along_of_users holds hRuns (fun _ _ => rfl) hRow
    hStart hStep

/-
  What holds of every row, is kept by every operation on a
  row and holds of every inserted row, holds of all rows
  later.
-/
theorem rows_along
    (holds : World → List (Ev ι) → User → Prop)
    (hRuns : runtime.Runs requests condition start opening
      state history)
    (hStart : ∀ id row, start.row? id = some row →
      holds start opening row)
    (hStep : ∀ state history thread op id row,
      runtime.Runs requests condition start opening
        state history →
      runtime.rule (requests thread)
        (own thread history) op →
      state.row? id = some row →
      holds state history row →
      holds (World.exec op state).2
        (⟨thread, op, (World.exec op state).1⟩ :: history)
        (state.rowAfter op row))
    (hInsert : ∀ state history thread created,
      runtime.Runs requests condition start opening
        state history →
      runtime.rule (requests thread)
        (own thread history) (.insert created) →
      holds (World.exec (.insert created) state).2
        (⟨thread, .insert created,
          (World.exec (.insert created) state).1⟩ ::
            history)
        { created with id := state.nonce })
    (hTick : ∀ state history tick row,
      holds state history row →
      holds (machine.tick tick state) history row) :
    ∀ id row, state.row? id = some row →
      holds state history row := by
  refine Trace.invariant
    (fun state history => ∀ id row,
      state.row? id = some row → holds state history row)
    hRuns hStart ?_ ?_
  · intro state history thread op hSoFar hRule _ hHolds id
      row' hRow'
    cases hRow : state.row? id with
    | some row =>
        obtain rfl : state.rowAfter op row = row' := by
          have hAfter := World.row?_exec hRow op
          rw [hAfter] at hRow'
          exact Option.some.inj hRow'
        exact hStep state history thread op id row hSoFar
          hRule hRow (hHolds id row hRow)
    | none =>
        rcases World.row?_exec_of_none hRow hRow' with
          ⟨created, rfl, rfl⟩
        exact hInsert state history thread created hSoFar
          hRule
  · intro state history tick hHolds id row hRow
    exact hTick state history tick row (hHolds id row hRow)

/-
  What only some writes can change stays as it is until
  one of them happens.
-/
theorem row_since
    {later : List (Ev ι)}
    (writes : Act → Bool)
    (holds : User → Prop)
    (hRuns : runtime.Runs requests condition start opening
      state (later ++ opening))
    (hRow : start.row? id = some row)
    (hStart : holds row)
    (hQuiet : ∀ event ∈ later,
      writes event.action = false)
    (hStep : ∀ state history thread op row,
      runtime.rule (requests thread)
        (own thread history) op →
      state.row? id = some row →
      writes ⟨op, (World.exec op state).1⟩ = false →
      holds row →
      holds (state.rowAfter op row)) :
    ∃ row', state.row? id = some row' ∧ holds row' := by
  have hAlong := row_along
    (fun history row => ∃ newer,
      history = newer ++ opening ∧
        ((∀ event ∈ newer, writes event.action = false) →
          holds row))
    hRuns hRow ⟨[], rfl, fun _ => hStart⟩ (by
      rintro state history thread op stored _ hRule _
        hStored ⟨newer, rfl, hHolds⟩
      refine ⟨⟨thread, op, (World.exec op state).1⟩ ::
        newer, rfl, ?_⟩
      intro hNewer
      rw [List.forall_mem_cons] at hNewer
      exact hStep state _ thread op stored hRule hStored
        hNewer.1 (hHolds hNewer.2))
  rcases hAlong with ⟨row', hRow', newer, hNewer, hHolds⟩
  obtain rfl := List.append_cancel_right hNewer
  exact ⟨row', hRow', hHolds hQuiet⟩

/- Rows are never removed. -/
theorem exists_row
    (hRuns : runtime.Runs requests condition start opening
      state history)
    (hRow : start.row? id = some row) :
    ∃ row', state.row? id = some row' := by
  have hAlong := row_along (fun _ _ => True) hRuns hRow
    trivial (fun _ _ _ _ _ _ _ _ _ _ => trivial)
  rcases hAlong with ⟨row', hRow', -⟩
  exact ⟨row', hRow'⟩

/- No operation lowers the epoch of a row. -/
theorem version_le_rowAfter
    (world : World)
    (op : Op)
    (row : User) :
    row.tokenVersion ≤
      (world.rowAfter op row).tokenVersion := by
  cases op with
  | commit loaded data =>
      simp only [World.rowAfter]
      split <;> simp
  | incrementVersion id =>
      simp only [World.rowAfter]
      split <;> simp
  | claimStep id step =>
      simp only [World.rowAfter]
      split <;> simp
  | updateIf id guard data =>
      simp only [World.rowAfter]
      split <;> simp
  | _ => exact le_refl _

/- A credential epoch never goes back. -/
theorem version_le
    {row' : User}
    (hRuns : runtime.Runs requests condition start opening
      state history)
    (hRow : start.row? id = some row)
    (hRow' : state.row? id = some row') :
    row.tokenVersion ≤ row'.tokenVersion := by
  have hAlong := row_along
    (fun _ later => row.tokenVersion ≤ later.tokenVersion)
    hRuns hRow (le_refl _) (by
      intro state history thread op stored _ _ _ _ hLe
      exact hLe.trans (version_le_rowAfter state op stored))
  rcases hAlong with ⟨found, hFound, hLe⟩
  obtain rfl : found = row' := by
    simpa [hFound] using hRow'
  exact hLe

/- A bump makes every earlier epoch stale for good. -/
theorem version_lt_of_bumped
    {later : List (Ev ι)}
    {bump : Ev ι}
    {row' : User}
    (hRuns : runtime.Runs requests condition start opening
      state (later ++ opening))
    (hBump : bump ∈ later)
    (hOp : bump.op = .incrementVersion id)
    (hRow : start.row? id = some row)
    (hRow' : state.row? id = some row') :
    row.tokenVersion < row'.tokenVersion := by
  have hAlong := row_along
    (fun history current => ∃ newer,
      history = newer ++ opening ∧
      row.tokenVersion ≤ current.tokenVersion ∧
      ∀ event ∈ newer, event.op = .incrementVersion id →
        row.tokenVersion < current.tokenVersion)
    hRuns hRow ⟨[], rfl, le_refl _, by simp⟩ (by
      rintro state history active op current _ _ _ hCurrent
        ⟨newer, rfl, hLe, hLt⟩
      have hStep := version_le_rowAfter state op current
      refine ⟨_ :: newer, rfl, hLe.trans hStep, ?_⟩
      intro event hEvent hEventOp
      rcases List.mem_cons.mp hEvent with rfl | hOld
      · have hId : current.id = id :=
          World.id_of_row? hCurrent
        dsimp only at hEventOp
        subst hEventOp
        simp only [World.rowAfter, hId, if_pos]
        omega
      · exact (hLt event hOld hEventOp).trans_le hStep)
  rcases hAlong with ⟨found, hFound, newer, hNewer, -, hLt⟩
  obtain rfl := List.append_cancel_right hNewer
  obtain rfl : found = row' := by
    simpa [hFound] using hRow'
  exact hLt bump hBump hOp

------------------------------------------------------------
-- Moments Of Copies
------------------------------------------------------------

/- The newest copy of a thread, in the history of all. -/
theorem lastRead_split
    (hRead : lastRead (own thread history) = some user) :
    ∃ later event earlier,
      history = later ++ event :: earlier ∧
      event.thread = thread ∧
      copyOf event.action = some user ∧
      lastRead (own thread later) = none := by
  induction history with
  | nil => simp [lastRead] at hRead
  | cons event history ih =>
      by_cases hThread : event.thread = thread
      · subst hThread
        rw [own_cons_self, lastRead,
          List.findSome?_cons] at hRead
        cases hCopy : copyOf event.action with
        | some copy =>
            obtain rfl : copy = user := by
              simpa [hCopy] using hRead
            exact ⟨[], event, history, rfl, rfl, hCopy, rfl⟩
        | none =>
            rw [hCopy] at hRead
            rcases ih hRead with
              ⟨later, read, earlier, rfl, hOwner, hRead',
                hLater⟩
            refine ⟨event :: later, read, earlier, rfl,
              hOwner, hRead', ?_⟩
            rw [own_cons_self, lastRead,
              List.findSome?_cons, hCopy]
            exact hLater
      · rw [own_cons_of_ne hThread] at hRead
        rcases ih hRead with
          ⟨later, read, earlier, rfl, hOwner, hRead',
            hLater⟩
        refine ⟨event :: later, read, earlier, rfl, hOwner,
          hRead', ?_⟩
        rw [own_cons_of_ne hThread]
        exact hLater

/- The row last read was read in some step. -/
theorem mem_of_lastRead
    {past : List Act}
    (hRead : lastRead past = some user) :
    ∃ action ∈ past, copyOf action = some user :=
  List.exists_of_findSome?_eq_some hRead

/- A copy was the row when an event brought it. -/
theorem moment_of_copy
    {action : Act}
    (hStart : start.WellFormed)
    (hRuns : runtime.Runs requests condition start []
      state history)
    (hAction : action ∈ own thread history)
    (hCopy : copyOf action = some user) :
    ∃ moment earlier,
      runtime.Runs requests condition start [] moment
        earlier ∧
      runtime.Runs requests condition moment earlier state
        history ∧
      moment.row? user.id = some user := by
  rw [mem_own_iff] at hAction
  rcases List.append_of_mem hAction with
    ⟨later, earlier, rfl⟩
  rcases hRuns.at_event with
    ⟨before, hBefore, -, -, hRet, hThen, hAfter⟩
  refine ⟨_, _, hThen, hAfter, ?_⟩
  apply row_of_copy (wellFormed_of_runs hBefore hStart)
  rw [← hRet]
  exact hCopy

/- The row of a copy stays, and its epoch only grows. -/
theorem row_of_read
    {action : Act}
    (hStart : start.WellFormed)
    (hRuns : runtime.Runs requests condition start []
      state history)
    (hAction : action ∈ own thread history)
    (hCopy : copyOf action = some user) :
    ∃ row,
      state.row? user.id = some row ∧
        user.tokenVersion ≤ row.tokenVersion := by
  rcases moment_of_copy hStart hRuns hAction hCopy with
    ⟨moment, earlier, -, hAfter, hRow⟩
  rcases exists_row hAfter hRow with ⟨row, hRow'⟩
  exact ⟨row, hRow', version_le hAfter hRow hRow'⟩

/- A row last read is still in the table. -/
theorem row_of_lastRead
    (hStart : start.WellFormed)
    (hRuns : runtime.Runs requests condition start []
      state history)
    (hRead : lastRead (own thread history) = some user) :
    ∃ row,
      state.row? user.id = some row ∧
        user.tokenVersion ≤ row.tokenVersion := by
  rcases mem_of_lastRead hRead with ⟨action, hAction, hCopy⟩
  exact row_of_read hStart hRuns hAction hCopy

/- What has happened since a thread read its copy. -/
def sinceRead
    (thread : ι)
    (history : List (Ev ι)) : List (Ev ι) :=
  history.takeWhile fun event =>
    !(decide (event.thread = thread) &&
      (copyOf event.action).isSome)

/- Events that bring the thread no copy are all skipped. -/
theorem sinceRead_eq
    {later earlier : List (Ev ι)}
    {event : Ev ι}
    (hThread : event.thread = thread)
    (hCopy : copyOf event.action = some user)
    (hLater : lastRead (own thread later) = none) :
    sinceRead thread (later ++ event :: earlier) =
      later := by
  induction later with
  | nil => simp [sinceRead, hThread, hCopy]
  | cons newest later ih =>
      by_cases hOwner : newest.thread = thread
      · subst hOwner
        rw [own_cons_self, lastRead,
          List.findSome?_cons] at hLater
        cases hNewest : copyOf newest.action with
        | some copy => simp [hNewest] at hLater
        | none =>
            rw [hNewest] at hLater
            have hRest := ih hLater
            simpa [sinceRead, hNewest] using hRest
      · rw [own_cons_of_ne hOwner] at hLater
        have hRest := ih hLater
        simpa [sinceRead, hOwner] using hRest

/-
  A column that nobody has written since the thread read
  its copy is still as the copy shows it.
-/
theorem copy_kept
    {α : Type}
    (column : User → α)
    (writes : Act → Bool)
    (hFrame : ∀ state history thread op row,
      runtime.rule (requests thread)
        (own thread history) op →
      state.row? user.id = some row →
      writes ⟨op, (World.exec op state).1⟩ = false →
      column (World.rowAfter state op row) = column row)
    (hStart : start.WellFormed)
    (hRuns : runtime.Runs requests condition start []
      state history)
    (hRead : lastRead (own thread history) = some user)
    (hQuiet : ∀ event ∈ sinceRead thread history,
      writes event.action = false) :
    ∃ row,
      state.row? user.id = some row ∧
        column row = column user := by
  rcases lastRead_split hRead with
    ⟨later, event, earlier, rfl, hThread, hCopy, hLater⟩
  rw [sinceRead_eq hThread hCopy hLater] at hQuiet
  rcases hRuns.at_event with
    ⟨before, hBefore, -, -, hRet, -, hAfter⟩
  have hWellFormed := wellFormed_of_runs hBefore hStart
  have hRow :
      (World.exec event.op before).2.row? user.id =
        some user := by
    apply row_of_copy hWellFormed
    rw [← hRet]
    exact hCopy
  exact row_since writes
    (fun row => column row = column user) hAfter hRow rfl
    hQuiet (by
      intro state history active op row hRule hStored
        hSilent hSame
      rw [hFrame state history active op row hRule hStored
        hSilent]
      exact hSame)

/- The newest selected copy, in the history of all. -/
theorem lastSelected_split
    (hSelected :
      lastSelected (own thread history) = some user) :
    ∃ later event earlier,
      history = later ++ event :: earlier ∧
      event.thread = thread ∧
      selectedBy event.action = some user := by
  rcases List.exists_of_findSome?_eq_some hSelected with
    ⟨action, hAction, hCopy⟩
  rw [mem_own_iff] at hAction
  rcases List.append_of_mem hAction with
    ⟨later, earlier, hHistory⟩
  exact ⟨later, _, earlier, hHistory, rfl, hCopy⟩

------------------------------------------------------------
-- Requests That Find Their Row Once
------------------------------------------------------------

/- Only an action that brings a row selects one. -/
theorem lastSelected_cons_of_none
    {action : Act}
    {past : List Act}
    (hSelected : selectedBy action = none) :
    lastSelected (action :: past) = lastSelected past := by
  rw [lastSelected, List.findSome?_cons, hSelected,
    lastSelected]

/-
  Every copy goes back to the row that was selected, and
  shares with it what rereads keep.
-/
def Shared
    (same : User → User → Prop)
    (past : List Act) : Prop :=
  ∀ action ∈ past, ∀ user, copyOf action = some user →
    ∃ selected,
      lastSelected past = some selected ∧
        same user selected

/- A new action, unless it selects a row. -/
private theorem Shared.cons
    {same : User → User → Prop}
    {past : List Act}
    {action : Act}
    (hShared : Shared same past)
    (hSelected : selectedBy action = none)
    (hNew : ∀ user, copyOf action = some user →
      ∃ selected,
        lastSelected past = some selected ∧
          same user selected) :
    Shared same (action :: past) := by
  intro older hOlder user hCopy
  rw [lastSelected_cons_of_none hSelected]
  rcases List.mem_cons.mp hOlder with rfl | hOld
  · exact hNew user hCopy
  · exact hShared older hOld user hCopy

/- The first row that is selected. -/
private theorem Shared.select
    {same : User → User → Prop}
    {past : List Act}
    {selector : Selector}
    {found : User}
    (hShared : Shared same past)
    (hRefl : ∀ user, same user user)
    (hFirst : lastSelected past = none) :
    Shared same
      (⟨.select selector, some found⟩ :: past) := by
  intro action hAction user hCopy
  refine ⟨found, rfl, ?_⟩
  rcases List.mem_cons.mp hAction with rfl | hOld
  · obtain rfl : found = user := Option.some.inj hCopy
    exact hRefl found
  · rcases hShared action hOld user hCopy with
      ⟨selected, hSelected, -⟩
    simp [hFirst] at hSelected

/- One operation of a request that finds its row once. -/
theorem shared_step
    {same : User → User → Prop}
    {request : Request}
    {past : List Act}
    {op : Op}
    (hShared : Shared same past)
    (hRefl : ∀ user, same user user)
    (hTrans : ∀ first second third,
      same first second → same second third →
        same first third)
    (hOnce : request.readsOnce = true)
    (hRule : runtime.rule request past op)
    (hReread : ∀ user row,
      op = .refresh user.id →
      lastRead past = some user →
      state.row? user.id = some row →
      same row user) :
    Shared same (⟨op, (World.exec op state).1⟩ :: past) := by
  cases op with
  | select selector =>
      change Shared same
        (⟨.select selector, state.select selector⟩ :: past)
      cases hFound : state.select selector with
      | none =>
          exact hShared.cons rfl
            (fun _ hCopy => nomatch hCopy)
      | some found =>
          exact hShared.select hRefl (hRule hOnce)
  | refresh id =>
      refine hShared.cons rfl fun row hCopy => ?_
      rcases hRule with ⟨user, hRead, rfl⟩
      rcases mem_of_lastRead hRead with
        ⟨action, hAction, hUser⟩
      rcases hShared action hAction user hUser with
        ⟨selected, hSelected, hSame⟩
      exact ⟨selected, hSelected, hTrans _ _ _
        (hReread user row rfl hRead hCopy) hSame⟩
  | insert row =>
      have hMany := hRule.1
      simp [hOnce] at hMany
  | _ => exact hShared.cons rfl (by simp [copyOf])

/- The same, along a whole run. -/
theorem shared_along
    (same : User → User → Prop)
    (hRefl : ∀ user, same user user)
    (hTrans : ∀ first second third,
      same first second → same second third →
        same first third)
    (hRuns : runtime.Runs requests condition start []
      state history)
    (hOnce : (requests thread).readsOnce = true)
    (hReread : ∀ state history user row,
      condition state history thread (.refresh user.id) →
      lastRead (own thread history) = some user →
      state.row? user.id = some row →
      same row user) :
    Shared same (own thread history) := by
  refine Trace.invariant
    (fun _ history => Shared same (own thread history))
    hRuns (by simp [Shared]) ?_ ?_
  · intro state history active op _ hRule hCondition
      hShared
    by_cases hThread : active = thread
    · subst hThread
      have hOwn :
          own active
              (⟨active, op, (World.exec op state).1⟩ ::
                history) =
            ⟨op, (World.exec op state).1⟩ ::
              own active history :=
        own_cons_self _ _
      change Shared same (own active
        (⟨active, op, (World.exec op state).1⟩ :: history))
      rw [hOwn]
      refine shared_step hShared hRefl hTrans hOnce hRule ?_
      rintro user row rfl hRead hRow
      exact hReread state history user row hCondition hRead
        hRow
    · rw [own_cons_of_ne hThread]
      exact hShared
  · intro state history tick hShared
    exact hShared

/- All its copies are of one row. -/
theorem id_of_copies
    {first second : Act}
    {user user' : User}
    (hRuns : runtime.Runs requests condition start []
      state history)
    (hOnce : (requests thread).readsOnce = true)
    (hFirst : first ∈ own thread history)
    (hUser : copyOf first = some user)
    (hSecond : second ∈ own thread history)
    (hUser' : copyOf second = some user') :
    user.id = user'.id := by
  have hSame := shared_along
    (fun first second : User => first.id = second.id)
    (fun _ => rfl) (fun _ _ _ => Eq.trans) hRuns hOnce
    (fun _ _ _ _ _ _ hRow => World.id_of_row? hRow)
  rcases hSame first hFirst user hUser with
    ⟨selected, hSelected, hId⟩
  rcases hSame second hSecond user' hUser' with
    ⟨selected', hSelected', hId'⟩
  obtain rfl : selected = selected' := by
    simpa [hSelected] using hSelected'
  exact hId.trans hId'.symm

end CrudAuth
