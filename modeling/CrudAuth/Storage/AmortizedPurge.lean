import CrudAuth.RateLimit.DatabaseCounters
import CrudAuth.Storage.Purge
import CrudAuth.Storage.Transactions

/-
  `DatabaseStore`: two tables and one count of writes.  Every
  `purge_every` counted writes, as many expired rows are
  deleted from each table, in batches.

  Writes come one after another, with any time in between;
  a purge follows the write that triggers it, and its
  statements take time too.

  Main declarations:
    * `DatabaseStore.Write.exec`
    * `DatabaseStore.noteWrite`
    * `DatabaseStore.run`
    * `DatabaseStore.bounded`
-/

------------------------------------------------------------
-- The Two Tables
------------------------------------------------------------

namespace CrudAuth

namespace Storage

open RateLimit (Counter CounterCall)

/- `expires_at` is never null here. -/
def storeRows : Expiring StoreRow where
  expired now row := !row.isLive now
  stays now later row hLater hExpired := by
    unfold StoreRow.isLive at hExpired ⊢
    simp only [Bool.not_eq_true', decide_eq_false_iff_not]
      at hExpired ⊢
    omega

/- A counter without an expiry does not expire. -/
def counterRows : Expiring Counter where
  expired := RateLimit.DatabaseCounters.expired
  stays now later row hLater hExpired := by
    unfold RateLimit.DatabaseCounters.expired at hExpired ⊢
    cases hExpiry : row.expiresAt with
    | none =>
        rw [hExpiry] at hExpired
        cases hExpired
    | some expiry =>
        rw [hExpiry] at hExpired
        simp only [Option.any_some, decide_eq_true_eq]
          at hExpired ⊢
        omega

/- The counter table, by key. -/
abbrev CounterTable := Table Text Counter

/- A call of a limiter, on the row of its key. -/
def CounterTable.exec
    (limiter : RateLimit.DatabaseCounters.Config)
    (now : Nat)
    (call : CounterCall)
    (table : CounterTable) : CounterTable :=
  let column := limiter.column call.key
  let rows := (RateLimit.DatabaseCounters.exec limiter now
    call fun key => table.lookup key).2
  match rows column with
  | some row => AList.insert column row table
  | none => AList.erase column table

section Calls

open RateLimit.DatabaseCounters

variable {limiter : Config}
variable {now : Nat}
variable {call : CounterCall}

/- A removal leaves the other keys. -/
theorem remove_of_ne
    {rows : Rows}
    {column key : Text}
    (hKey : key ≠ column) :
    (remove now column rows).2 key = rows key := by
  unfold remove
  dsimp only
  rw [Function.update_of_ne hKey]
  split
  · exact Function.update_of_ne hKey _ _
  · rfl

/- A call leaves the rows of other keys alone. -/
theorem exec_of_ne
    {rows : Rows}
    {key : Text}
    (hKey : key ≠ limiter.column call.key) :
    (exec limiter now call rows).2 key = rows key := by
  cases call with
  | increment counted amount expiry =>
      unfold exec
      dsimp only
      rw [upsert_eq _ armedCase_count]
      exact Function.update_of_ne hKey _ _
  | incrementAndRefreshTtl counted amount expiry =>
      unfold exec
      dsimp only
      rw [upsert_eq _ refreshedCase_count]
      exact Function.update_of_ne hKey _ _
  | getCount counted => rfl
  | reset counted => exact remove_of_ne hKey
  | delete counted => exact remove_of_ne hKey

/- The table holds the rows that the limiter leaves. -/
theorem CounterTable.lookup_exec
    {table : CounterTable}
    {key : Text} :
    (CounterTable.exec limiter now call table).lookup key =
      (RateLimit.DatabaseCounters.exec limiter now call
        fun key => table.lookup key).2 key := by
  unfold CounterTable.exec
  dsimp only
  by_cases hKey : key = limiter.column call.key
  · rw [hKey]
    split
    case h_1 row hRow =>
      rw [hRow]
      exact AList.lookup_insert _
    case h_2 hRow =>
      rw [hRow]
      exact AList.lookup_erase _ _
  · rw [exec_of_ne hKey]
    split
    · exact AList.lookup_insert_ne hKey
    · exact AList.lookup_erase_ne hKey

end Calls

namespace DatabaseStore

------------------------------------------------------------
-- Writes
------------------------------------------------------------

/- The constructor refuses a batch size below one. -/
structure Config where
  purgeEvery : Nat
  purgeBatchSize : Nat
  purgeEvery_pos : 0 < purgeEvery
  purgeBatchSize_pos : 0 < purgeBatchSize

/- Both tables, and the writes since the last purge. -/
structure State where
  store : StoreTable
  counters : CounterTable
  writesSincePurge : Nat

/- The tables that `create_tables` makes. -/
def State.initial : State where
  store := ∅
  counters := ∅
  writesSincePurge := 0

/-
  A transaction of one of the stores, a `delete_pattern`, or
  a call of one of the limiters.
-/
inductive Write where
  | transact (transaction : Transaction)
  | deletePattern (pattern : Text → Bool)
  | count
      (limiter : RateLimit.DatabaseCounters.Config)
      (call : CounterCall)

/- Whether `note_write` follows a transaction. -/
def notesTransaction :
    (transaction : Transaction) → transaction.Ret → Bool
  | .write _ _ _, written => written
  | .claim _ _ _, claimed => claimed
  | _, _ => false

/- Whether `note_write` follows a call of a limiter. -/
def notesCall : CounterCall → Bool
  | .increment _ _ _ => true
  | .incrementAndRefreshTtl _ _ _ => true
  | .getCount _ => false
  | .reset _ => false
  | .delete _ => false

/- A `delete_pattern`, key by key. -/
def deleteMatching
    (pattern : Text → Bool)
    (table : StoreTable) : StoreTable :=
  ((table.entries.map Sigma.fst).filter pattern).foldl
    (fun table key => AList.erase key table) table

/- A write, and whether it is noted. -/
def Write.exec (now : Nat) : Write → State → Bool × State
  | .transact transaction, state =>
      let done := transaction.exec now state.store
      (notesTransaction transaction done.1,
        { state with store := done.2 })
  | .deletePattern pattern, state =>
      (false, { state with
        store := deleteMatching pattern state.store })
  | .count limiter call, state =>
      (notesCall call, { state with
        counters :=
          CounterTable.exec limiter now call
            state.counters })

------------------------------------------------------------
-- Runs
------------------------------------------------------------

/- The tables at a moment. -/
structure Snapshot where
  moment : Nat
  store : StoreTable
  counters : CounterTable

/- The purge of each table that an event may start. -/
structure Purgings where
  store : Purging
  counters : Purging

/-
  What has been seen, the moment and the state it ends in.
-/
structure Outcome where
  snapshots : List Snapshot
  moment : Nat
  state : State

/- The store table first, then the counter table. -/
def purgeTables
    (size : Nat)
    (maxBatches : Option Nat)
    (purgings : Purgings)
    (now : Nat)
    (state : State) : Outcome :=
  let first := purge storeRows size maxBatches
    purgings.store 0 now state.store
  let store := leftAfter state.store first
  let between := momentAfter now first
  let second := purge counterRows size maxBatches
    purgings.counters 0 between state.counters
  { snapshots :=
      (first.map fun done =>
        ⟨done.moment, done.left, state.counters⟩) ++
      (second.map fun done =>
        ⟨done.moment, store, done.left⟩)
    moment := momentAfter between second
    state :=
      { state with
        store := store
        counters := leftAfter state.counters second } }

variable (config : Config)

/- `math.ceil(self.purge_every / self.purge_batch_size)` -/
def batches : Nat :=
  (config.purgeEvery + config.purgeBatchSize - 1) /
    config.purgeBatchSize

/- `note_write` -/
def noteWrite
    (purgings : Purgings)
    (now : Nat)
    (state : State) : Outcome :=
  let writes := state.writesSincePurge + 1
  if writes < config.purgeEvery then
    { snapshots := []
      moment := now
      state := { state with writesSincePurge := writes } }
  else
    purgeTables config.purgeBatchSize
      (some (batches config)) purgings now
      { state with writesSincePurge := 0 }

/-
  Time passes, and there is a write; or `purge_expired` is
  called, with a size of its own or the default.
-/
inductive Event where
  | write
      (elapsed : Nat)
      (write : Write)
      (purgings : Purgings)
  | purgeExpired
      (elapsed : Nat)
      (batchSize : Option Nat)
      (purgings : Purgings)

/- `batch_size or self.purge_batch_size` -/
def sizeOf : Option Nat → Nat
  | some (size + 1) => size + 1
  | some 0 => config.purgeBatchSize
  | none => config.purgeBatchSize

/-
  One event, and all that is seen of the tables meanwhile.
-/
def step : Event → Nat → State → Outcome
  | .write elapsed write purgings, now, state =>
      let now := now + elapsed
      let written := write.exec now state
      let seen : Snapshot :=
        ⟨now, written.2.store, written.2.counters⟩
      if written.1 then
        let noted := noteWrite config purgings now written.2
        { noted with snapshots := seen :: noted.snapshots }
      else
        { snapshots := [seen]
          moment := now
          state := written.2 }
  | .purgeExpired elapsed batchSize purgings, now, state =>
      purgeTables (sizeOf config batchSize) none purgings
        (now + elapsed) state

/- All that is seen of the tables in a run. -/
def run : List Event → Nat → State → List Snapshot
  | [], _, _ => []
  | event :: events, now, state =>
      let done := step config event now state
      done.snapshots ++ run events done.moment done.state

------------------------------------------------------------
-- Rows A Write Adds
------------------------------------------------------------

section Rows

variable {ρ : Type}
variable {table : Table Text ρ}
variable {key : Text}
variable {row : ρ}
variable {condition : ρ → Bool}

/- A deletion adds no row. -/
theorem rowCount_erase_le :
    rowCount (AList.erase key table) ≤ rowCount table :=
  (List.kerase_sublist key table.entries).length_le

/- An insert adds one row at most. -/
theorem rowCount_insert_le :
    rowCount (AList.insert key row table) ≤
      rowCount table + 1 := by
  unfold rowCount
  rw [AList.entries_insert]
  exact Nat.succ_le_succ rowCount_erase_le

/- A row that is there is replaced. -/
theorem rowCount_insert_of_lookup
    {old : ρ}
    (hOld : table.lookup key = some old) :
    rowCount (AList.insert key row table) =
      rowCount table := by
  have hErased := length_erase hOld
  unfold rowCount at hErased ⊢
  rw [AList.entries_insert]
  exact hErased

/- An update adds none. -/
theorem rowCount_updateWhere
    (change : ρ → ρ) :
    rowCount (table.updateWhere key condition change).2 =
      rowCount table := by
  unfold Table.updateWhere
  cases hRow : table.lookup key with
  | none => rfl
  | some old =>
      cases hMeets : condition old with
      | false => simp [Option.filter, hMeets]
      | true =>
          simp only [Option.filter, hMeets]
          exact rowCount_insert_of_lookup hRow

theorem rowCount_deleteWhere_le :
    rowCount (table.deleteWhere key condition).2 ≤
      rowCount table :=
  (entries_eraseIf_sublist key condition).length_le

end Rows

/- What a noted write may add. -/
def allowance (noted : Bool) : Nat :=
  if noted then 1 else 0

/- An insert adds one where none was. -/
theorem rowCount_insert_transaction_le
    {table : StoreTable}
    {key : Text}
    {row : StoreRow} :
    rowCount (Transaction.insert table key row).2 ≤
      rowCount table +
        allowance (Transaction.insert table key row).1 := by
  unfold Transaction.insert
  cases table.lookup key with
  | none => exact rowCount_insert_le
  | some _ => exact Nat.le_refl _

/- A consumed row adds none. -/
theorem rowCount_consumeRow_le
    {now : Nat}
    {table : StoreTable}
    {key : Text} :
    rowCount (Transaction.consumeRow now table key false).2 ≤
      rowCount table := by
  unfold Transaction.consumeRow
  cases (table.lookup key).filter (StoreRow.isLive now) with
  | none => exact Nat.le_refl _
  | some row => exact rowCount_deleteWhere_le

/- A transaction adds a row only where it is noted. -/
theorem rowCount_transaction_le
    (transaction : Transaction)
    (now : Nat)
    (table : StoreTable) :
    rowCount (transaction.exec now table).2 ≤
      rowCount table +
        allowance (notesTransaction transaction
          (transaction.exec now table).1) := by
  cases transaction with
  | clock => exact Nat.le_refl _
  | selectValue => exact Nat.le_refl _
  | selectVersion => exact Nat.le_refl _
  | selectKey => exact Nat.le_refl _
  | write key columns expiresAt =>
      have hUpdated := @rowCount_updateWhere _ table key
        (fun _ => true)
        (StoreRow.overwrite columns (some expiresAt))
      unfold Transaction.exec Transaction.writeRow
        notesTransaction
      dsimp only
      split
      · rw [hUpdated]
        exact Nat.le_add_right _ _
      · rw [← hUpdated]
        exact rowCount_insert_transaction_le
  | update key now columns expiresAt =>
      exact (rowCount_updateWhere _).le
  | updateVersion key now version columns expiresAt =>
      exact (rowCount_updateWhere _).le
  | extend key now expiresAt =>
      exact (rowCount_updateWhere _).le
  | remove key =>
      exact Nat.le_trans rowCount_deleteWhere_le
        rowCount_deleteWhere_le
  | claim key columns expiresAt =>
      apply Nat.le_trans rowCount_insert_transaction_le
      exact Nat.add_le_add_right rowCount_deleteWhere_le _
  | consume key returning =>
      cases returning with
      | true => exact rowCount_deleteWhere_le
      | false =>
          exact rowCount_consumeRow_le
  | selectUser => exact Nat.le_refl _
  | selectKeys => exact Nat.le_refl _

/- A removed key is gone. -/
theorem remove_key
    {now : Nat}
    {key : Text}
    {rows : RateLimit.DatabaseCounters.Rows} :
    (RateLimit.DatabaseCounters.remove now key rows).2 key =
      none :=
  Function.update_self _ _ _

/- An upsert adds a row of its key at most. -/
theorem rowCount_call_le
    (limiter : RateLimit.DatabaseCounters.Config)
    (now : Nat)
    (call : CounterCall)
    (table : CounterTable) :
    rowCount (CounterTable.exec limiter now call table) ≤
      rowCount table + allowance (notesCall call) := by
  unfold CounterTable.exec
  dsimp only
  cases call with
  | increment key amount expiry =>
      split
      · exact rowCount_insert_le
      · exact Nat.le_trans rowCount_erase_le
          (Nat.le_add_right _ _)
  | incrementAndRefreshTtl key amount expiry =>
      split
      · exact rowCount_insert_le
      · exact Nat.le_trans rowCount_erase_le
          (Nat.le_add_right _ _)
  | getCount key =>
      split
      case h_1 row hRow =>
        exact (rowCount_insert_of_lookup hRow).le
      case h_2 => exact rowCount_erase_le
  | reset key =>
      split
      case h_1 row hRow =>
        exact absurd (hRow.symm.trans remove_key) (by simp)
      case h_2 => exact rowCount_erase_le
  | delete key =>
      split
      case h_1 row hRow =>
        exact absurd (hRow.symm.trans remove_key) (by simp)
      case h_2 => exact rowCount_erase_le

/- Deleting by pattern adds no row. -/
theorem rowCount_deleteMatching_le
    (pattern : Text → Bool)
    (table : StoreTable) :
    rowCount (deleteMatching pattern table) ≤
      rowCount table := by
  unfold deleteMatching
  generalize (table.entries.map Sigma.fst).filter pattern =
    keys
  induction keys generalizing table with
  | nil => exact Nat.le_refl _
  | cons key keys ih =>
      exact Nat.le_trans (ih _) rowCount_erase_le

------------------------------------------------------------
-- One Table Of The Two
------------------------------------------------------------

/- The rows of a table, and how many are live. -/
structure View where
  rows : StoreTable → CounterTable → Nat
  live : Nat → StoreTable → CounterTable → Nat

/- What is counted of the store table. -/
def storeView : View where
  rows store _ := rowCount store
  live now store _ := liveCount storeRows now store

/- What is counted of the counter table. -/
def counterView : View where
  rows _ counters := rowCount counters
  live now _ counters := liveCount counterRows now counters

/- The rows of a view in a state. -/
def View.rowsIn (view : View) (state : State) : Nat :=
  view.rows state.store state.counters

/- Its live rows at a moment. -/
def View.liveIn
    (view : View)
    (now : Nat)
    (state : State) : Nat :=
  view.live now state.store state.counters

/- The rows of a view in a snapshot. -/
def View.rowsSeen (view : View) (seen : Snapshot) : Nat :=
  view.rows seen.store seen.counters

/- Its live rows in a snapshot. -/
def View.liveSeen (view : View) (seen : Snapshot) : Nat :=
  view.live seen.moment seen.store seen.counters

/- What writes and purges do to a table. -/
structure View.Lawful (view : View) : Prop where
  write : ∀ (write : Write) now state,
    view.rowsIn (write.exec now state).2 ≤
      view.rowsIn state +
        allowance (write.exec now state).1
  seen : ∀ size maxBatches purgings now state,
    ∀ seen ∈ (purgeTables size maxBatches purgings now
      state).snapshots,
      view.rowsSeen seen ≤ view.rowsIn state
  left : ∀ size maxBatches purgings now state,
    view.rowsIn (purgeTables size maxBatches purgings now
      state).state ≤ view.rowsIn state
  purged : ∀ size allowed purgings now state,
    0 < size →
    view.rowsIn (purgeTables size (some allowed) purgings now
      state).state ≤
      max (view.liveIn now state)
        (view.rowsIn state - allowed * size)

/- The records are a lawful table. -/
theorem storeView_lawful : storeView.Lawful where
  write write now state := by
    cases write with
    | transact transaction =>
        exact rowCount_transaction_le transaction now _
    | deletePattern pattern =>
        exact rowCount_deleteMatching_le pattern _
    | count limiter call => exact Nat.le_add_right _ _
  seen size maxBatches purgings now state seen hSeen := by
    rcases List.mem_append.mp hSeen with hFirst | hSecond
    · rcases List.mem_map.mp hFirst with ⟨done, hDone, rfl⟩
      exact rowCount_left_le hDone
    · rcases List.mem_map.mp hSecond with ⟨_, _, rfl⟩
      exact rowCount_leftAfter_le_rowCount
  left size maxBatches purgings now state :=
    rowCount_leftAfter_le_rowCount
  purged size allowed purgings now state hSize := by
    have hLeft := @rowCount_leftAfter_le _ storeRows size 0
      now purgings.store state.store allowed hSize
    rw [Nat.sub_zero] at hLeft
    exact hLeft

theorem counterView_lawful : counterView.Lawful where
  write write now state := by
    cases write with
    | transact transaction => exact Nat.le_add_right _ _
    | deletePattern pattern => exact Nat.le_refl _
    | count limiter call =>
        exact rowCount_call_le limiter now call _
  seen size maxBatches purgings now state seen hSeen := by
    rcases List.mem_append.mp hSeen with hFirst | hSecond
    · rcases List.mem_map.mp hFirst with ⟨_, _, rfl⟩
      exact Nat.le_refl _
    · rcases List.mem_map.mp hSecond with ⟨done, hDone, rfl⟩
      exact rowCount_left_le hDone
  left size maxBatches purgings now state :=
    rowCount_leftAfter_le_rowCount
  purged size allowed purgings now state hSize := by
    have hLeft := @rowCount_leftAfter_le _ counterRows size 0
      (momentAfter now
        (purge storeRows size (some allowed)
          purgings.store 0 now state.store))
      purgings.counters state.counters allowed hSize
    rw [Nat.sub_zero] at hLeft
    have hLive := @liveCount_le_of_le _ counterRows _ _
      state.counters
      (@le_momentAfter _ storeRows size 0 now (some allowed)
        purgings.store state.store)
    unfold View.rowsIn View.liveIn
    change rowCount (leftAfter _ _) ≤ max
      (liveCount counterRows now state.counters)
      (rowCount state.counters - allowed * size)
    omega

------------------------------------------------------------
-- Peaks
------------------------------------------------------------

/- The most rows that were live so far. -/
def View.peak
    (view : View)
    (peak : Nat)
    (seen : List Snapshot) : Nat :=
  seen.foldl (fun peak seen => max peak (view.liveSeen seen))
    peak

/- Each snapshot has its peak and this many rows at most. -/
def View.Within
    (view : View)
    (slack : Nat) : Nat → List Snapshot → Prop
  | _, [] => True
  | peak, seen :: rest =>
      view.rowsSeen seen ≤
          max peak (view.liveSeen seen) + slack ∧
        Within view slack
          (max peak (view.liveSeen seen)) rest

section Peaks

variable {view : View}
variable {slack peak peak' : Nat}
variable {seen seen' : List Snapshot}

/- Within the bound, batch by batch. -/
theorem View.within_of_forall
    (hRows : ∀ snapshot ∈ seen,
      view.rowsSeen snapshot ≤ peak + slack) :
    view.Within slack peak seen := by
  induction seen generalizing peak with
  | nil => trivial
  | cons snapshot seen ih =>
      have hFirst := hRows snapshot List.mem_cons_self
      constructor
      · omega
      · apply ih
        intro later hLater
        have hRest := hRows later
          (List.mem_cons_of_mem _ hLater)
        omega

/- Within the bound, one part after another. -/
theorem View.within_append
    (hFirst : view.Within slack peak seen)
    (hSecond :
      view.Within slack (view.peak peak seen) seen') :
    view.Within slack peak (seen ++ seen') := by
  induction seen generalizing peak with
  | nil => exact hSecond
  | cons snapshot seen ih =>
      exact ⟨hFirst.1, ih hFirst.2 hSecond⟩

/- A peak is never lowered. -/
theorem View.le_peak :
    peak ≤ view.peak peak seen := by
  induction seen generalizing peak with
  | nil => exact Nat.le_refl _
  | cons snapshot seen ih =>
      exact Nat.le_trans (Nat.le_max_left _ _) ih

/- At any snapshot of a list that is within. -/
theorem View.rows_le_of_within
    {snapshot : Snapshot}
    (hWithin :
      view.Within slack peak (seen ++ snapshot :: seen')) :
    view.rowsSeen snapshot ≤
      view.peak peak (seen ++ [snapshot]) + slack := by
  induction seen generalizing peak with
  | nil => exact hWithin.1
  | cons first seen ih => exact ih hWithin.2

end Peaks

------------------------------------------------------------
-- Whole Runs
------------------------------------------------------------

section Runs

variable {config : Config}
variable {view : View}
variable {peak now : Nat}
variable {state : State}

/- A purge removes what the writes can add. -/
theorem purgeEvery_le_batches :
    config.purgeEvery ≤
      batches config * config.purgeBatchSize := by
  have hPos := config.purgeBatchSize_pos
  have hMod := Nat.mod_lt
    (config.purgeEvery + config.purgeBatchSize - 1) hPos
  have hDiv := Nat.div_add_mod
    (config.purgeEvery + config.purgeBatchSize - 1)
    config.purgeBatchSize
  unfold batches
  rw [Nat.mul_comm] at hDiv
  omega

/- Beyond the peak there are the writes since a purge. -/
structure Holds
    (config : Config)
    (view : View)
    (peak : Nat)
    (state : State) : Prop where
  rows : view.rowsIn state ≤ peak + state.writesSincePurge
  writes : state.writesSincePurge < config.purgeEvery

/- After a noted write, which may purge. -/
theorem holds_noteWrite
    (hLawful : view.Lawful)
    {purgings : Purgings}
    (hLive : view.liveIn now state ≤ peak)
    (hRows : view.rowsIn state ≤
      peak + (state.writesSincePurge + 1))
    (hWrites : state.writesSincePurge < config.purgeEvery) :
    (∀ seen ∈
      (noteWrite config purgings now state).snapshots,
      view.rowsSeen seen ≤ peak + config.purgeEvery) ∧
    Holds config view peak
      (noteWrite config purgings now state).state := by
  unfold noteWrite
  dsimp only
  split
  case isTrue hFew =>
    constructor
    · intro seen hSeen
      cases hSeen
    · exact ⟨hRows, hFew⟩
  case isFalse hMany =>
    have hCount :
        state.writesSincePurge + 1 = config.purgeEvery := by
      omega
    rw [hCount] at hRows
    constructor
    · intro seen hSeen
      exact Nat.le_trans
        (hLawful.seen _ _ _ _ _ seen hSeen) hRows
    · constructor
      · have hPurged := hLawful.purged config.purgeBatchSize
          (batches config) purgings now
          { state with writesSincePurge := 0 }
          config.purgeBatchSize_pos
        have hEnough :=
          @purgeEvery_le_batches config
        change view.rowsIn _ ≤ peak + 0
        change view.rowsIn _ ≤ max (view.liveIn now state)
          (view.rowsIn state -
            batches config * config.purgeBatchSize)
          at hPurged
        omega
      · exact config.purgeEvery_pos

/- The write itself is not counted here. -/
theorem writesSincePurge_exec
    (write : Write) :
    (write.exec now state).2.writesSincePurge =
      state.writesSincePurge := by
  cases write <;> rfl

/- One event keeps the bound. -/
theorem holds_step
    (hLawful : view.Lawful)
    (event : Event)
    (hHolds : Holds config view peak state) :
    let done := step config event now state
    view.Within config.purgeEvery peak done.snapshots ∧
      Holds config view (view.peak peak done.snapshots)
        done.state := by
  have hRows := hHolds.rows
  have hWrites := hHolds.writes
  cases event with
  | purgeExpired elapsed batchSize purgings =>
      constructor
      · apply View.within_of_forall
        intro seen hSeen
        have hSeenRows :=
          hLawful.seen _ _ _ _ _ seen hSeen
        omega
      · constructor
        · have hLeft :=
            hLawful.left (sizeOf config batchSize)
            none purgings (now + elapsed) state
          have hPeak := @View.le_peak view peak
            (purgeTables (sizeOf config batchSize)
              none purgings (now + elapsed) state).snapshots
          change view.rowsIn (purgeTables
              (sizeOf config batchSize) none purgings
              (now + elapsed) state).state ≤
            view.peak peak (purgeTables
              (sizeOf config batchSize) none purgings
              (now + elapsed) state).snapshots +
                state.writesSincePurge
          omega
        · exact hWrites
  | write elapsed write purgings =>
      have hAdded :=
        hLawful.write write (now + elapsed) state
      have hCount := @writesSincePurge_exec
        (now + elapsed) state write
      unfold step
      dsimp only
      generalize write.exec (now + elapsed) state = written
        at hAdded hCount ⊢
      generalize hSeen :
        Snapshot.mk (now + elapsed) written.2.store
          written.2.counters = seen
      have hRowsSeen :
          view.rowsSeen seen = view.rowsIn written.2 := by
        rw [← hSeen]
        rfl
      have hLiveSeen : view.liveSeen seen =
          view.liveIn (now + elapsed) written.2 := by
        rw [← hSeen]
        rfl
      rw [← hCount] at hRows hWrites
      cases hNoted : written.1 with
      | false =>
          rw [hNoted] at hAdded
          change _ ≤ _ + 0 at hAdded
          rw [if_neg (by decide)]
          constructor
          · apply View.within_of_forall
            intro snapshot hMem
            rw [List.mem_singleton.mp hMem, hRowsSeen]
            omega
          · constructor
            · have hPeak := @View.le_peak view peak [seen]
              dsimp only
              omega
            · exact hWrites
      | true =>
          rw [hNoted] at hAdded
          change _ ≤ _ + 1 at hAdded
          rw [if_pos rfl]
          have hNote := @holds_noteWrite config view
            (max peak (view.liveSeen seen)) (now + elapsed)
            written.2 hLawful purgings (by omega) (by omega)
            hWrites
          constructor
          · constructor
            · omega
            · exact View.within_of_forall hNote.1
          · have hPeak := @View.le_peak view
              (max peak (view.liveSeen seen))
              (noteWrite config purgings
                (now + elapsed) written.2).snapshots
            constructor
            · apply Nat.le_trans hNote.2.rows
              exact Nat.add_le_add_right hPeak _
            · exact hNote.2.writes

/- A run keeps it from event to event. -/
theorem within_run
    (hLawful : view.Lawful)
    (events : List Event)
    (hHolds : Holds config view peak state) :
    view.Within config.purgeEvery peak
      (run config events now state) := by
  induction events generalizing peak now state with
  | nil => trivial
  | cons event events ih =>
      have hStep := @holds_step config view peak now state
        hLawful event hHolds
      exact View.within_append hStep.1 (ih hStep.2)

/- The invariant holds at the start. -/
theorem holds_initial (hView : view.rowsIn .initial = 0) :
    Holds config view 0 .initial where
  rows := by
    rw [hView]
    exact Nat.zero_le _
  writes := config.purgeEvery_pos

end Runs

/-
  Whatever is written, neither table ever has more rows than
  the most that were live so far and `purge_every`; each
  purge loop ends after a batch for each row at most; and no
  batch deletes a row that is live when it is deleted.
-/
theorem bounded (config : Config) :
    (∀ events start earlier seen later,
      run config events start .initial =
          earlier ++ seen :: later →
        rowCount seen.store ≤
            storeView.peak 0 (earlier ++ [seen]) +
              config.purgeEvery ∧
          rowCount seen.counters ≤
            counterView.peak 0 (earlier ++ [seen]) +
              config.purgeEvery) ∧
    (∀ (ρ : Type) (kind : Expiring ρ) size maxBatches purging
        now table,
      (purge kind size maxBatches purging 0 now
          table).length ≤ rowCount table ∧
        ∀ done ∈ purge kind size maxBatches purging 0 now
            table,
          Spares kind done) := by
  constructor
  · intro events start earlier seen later hRun
    constructor
    · have hWithin := @within_run config storeView 0 start
        .initial storeView_lawful events (holds_initial rfl)
      rw [hRun] at hWithin
      exact View.rows_le_of_within hWithin
    · have hWithin := @within_run config counterView 0 start
        .initial counterView_lawful events
        (holds_initial rfl)
      rw [hRun] at hWithin
      exact View.rows_le_of_within hWithin
  · intro ρ kind size maxBatches purging now table
    constructor
    · exact length_purge_le
    · intro done hDone
      exact spares_of_mem_purge hDone

/- Two writes for a purge, in batches of one row. -/
def everyTwo : Config where
  purgeEvery := 2
  purgeBatchSize := 1
  purgeEvery_pos := Nat.two_pos
  purgeBatchSize_pos := Nat.one_pos

/- A purge that takes no time. -/
def atOnce : Purging := ⟨.first, fun _ => 0⟩

/- A row that expires at once, and one that stays. -/
def writing (key : Text) (elapsed expiresAt : Nat) : Event :=
  .write elapsed
    (.transact (.write key ⟨[], none⟩ expiresAt))
    ⟨atOnce, atOnce⟩

/- The first row, at its expiry. -/
def expiring : Snapshot where
  moment := 5
  store := AList.insert ['a'] ⟨[], none, 1, 5⟩ ∅
  counters := ∅

/- The second one is written a millisecond later. -/
def both : Snapshot where
  moment := 6
  store :=
    AList.insert ['b'] ⟨[], none, 1, 100⟩ expiring.store
  counters := ∅

/- The second write has purged the expired row. -/
def purged : Snapshot where
  moment := 6
  store := AList.insert ['b'] ⟨[], none, 1, 100⟩ ∅
  counters := ∅

/- The sample purge deletes an expired row. -/
theorem purge_both :
    purge storeRows 1 (some 2) atOnce 0 6 both.store =
      [⟨6, both.store, purged.store⟩] := by
  have hRest :
      purge storeRows 1 (some 2) atOnce 1 6 purged.store =
        [] := by
    rw [purge]
    rfl
  rw [purge]
  exact congrArg (List.cons ⟨6, both.store, purged.store⟩)
    hRest

/- An empty table needs no batch. -/
theorem purge_none (now : Nat) :
    purge counterRows 1 (some 2) atOnce 0 now ∅ = [] := by
  rw [purge]
  rfl

/- The run ends with one row, of two that were written. -/
theorem run_purging :
    run everyTwo [writing ['a'] 5 5, writing ['b'] 1 100] 0
        .initial =
      [expiring, both, purged] := by
  have hStep :
      step everyTwo (writing ['b'] 1 100) 5
          ⟨expiring.store, ∅, 1⟩ =
        ⟨[both, purged], 6, ⟨purged.store, ∅, 0⟩⟩ := by
    have hPurge :
        purgeTables 1 (some 2) ⟨atOnce, atOnce⟩ 6
            ⟨both.store, ∅, 0⟩ =
          ⟨[purged], 6, ⟨purged.store, ∅, 0⟩⟩ := by
      unfold purgeTables
      rw [purge_both]
      dsimp only
      rw [purge_none]
      rfl
    exact congrArg (fun noted : Outcome =>
      { noted with snapshots := both :: noted.snapshots })
        hPurge
  exact congrArg (fun done : Outcome =>
    expiring :: (done.snapshots ++ [])) hStep

/- After the purge, one row is within the bound. -/
theorem bounded_purging :
    rowCount purged.store = 1 ∧
      rowCount purged.store ≤
        storeView.peak 0 [expiring, both, purged] + 2 :=
  ⟨rfl,
    ((bounded everyTwo).1
      [writing ['a'] 5 5, writing ['b'] 1 100] 0
      [expiring, both] purged [] run_purging).1⟩

end DatabaseStore

end Storage

end CrudAuth
