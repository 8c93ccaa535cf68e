import Mathlib.Data.List.Sublists
import CrudAuth.Storage.Records

/-
  `DatabaseStore._purge`: expired rows are selected in
  batches and deleted, until a batch comes up short or the
  batches allowed are used up.

  The loop is the same for both tables, so rows are of any
  type on which expiry is known.  Each statement reads the
  clock anew.

  Main declarations:
    * `Expiring`
    * `Limit`
    * `purge`
    * `length_purge_le`
    * `spares_of_mem_purge`
    * `length_purgeLeft_le`
-/

------------------------------------------------------------
-- Rows That Expire
------------------------------------------------------------

namespace CrudAuth

namespace Storage

/- Which rows are expired; they stay so. -/
structure Expiring (ρ : Type) where
  expired : Nat → ρ → Bool
  stays : ∀ now later row,
    now ≤ later → expired now row = true →
      expired later row = true

/-
  Which of the matching keys a LIMIT keeps: as many as it
  may, in no particular order.
-/
structure Limit where
  pick : Nat → List Text → List Text
  subperm : ∀ size keys, (pick size keys).Subperm keys
  length : ∀ size keys,
    (pick size keys).length = min size keys.length

/- The first of them. -/
def Limit.first : Limit where
  pick := List.take
  subperm size keys := (List.take_sublist size keys).subperm
  length _ _ := List.length_take

/- What the database picks, and how long it takes. -/
structure Purging where
  limit : Limit
  wait : Nat → Nat

section Counts

variable {ρ : Type}
variable (kind : Expiring ρ)

/- How many rows a table has. -/
def rowCount (table : Table Text ρ) : Nat :=
  table.entries.length

/- How many of its rows are live. -/
def liveCount (now : Nat) (table : Table Text ρ) : Nat :=
  table.entries.countP fun row => !kind.expired now row.2

/- The keys of its expired rows. -/
def expiredKeys
    (now : Nat)
    (table : Table Text ρ) : List Text :=
  table.keysWhere (kind.expired now)

/- DELETE of the rows of a batch that are expired. -/
def deleteExpired
    (now : Nat)
    (batch : List Text)
    (table : Table Text ρ) : Table Text ρ :=
  batch.foldl (fun table key =>
    table.eraseIf key (kind.expired now)) table

variable {kind}
variable {now later : Nat}
variable {table : Table Text ρ}
variable {batch : List Text}

/- Every row is live or expired. -/
theorem rowCount_eq :
    rowCount table =
      liveCount kind now table +
        (expiredKeys kind now table).length := by
  have hSplit := List.length_eq_countP_add_countP
    (fun row : (_ : Text) × ρ => kind.expired now row.2)
    (l := table.entries)
  unfold rowCount liveCount expiredKeys Table.keysWhere
  rw [hSplit,
    List.length_map, ← List.countP_eq_length_filter,
    Nat.add_comm]
  simp

/- Without writes, what is live becomes less. -/
theorem liveCount_le_of_le
    (hLater : now ≤ later) :
    liveCount kind later table ≤
      liveCount kind now table := by
  apply List.countP_mono_left
  intro row _ hLive
  cases hExpired : kind.expired now row.2 with
  | false => rfl
  | true =>
      rw [kind.stays now later row.2 hLater hExpired]
        at hLive
      exact absurd hLive (by decide)

/- What a deletion leaves are rows of the table. -/
theorem entries_eraseIf_sublist
    (key : Text)
    (condition : ρ → Bool) :
    (table.eraseIf key condition).entries.Sublist
      table.entries := by
  unfold Table.eraseIf
  split
  · exact List.kerase_sublist _ _
  · exact List.Sublist.refl _

theorem entries_deleteExpired_sublist :
    (deleteExpired kind now batch table).entries.Sublist
      table.entries := by
  unfold deleteExpired
  induction batch generalizing table with
  | nil => exact List.Sublist.refl _
  | cons key batch ih =>
      exact ih.trans (entries_eraseIf_sublist key _)

/- A batch adds no live row. -/
theorem liveCount_deleteExpired_le :
    liveCount kind now (deleteExpired kind now batch table) ≤
      liveCount kind now table :=
  entries_deleteExpired_sublist.countP_le

/- A table loses a row for each key that is erased. -/
theorem length_erase
    {key : Text}
    {row : ρ}
    (hRow : table.lookup key = some row) :
    rowCount (table.erase key) + 1 = rowCount table := by
  have hMem : key ∈ table.entries.keys := by
    have hSome : (table.lookup key).isSome := by
      rw [hRow]
      rfl
    exact AList.lookup_isSome.mp hSome
  rcases List.exists_of_kerase hMem with
    ⟨_, before, after, _, hEntries, hErased⟩
  have hLeft :
      (table.erase key).entries = before ++ after := hErased
  unfold rowCount
  rw [hLeft, hEntries, List.length_append,
    List.length_append, List.length_cons]
  rfl

/- A DELETE removes every row of its batch that expired. -/
theorem rowCount_deleteExpired
    (hNodup : batch.Nodup)
    (hExpired : ∀ key ∈ batch, ∃ row,
      table.lookup key = some row ∧
        kind.expired now row = true) :
    rowCount (deleteExpired kind now batch table) +
      batch.length = rowCount table := by
  unfold deleteExpired
  induction batch generalizing table with
  | nil => rfl
  | cons key batch ih =>
      rcases hExpired key List.mem_cons_self with
        ⟨row, hRow, hGone⟩
      have hErased :
          table.eraseIf key (kind.expired now) =
            table.erase key := by
        unfold Table.eraseIf
        rw [hRow]
        exact if_pos hGone
      have hFresh := (List.nodup_cons.mp hNodup).1
      have hRest : ∀ other ∈ batch, ∃ row,
          (table.erase key).lookup other = some row ∧
            kind.expired now row = true := by
        intro other hOther
        rw [Table.lookup_erase', if_neg]
        · exact hExpired other
            (List.mem_cons_of_mem _ hOther)
        · rintro rfl
          exact hFresh hOther
      have hDone := ih (List.nodup_cons.mp hNodup).2 hRest
      have hOne := length_erase hRow
      rw [List.foldl_cons, hErased, List.length_cons]
      omega

/- No expired key is found twice. -/
theorem nodup_expiredKeys :
    (expiredKeys kind now table).Nodup := by
  unfold expiredKeys Table.keysWhere
  have hKeys : (table.entries.map Sigma.fst).Nodup :=
    table.nodupKeys
  exact hKeys.sublist (List.filter_sublist.map Sigma.fst)

/- What a LIMIT picks are keys of expired rows. -/
theorem expired_of_mem_pick
    (limit : Limit)
    {size : Nat}
    {key : Text}
    (hLater : now ≤ later)
    (hKey :
      key ∈ limit.pick size (expiredKeys kind now table)) :
    ∃ row, table.lookup key = some row ∧
      kind.expired later row = true := by
  have hMem := (limit.subperm size _).subset hKey
  rcases Table.mem_keysWhere.mp hMem with
    ⟨row, hRow, hExpired⟩
  exact ⟨row, hRow, kind.stays now later row hLater hExpired⟩

theorem nodup_pick
    (limit : Limit)
    {size : Nat} :
    (limit.pick size
      (expiredKeys kind now table)).Nodup := by
  rcases limit.subperm size (expiredKeys kind now table) with
    ⟨keys, hPerm, hSublist⟩
  exact hPerm.nodup_iff.mp
    (nodup_expiredKeys.sublist hSublist)

/- A statement deletes what was selected before it. -/
theorem rowCount_deletePicked
    (limit : Limit)
    {size : Nat}
    (hLater : now ≤ later) :
    rowCount (deleteExpired kind later
        (limit.pick size (expiredKeys kind now table)) table)
          +
      (limit.pick size (expiredKeys kind now table)).length =
        rowCount table :=
  rowCount_deleteExpired (nodup_pick limit)
    fun _ hKey => expired_of_mem_pick limit hLater hKey

/- A row that is not expired is not deleted. -/
theorem expired_of_deleted
    {key : Text}
    {row : ρ}
    (hBefore : table.lookup key = some row)
    (hLeft :
      (deleteExpired kind now batch table).lookup key =
        none) :
    kind.expired now row = true := by
  cases hExpired : kind.expired now row with
  | true => rfl
  | false =>
      have hStays :=
        Table.lookup_sweep batch hBefore hExpired
      unfold deleteExpired at hLeft
      rw [hLeft] at hStays
      cases hStays

end Counts

/- A batch deletes as many rows as it picks. -/
theorem rowCount_deletePicked_add
    {ρ : Type}
    (kind : Expiring ρ)
    (table : Table Text ρ)
    (limit : Limit)
    (size now elapsed : Nat) :
    rowCount (deleteExpired kind (now + elapsed)
        (limit.pick size (expiredKeys kind now table)) table)
          +
      (limit.pick size (expiredKeys kind now table)).length =
        rowCount table :=
  rowCount_deletePicked limit (Nat.le_add_right now elapsed)

------------------------------------------------------------
-- The Loop
------------------------------------------------------------

/- One batch: when it was deleted, and what it left. -/
structure Batch (ρ : Type) where
  moment : Nat
  before : Table Text ρ
  left : Table Text ρ

section Loop

variable {ρ : Type}
variable (kind : Expiring ρ)
variable (size : Nat)
variable (maxBatches : Option Nat)
variable (purging : Purging)

/-
  `_purge`: `batches` of them are done.  A row that an
  allowed, full batch deletes is one less for the next.
-/
def purge
    (batches now : Nat)
    (table : Table Text ρ) : List (Batch ρ) :=
  if maxBatches.all (fun allowed => batches < allowed) then
    let selected := now + purging.wait (2 * batches)
    let batch := purging.limit.pick size
      (expiredKeys kind selected table)
    let moment := selected + purging.wait (2 * batches + 1)
    if hEmpty : batch = [] then
      []
    else
      let left := deleteExpired kind moment batch table
      let done : Batch ρ :=
        { moment := moment, before := table, left := left }
      if batch.length < size then
        [done]
      else
        done :: purge (batches + 1) moment left
  else
    []
termination_by rowCount table
decreasing_by
  have hSome : 0 <
      (purging.limit.pick size (expiredKeys kind
        (now + purging.wait (2 * batches)) table)).length :=
    List.length_pos_iff.mpr hEmpty
  have hDeleted :=
    rowCount_deletePicked_add kind table purging.limit size
      (now + purging.wait (2 * batches))
      (purging.wait (2 * batches + 1))
  omega

/- The table that the batches leave. -/
def leftAfter
    (table : Table Text ρ)
    (done : List (Batch ρ)) : Table Text ρ :=
  (done.getLast?.map Batch.left).getD table

/- The moment of the last of them. -/
def momentAfter
    (now : Nat)
    (done : List (Batch ρ)) : Nat :=
  (done.getLast?.map Batch.moment).getD now

variable {kind : Expiring ρ}
variable {size batches now : Nat}
variable {maxBatches : Option Nat}
variable {purging : Purging}
variable {table : Table Text ρ}

/- What the first batch leaves is purged on. -/
theorem leftAfter_cons
    (first : Batch ρ)
    (done : List (Batch ρ)) :
    leftAfter table (first :: done) =
      leftAfter first.left done := by
  unfold leftAfter
  rw [List.getLast?_cons]
  cases done.getLast? <;> rfl

/- The next batch starts where it ended. -/
theorem momentAfter_cons
    (first : Batch ρ)
    (done : List (Batch ρ)) :
    momentAfter now (first :: done) =
      momentAfter first.moment done := by
  unfold momentAfter
  rw [List.getLast?_cons]
  cases done.getLast? <;> rfl

/- The loop ends: there is a row for each of its batches. -/
theorem length_purge_le :
    (purge kind size maxBatches purging batches now
      table).length ≤ rowCount table := by
  fun_induction purge kind size maxBatches purging
    batches now
    table with
  | case1 => exact Nat.zero_le _
  | case2 batches now table _ selected batch moment hEmpty
      left done hShort =>
      have hSome := List.length_pos_iff.mpr hEmpty
      have hDeleted :
          rowCount left + batch.length = rowCount table :=
        rowCount_deletePicked_add kind table purging.limit
          size selected _
      simp only [List.length_singleton]
      omega
  | case3 batches now table _ selected batch moment hEmpty
      left done hFull ih =>
      have hSome := List.length_pos_iff.mpr hEmpty
      have hDeleted :
          rowCount left + batch.length = rowCount table :=
        rowCount_deletePicked_add kind table purging.limit
          size selected _
      simp only [List.length_cons]
      omega
  | case4 => exact Nat.zero_le _

/- A batch deletes no row that is live when it does. -/
def Spares (kind : Expiring ρ) (done : Batch ρ) : Prop :=
  ∀ key row,
    done.before.lookup key = some row →
    done.left.lookup key = none →
      kind.expired done.moment row = true

/- Every batch spares the live rows. -/
theorem spares_of_mem_purge
    {done : Batch ρ}
    (hDone : done ∈
      purge kind size maxBatches purging batches now table) :
    Spares kind done := by
  revert hDone
  fun_induction purge kind size maxBatches purging
    batches now
    table with
  | case1 =>
      intro hDone
      cases hDone
  | case2 batches now table _ selected batch moment hEmpty
      left only hShort =>
      intro hDone key row hBefore hLeft
      rw [List.mem_singleton.mp hDone] at hBefore hLeft ⊢
      exact expired_of_deleted hBefore hLeft
  | case3 batches now table _ selected batch moment hEmpty
      left first hFull ih =>
      intro hDone
      rcases List.mem_cons.mp hDone with hFirst | hRest
      · intro key row hBefore hLeft
        rw [hFirst] at hBefore hLeft ⊢
        exact expired_of_deleted hBefore hLeft
      · exact ih hRest
  | case4 =>
      intro hDone
      cases hDone

/- No batch leaves more rows than there were. -/
theorem rowCount_left_le
    {done : Batch ρ}
    (hDone : done ∈
      purge kind size maxBatches purging batches now table) :
    rowCount done.left ≤ rowCount table := by
  revert hDone
  fun_induction purge kind size maxBatches purging
    batches now
    table with
  | case1 =>
      intro hDone
      cases hDone
  | case2 batches now table _ selected batch moment hEmpty
      left only hShort =>
      intro hDone
      rw [List.mem_singleton.mp hDone]
      exact entries_deleteExpired_sublist.length_le
  | case3 batches now table _ selected batch moment hEmpty
      left first hFull ih =>
      intro hDone
      have hLess : rowCount left ≤ rowCount table :=
        entries_deleteExpired_sublist.length_le
      rcases List.mem_cons.mp hDone with hFirst | hRest
      · rw [hFirst]
        exact hLess
      · exact Nat.le_trans (ih hRest) hLess
  | case4 =>
      intro hDone
      cases hDone

/- A purge adds no row. -/
theorem rowCount_leftAfter_le_rowCount :
    rowCount (leftAfter table
        (purge kind size maxBatches purging batches now
          table)) ≤
      rowCount table := by
  unfold leftAfter
  cases hLast :
    (purge kind size maxBatches purging batches now
      table).getLast? with
  | none => exact Nat.le_refl _
  | some done =>
      exact rowCount_left_le (List.mem_of_getLast? hLast)

/- A purge does not go back in time. -/
theorem le_momentAfter :
    now ≤ momentAfter now
      (purge kind size maxBatches purging batches now
        table) := by
  fun_induction purge kind size maxBatches purging
    batches now
    table with
  | case1 => exact Nat.le_refl _
  | case2 batches now table _ selected batch moment hEmpty
      left only hShort =>
      have hMoment : now ≤ moment :=
        Nat.le_trans (Nat.le_add_right _ _)
          (Nat.le_add_right _ _)
      exact hMoment
  | case3 batches now table _ selected batch moment hEmpty
      left first hFull ih =>
      have hMoment : now ≤ moment :=
        Nat.le_trans (Nat.le_add_right _ _)
          (Nat.le_add_right _ _)
      rw [momentAfter_cons]
      exact Nat.le_trans hMoment ih
  | case4 => exact Nat.le_refl _

/-
  A batch that is not full was all there was to delete, and
  what is left was live when the batch was selected.
-/
theorem rowCount_of_short
    {limit : Limit}
    {selected elapsed : Nat}
    (hLater : now ≤ selected)
    (hShort :
      (limit.pick size
        (expiredKeys kind selected table)).length < size) :
    rowCount (deleteExpired kind (selected + elapsed)
        (limit.pick size (expiredKeys kind selected table))
        table) ≤
      liveCount kind now table := by
  have hDeleted := rowCount_deletePicked_add kind table limit
    size selected elapsed
  have hLength := limit.length size
    (expiredKeys kind selected table)
  have hRows := @rowCount_eq _ kind selected table
  have hLive := @liveCount_le_of_le _ kind _ _ table hLater
  omega

/-
  After the batches allowed, what is left was live at first,
  or as many rows were deleted as the batches take.
-/
theorem rowCount_leftAfter_le
    {allowed : Nat}
    (hSize : 0 < size) :
    rowCount (leftAfter table
        (purge kind size (some allowed) purging batches now
          table)) ≤
      max (liveCount kind now table)
        (rowCount table - (allowed - batches) * size) := by
  fun_induction purge kind size (some allowed) purging
    batches
    now table with
  | case1 batches now table _ selected batch hEmpty =>
      have hLater : now ≤ selected := Nat.le_add_right _ _
      have hLength := purging.limit.length size
        (expiredKeys kind selected table)
      have hNone : (purging.limit.pick size
          (expiredKeys kind selected table)).length = 0 :=
        congrArg List.length hEmpty
      have hRows := @rowCount_eq _ kind selected table
      have hLive := @liveCount_le_of_le _ kind _ _ table
        hLater
      have hSame : leftAfter table [] = table := rfl
      rw [hSame]
      omega
  | case2 batches now table _ selected batch moment hEmpty
      left only hShort =>
      have hLater : now ≤ selected := Nat.le_add_right _ _
      have hLeft :
          rowCount left ≤ liveCount kind now table :=
        rowCount_of_short hLater hShort
      have hSame : leftAfter table [only] = left := rfl
      rw [hSame]
      omega
  | case3 batches now table hAllowed selected batch moment
      hEmpty left first hFull ih =>
      have hMore : batches < allowed := by
        simpa using hAllowed
      have hMoment : now ≤ moment :=
        Nat.le_trans (Nat.le_add_right _ _)
          (Nat.le_add_right _ _)
      have hDeleted :
          rowCount left + batch.length = rowCount table :=
        rowCount_deletePicked_add kind table purging.limit
          size selected _
      have hLess : liveCount kind moment left ≤
          liveCount kind now table :=
        Nat.le_trans liveCount_deleteExpired_le
          (liveCount_le_of_le hMoment)
      have hBatches : (allowed - batches) * size =
          (allowed - (batches + 1)) * size + size := by
        rw [← Nat.succ_mul]
        congr 1
        omega
      rw [leftAfter_cons]
      change rowCount (leftAfter left _) ≤ _
      omega
  | case4 batches now table hDone =>
      have hNone : allowed - batches = 0 := by
        simp only [Option.all_some, decide_eq_true_eq]
          at hDone
        omega
      rw [hNone, Nat.zero_mul]
      exact Nat.le_max_right _ _

end Loop

end Storage

end CrudAuth
