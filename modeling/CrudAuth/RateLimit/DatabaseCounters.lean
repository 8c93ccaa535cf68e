import CrudAuth.RateLimit.AbstractCounter

/-
  `DatabaseRateLimiterBackend`: each increment is one upsert,
  written three ways for the databases that run it.

  A call is one transaction, at one moment.  A purge may
  follow any call, and deletes expired rows of a batch.

  Main declarations:
    * `DatabaseCounters.upsertReturning`
    * `DatabaseCounters.upsertInOrder`
    * `DatabaseCounters.updateThenInsert`
    * `DatabaseCounters.exec`
    * `DatabaseCounters.backend`
    * `DatabaseCounters.simulates`
-/

namespace CrudAuth

namespace RateLimit

open Storage (Text storedKey)

namespace DatabaseCounters

------------------------------------------------------------
-- The Counter Table
------------------------------------------------------------

/-
  What the database can do: upserts with RETURNING, MySQL's
  upsert, or neither.
-/
inductive Dialect where
  | upsertsReturning
  | mysql
  | plain
deriving DecidableEq

/- `digest` is the hexadecimal SHA-256 of a key. -/
structure Config where
  keyPrefix : Text
  digest : Text → Text
  dialect : Dialect

/- `_key` -/
def Config.column (config : Config) (key : Text) : Text :=
  storedKey config.digest (config.keyPrefix ++ key)

/- No two of the keys are stored as one. -/
def Config.Apart (config : Config) (keys : Set Text) :
    Prop :=
  ∀ left ∈ keys, ∀ right ∈ keys,
    config.column left = config.column right → left = right

/- The rows, by their primary key. -/
abbrev Rows := Text → Option Counter

/- A row is written. -/
def insert
    (rows : Rows)
    (key : Text)
    (row : Counter) : Rows :=
  Function.update rows key (some row)

/- `_expired` -/
def expired (now : Nat) (row : Counter) : Bool :=
  row.expiresAt.any fun expiry => expiry ≤ now

/- `_live`, of the row under a key. -/
def live
    (now : Nat)
    (rows : Rows)
    (key : Text) : Option Counter :=
  (rows key).filter fun row =>
    row.expiresAt.all fun expiry => now < expiry

------------------------------------------------------------
-- Upserts
------------------------------------------------------------

/- The expression for the new count. -/
def countCase
    (now : Nat)
    (amount : Int)
    (row : Counter) : Int :=
  if expired now row then amount else row.count + amount

/- An expression for the new expiry, over a row. -/
abbrev ExpiryCase := Nat → Counter → Option Nat

/- Set only when the counter starts, or has none. -/
def armedCase (deadline : Option Nat) : ExpiryCase :=
  fun now row =>
    if expired now row then deadline
    else if row.expiresAt = none then deadline
    else row.expiresAt

/- Pushed forward on every call. -/
def refreshedCase (deadline : Option Nat) : ExpiryCase :=
  fun now row =>
    match deadline with
    | some deadline => some deadline
    | none => if expired now row then none else row.expiresAt

/- Both expressions see the old row. -/
def setColumns
    (now : Nat)
    (amount : Int)
    (expiry : ExpiryCase)
    (row : Counter) : Counter where
  count := countCase now amount row
  expiresAt := expiry now row

/- The expiry is assigned second, and sees the new count. -/
def assignColumns
    (now : Nat)
    (amount : Int)
    (expiry : ExpiryCase)
    (row : Counter) : Counter :=
  let counted :=
    { row with count := countCase now amount row }
  { counted with expiresAt := expiry now counted }

/- `read_back`, of the row that has just been written. -/
def readBack (rows : Rows) (key : Text) : CounterAnswer :=
  match rows key with
  | some row => .count row.count
  | none => .keyError

/- `INSERT .. ON CONFLICT DO UPDATE .. RETURNING` -/
def upsertReturning
    (now : Nat)
    (key : Text)
    (amount : Int)
    (expiry : ExpiryCase)
    (start : Counter)
    (rows : Rows) : CounterAnswer × Rows :=
  let row :=
    match rows key with
    | some row => setColumns now amount expiry row
    | none => start
  (.count row.count, insert rows key row)

/- `INSERT .. ON DUPLICATE KEY UPDATE`, then the read. -/
def upsertInOrder
    (now : Nat)
    (key : Text)
    (amount : Int)
    (expiry : ExpiryCase)
    (start : Counter)
    (rows : Rows) : CounterAnswer × Rows :=
  let rows :=
    match rows key with
    | some row =>
        insert rows key
          (assignColumns now amount expiry row)
    | none => insert rows key start
  (readBack rows key, rows)

/- `UPDATE` and how many rows it changed. -/
def updateRow
    (key : Text)
    (change : Counter → Counter)
    (rows : Rows) : Nat × Rows :=
  match rows key with
  | some row => (1, insert rows key (change row))
  | none => (0, rows)

/- `UPDATE`, `INSERT` where no row was there, the read. -/
def updateThenInsert
    (now : Nat)
    (key : Text)
    (amount : Int)
    (expiry : ExpiryCase)
    (start : Counter)
    (rows : Rows) : CounterAnswer × Rows :=
  let updated :=
    updateRow key (setColumns now amount expiry) rows
  let rows :=
    if updated.1 = 0 then
      insert updated.2 key start
    else
      updated.2
  (readBack rows key, rows)

/- `_upsert` -/
def upsert (dialect : Dialect) :
    Nat → Text → Int → ExpiryCase → Counter → Rows →
      CounterAnswer × Rows :=
  match dialect with
  | .upsertsReturning => upsertReturning
  | .mysql => upsertInOrder
  | .plain => updateThenInsert

------------------------------------------------------------
-- Calls
------------------------------------------------------------

variable (config : Config)

/- `delete`: the live row first, then any row. -/
def remove
    (now : Nat)
    (key : Text)
    (rows : Rows) : Bool × Rows :=
  let removed := (live now rows key).isSome
  let rows :=
    if removed then
      Function.update rows key none
    else
      rows
  (removed, Function.update rows key none)

/- Each call, as a statement on the row of its key. -/
def exec (now : Nat) :
    CounterCall → Rows → CounterAnswer × Rows
  | .increment key amount expiry, rows =>
      let deadline := armed now expiry
      upsert config.dialect now (config.column key) amount
        (armedCase deadline) ⟨amount, deadline⟩ rows
  | .incrementAndRefreshTtl key amount expiry, rows =>
      let deadline := armed now expiry
      upsert config.dialect now (config.column key) amount
        (refreshedCase deadline) ⟨amount, deadline⟩ rows
  | .getCount key, rows =>
      (.current ((live now rows (config.column key)).map
        Counter.count), rows)
  | .reset key, rows =>
      (.reset, (remove now (config.column key) rows).2)
  | .delete key, rows =>
      let removed := remove now (config.column key) rows
      (.deleted removed.1, removed.2)

/- The expired rows of a batch of keys are deleted. -/
def purge
    (now : Nat)
    (batch : List Text)
    (rows : Rows) : Rows :=
  fun key => (rows key).filter fun row =>
    !(key ∈ batch && expired now row)

/- The counters in a database. -/
def backend : CounterBackend where
  State := Rows
  initial := fun _ => none
  exec := exec config
  purge := purge
  held := fun rows key => rows (config.column key)

------------------------------------------------------------
-- One Upsert
------------------------------------------------------------

variable {config : Config}
variable {now : Nat}
variable {rows : Rows}
variable {column key other : Text}
variable {amount : Int}
variable {expiry : ExpiryCase}
variable {start : Counter}

/- The row that an upsert leaves. -/
def upserted
    (now : Nat)
    (amount : Int)
    (expiry : ExpiryCase)
    (start : Counter) : Option Counter → Counter
  | some row => setColumns now amount expiry row
  | none => start

/-
  However it is written, an upsert leaves one row and
  answers its count, as long as its expiry does not depend
  on the count.
-/
theorem upsert_eq
    (dialect : Dialect)
    (hExpiry : ∀ row count,
      expiry now { row with count := count } =
        expiry now row) :
    upsert dialect now column amount expiry start rows =
      (.count (upserted now amount expiry start
          (rows column)).count,
        insert rows column
          (upserted now amount expiry start
            (rows column))) := by
  cases dialect with
  | upsertsReturning => rfl
  | mysql =>
      unfold upsert upsertInOrder upserted
      dsimp only
      cases hRow : rows column with
      | none => simp [readBack, insert]
      | some row =>
          have hSame :
              assignColumns now amount expiry row =
                setColumns now amount expiry row := by
            unfold assignColumns setColumns
            dsimp only
            rw [hExpiry]
          simp [readBack, insert, hSame]
  | plain =>
      unfold upsert updateThenInsert updateRow upserted
      dsimp only
      cases hRow : rows column with
      | none => simp [readBack, insert]
      | some row => simp [readBack, insert]

/- The deadline does not hang on the count. -/
theorem armedCase_count
    {deadline : Option Nat}
    (row : Counter)
    (count : Int) :
    armedCase deadline now { row with count := count } =
      armedCase deadline now row :=
  rfl

theorem refreshedCase_count
    {deadline : Option Nat}
    (row : Counter)
    (count : Int) :
    refreshedCase deadline now { row with count := count } =
      refreshedCase deadline now row :=
  rfl

------------------------------------------------------------
-- The Abstract Counter
------------------------------------------------------------

/- The rows of these keys are the counters that are meant. -/
def Related
    (config : Config)
    (keys : Set Text)
    (now : Nat)
    (rows : Rows)
    (counters : Counters) : Prop :=
  ∀ key ∈ keys,
    live now rows (config.column key) =
      readable Counter.aliveAt now counters key

/- The table's test for an expired row. -/
theorem expired_eq_not_aliveAt
    (row : Counter) :
    expired now row = !row.aliveAt now := by
  unfold expired Counter.aliveAt
  cases row.expiresAt with
  | none => rfl
  | some deadline =>
      simp only [Option.any_some, Option.all_some]
      rw [← decide_not, decide_eq_decide]
      omega

/- The rows that a statement sees. -/
theorem live_eq_filter :
    live now rows column =
      (rows column).filter (Counter.aliveAt now) :=
  rfl

/- An increment goes on from the live row, or starts. -/
theorem upserted_armed
    {deadline : Option Nat} :
    upserted now amount (armedCase deadline)
        ⟨amount, deadline⟩ (rows column) =
      let counter := (live now rows column).getD
        { count := 0, expiresAt := none }
      { count := counter.count + amount
        expiresAt := counter.expiresAt.or deadline } := by
  rw [live_eq_filter]
  unfold upserted
  cases hRow : rows column with
  | none => simp
  | some row =>
      have hExpired := @expired_eq_not_aliveAt now row
      cases hAlive : row.aliveAt now with
      | false =>
          rw [hAlive, Bool.not_false] at hExpired
          simp [setColumns, countCase, armedCase, hExpired,
            Option.filter, hAlive]
      | true =>
          rw [hAlive, Bool.not_true] at hExpired
          cases hExpiry : row.expiresAt with
          | none =>
              simp [setColumns, countCase, armedCase,
                hExpired, Option.filter, hAlive, hExpiry]
          | some own =>
              simp [setColumns, countCase, armedCase,
                hExpired, Option.filter, hAlive, hExpiry]

/- An upsert that refreshes the deadline. -/
theorem upserted_refreshed
    {deadline : Option Nat} :
    upserted now amount (refreshedCase deadline)
        ⟨amount, deadline⟩ (rows column) =
      let counter := (live now rows column).getD
        { count := 0, expiresAt := none }
      { count := counter.count + amount
        expiresAt := deadline.or counter.expiresAt } := by
  rw [live_eq_filter]
  unfold upserted
  cases hRow : rows column with
  | none => simp
  | some row =>
      have hExpired := @expired_eq_not_aliveAt now row
      cases hAlive : row.aliveAt now with
      | false =>
          rw [hAlive, Bool.not_false] at hExpired
          cases deadline with
          | none =>
              simp [setColumns, countCase, refreshedCase,
                hExpired, Option.filter, hAlive]
          | some own =>
              simp [setColumns, countCase, refreshedCase,
                hExpired, Option.filter, hAlive]
      | true =>
          rw [hAlive, Bool.not_true] at hExpired
          cases deadline with
          | none =>
              simp [setColumns, countCase, refreshedCase,
                hExpired, Option.filter, hAlive]
          | some own =>
              simp [setColumns, countCase, refreshedCase,
                hExpired, Option.filter, hAlive]

/- One column is written, and only its own key is. -/
theorem related_update
    {keys : Set Text}
    {counters : Counters}
    {stored : Option Counter}
    (hApart : config.Apart keys)
    (hRelated : Related config keys now rows counters)
    (hKey : key ∈ keys) :
    Related config keys now
      (Function.update rows (config.column key) stored)
      (AbstractCounter.put counters key stored) := by
  intro other hOther
  unfold AbstractCounter.put readable
  rw [live_eq_filter]
  by_cases hSame : other = key
  · subst hSame
    rw [Function.update_self, Function.update_self]
  · have hColumn :
        config.column other ≠ config.column key :=
      fun hColumns =>
        hSame (hApart other hOther key hKey hColumns)
    rw [Function.update_of_ne hColumn,
      Function.update_of_ne hSame]
    exact hRelated other hOther

/- A removal empties one column. -/
theorem remove_snd :
    (remove now column rows).2 =
      Function.update rows column none := by
  unfold remove
  dsimp only
  split
  · rw [Function.update_idem]
  · rfl

variable {keys : Set Text}
variable {counters : Counters}

/- A purge deletes nothing that can be read. -/
theorem related_purge
    (hRelated : Related config keys now rows counters)
    (batch : List Text) :
    Related config keys now (purge now batch rows)
      counters := by
  intro key hKey
  rw [← hRelated key hKey, live_eq_filter, live_eq_filter]
  unfold purge
  cases hRow : rows (config.column key) with
  | none => rfl
  | some row =>
      have hExpired := @expired_eq_not_aliveAt now row
      cases hAlive : row.aliveAt now with
      | true =>
          rw [hAlive, Bool.not_true] at hExpired
          simp [Option.filter, hExpired, hAlive]
      | false =>
          simp only [Option.filter, hAlive]
          split
          · rename_i hKept
            split at hKept
            · cases hKept
              simp [hAlive]
            · cases hKept
          · simp

/- Every call does what is meant. -/
theorem related_exec
    {call : CounterCall}
    (hApart : config.Apart keys)
    (hRelated : Related config keys now rows counters)
    (hKey : call.key ∈ keys) :
    (exec config now call rows).1.counted =
        (AbstractCounter.exec Counter.aliveAt now call
          counters).1.counted ∧
      Related config keys now (exec config now call rows).2
        (AbstractCounter.exec Counter.aliveAt now call
          counters).2 := by
  cases call with
  | increment key amount expiry =>
      have hUpsert := @upsert_eq now rows
        (config.column key) amount
        (armedCase (armed now expiry))
        ⟨amount, armed now expiry⟩ config.dialect
        armedCase_count
      rw [upserted_armed, hRelated key hKey] at hUpsert
      unfold exec
      dsimp only at hUpsert ⊢
      rw [hUpsert]
      constructor
      · rfl
      · exact related_update hApart hRelated hKey
  | incrementAndRefreshTtl key amount expiry =>
      have hUpsert := @upsert_eq now rows
        (config.column key) amount
        (refreshedCase (armed now expiry))
        ⟨amount, armed now expiry⟩ config.dialect
        refreshedCase_count
      rw [upserted_refreshed, hRelated key hKey] at hUpsert
      unfold exec
      dsimp only at hUpsert ⊢
      rw [hUpsert]
      constructor
      · rfl
      · exact related_update hApart hRelated hKey
  | getCount key =>
      constructor
      · exact congrArg
          (fun counter : Option Counter =>
            some (counter.map Counter.count))
          (hRelated key hKey)
      · exact hRelated
  | reset key =>
      constructor
      · rfl
      · unfold exec
        dsimp only
        rw [remove_snd]
        exact related_update hApart hRelated hKey
  | delete key =>
      constructor
      · rfl
      · unfold exec
        dsimp only
        rw [remove_snd]
        exact related_update hApart hRelated hKey

/-
  The database backend is the abstract counter, on keys that
  are stored apart.
-/
theorem simulates (hApart : config.Apart keys) :
    (backend config).Simulates keys Counter.aliveAt
      (Related config keys) := by
  constructor
  · intro now key _
    rfl
  · intro now elapsed rows counters hRelated key hKey
    exact filter_later
      (fun _ hLater => Counter.aliveAt_of_later hLater)
      (hRelated key hKey)
  · intro now purged rows counters hRelated
    exact related_purge hRelated purged
  · intro now call rows counters hRelated hKey
    exact related_exec hApart hRelated hKey
  · intro now rows counters hRelated key hKey
    exact hRelated key hKey

end DatabaseCounters

end RateLimit

end CrudAuth
