import CrudAuth.Concurrency.Observed
import CrudAuth.Storage.Records

/-
  `DatabaseSessionStorage`, one transaction at a time.

  A command is one transaction, or one reading of the
  application's clock for a bound or an expiry.  Where a
  transaction builds a statement inside, its clock is the
  transaction's.  A transaction that the database rolls
  back and runs again has not happened.

  Main declarations:
    * `Transaction`
    * `Transaction.exec`
    * `DatabaseStorage.modify`
    * `DatabaseStorage.implement`
    * `DatabaseStorage.machine`
-/

------------------------------------------------------------
-- The Store Table
------------------------------------------------------------

namespace CrudAuth

namespace Storage

open Concurrency

/- A row of the store table, without its key. -/
structure StoreRow where
  value : Text
  userId : Option Text
  version : Nat
  expiresAt : Nat
deriving DecidableEq

/- The columns of a value that is written. -/
structure Columns where
  value : Text
  userId : Option Text
deriving DecidableEq

/- The store table, by key. -/
abbrev StoreTable := Table Text StoreRow

namespace StoreRow

/- `expires_at > now_ms()` -/
def isLive (now : Nat) (row : StoreRow) : Bool :=
  now < row.expiresAt

/- A value is written over a row. -/
def overwrite
    (columns : Columns)
    (expiresAt : Option Nat)
    (row : StoreRow) : StoreRow where
  value := columns.value
  userId := columns.userId
  version := row.version + 1
  expiresAt := expiresAt.getD row.expiresAt

/- A row that is inserted. -/
def first
    (columns : Columns)
    (expiresAt : Nat) : StoreRow where
  value := columns.value
  userId := columns.userId
  version := 1
  expiresAt := expiresAt

/- A row with a later expiry. -/
def extended
    (expiresAt : Nat)
    (row : StoreRow) : StoreRow :=
  { row with expiresAt := expiresAt }

end StoreRow

------------------------------------------------------------
-- Transactions
------------------------------------------------------------

/-
  The transactions of the storage.  A `now` that a
  statement compares with was read before it was run.
-/
inductive Transaction where
  | clock
  | selectValue (key : Text) (now : Nat)
  | selectVersion (key : Text) (now : Nat)
  | selectKey (key : Text) (now : Nat)
  | write (key : Text) (columns : Columns) (expiresAt : Nat)
  | update
      (key : Text)
      (now : Nat)
      (columns : Columns)
      (expiresAt : Option Nat)
  | updateVersion
      (key : Text)
      (now version : Nat)
      (columns : Columns)
      (expiresAt : Option Nat)
  | extend (key : Text) (now expiresAt : Nat)
  | remove (key : Text)
  | claim (key : Text) (columns : Columns) (expiresAt : Nat)
  | consume (key : Text) (returning : Bool)
  | selectUser (keyPrefix userId : Text) (now : Nat)
  | selectKeys (start : Text) (now : Nat)

/- `write` answers `false` for an `IntegrityError`. -/
@[reducible]
def Transaction.Ret : Transaction → Type
  | .clock => Nat
  | .selectValue _ _ => Option Text
  | .selectVersion _ _ => Option (Text × Nat)
  | .selectKey _ _ => Bool
  | .write _ _ _ => Bool
  | .update _ _ _ _ => Bool
  | .updateVersion _ _ _ _ _ => Bool
  | .extend _ _ _ => Bool
  | .remove _ => Bool
  | .claim _ _ _ => Bool
  | .consume _ _ => Option Text
  | .selectUser _ _ _ => List Text
  | .selectKeys _ _ => List Text

/- The store table, as its clients see it. -/
abbrev transactions : Interface where
  Op := Transaction
  Ret := Transaction.Ret

namespace Transaction

variable (now : Nat)
variable (table : StoreTable)

/- INSERT, refused where the key is taken. -/
def insert
    (key : Text)
    (row : StoreRow) : Bool × StoreTable :=
  match table.lookup key with
  | some _ => (false, table)
  | none => (true, AList.insert key row table)

/- `create`: UPDATE, and INSERT where it updated nothing. -/
def writeRow
    (key : Text)
    (columns : Columns)
    (expiresAt : Nat) : Bool × StoreTable :=
  let updated := table.updateWhere key (fun _ => true)
    (StoreRow.overwrite columns (some expiresAt))
  if updated.1 then
    updated
  else
    insert updated.2 key (.first columns expiresAt)

/- `delete`: the live row first, then any row. -/
def removeRow (key : Text) : Bool × StoreTable :=
  let removed := table.deleteWhere key (StoreRow.isLive now)
  (removed.1.isSome,
    (removed.2.deleteWhere key fun _ => true).2)

/- `set_if_absent`: drop an expired row, and INSERT. -/
def claimKey
    (key : Text)
    (columns : Columns)
    (expiresAt : Nat) : Bool × StoreTable :=
  let dropped := table.deleteWhere key fun row =>
    row.expiresAt ≤ now
  insert dropped.2 key (.first columns expiresAt)

/- `get_and_delete`, with and without RETURNING. -/
def consumeRow
    (key : Text) : Bool → Option Text × StoreTable
  | true =>
      let deleted :=
        table.deleteWhere key (StoreRow.isLive now)
      (deleted.1.map StoreRow.value, deleted.2)
  | false =>
      match (table.lookup key).filter
        (StoreRow.isLive now) with
      | none => (none, table)
      | some row =>
          let claimed := table.deleteWhere key fun other =>
            other.isLive now && other.value == row.value
          (claimed.1.map StoreRow.value, claimed.2)

/- The effect and the answer of one transaction. -/
def exec :
    (transaction : Transaction) → Nat → StoreTable →
    transaction.Ret × StoreTable
  | .clock, now, table => (now, table)
  | .selectValue key now, _, table =>
      (((table.lookup key).filter (StoreRow.isLive now)).map
        StoreRow.value, table)
  | .selectVersion key now, _, table =>
      (((table.lookup key).filter (StoreRow.isLive now)).map
        fun row => (row.value, row.version), table)
  | .selectKey key now, _, table =>
      ((table.lookup key).any (StoreRow.isLive now), table)
  | .write key columns expiresAt, _, table =>
      writeRow table key columns expiresAt
  | .update key now columns expiresAt, _, table =>
      table.updateWhere key (StoreRow.isLive now)
        (StoreRow.overwrite columns expiresAt)
  | .updateVersion key now version columns expiresAt, _,
      table =>
      table.updateWhere key
        (fun row => row.isLive now && row.version == version)
        (StoreRow.overwrite columns expiresAt)
  | .extend key now expiresAt, _, table =>
      table.updateWhere key (StoreRow.isLive now)
        (StoreRow.extended expiresAt)
  | .remove key, now, table => removeRow now table key
  | .claim key columns expiresAt, now, table =>
      claimKey now table key columns expiresAt
  | .consume key returning, now, table =>
      consumeRow now table key returning
  | .selectUser keyPrefix userId now, _, table =>
      (table.entries.filterMap fun row =>
        if row.2.userId = some userId ∧
            row.2.isLive now ∧ keyPrefix <+: row.1 then
          some row.1
        else
          none, table)
  | .selectKeys start now, _, table =>
      (table.entries.filterMap fun row =>
        if row.2.isLive now ∧ start <+: row.1 then
          some row.1
        else
          none, table)

/- A purge deletes expired rows of a batch. -/
def purge (batch : List Text) : StoreTable :=
  batch.foldl (fun table key =>
    Table.eraseIf table key fun row => !row.isLive now) table

end Transaction

end Storage

end CrudAuth
