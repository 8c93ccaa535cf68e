import CrudAuth.Storage.Base

/-
  `DatabaseSessionStorage`: rows of one table.

  A command is one SQL statement, or one reading of the
  application's clock for a bound or an expiry.  Statements
  of one transaction are separate commands: nothing below
  uses that others do not run between them.

  Main declarations:
    * `Statement`
    * `Database.exec`
    * `Database.modify`
    * `database`
-/

------------------------------------------------------------
-- Statements
------------------------------------------------------------

namespace CrudAuth

namespace Storage

open Concurrency

/- A row of the store table, without its key. -/
structure Row (ν : Type) where
  value : ν
  userId : Option UserId
  version : Nat
  expiresAt : Nat
deriving DecidableEq, Repr

/- The columns a write sets next to the version. -/
structure RowData (ν : Type) where
  value : ν
  userId : Option UserId
  expiresAt : Option Nat
deriving DecidableEq, Repr

/- The statements on one record. -/
inductive Statement (κ ν : Type) where
  | clock
  | update (key : κ) (data : RowData ν)
  | insert (key : κ) (data : RowData ν)
  | select (key : κ) (now : Nat)
  | updateVersion
      (key : κ)
      (now version : Nat)
      (data : RowData ν)
  | deleteLive (key : κ) (now : Nat)
  | deleteKey (key : κ)
  | deleteExpired (key : κ) (now : Nat)
  | deleteReturning (key : κ) (now : Nat)
  | deleteValue (key : κ) (now : Nat) (value : ν)
  | selectKeys (userId : UserId) (now : Nat)

variable {κ ν : Type}

/- `insert` answers `false` for an `IntegrityError`. -/
@[reducible]
def Statement.Ret : Statement κ ν → Type
  | .clock => Nat
  | .update _ _ => Bool
  | .insert _ _ => Bool
  | .select _ _ => Option (ν × Nat)
  | .updateVersion _ _ _ _ => Bool
  | .deleteLive _ _ => Bool
  | .deleteKey _ => Unit
  | .deleteExpired _ _ => Unit
  | .deleteReturning _ _ => Option ν
  | .deleteValue _ _ _ => Bool
  | .selectKeys _ _ => List κ

/- The database, as its clients see it. -/
abbrev statements (κ ν : Type) : Interface where
  Op := Statement κ ν
  Ret := Statement.Ret

------------------------------------------------------------
-- The Table
------------------------------------------------------------

/- The store table; its key is its primary key. -/
abbrev Database (κ ν : Type) := Table κ (Row ν)

namespace Database

variable [DecidableEq κ] [DecidableEq ν]

/- `expires_at > now_ms()` -/
def isLive (now : Nat) (row : Row ν) : Bool :=
  now < row.expiresAt

/- The row a write leaves behind. -/
def written
    (row : Row ν)
    (data : RowData ν) : Row ν where
  value := data.value
  userId := data.userId
  version := row.version + 1
  expiresAt := data.expiresAt.getD row.expiresAt

/- UPDATE of one row where a condition holds. -/
def updateWhere
    (database : Database κ ν)
    (key : κ)
    (condition : Row ν → Bool)
    (data : RowData ν) : Bool × Database κ ν :=
  match (database.lookup key).filter condition with
  | none => (false, database)
  | some row =>
      (true, AList.insert key (written row data) database)

/- INSERT, refused where the key is taken. -/
def insertRow
    (database : Database κ ν)
    (key : κ)
    (data : RowData ν) : Bool × Database κ ν :=
  match database.lookup key with
  | some _ => (false, database)
  | none =>
      (true,
        AList.insert key
          { value := data.value
            userId := data.userId
            version := 1
            expiresAt := data.expiresAt.getD 0 }
          database)

/- DELETE of one row where a condition holds. -/
def deleteWhere
    (database : Database κ ν)
    (key : κ)
    (condition : Row ν → Bool) :
    Option (Row ν) × Database κ ν :=
  match (database.lookup key).filter condition with
  | none => (none, database)
  | some row => (some row, AList.erase key database)

section Rows

variable {database : Database κ ν}
variable {key other : κ}
variable {condition : Row ν → Bool}
variable {data : RowData ν}

omit [DecidableEq ν] in
/- An update touches the one row, and only where it may. -/
theorem lookup_updateWhere :
    (database.updateWhere key condition data).2.lookup
        other =
      if key = other then
        (database.lookup other).map fun row =>
          if condition row then written row data else row
      else
        database.lookup other := by
  unfold updateWhere
  cases hRow : database.lookup key with
  | none =>
      by_cases hKey : key = other
      · subst hKey
        simp [hRow]
      · simp [hKey]
  | some row =>
      by_cases hKey : key = other
      · subst hKey
        cases hMeets : condition row with
        | true => simp [Option.filter, hMeets, hRow]
        | false => simp [Option.filter, hMeets, hRow]
      · rw [if_neg hKey]
        cases hMeets : condition row with
        | true =>
            simp [Option.filter, hMeets,
              Table.lookup_insert', hKey]
        | false => simp [Option.filter, hMeets]

/- An update applies to a row that qualifies. -/
omit [DecidableEq ν] in
theorem updateWhere_fst :
    (database.updateWhere key condition data).1 =
      (database.lookup key).any condition := by
  unfold updateWhere
  cases hRow : database.lookup key with
  | none => simp
  | some row =>
      cases hMeets : condition row <;>
        simp [Option.filter, hMeets]

omit [DecidableEq ν] in
/- An insert fills the key where it was free. -/
theorem lookup_insertRow :
    (database.insertRow key data).2.lookup other =
      if key = other ∧ database.lookup key = none then
        some
          { value := data.value
            userId := data.userId
            version := 1
            expiresAt := data.expiresAt.getD 0 }
      else
        database.lookup other := by
  unfold insertRow
  cases hRow : database.lookup key with
  | some row => simp
  | none => simp [Table.lookup_insert']

omit [DecidableEq ν] in
theorem insertRow_fst :
    (database.insertRow key data).1 =
      (database.lookup key).isNone := by
  unfold insertRow
  cases hRow : database.lookup key <;> simp

omit [DecidableEq ν] in
/- A delete removes the one row, and only where it may. -/
theorem lookup_deleteWhere :
    (database.deleteWhere key condition).2.lookup other =
      if key = other then
        (database.lookup other).filter fun row =>
          !condition row
      else
        database.lookup other := by
  unfold deleteWhere
  cases hRow : database.lookup key with
  | none =>
      by_cases hKey : key = other
      · subst hKey
        simp [hRow]
      · simp [hKey]
  | some row =>
      cases hMeets : condition row with
      | true =>
          by_cases hKey : key = other
          · subst hKey
            simp [Option.filter, hMeets, hRow]
          · simp [Option.filter, hMeets, hKey,
              Table.lookup_erase']
      | false =>
          by_cases hKey : key = other
          · subst hKey
            simp [Option.filter, hMeets, hRow]
          · simp [Option.filter, hMeets, hKey]

omit [DecidableEq ν] in
theorem deleteWhere_fst :
    (database.deleteWhere key condition).1 =
      (database.lookup key).filter condition := by
  unfold deleteWhere
  cases hRow : database.lookup key with
  | none => simp
  | some row =>
      cases hMeets : condition row <;>
        simp [Option.filter, hMeets]

end Rows

/- The effect and the answer of one statement. -/
def exec :
    (statement : Statement κ ν) → Nat → Database κ ν →
    statement.Ret × Database κ ν
  | .clock, now, database => (now, database)
  | .update key data, _, database =>
      database.updateWhere key (fun _ => true) data
  | .insert key data, _, database =>
      database.insertRow key data
  | .select key now, _, database =>
      (((database.lookup key).filter (isLive now)).map
        fun row => (row.value, row.version), database)
  | .updateVersion key now version data, _, database =>
      database.updateWhere key
        (fun row => isLive now row && row.version == version)
        data
  | .deleteLive key now, _, database =>
      let deleted := database.deleteWhere key (isLive now)
      (deleted.1.isSome, deleted.2)
  | .deleteKey key, _, database =>
      ((), (database.deleteWhere key fun _ => true).2)
  | .deleteExpired key now, _, database =>
      ((), (database.deleteWhere key fun row =>
        !isLive now row).2)
  | .deleteReturning key now, _, database =>
      let deleted := database.deleteWhere key (isLive now)
      (deleted.1.map Row.value, deleted.2)
  | .deleteValue key now value, _, database =>
      let deleted := database.deleteWhere key fun row =>
        isLive now row && row.value == value
      (deleted.1.isSome, deleted.2)
  | .selectKeys userId now, _, database =>
      (database.keysWhere fun row =>
        row.userId == some userId && isLive now row,
        database)

/- A purge deletes expired rows, batch by batch. -/
def purge
    (batch : List κ)
    (now : Nat)
    (database : Database κ ν) : Database κ ν :=
  batch.foldl (fun database key =>
    Table.eraseIf database key fun row => !isLive now row)
    database

------------------------------------------------------------
-- Calls
------------------------------------------------------------

variable [Owned ν]

/- What the backend is set up with. -/
structure Config where
  expiration : Nat
  deletesReturning : Bool

/- `DATABASE_MODIFY_MAX_ATTEMPTS` -/
def modifyMaxAttempts : Nat := 50

/- A call of the storage, as the statements it makes. -/
abbrev Sql (κ ν α : Type) :=
  Program (statements κ ν) HttpError α

/- One statement. -/
def execute
    (statement : Statement κ ν) : Sql κ ν statement.Ret :=
  Program.call (I := statements κ ν) statement

variable (config : Config)

/- `_expires_at` -/
def expiresAt (expiration : Option Nat) : Sql κ ν Nat := do
  let now ← execute .clock
  return now + lifetime config.expiration expiration

/- UPDATE, and INSERT when there was nothing to update. -/
def write
    (key : κ)
    (row : RowData ν) : Sql κ ν Bool := do
  if ← execute (.update key row) then
    return true
  else
    execute (.insert key row)

/- A lost race between two inserts is run once more. -/
def create
    (key : κ)
    (data : ν)
    (expiration : Option Nat) : Sql κ ν Unit := do
  let expires ← expiresAt config expiration
  let row : RowData ν :=
    ⟨data, Owned.userId data, some expires⟩
  if ← write key row then
    return ()
  else if ← write key row then
    return ()
  else
    .raise .unhandled

/- `get` -/
def get (key : κ) : Sql κ ν (Option ν) := do
  let now ← execute .clock
  let row ← execute (.select key now)
  return row.map Prod.fst

/- The new expiry of a `modify`, if it resets it. -/
def renewed
    (resetExpiration : Bool)
    (expiration : Option Nat) : Sql κ ν (Option Nat) := do
  if resetExpiration then
    return some (← expiresAt config expiration)
  else
    return none

/-
  The rounds of a `modify`: read, change, and write to the
  version that was read.  The select was built once, at
  `current`; each update is built in its round.
-/
def modifyRounds
    (key : κ)
    (change : ν → ν)
    (resetExpiration : Bool)
    (expiration : Option Nat)
    (current : Nat) : Nat → Sql κ ν (Option (ν × ν))
  | 0 => .raise .unhandled
  | rounds + 1 => do
      match ← execute (.select key current) with
      | none => return none
      | some (data, version) =>
          let changed := change data
          let expires ←
            renewed config resetExpiration expiration
          let now ← execute .clock
          if ← execute (.updateVersion key now version
              ⟨changed, Owned.userId changed, expires⟩) then
            return some (data, changed)
          else
            modifyRounds key change resetExpiration
              expiration current rounds

/- `modify` -/
def modify
    (key : κ)
    (change : ν → ν)
    (resetExpiration : Bool)
    (expiration : Option Nat) :
    Sql κ ν (Option (ν × ν)) := do
  let current ← execute .clock
  modifyRounds config key change resetExpiration expiration
    current modifyMaxAttempts

/- `delete` -/
def delete (key : κ) : Sql κ ν Bool := do
  let now ← execute .clock
  let live ← execute (.deleteLive key now)
  execute (.deleteKey key)
  return live

/- Insert unless a live row holds the key. -/
def setIfAbsent
    (key : κ)
    (data : ν)
    (expiration : Option Nat) : Sql κ ν Bool := do
  let expires ← expiresAt config expiration
  let now ← execute .clock
  execute (.deleteExpired key now)
  execute (.insert key
    ⟨data, Owned.userId data, some expires⟩)

/- Without `DELETE ... RETURNING`: read, then delete. -/
def selectAndDelete (key : κ) : Sql κ ν (Option ν) := do
  let now ← execute .clock
  match ← execute (.select key now) with
  | none => return none
  | some (value, _) =>
      let now ← execute .clock
      if ← execute (.deleteValue key now value) then
        return some value
      else
        return none

/- `get_and_delete` -/
def getAndDelete (key : κ) : Sql κ ν (Option ν) :=
  if config.deletesReturning then do
    let now ← execute .clock
    execute (.deleteReturning key now)
  else
    selectAndDelete key

/- `get_user_sessions` -/
def getUserSessions
    (userId : UserId) : Sql κ ν (List κ) := do
  let now ← execute .clock
  execute (.selectKeys userId now)

/- The storage, call by call. -/
def implement : (call : Call κ ν) → Sql κ ν call.Ret
  | .create key data expiration =>
      create config key data expiration
  | .get key => get key
  | .modify key change resetExpiration expiration =>
      modify config key change resetExpiration expiration
  | .delete key _ => delete key
  | .setIfAbsent key data expiration =>
      setIfAbsent config key data expiration
  | .getAndDelete key => getAndDelete config key
  | .getUserSessions userId => getUserSessions userId
  | .removeFromUserIndex _ _ => return ()

end Database

------------------------------------------------------------
-- The Backend
------------------------------------------------------------

variable [DecidableEq κ] [DecidableEq ν] [Owned ν]

/- `note_write` and operators purge at any moment. -/
abbrev Database.server :
    Server (statements κ ν) (Database κ ν) where
  Upkeep := List κ
  exec := Database.exec
  upkeep := Database.purge

/- `get_session_storage("database")` -/
def database (config : Database.Config) : Backend κ ν where
  commands := statements κ ν
  State := Database κ ν
  server := Database.server
  implement := Database.implement config
  stored := fun state key =>
    (state.lookup key).map Row.value
  live := fun state now key =>
    ((state.lookup key).filter (Database.isLive now)).map
      Row.value

end Storage

end CrudAuth
