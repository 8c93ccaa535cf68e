import CrudAuth.Storage.Glob
import CrudAuth.Storage.Transactions

/-
  The methods of `DatabaseSessionStorage`.

  `note_write` and operators purge at any moment, so the
  methods do not count their writes.

  Main declarations:
    * `DatabaseStorage.modify`
    * `DatabaseStorage.implement`
    * `DatabaseStorage.machine`
-/

------------------------------------------------------------
-- Methods
------------------------------------------------------------

namespace CrudAuth

namespace Storage

open Concurrency

namespace DatabaseStorage

/- What the storage and its database are set up with. -/
structure Config where
  keyPrefix : Text
  expiration : Nat
  deletesReturning : Bool
  digest : Text → Text

/- `DATABASE_MODIFY_MAX_ATTEMPTS` -/
def modifyMaxAttempts : Nat := 50

/- A call of the storage, as the transactions it makes. -/
abbrev Sql := Program transactions HttpError

/- One transaction. -/
def execute
    (transaction : Transaction) : Sql transaction.Ret :=
  Program.call (I := transactions) transaction

variable {μ : Type}
variable (codec : Codec μ)
variable (config : Config)

/- `get_key` -/
def key (sid : Text) : Text :=
  storedKey config.digest (getKey config.keyPrefix sid)

/- `_user_id`: null without the attribute or its value. -/
def userId (data : μ) : Option Text :=
  (codec.userId data).join.map UserRef.str

/- The columns of a value: its JSON and its user. -/
def columns (data : μ) : Columns where
  value := codec.dump data
  userId := userId codec data

/- `_expires_at` -/
def expiresAt (expiration : Option Nat) : Sql Nat := do
  let now ← execute .clock
  return now + lifetime config.expiration expiration

/- `model_validate_json` -/
def load (raw : Text) : Sql μ :=
  match codec.load raw with
  | .ok data => .done data
  | .error error => .raise error

/- `change(data)` -/
def apply
    (change : μ → Except HttpError μ)
    (data : μ) : Sql μ :=
  match change data with
  | .ok data => .done data
  | .error error => .raise error

/- The new expiry of a write, if it resets it. -/
def renewed
    (resetExpiration : Bool)
    (expiration : Option Nat) : Sql (Option Nat) := do
  if resetExpiration then
    return some (← expiresAt config expiration)
  else
    return none

/- A lost race between two inserts is run once more. -/
def create
    (sid : Text)
    (data : μ)
    (expiration : Option Nat) : Sql Text := do
  let expires ← expiresAt config expiration
  let write : Transaction :=
    .write (key config sid) (columns codec data) expires
  if ← execute write then
    return sid
  else if ← execute write then
    return sid
  else
    .raise .unhandled

/- The value of a row, if there is one. -/
def loaded : Option Text → Sql (Option μ)
  | none => .done none
  | some raw => (load codec raw).bind fun data =>
      .done (some data)

/- `get` -/
def get (sid : Text) : Sql (Option μ) := do
  let now ← execute .clock
  let row ← execute (.selectValue (key config sid) now)
  loaded codec row

/- `update` -/
def update
    (sid : Text)
    (data : μ)
    (resetExpiration : Bool)
    (expiration : Option Nat) : Sql Bool := do
  let expires ← renewed config resetExpiration expiration
  let now ← execute .clock
  execute (.update (key config sid) now (columns codec data)
    expires)

/-
  The rounds of a `modify`: read, change, and write to the
  version that was read.  The select was built once, at
  `current`; each update is built in its round.
-/
def modifyRounds
    (sid : Text)
    (change : μ → Except HttpError μ)
    (resetExpiration : Bool)
    (expiration : Option Nat)
    (current : Nat) : Nat → Sql (Option μ)
  | 0 => .raise .unhandled
  | rounds + 1 => do
      match ← execute (.selectVersion (key config sid)
          current) with
      | none => return none
      | some (raw, version) =>
          let data ← load codec raw
          let changed ← apply change data
          let expires ←
            renewed config resetExpiration expiration
          let now ← execute .clock
          if ← execute (.updateVersion (key config sid) now
              version (columns codec changed) expires) then
            return some changed
          else
            modifyRounds sid change resetExpiration
              expiration current rounds

/- `modify`: the select is built before the rounds. -/
def modify
    (sid : Text)
    (change : μ → Except HttpError μ)
    (resetExpiration : Bool)
    (expiration : Option Nat) : Sql (Option μ) := do
  let current ← execute .clock
  modifyRounds codec config sid change resetExpiration
    expiration current modifyMaxAttempts

/- `delete` -/
def delete (sid : Text) : Sql Bool :=
  execute (.remove (key config sid))

/- `extend` -/
def extend
    (sid : Text)
    (expiration : Option Nat) : Sql Bool := do
  let now ← execute .clock
  let expires ← expiresAt config expiration
  execute (.extend (key config sid) now expires)

/- `exists` -/
def exists? (sid : Text) : Sql Bool := do
  let now ← execute .clock
  execute (.selectKey (key config sid) now)

/- `set_if_absent` -/
def setIfAbsent
    (sid : Text)
    (data : μ)
    (expiration : Option Nat) : Sql Bool := do
  let expires ← expiresAt config expiration
  execute (.claim (key config sid) (columns codec data)
    expires)

/- `get_and_delete` -/
def getAndDelete (sid : Text) : Sql (Option μ) := do
  let raw ← execute (.consume (key config sid)
    config.deletesReturning)
  loaded codec raw

/- `get_user_sessions` -/
def getUserSessions (userId : UserRef) :
    Sql (List Text) := do
  let now ← execute .clock
  let keys ← execute (.selectUser config.keyPrefix userId.str
    now)
  return keys.map (List.drop config.keyPrefix.length)

/- `match or f"{self.prefix}*"` -/
def scanPattern : Option Text → Text
  | none => config.keyPrefix ++ ['*']
  | some [] => config.keyPrefix ++ ['*']
  | some pattern => pattern

/- `scan_keys` -/
def scanKeys (pattern : Option Text) : Sql (List Text) := do
  let glob := scanPattern config pattern
  let now ← execute .clock
  let keys ← execute (.selectKeys (Glob.literalStart glob)
    now)
  return keys.filter (Glob.fnmatchcase · glob)

/- The storage, method by method. -/
def implement : (method : Method μ) → Sql method.Ret
  | .create sid data expiration =>
      create codec config sid data expiration
  | .get sid => get codec config sid
  | .update sid data resetExpiration expiration =>
      update codec config sid data resetExpiration expiration
  | .modify sid change resetExpiration expiration =>
      modify codec config sid change resetExpiration
        expiration
  | .delete sid _ => delete config sid
  | .extend sid expiration => extend config sid expiration
  | .exists? sid => exists? config sid
  | .setIfAbsent sid data expiration =>
      setIfAbsent codec config sid data expiration
  | .getAndDelete sid => getAndDelete codec config sid
  | .getUserSessions userId => getUserSessions config userId
  | .scanKeys pattern => scanKeys config pattern

------------------------------------------------------------
-- The Machine
------------------------------------------------------------

/- The application's clock and the store table. -/
structure Service where
  clock : Nat
  table : StoreTable

namespace Service

/- Time passes, and expired rows are purged. -/
inductive Tick where
  | pass (time : Nat)
  | purge (batch : List Text)

/- A transaction, at the moment it runs. -/
def exec
    (transaction : Transaction)
    (service : Service) : transaction.Ret × Service :=
  let done := transaction.exec service.clock service.table
  (done.1, { service with table := done.2 })

/- What time and a purge leave. -/
def tick : Tick → Service → Service
  | .pass time, service =>
      { service with clock := service.clock + time }
  | .purge batch, service =>
      { service with
        table :=
          Transaction.purge service.clock service.table
            batch }

/- The value that can be read under a key. -/
def live (service : Service) (key : Text) : Option Text :=
  ((service.table.lookup key).filter
    (StoreRow.isLive service.clock)).map StoreRow.value

end Service

/- The clients of one store table. -/
abbrev machine : Machine transactions Service where
  Tick := Service.Tick
  exec := Service.exec
  tick := Service.tick

end DatabaseStorage

end Storage

end CrudAuth
