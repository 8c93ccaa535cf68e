import CrudAuth.Concurrency.Interleaving
import CrudAuth.Registration.Columns

/-
  The users table and the repository's statements on it.

  A select returns the matching rows; an insert or an update
  that breaks a unique column, or anything else that the
  schema asks for, changes nothing.

  Main declarations:
    * `TableOp`
    * `UserRepository.table`
    * `UserRepository.getByField`
    * `UserRepository.resolveLogin`
    * `UserRepository.create`
    * `UserRepository.update`
-/

namespace CrudAuth

namespace Registration

open Concurrency

------------------------------------------------------------
-- The Table
------------------------------------------------------------

/- An update writes the columns it names. -/
def UserRow.write (row : UserRow) (columns : Data) :
    UserRow :=
  { row with
    columns := fun column =>
      (columns.get column).getD (row.columns column) }

/- Autoincrement: an id above every one in use. -/
def UsersTable.nextId (table : UsersTable) : Nat :=
  (table.map UserRow.id).foldr max 0 + 1

/-
  Statements.  `fill` is what the model's own defaults give
  a new row; the answer of a write is the row as stored,
  `none` for an `IntegrityError`.
-/
inductive TableOp where
  | select (column : String) (value : Value)
  | insert (columns : Data) (fill : String → Value)
  | update (id : Nat) (columns : Data)

/- Answers of the users table. -/
def tableOps : Interface where
  Op := TableOp
  Ret
    | .select _ _ => List UserRow
    | .insert _ _ => Option UserRow
    | .update _ _ => Option UserRow

/- What a sign-up raises. -/
inductive SignUpError where
  | multipleResults
  | integrityError
  | keyError
  | passwordRejected
  | valueTooLong (fields : List (String × Nat))
  | rateLimited
  | duplicateValue (message : String)
  | oauthAccount (code : String)
  | unhandled
deriving DecidableEq

/- A sign-up, as the statements it makes. -/
abbrev TableFlow (α : Type) :=
  Program tableOps SignUpError α

/- One statement of a sign-up. -/
def callTable (op : TableOp) : TableFlow (tableOps.Ret op) :=
  @Program.call tableOps SignUpError op

/- The row an insert would store. -/
def UsersTable.newRow
    (table : UsersTable)
    (columns : Data)
    (fill : String → Value) : UserRow :=
  (⟨table.nextId, fill⟩ : UserRow).write columns

/- The rows a select finds; SQL's NULL equals nothing. -/
def UsersTable.matching
    (table : UsersTable)
    (column : String)
    (value : Value) : List UserRow :=
  table.filter fun row =>
    value ≠ .null && decide (row.columns column = value)

/- Python's truth of a value. -/
def Value.truthy : Value → Bool
  | .null => false
  | .text string => string ≠ ""
  | .object code => code ≠ 0

namespace UserRepository

variable (repo : UserRepository)

/- Another row holds one of the row's unique values. -/
def breaksUnique (table : UsersTable) (row : UserRow) :
    Bool :=
  repo.uniqueColumns.any fun column =>
    row.columns column ≠ .null &&
      table.any fun other =>
        other.id ≠ row.id &&
          decide (other.columns column = row.columns column)

/- The database answers with an `IntegrityError`. -/
def breaksIntegrity (table : UsersTable) (row : UserRow) :
    Bool :=
  repo.breaksUnique table row || repo.refuses table row

/- What is stored breaks no unique column. -/
theorem breaksUnique_of_stored
    {repo : UserRepository}
    {table : UsersTable}
    {row : UserRow}
    (hStored : repo.breaksIntegrity table row = false) :
    repo.breaksUnique table row = false :=
  (Bool.or_eq_false_iff.mp hStored).1

/- Each statement on the table. -/
def execTable :
    (op : TableOp) → UsersTable →
      tableOps.Ret op × UsersTable
  | .select column value, table =>
      (table.matching column value, table)
  | .insert columns fill, table =>
      let row := table.newRow columns fill
      if repo.breaksIntegrity table row then
        (none, table)
      else
        (some row, table ++ [row])
  | .update id columns, table =>
      match table.find? fun row => row.id = id with
      | none => (none, table)
      | some row =>
          if repo.breaksIntegrity table
              (row.write columns) then
            (none, table)
          else
            (some (row.write columns),
              table.map fun other =>
                if other.id = id then
                  other.write columns
                else
                  other)

/- The table; no time passes for it. -/
def table : Machine tableOps UsersTable where
  Tick := Empty
  exec := repo.execTable
  tick := fun tick _ => tick.elim

------------------------------------------------------------
-- Reads
------------------------------------------------------------

/- The value a lookup by this field compares with. -/
def lookupValue (logical : String) (value : Value) : Value :=
  if logical = "email" then
    repo.canonicalValue value
  else
    value

/- `scalar_one_or_none` -/
def oneOrNone :
    List UserRow → TableFlow (Option UserRow)
  | [] => return none
  | [row] => return some row
  | _ => .raise .multipleResults

/- A select of one row at most. -/
def selectOne
    (column : String)
    (value : Value) : TableFlow (Option UserRow) :=
  (callTable (.select column value)).bind oneOrNone

/- `get_by_field` -/
def getByField
    (logical : String)
    (value : Value) : TableFlow (Option UserRow) :=
  selectOne (repo.col logical)
    (repo.lookupValue logical value)

/- The login fields in order; the first match wins. -/
def resolveLoginAmong
    (identifier : Value) :
    List String → TableFlow (Option UserRow)
  | [] => return none
  | logical :: rest => do
      match ← repo.getByField logical identifier with
      | some row => return some row
      | none => resolveLoginAmong identifier rest

/- `resolve_login` -/
def resolveLogin
    (identifier : Value) : TableFlow (Option UserRow) :=
  repo.resolveLoginAmong identifier repo.loginFields

/- `get_by_oauth` -/
def getByOauth
    (provider providerUserId : String) :
    TableFlow (Option UserRow) :=
  if repo.has (providerId provider) then
    selectOne (repo.col (providerId provider))
      (.text providerUserId)
  else
    return none

/- A logical field of a row. -/
def get (row : UserRow) (logical : String) : Value :=
  if repo.has logical then
    row.columns (repo.col logical)
  else
    .null

------------------------------------------------------------
-- Writes
------------------------------------------------------------

/- `create`, with `none` for an `IntegrityError`. -/
def create?
    (data : Data)
    (fill : String → Value) : TableFlow (Option UserRow) :=
  callTable (.insert (repo.createKwargs data) fill)

/- The columns an update writes. -/
def updateColumns (data : Data) : Data :=
  repo.columnsOf
    (data.map fun item =>
      (item.1, repo.lookupValue item.1 item.2))

/- `update`, which reloads the row. -/
def updateRow
    (row : UserRow)
    (columns : Data) : TableFlow UserRow := do
  let stored : Option UserRow ←
    callTable (.update row.id columns)
  match stored with
  | some row => return row
  | none => .raise .integrityError

/- `update` -/
def update
    (row : UserRow)
    (data : Data) : TableFlow UserRow :=
  updateRow row (repo.updateColumns data)

/-
  `increment_token_version`, as read off the row: the column
  holds a number.
-/
def incrementTokenVersion
    (row : UserRow) : TableFlow UserRow :=
  if repo.has "token_version" then
    match repo.get row "token_version" with
    | .object version =>
        updateRow row
          [(repo.col "token_version",
            .object (version + 1))]
    | _ => return row
  else
    return row

end UserRepository

end Registration

end CrudAuth
