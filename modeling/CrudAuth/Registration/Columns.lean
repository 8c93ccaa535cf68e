import CrudAuth.Registration.Dict

/-
  `UserRepository`: logical names, the columns they resolve
  to, and which names a sign-up may set.

  Main declarations:
    * `UserRow`
    * `logicalFields`
    * `UserRepository`
    * `UserRepository.col`
    * `UserRepository.filterRegistrationData`
    * `UserRepository.filterProvisioningData`
    * `UserRepository.createKwargs`
-/

namespace CrudAuth

namespace Registration

------------------------------------------------------------
-- Values
------------------------------------------------------------

/- A column value: NULL, a string, or another object. -/
inductive Value where
  | null
  | text (string : String)
  | object (code : Nat)
deriving DecidableEq, Repr

/- Values by the name of their field or column. -/
abbrev Data := Dict String Value

/- A user, as the model's columns have it. -/
structure UserRow where
  id : Nat
  columns : String → Value

/- The users table, in the order of its inserts. -/
abbrev UsersTable := List UserRow

------------------------------------------------------------
-- The Logical Contract
------------------------------------------------------------

/- `LOGICAL_FIELDS` -/
def logicalFields : List String :=
  ["id", "email", "username", "hashed_password",
    "is_active", "is_superuser", "email_verified",
    "token_version", "oauth_provider", "google_id",
    "github_id", "oauth_created_at", "oauth_updated_at",
    "totp_secret_encrypted", "totp_confirmed_at",
    "totp_last_step", "mfa_recovery_codes"]

/- `REGISTRATION_ALLOWED_FIELDS` -/
def registrationAllowedFields : List String :=
  ["email", "username"]

/- `REGISTRATION_GATED_FIELDS` -/
def registrationGatedFields : List String :=
  logicalFields.filter fun field =>
    field ∉ registrationAllowedFields

/- The linkage column of a provider. -/
def providerId (provider : String) : String :=
  provider ++ "_id"

/-
  The repository's configuration, and what it reads of the
  model: attributes, single-column unique columns, and the
  length of each string column.  `refuses` is what the rest
  of the schema says to a row: foreign keys, CHECK and NOT
  NULL, unique constraints over several columns, and so on.
-/
structure UserRepository where
  attributes : List String
  uniqueColumns : List String
  columnLength : String → Option Nat
  columnMap : Dict String String
  registerExtraFields : List String
  loginFields : List String
  recovery : Option String
  canonicalEmail : String → String
  refuses : UsersTable → UserRow → Bool

namespace UserRepository

variable (repo : UserRepository)

/- `_recovery_verified_col`, as at most one name. -/
def recoveryVerifiedCol : List String :=
  match repo.recovery with
  | none => []
  | some factor =>
      if factor = "email" then
        ["email_verified"]
      else
        [factor ++ "_verified"]

/- The column of a logical field. -/
def col (logical : String) : String :=
  (repo.columnMap.get logical).getD logical

/- The model has the column of a field. -/
def has (logical : String) : Bool :=
  repo.col logical ∈ repo.attributes

/- `is_unique_column` -/
def isUniqueColumn (logical : String) : Bool :=
  repo.col logical ∈ repo.uniqueColumns

/-
  `canonical_email` of a text, and other values as they are.
-/
def canonicalValue : Value → Value
  | .text string => .text (repo.canonicalEmail string)
  | value => value

/- `exceeds_length`: an email is measured canonicalized. -/
def exceedsLength
    (logical : String)
    (value : Value) : Option Nat :=
  match value with
  | .text string =>
      let measured :=
        if repo.col logical = repo.col "email" then
          repo.canonicalEmail string
        else
          string
      match repo.columnLength (repo.col logical) with
      | some limit =>
          if measured.length > limit then
            some limit
          else
            none
      | none => none
  | _ => none

------------------------------------------------------------
-- Gating
------------------------------------------------------------

/- `_gated_names` -/
def gatedNames : List String :=
  let gated :=
    registrationGatedFields ++ repo.recoveryVerifiedCol
  gated ++ gated.map repo.col

/- `_allowed_register_names` -/
def allowedRegisterNames : List String :=
  let allowed :=
    registrationAllowedFields ++ repo.registerExtraFields
  allowed ++ allowed.map repo.col

/- `filter_registration_data` -/
def filterRegistrationData (data : Data) : Data :=
  data.restrict fun key =>
    key ∈ repo.allowedRegisterNames ∧
      key ∉ repo.gatedNames

/- `_contract_names` -/
def contractNames : List String :=
  let names := logicalFields ++ repo.recoveryVerifiedCol
  names ++ names.map repo.col

/- `filter_provisioning_data`, less its warning. -/
def filterProvisioningData (data : Data) : Data :=
  data.restrict fun key => key ∉ repo.contractNames

------------------------------------------------------------
-- Creation
------------------------------------------------------------

/- The columns `create` passes to the model. -/
def columnsOf (data : Data) : Data :=
  data.foldl
    (fun columns item =>
      if repo.has item.1 then
        columns.set (repo.col item.1) item.2
      else
        columns) []

/- The columns of the new row, the email canonical. -/
def createKwargs (data : Data) : Data :=
  let columns := repo.columnsOf data
  match columns.get (repo.col "email") with
  | some value =>
      columns.set (repo.col "email")
        (repo.canonicalValue value)
  | none => columns

/- What either sign-up hands to `create`. -/
def createData
    (own defaults provided : Data) : Data :=
  (own.update (repo.filterProvisioningData defaults)).update
    (repo.filterProvisioningData provided)

variable {repo}
variable {data other : Data}
variable {column key : String}

/- The gated fields are all but two. -/
theorem mem_registrationGatedFields :
    key ∈ registrationGatedFields ↔
      key ∈ logicalFields ∧ key ≠ "email" ∧
        key ≠ "username" := by
  unfold registrationGatedFields registrationAllowedFields
  rw [List.mem_filter]
  simp

/- The contract has names and columns. -/
theorem mem_contractNames :
    key ∈ repo.contractNames ↔
      key ∈ logicalFields ++ repo.recoveryVerifiedCol ∨
        ∃ field ∈ logicalFields ++ repo.recoveryVerifiedCol,
          repo.col field = key := by
  unfold contractNames
  rw [List.mem_append, List.mem_map]

theorem mem_gatedNames :
    key ∈ repo.gatedNames ↔
      key ∈ registrationGatedFields ++
          repo.recoveryVerifiedCol ∨
        ∃ field ∈ registrationGatedFields ++
            repo.recoveryVerifiedCol,
          repo.col field = key := by
  unfold gatedNames
  rw [List.mem_append, List.mem_map]

/-
  A column of the new row is decided by the entries that
  resolve to it, the last of them.
-/
theorem get_columnsOf :
    (repo.columnsOf data).get column =
      ((data.restrict fun key =>
        repo.has key ∧ repo.col key = column).getLast?).map
          Prod.snd := by
  have hFold : ∀ columns : Data,
      (data.foldl
        (fun columns item =>
          if repo.has item.1 then
            columns.set (repo.col item.1) item.2
          else
            columns) columns).get column =
        (((data.restrict fun key =>
            repo.has key ∧ repo.col key =
              column).getLast?).map
              Prod.snd).or (columns.get column) := by
    unfold Dict.restrict
    induction data with
    | nil =>
        intro columns
        rfl
    | cons item rest ih =>
        intro columns
        rw [List.foldl_cons, ih, List.filter_cons]
        by_cases hHas : repo.has item.1
        · rw [if_pos hHas, Dict.get_set]
          by_cases hCol : repo.col item.1 = column
          · rw [if_pos hCol,
              if_pos (by simp [hHas, hCol]),
              List.getLast?_cons]
            cases hLast : (rest.filter fun item =>
                decide (repo.has item.1 = true ∧
                  repo.col item.1 = column)).getLast? with
            | none => simp
            | some last => simp
          · rw [if_neg hCol, if_neg (by simp [hCol])]
        · rw [if_neg hHas, if_neg (by simp [hHas])]
  have hColumns := hFold []
  unfold columnsOf
  rw [hColumns]
  simp [Dict.get]

/- The row depends on the entries of each column only. -/
theorem get_columnsOf_update
    (hOther : ∀ key ∈ other.keys,
      repo.has key → repo.col key ≠ column) :
    (repo.columnsOf (data.update other)).get column =
      (repo.columnsOf data).get column := by
  rw [get_columnsOf, get_columnsOf, Dict.restrict_update]
  intro key hMem
  apply decide_eq_false
  intro hBoth
  exact hOther key hMem hBoth.1 hBoth.2

/- Canonicalizing is decided by the column alone. -/
theorem get_createKwargs :
    (repo.createKwargs data).get column =
      ((repo.columnsOf data).get column).map fun value =>
        if column = repo.col "email" then
          repo.canonicalValue value
        else
          value := by
  unfold createKwargs
  dsimp only
  cases hEmail :
      (repo.columnsOf data).get (repo.col "email") with
  | none =>
      dsimp only
      by_cases hColumn : column = repo.col "email"
      · rw [hColumn, hEmail]
        rfl
      · simp [hColumn]
  | some value =>
      dsimp only
      rw [Dict.get_set]
      by_cases hColumn : column = repo.col "email"
      · subst hColumn
        rw [if_pos rfl, hEmail]
        simp
      · rw [if_neg (Ne.symm hColumn)]
        simp [hColumn]

end UserRepository

end Registration

end CrudAuth
