import Mathlib.Data.Option.Basic
import Mathlib.Logic.Function.Basic

/-
  The user row and the column writes crudauth makes to it.

  Random values (bcrypt salts, TOTP secrets, recovery codes,
  session ids) are numbers that the world hands out once.
  Hashes and ciphertexts keep what they were made from, so
  that equality of stored texts is equality of origins.

  Main declarations:
    * `StoredHash`
    * `Plaintext`
    * `User`
    * `Patch`
    * `Patch.flush`
-/

------------------------------------------------------------
-- Stored Values
------------------------------------------------------------

namespace CrudAuth

/- Ids and secrets are numbers. -/
abbrev UserId := Nat
abbrev Secret := Nat

/-
  The text of the `hashed_password` column: NULL, the
  unusable sentinel, a crudauth hash of a password form
  under a salt, or a text another system wrote.
-/
inductive StoredHash
  | missing
  | unusable (suffix : Nat)
  | bcrypt (form : String) (salt : Nat)
  | foreign (text : String)
deriving DecidableEq, Repr

/- What decrypting a stored TOTP ciphertext gives. -/
inductive Plaintext
  | bound (version : Nat) (secret : Secret)
  | bare (secret : Secret)
  | unreadable
deriving DecidableEq, Repr

/- One code of one generated batch, also as its hash. -/
structure RecoveryCode where
  batch : Nat
  index : Nat
deriving DecidableEq, Repr

------------------------------------------------------------
-- Rows
------------------------------------------------------------

/- A logical field that can identify an account. -/
inductive Field
  | email
  | username
  | column (name : String)
deriving DecidableEq, Repr

/- A row of the users table. -/
structure User where
  id : UserId
  email : Option String
  username : Option String
  columns : String → Option String
  hashedPassword : StoredHash
  isActive : Bool
  emailVerified : Bool
  factorVerified : Bool
  tokenVersion : Nat
  providerIds : String → Option String
  totpSecretEncrypted : Option Plaintext
  totpConfirmedAt : Option Nat
  totpLastStep : Option Nat
  mfaRecoveryCodes : Option (List RecoveryCode)

namespace User

/- The stored value of an identifying field. -/
def get (user : User) : Field → Option String
  | .email => user.email
  | .username => user.username
  | .column name => user.columns name

end User

------------------------------------------------------------
-- Writes
------------------------------------------------------------

/-
  The `data` of an update: `none` leaves a column alone,
  `some value` sets it (to NULL for `some none`).
-/
structure Patch where
  email : Option (Option String) := none
  username : Option (Option String) := none
  column : Option (String × Option String) := none
  hashedPassword : Option StoredHash := none
  emailVerified : Option Bool := none
  factorVerified : Option Bool := none
  providerId : Option (String × String) := none
  totpSecretEncrypted : Option (Option Plaintext) := none
  totpConfirmedAt : Option (Option Nat) := none
  totpLastStep : Option (Option Nat) := none
  mfaRecoveryCodes :
    Option (Option (List RecoveryCode)) := none

/-
  One column of a unit-of-work flush: the statement sets it
  only if the assigned value differs from the loaded one.
-/
def flushColumn {α : Type} [DecidableEq α]
    (loaded : α)
    (assigned : Option α)
    (stored : α) : α :=
  match assigned with
  | none => stored
  | some value =>
      if value = loaded then stored else value

/- The same for a column addressed by its name. -/
def flushNamed {α : Type} [DecidableEq α]
    (loaded : String → Option α)
    (assigned : Option (String × Option α))
    (stored : String → Option α) :
    String → Option α :=
  match assigned with
  | none => stored
  | some (name, value) =>
      Function.update stored name
        (flushColumn (loaded name) (some value)
          (stored name))

/- A column the patch omits. -/
@[simp]
theorem flushColumn_none {α : Type} [DecidableEq α]
    (loaded stored : α) :
    flushColumn loaded none stored = stored :=
  rfl

/- A column it names is written if it differs. -/
theorem flushColumn_some {α : Type} [DecidableEq α]
    (loaded value stored : α) :
    flushColumn loaded (some value) stored =
      if value = loaded then stored else value :=
  rfl

/- A column that has not moved ends with what was set. -/
@[simp]
theorem flushColumn_self {α : Type} [DecidableEq α]
    (stored value : α) :
    flushColumn stored (some value) stored = value := by
  by_cases hValue : value = stored
  · simp [flushColumn_some, hValue]
  · simp [flushColumn_some, hValue]

/- A flush keeps a column or sets what was assigned. -/
theorem flushColumn_cases {α : Type} [DecidableEq α]
    (loaded stored : α)
    (assigned : Option α) :
    flushColumn loaded assigned stored = stored ∨
      assigned =
        some (flushColumn loaded assigned stored) := by
  cases assigned with
  | none => exact Or.inl rfl
  | some value =>
      by_cases hValue : value = loaded
      · exact Or.inl (by simp [flushColumn_some, hValue])
      · exact Or.inr (by simp [flushColumn_some, hValue])

@[simp]
theorem flushNamed_none {α : Type} [DecidableEq α]
    (loaded stored : String → Option α) :
    flushNamed loaded none stored = stored :=
  rfl

namespace Patch

/-
  The row after the changes made to the copy `loaded` are
  flushed onto `stored`, the row as it is by then.
-/
def flush
    (data : Patch)
    (loaded stored : User) : User where
  id := stored.id
  email := flushColumn loaded.email data.email stored.email
  username :=
    flushColumn loaded.username data.username
      stored.username
  columns :=
    flushNamed loaded.columns data.column stored.columns
  hashedPassword :=
    flushColumn loaded.hashedPassword data.hashedPassword
      stored.hashedPassword
  isActive := stored.isActive
  emailVerified :=
    flushColumn loaded.emailVerified data.emailVerified
      stored.emailVerified
  factorVerified :=
    flushColumn loaded.factorVerified data.factorVerified
      stored.factorVerified
  tokenVersion := stored.tokenVersion
  providerIds :=
    flushNamed loaded.providerIds
      (data.providerId.map fun entry =>
        (entry.1, some entry.2))
      stored.providerIds
  totpSecretEncrypted :=
    flushColumn loaded.totpSecretEncrypted
      data.totpSecretEncrypted stored.totpSecretEncrypted
  totpConfirmedAt :=
    flushColumn loaded.totpConfirmedAt
      data.totpConfirmedAt stored.totpConfirmedAt
  totpLastStep :=
    flushColumn loaded.totpLastStep data.totpLastStep
      stored.totpLastStep
  mfaRecoveryCodes :=
    flushColumn loaded.mfaRecoveryCodes
      data.mfaRecoveryCodes stored.mfaRecoveryCodes

/- Every assigned column, as a conditional UPDATE sets it. -/
def assign (data : Patch) (stored : User) : User :=
  data.flush stored stored

/- The key is not part of a patch. -/
@[simp]
theorem flush_id
    (data : Patch)
    (loaded stored : User) :
    (data.flush loaded stored).id = stored.id :=
  rfl

@[simp]
theorem flush_tokenVersion
    (data : Patch)
    (loaded stored : User) :
    (data.flush loaded stored).tokenVersion =
      stored.tokenVersion :=
  rfl

@[simp]
theorem flush_isActive
    (data : Patch)
    (loaded stored : User) :
    (data.flush loaded stored).isActive =
      stored.isActive :=
  rfl

/- An assignment keeps the key -/
@[simp]
theorem assign_id (data : Patch) (stored : User) :
    (data.assign stored).id = stored.id :=
  rfl

@[simp]
theorem assign_tokenVersion
    (data : Patch)
    (stored : User) :
    (data.assign stored).tokenVersion =
      stored.tokenVersion :=
  rfl

end Patch

end CrudAuth
