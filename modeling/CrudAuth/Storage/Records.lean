import CrudAuth.Storage.Base

/-
  The storage interface over serialized records: models are
  kept as JSON texts, under string keys that share a prefix,
  with the user ids as the callers have them.

  Main declarations:
    * `Codec`
    * `Method`
    * `storedKey`
    * `Table.updateWhere`, `Table.deleteWhere`
    * `Table.All`
-/

------------------------------------------------------------
-- Texts And Models
------------------------------------------------------------

namespace CrudAuth

namespace Storage

/- Strings, of keys and of serialized values. -/
abbrev Text := List Char

/- A user id: an integer or a string. -/
inductive UserRef where
  | number (id : Int)
  | text (id : Text)
deriving DecidableEq

/- `str(user_id)` -/
def UserRef.str : UserRef → Text
  | .number id => (toString id).toList
  | .text id => id

/-
  `str(payload["user_id"])`: of a value, or of the null
  that a JSON field can hold.
-/
def payloadStr : Option UserRef → Text
  | none => "None".toList
  | some userId => userId.str

/-
  A Pydantic model: `model_dump_json`,
  `model_validate_json`, the attribute `user_id`, and the
  field `user_id` of a JSON text.  A model may have no such
  attribute, and one that has it may hold None there.
-/
structure Codec (μ : Type) where
  dump : μ → Text
  load : Text → Except HttpError μ
  userId : μ → Option (Option UserRef)
  payloadUserId : Text → Option (Option UserRef)

/- What is dumped is valid, and shows its `user_id`. -/
structure Codec.Lawful {μ : Type} (codec : Codec μ) :
    Prop where
  loads : ∀ data, ∃ loaded,
    codec.load (codec.dump data) = .ok loaded
  payload : ∀ data,
    codec.payloadUserId (codec.dump data) =
      codec.userId data

/- A model that is its own JSON. -/
def Codec.texts : Codec Text where
  dump := id
  load := .ok
  userId := fun _ => none
  payloadUserId := fun _ => none

/- Plain texts are a lawful codec. -/
theorem Codec.lawful_texts : Codec.texts.Lawful where
  loads := fun data => ⟨data, rfl⟩
  payload := fun _ => rfl

------------------------------------------------------------
-- The Interface
------------------------------------------------------------

/-
  The methods of a storage.  `change` mutates a value in
  place, or raises.  `sid` is never empty: a `create` has
  generated it where none was given.
-/
inductive Method (μ : Type) where
  | create
      (sid : Text)
      (data : μ)
      (expiration : Option Nat)
  | get (sid : Text)
  | update
      (sid : Text)
      (data : μ)
      (resetExpiration : Bool)
      (expiration : Option Nat)
  | modify
      (sid : Text)
      (change : μ → Except HttpError μ)
      (resetExpiration : Bool)
      (expiration : Option Nat)
  | delete (sid : Text) (userId : Option UserRef)
  | extend (sid : Text) (expiration : Option Nat)
  | exists? (sid : Text)
  | setIfAbsent
      (sid : Text)
      (data : μ)
      (expiration : Option Nat)
  | getAndDelete (sid : Text)
  | getUserSessions (userId : UserRef)
  | scanKeys (pattern : Option Text)

/- What each of them returns. -/
@[reducible]
def Method.Ret {μ : Type} : Method μ → Type
  | .create _ _ _ => Text
  | .get _ => Option μ
  | .update _ _ _ _ => Bool
  | .modify _ _ _ _ => Option μ
  | .delete _ _ => Bool
  | .extend _ _ => Bool
  | .exists? _ => Bool
  | .setIfAbsent _ _ _ => Bool
  | .getAndDelete _ => Option μ
  | .getUserSessions _ => List Text
  | .scanKeys _ => List Text

/- The record a method is about, if it is about one. -/
def Method.sid? {μ : Type} : Method μ → Option Text
  | .create sid _ _ => some sid
  | .get sid => some sid
  | .update sid _ _ _ => some sid
  | .modify sid _ _ _ => some sid
  | .delete sid _ => some sid
  | .extend sid _ => some sid
  | .exists? sid => some sid
  | .setIfAbsent sid _ _ => some sid
  | .getAndDelete sid => some sid
  | .getUserSessions _ => none
  | .scanKeys _ => none

/- The values that a method can write. -/
def Method.Writes {μ : Type} : Method μ → μ → Prop
  | .create _ data _, written => written = data
  | .update _ data _ _, written => written = data
  | .modify _ change _ _, written =>
      ∃ data, change data = .ok written
  | .setIfAbsent _ data _, written => written = data
  | _, _ => False

/- The TTL of a method, in seconds. -/
def Method.seconds {μ : Type}
    (expiration : Nat) : Method μ → Option Nat
  | .create _ _ ttl => some (ttl.getD expiration)
  | .update _ _ _ ttl => some (ttl.getD expiration)
  | .modify _ _ _ ttl => some (ttl.getD expiration)
  | .extend _ ttl => some (ttl.getD expiration)
  | .setIfAbsent _ _ ttl => some (ttl.getD expiration)
  | _ => none

/- `AbstractSessionStorage.get_key` -/
def getKey (keyPrefix sid : Text) : Text :=
  keyPrefix ++ sid

/- `DATABASE_KEY_MAX_LENGTH` -/
def databaseKeyMaxLength : Nat := 255

/- `DATABASE_KEY_DIGEST_SEPARATOR` -/
def databaseKeyDigestSeparator : Text := ['#']

/-
  `stored_key`: a key as it fits the key column.  `digest`
  is the hexadecimal SHA-256 of a key.
-/
def storedKey (digest : Text → Text) (key : Text) : Text :=
  if key.length ≤ databaseKeyMaxLength then
    key
  else
    key.take (databaseKeyMaxLength - (digest key).length -
        databaseKeyDigestSeparator.length) ++
      databaseKeyDigestSeparator ++ digest key

/- A key that fits is stored as it is. -/
theorem storedKey_of_fits
    {digest : Text → Text}
    {key : Text}
    (hFits : key.length ≤ databaseKeyMaxLength) :
    storedKey digest key = key := by
  unfold storedKey
  rw [if_pos hFits]

------------------------------------------------------------
-- Statements On One Row
------------------------------------------------------------

namespace Table

variable {κ ρ : Type} [DecidableEq κ]

/- UPDATE of one row where a condition holds. -/
def updateWhere
    (table : Table κ ρ)
    (key : κ)
    (condition : ρ → Bool)
    (change : ρ → ρ) : Bool × Table κ ρ :=
  match (table.lookup key).filter condition with
  | none => (false, table)
  | some row => (true, AList.insert key (change row) table)

/- DELETE of one row where a condition holds. -/
def deleteWhere
    (table : Table κ ρ)
    (key : κ)
    (condition : ρ → Bool) : Option ρ × Table κ ρ :=
  ((table.lookup key).filter condition,
    table.eraseIf key condition)

variable (table : Table κ ρ)
variable (key other : κ)
variable (condition : ρ → Bool)
variable (change : ρ → ρ)

/- An update applies to a row that qualifies. -/
@[simp]
theorem updateWhere_fst :
    (table.updateWhere key condition change).1 =
      (table.lookup key).any condition := by
  unfold updateWhere
  cases hRow : table.lookup key with
  | none => rfl
  | some row =>
      cases hMeets : condition row <;>
        simp [Option.filter, hMeets]

/- An update touches the one row, and only where it may. -/
@[simp]
theorem lookup_updateWhere :
    (table.updateWhere key condition change).2.lookup
        other =
      if key = other then
        (table.lookup other).map fun row =>
          if condition row then change row else row
      else
        table.lookup other := by
  unfold updateWhere
  by_cases hKey : key = other
  · subst hKey
    rw [if_pos rfl]
    cases hRow : table.lookup key with
    | none => simp [hRow]
    | some row =>
        cases hMeets : condition row <;>
          simp [Option.filter, hMeets, hRow]
  · rw [if_neg hKey]
    split
    · rfl
    · exact AList.lookup_insert_ne (Ne.symm hKey)

/- A deletion returns the row it deletes. -/
@[simp]
theorem deleteWhere_fst :
    (table.deleteWhere key condition).1 =
      (table.lookup key).filter condition :=
  rfl

/- What is left after it. -/
@[simp]
theorem lookup_deleteWhere :
    (table.deleteWhere key condition).2.lookup other =
      if key = other then
        (table.lookup other).filter fun row =>
          !condition row
      else
        table.lookup other :=
  lookup_eraseIf table key other condition

------------------------------------------------------------
-- What Holds Of Every Row
------------------------------------------------------------

/- Every row, with its key, is good. -/
def All (good : κ → ρ → Prop) (table : Table κ ρ) : Prop :=
  ∀ key row, table.lookup key = some row → good key row

section All

variable {good : κ → ρ → Prop}
variable {table : Table κ ρ}
variable {key : κ}
variable {condition : ρ → Bool}

/- A guarded deletion keeps what holds of all rows. -/
theorem All.eraseIf
    (hAll : table.All good) :
    (table.eraseIf key condition).All good := by
  intro other row hRow
  apply hAll other row
  rw [lookup_eraseIf] at hRow
  split at hRow
  · exact (Option.filter_eq_some_iff.mp hRow).1
  · exact hRow

theorem All.erase
    (hAll : table.All good) :
    Table.All good (AList.erase key table) := by
  intro other row hRow
  apply hAll other row
  rw [lookup_erase'] at hRow
  split at hRow
  · cases hRow
  · exact hRow

theorem All.insert
    {row : ρ}
    (hAll : table.All good)
    (hRow : good key row) :
    Table.All good (AList.insert key row table) := by
  intro other row' hRow'
  rw [lookup_insert'] at hRow'
  split at hRow'
  · rename_i hKey
    subst hKey
    obtain rfl := Option.some.inj hRow'
    exact hRow
  · exact hAll other row' hRow'

theorem All.updateWhere
    {change : ρ → ρ}
    (hAll : table.All good)
    (hChange : ∀ row, good key row → good key (change row)) :
    (table.updateWhere key condition change).2.All good := by
  intro other row' hRow'
  rw [lookup_updateWhere] at hRow'
  split at hRow'
  · rename_i hKey
    subst hKey
    rcases Option.map_eq_some_iff.mp hRow' with
      ⟨row, hRow, rfl⟩
    split
    · exact hChange row (hAll key row hRow)
    · exact hAll key row hRow
  · exact hAll other row' hRow'

theorem All.sweep
    (hAll : table.All good)
    (keys : List κ) :
    Table.All good
      (keys.foldl (fun table key =>
        table.eraseIf key condition) table) := by
  intro key row hRow
  exact hAll key row (lookup_of_sweep keys hRow)

end All

end Table

end Storage

end CrudAuth
