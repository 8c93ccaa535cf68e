import CrudAuth.Concurrency.Layers
import CrudAuth.Requests
import Mathlib.Data.List.AList

/-
  `AbstractSessionStorage`: the interface its backends
  implement, for one store of keyed values.

  A call of the interface is a program of a backend's own
  commands.  Time is in milliseconds, expirations are in
  seconds.  Keys stand for `get_key(session_id)`.

  Main declarations:
    * `Call`
    * `Table`
    * `Backend`
    * `Backend.Discipline`
-/

------------------------------------------------------------
-- The Interface
------------------------------------------------------------

namespace CrudAuth

namespace Storage

open Concurrency

/- Models with a `user_id`, by which they are indexed. -/
class Owned (ν : Type) where
  userId : ν → Option UserId

/-
  The calls of the interface.  `change` is what `modify`
  applies; its answer is the value as written, after the
  value that `change` was applied to last.
-/
inductive Call (κ ν : Type) where
  | create
      (key : κ)
      (data : ν)
      (expiration : Option Nat)
  | get (key : κ)
  | modify
      (key : κ)
      (change : ν → ν)
      (resetExpiration : Bool)
      (expiration : Option Nat)
  | delete (key : κ) (userId : Option UserId)
  | setIfAbsent
      (key : κ)
      (data : ν)
      (expiration : Option Nat)
  | getAndDelete (key : κ)
  | getUserSessions (userId : UserId)
  | removeFromUserIndex (userId : UserId) (key : κ)

variable {κ ν ρ : Type}

/- What each of them returns. -/
@[reducible]
def Call.Ret : Call κ ν → Type
  | .create _ _ _ => Unit
  | .get _ => Option ν
  | .modify _ _ _ _ => Option (ν × ν)
  | .delete _ _ => Bool
  | .setIfAbsent _ _ _ => Bool
  | .getAndDelete _ => Option ν
  | .getUserSessions _ => List κ
  | .removeFromUserIndex _ _ => Unit

/- A storage, as its callers see it. -/
abbrev calls (κ ν : Type) : Interface where
  Op := Call κ ν
  Ret := Call.Ret

/- `ttl` of a call, in milliseconds. -/
def lifetime
    (default : Nat)
    (expiration : Option Nat) : Nat :=
  expiration.getD default * 1000

------------------------------------------------------------
-- Tables
------------------------------------------------------------

/- What a backend keeps under its keys: one row a key. -/
abbrev Table (κ ρ : Type) := AList fun _ : κ => ρ

namespace Table

variable [DecidableEq κ]

/- The keys whose rows meet a condition. -/
def keysWhere
    (table : Table κ ρ)
    (condition : ρ → Bool) : List κ :=
  (table.entries.filter fun row => condition row.2).map
    Sigma.fst

/- Keep the rows that meet a condition. -/
def eraseIf
    (table : Table κ ρ)
    (key : κ)
    (condition : ρ → Bool) : Table κ ρ :=
  if (table.lookup key).any condition then
    table.erase key
  else
    table

/- A key is found by its row. -/
theorem mem_keysWhere
    {table : Table κ ρ}
    {condition : ρ → Bool}
    {key : κ} :
    key ∈ table.keysWhere condition ↔
      ∃ row, table.lookup key = some row ∧
        condition row = true := by
  unfold keysWhere
  constructor
  · intro hKey
    rcases List.mem_map.mp hKey with ⟨⟨_, row⟩, hRow, rfl⟩
    rw [List.mem_filter] at hRow
    exact ⟨row, AList.mem_lookup_iff.mpr hRow.1, hRow.2⟩
  · rintro ⟨row, hRow, hCondition⟩
    apply List.mem_map.mpr
    refine ⟨⟨key, row⟩, ?_, rfl⟩
    rw [List.mem_filter]
    exact ⟨AList.mem_lookup_iff.mp hRow, hCondition⟩

/- What is left after a guarded deletion. -/
theorem lookup_eraseIf
    (table : Table κ ρ)
    (key other : κ)
    (condition : ρ → Bool) :
    (table.eraseIf key condition).lookup other =
      if key = other then
        (table.lookup other).filter fun row =>
          !condition row
      else
        table.lookup other := by
  unfold eraseIf
  by_cases hKey : key = other
  · subst hKey
    cases hRow : table.lookup key with
    | none => simp [hRow]
    | some row => cases hMeets : condition row <;>
        simp [hRow, hMeets, Option.filter]
  · rw [if_neg hKey]
    split
    · exact AList.lookup_erase_ne (Ne.symm hKey)
    · rfl

/- Insertion, at the key and elsewhere. -/
theorem lookup_insert'
    (table : Table κ ρ)
    (key other : κ)
    (row : ρ) :
    (AList.insert key row table).lookup other =
      if key = other then
        some row
      else
        table.lookup other := by
  by_cases hKey : key = other
  · subst hKey
    simp
  · rw [if_neg hKey]
    exact AList.lookup_insert_ne (Ne.symm hKey)

theorem lookup_erase'
    (table : Table κ ρ)
    (key other : κ) :
    (AList.erase key table).lookup other =
      if key = other then
        none
      else
        table.lookup other := by
  by_cases hKey : key = other
  · subst hKey
    simp
  · rw [if_neg hKey]
    exact AList.lookup_erase_ne (Ne.symm hKey)

section Sweep

variable {table : Table κ ρ}
variable {condition : ρ → Bool}
variable {key : κ}
variable {row : ρ}

/- Erasing some rows adds and changes none. -/
theorem lookup_of_sweep
    (keys : List κ)
    (hRow :
      (keys.foldl (fun table key =>
        table.eraseIf key condition) table).lookup key =
          some row) :
    table.lookup key = some row := by
  induction keys generalizing table with
  | nil => exact hRow
  | cons first keys ih =>
      have hOlder := ih hRow
      rw [lookup_eraseIf] at hOlder
      split at hOlder
      · exact (Option.filter_eq_some_iff.mp hOlder).1
      · exact hOlder

/- A row that does not meet the condition stays. -/
theorem lookup_sweep
    (keys : List κ)
    (hRow : table.lookup key = some row)
    (hStays : condition row = false) :
    (keys.foldl (fun table key =>
      table.eraseIf key condition) table).lookup key =
        some row := by
  induction keys generalizing table with
  | nil => exact hRow
  | cons first keys ih =>
      apply ih
      rw [lookup_eraseIf, hRow]
      simp [Option.filter, hStays]

end Sweep

end Table

------------------------------------------------------------
-- Backends
------------------------------------------------------------

/-
  A backend: its commands, its server, and the programs of
  its calls.  `stored` is the value kept under a key, and
  `live` the value that can be read at a time.
-/
structure Backend (κ ν : Type) where
  commands : Interface
  State : Type
  server : Server commands State
  implement :
    (call : Call κ ν) → Program commands HttpError call.Ret
  stored : State → κ → Option ν
  live : State → Nat → κ → Option ν

end Storage

end CrudAuth
