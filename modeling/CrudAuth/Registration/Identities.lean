import CrudAuth.Registration.Addresses
import CrudAuth.Registration.Gating

/-
  What identifies an account: its email and the ids that
  providers gave it, each in a unique column.

  A table is tidy when no two rows share such a value and
  every email is canonical.  What follows a tidy table
  carries its identities on: they are found again, under
  the same row.

  Main declarations:
    * `HasIdentities`
    * `TidyTable`
    * `Carries`
    * `Extends`
-/

------------------------------------------------------------
-- Identities
------------------------------------------------------------

namespace CrudAuth

namespace Registration

open Concurrency
open Concurrency.Program

namespace UserRepository

variable (repo : UserRepository)

/- The column of the id that a provider gives. -/
def linkage (provider : String) : String :=
  repo.col (providerId provider)

/- The table with emails as the only login field. -/
def byEmail : UserRepository :=
  { repo with loginFields := ["email"] }

/- Distinct ids, unique columns and canonical emails. -/
def TidyTable (table : UsersTable) : Prop :=
  repo.byEmail.Addressed table

/- Every row lives on, with its email and its links. -/
def Carries
    (providers : List String)
    (before after : UsersTable) : Prop :=
  ∀ row ∈ before, ∃ later ∈ after,
    later.id = row.id ∧
    later.columns (repo.col "email") =
      row.columns (repo.col "email") ∧
    ∀ provider ∈ providers,
      row.columns (repo.linkage provider) ≠ .null →
        later.columns (repo.linkage provider) =
          row.columns (repo.linkage provider)

variable {repo}
variable {providers : List String}
variable {table before after last : UsersTable}

theorem Carries.refl (table : UsersTable) :
    repo.Carries providers table table := by
  intro row hRow
  exact ⟨row, hRow, rfl, rfl, fun _ _ _ => rfl⟩

theorem Carries.trans
    (hFirst : repo.Carries providers before after)
    (hSecond : repo.Carries providers after last) :
    repo.Carries providers before last := by
  intro row hRow
  rcases hFirst row hRow with
    ⟨later, hLater, hId, hEmail, hLinks⟩
  rcases hSecond later hLater with
    ⟨final, hFinal, hId', hEmail', hLinks'⟩
  refine ⟨final, hFinal, hId'.trans hId,
    hEmail'.trans hEmail, ?_⟩
  intro provider hProvider hValue
  have hKept := hLinks provider hProvider hValue
  have hAgain : later.columns (repo.linkage provider) ≠
      .null := by
    rw [hKept]
    exact hValue
  rw [hLinks' provider hProvider hAgain, hKept]

/- With one login field nothing can be taken for another. -/
theorem apart_byEmail (first second : UserRow) :
    repo.byEmail.Apart first second := by
  have hNone : ∀ left right : UserRow,
      ¬ repo.byEmail.Captures left right := by
    rintro left right
      ⟨field, hField, other, hOther, hNe, _⟩
    apply hNe
    rw [List.mem_singleton.mp hField,
      List.mem_singleton.mp hOther]
  exact ⟨hNone first second, hNone second first⟩

------------------------------------------------------------
-- Statements
------------------------------------------------------------

/- The table after one row of it was written. -/
def written
    (table : UsersTable)
    (id : Nat)
    (columns : Data) : UsersTable :=
  table.map fun other =>
    if other.id = id then
      other.write columns
    else
      other

/- What a write leaves of a column it does not name. -/
theorem write_columns_of_none
    {row : UserRow}
    {columns : Data}
    {column : String}
    (hColumn : columns.get column = none) :
    (row.write columns).columns column =
      row.columns column := by
  unfold UserRow.write
  dsimp only
  rw [hColumn]
  rfl

/- A new row whose email is canonical. -/
theorem TidyTable.append
    (hTidy : repo.TidyTable table)
    {columns : Data}
    {fill : String → Value}
    (hBreaks : repo.breaksUnique table
      (table.newRow columns fill) = false)
    (hCanonical : repo.canonicalValue
        ((table.newRow columns fill).columns
          (repo.col "email")) =
      (table.newRow columns fill).columns
        (repo.col "email")) :
    repo.TidyTable
      (table ++ [table.newRow columns fill]) := by
  apply Addressed.append hTidy
  · intro other hOther
    exact Nat.ne_of_lt (lt_nextId hOther)
  · exact hBreaks
  · intro _
    exact hCanonical
  · intro other _
    exact apart_byEmail _ other

/- A row is written, and its email is not. -/
theorem TidyTable.written
    (hTidy : repo.TidyTable table)
    {row : UserRow}
    {columns : Data}
    (hRow : row ∈ table)
    (hBreaks : repo.breaksUnique table
      (row.write columns) = false)
    (hEmail : columns.get (repo.col "email") = none) :
    repo.TidyTable
      (UserRepository.written table row.id columns) := by
  apply Addressed.written hTidy hRow hBreaks hEmail
  intro other _ _
  exact apart_byEmail _ other

section Programs

variable {α β : Type}
variable {program : TableFlow α}
variable {next : α → TableFlow β}

/-
  A program that refuses no identity, and only adds rows to
  a tidy table.
-/
def Extends (repo : UserRepository) (program : TableFlow α) :
    Prop :=
  ∀ before, repo.TidyTable before →
    Ends repo.table.exec program before fun result after =>
      (∀ code, result ≠ .error (.oauthAccount code)) ∧
        repo.TidyTable after ∧ before ⊆ after

/- Two such programs, one after the other. -/
theorem Extends.bind
    (hProgram : repo.Extends program)
    (hNext : ∀ value, repo.Extends (next value)) :
    repo.Extends (program.bind next) := by
  intro before hTidy
  apply Ends.bind (hProgram before hTidy)
  · rintro value after ⟨_, hAfter, hSubset⟩
    apply Ends.mono (hNext value after hAfter)
    rintro _ last ⟨hResult, hLast, hMore⟩
    exact ⟨hResult, hLast, List.Subset.trans hSubset hMore⟩
  · rintro error after ⟨hResult, hAfter, hSubset⟩
    refine ⟨?_, hAfter, hSubset⟩
    intro code hError
    cases hError
    exact hResult code rfl

end Programs

end UserRepository

end Registration

end CrudAuth
