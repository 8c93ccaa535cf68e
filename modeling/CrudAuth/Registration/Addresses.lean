import CrudAuth.Registration.Table
import Mathlib.Data.List.Nodup

/-
  When every login value finds its own row: unique columns,
  canonical emails, and no value that another login field
  would find on another row.

  Main declarations:
    * `UserRepository.Apart`
    * `UserRepository.Addressed`
    * `UserRepository.ReachesOwn`
    * `UserRepository.Addressed.reachesOwn`
    * `UserRepository.Addressed.exec`
-/

namespace CrudAuth

namespace Registration

open Concurrency

namespace UserRepository

variable (repo : UserRepository)

------------------------------------------------------------
-- Identifiers Across Columns
------------------------------------------------------------

/-
  A login value of the first row, looked up by a different
  login field, is a value of the second row.
-/
def Captures (first second : UserRow) : Prop :=
  ∃ field ∈ repo.loginFields, ∃ other ∈ repo.loginFields,
    field ≠ other ∧
      first.columns (repo.col field) ≠ .null ∧
        second.columns (repo.col other) =
          repo.lookupValue other
            (first.columns (repo.col field))

/- Neither row can be taken for the other. -/
def Apart (first second : UserRow) : Prop :=
  ¬ repo.Captures first second ∧
    ¬ repo.Captures second first

/- Every login value resolves to the row that holds it. -/
def ReachesOwn (table : UsersTable) : Prop :=
  ∀ row ∈ table, ∀ field ∈ repo.loginFields,
    row.columns (repo.col field) ≠ .null →
      (repo.resolveLogin (row.columns (repo.col field))).run
          repo.table.exec table =
        (.ok (some row), table)

/-
  Rows by distinct ids; unique columns, canonical emails,
  and rows that stay apart.
-/
structure Addressed (table : UsersTable) : Prop where
  ids : (table.map UserRow.id).Nodup
  unique : ∀ column ∈ repo.uniqueColumns,
    ∀ row ∈ table, ∀ other ∈ table,
      row.columns column ≠ .null →
        other.columns column = row.columns column →
          other.id = row.id
  canonical : "email" ∈ repo.loginFields →
    ∀ row ∈ table,
      repo.canonicalValue
          (row.columns (repo.col "email")) =
        row.columns (repo.col "email")
  apart : ∀ row ∈ table, ∀ other ∈ table,
    row.id ≠ other.id → repo.Apart row other

/-
  What a write may do: it keeps its row apart from the rows
  of the table, and an update is none of an email.
-/
def SparesOthers (table : UsersTable) : TableOp → Prop
  | .select _ _ => True
  | .insert columns fill =>
      ∀ other ∈ table,
        repo.Apart (table.newRow columns fill) other
  | .update id columns =>
      columns.get (repo.col "email") = none ∧
        ∀ row ∈ table, row.id = id →
          ∀ other ∈ table, other.id ≠ id →
            repo.Apart (row.write columns) other

instance (first second : UserRow) :
    Decidable (repo.Captures first second) :=
  inferInstanceAs (Decidable
    (∃ field ∈ repo.loginFields,
      ∃ other ∈ repo.loginFields,
        field ≠ other ∧
          first.columns (repo.col field) ≠ .null ∧
            second.columns (repo.col other) =
              repo.lookupValue other
                (first.columns (repo.col field))))

instance (first second : UserRow) :
    Decidable (repo.Apart first second) :=
  inferInstanceAs (Decidable
    (¬ repo.Captures first second ∧
      ¬ repo.Captures second first))

instance decidableSparesOthers
    (table : UsersTable) :
    ∀ op, Decidable (repo.SparesOthers table op)
  | .select _ _ => instDecidableTrue
  | .insert columns fill =>
      inferInstanceAs (Decidable
        (∀ other ∈ table,
          repo.Apart (table.newRow columns fill) other))
  | .update id columns =>
      inferInstanceAs (Decidable
        (columns.get (repo.col "email") = none ∧
          ∀ row ∈ table, row.id = id →
            ∀ other ∈ table, other.id ≠ id →
              repo.Apart (row.write columns) other))

/- What a program must insert: a canonical email. -/
def CanonicalInsert : TableOp → Prop
  | .insert columns _ =>
      "email" ∈ repo.loginFields →
        ∃ value,
          columns.get (repo.col "email") = some value ∧
            repo.canonicalValue value = value
  | _ => True

variable {repo}
variable {table : UsersTable}

------------------------------------------------------------
-- Resolving
------------------------------------------------------------

/- Rows with one id are one row. -/
theorem Addressed.eq_of_id
    (hTable : repo.Addressed table)
    {row other : UserRow}
    (hRow : row ∈ table)
    (hOther : other ∈ table)
    (hId : row.id = other.id) :
    row = other :=
  List.inj_on_of_nodup_map hTable.ids hRow hOther hId

/- A login value is looked up as it is stored. -/
theorem Addressed.lookup_own
    (hTable : repo.Addressed table)
    {row : UserRow}
    {field : String}
    (hRow : row ∈ table)
    (hField : field ∈ repo.loginFields) :
    repo.lookupValue field
        (row.columns (repo.col field)) =
      row.columns (repo.col field) := by
  unfold lookupValue
  by_cases hEmail : field = "email"
  · rw [if_pos hEmail]
    subst hEmail
    exact hTable.canonical hField row hRow
  · rw [if_neg hEmail]

/- A select by a login field finds at most its own row. -/
theorem Addressed.select_own
    (hTable : repo.Addressed table)
    (hUnique : ∀ field ∈ repo.loginFields,
      repo.col field ∈ repo.uniqueColumns)
    {row found : UserRow}
    {field other : String}
    (hRow : row ∈ table)
    (hField : field ∈ repo.loginFields)
    (hValue : row.columns (repo.col field) ≠ .null)
    (hOther : other ∈ repo.loginFields)
    (hFound : found ∈ table)
    (hSelect :
      found.columns (repo.col other) =
        repo.lookupValue other
          (row.columns (repo.col field))) :
    found = row := by
  apply hTable.eq_of_id hFound hRow
  by_cases hSame : field = other
  · subst hSame
    rw [hTable.lookup_own hRow hField] at hSelect
    exact hTable.unique _ (hUnique field hField) row hRow
      found hFound hValue hSelect
  · by_cases hId : found.id = row.id
    · exact hId
    · have hApart := hTable.apart row hRow found hFound
        (Ne.symm hId)
      exact absurd ⟨field, hField, other, hOther, hSame,
        hValue, hSelect⟩ hApart.1

/- A list whose members are one row has that row or none. -/
theorem eq_nil_or_singleton
    {rows : List UserRow}
    {row : UserRow}
    (hNodup : rows.Nodup)
    (hAll : ∀ found ∈ rows, found = row) :
    rows = [] ∨ rows = [row] := by
  cases rows with
  | nil => exact .inl rfl
  | cons first rest =>
      right
      have hFirst := hAll first List.mem_cons_self
      subst hFirst
      cases rest with
      | nil => rfl
      | cons second rest =>
          have hSecond := hAll second
            (List.mem_cons_of_mem _ List.mem_cons_self)
          subst hSecond
          exact absurd List.mem_cons_self
            (List.nodup_cons.mp hNodup).1

theorem run_selectOne
    (column : String)
    (value : Value) :
    (selectOne column value).run repo.table.exec table =
      (oneOrNone (table.matching column value)).run
        repo.table.exec table := rfl

/- A row matches by a value that is not null. -/
theorem mem_matching
    {row : UserRow}
    {column : String}
    {value : Value} :
    row ∈ table.matching column value ↔
      row ∈ table ∧ value ≠ .null ∧
        row.columns column = value := by
  unfold UsersTable.matching
  rw [List.mem_filter, Bool.and_eq_true, decide_eq_true_eq,
    decide_eq_true_eq]

/-
  Down the login fields, nothing but the row itself is
  found, and the field that holds the value finds it.
-/
theorem Addressed.run_resolveLoginAmong
    (hTable : repo.Addressed table)
    (hUnique : ∀ field ∈ repo.loginFields,
      repo.col field ∈ repo.uniqueColumns)
    {row : UserRow}
    {field : String}
    (hRow : row ∈ table)
    (hField : field ∈ repo.loginFields)
    (hValue : row.columns (repo.col field) ≠ .null)
    (fields : List String)
    (hFields : fields ⊆ repo.loginFields)
    (hLater : field ∈ fields) :
    (repo.resolveLoginAmong
        (row.columns (repo.col field)) fields).run
          repo.table.exec table =
      (.ok (some row), table) := by
  induction fields with
  | nil => cases hLater
  | cons other rest ih =>
      have hOther := hFields List.mem_cons_self
      have hRows :
          table.matching (repo.col other)
              (repo.lookupValue other
                (row.columns (repo.col field))) = [] ∨
            table.matching (repo.col other)
                (repo.lookupValue other
                  (row.columns (repo.col field))) =
              [row] := by
        apply eq_nil_or_singleton
        · exact (List.Nodup.of_map _ hTable.ids).filter _
        · intro found hFound
          rcases mem_matching.mp hFound with
            ⟨hMem, -, hSelect⟩
          exact hTable.select_own hUnique hRow hField
            hValue hOther hMem hSelect
      unfold resolveLoginAmong
      rw [Program.bind_eq, Program.run_bind]
      unfold getByField
      rw [run_selectOne]
      rcases hRows with hNone | hOne
      · rw [hNone]
        -- Not found here, so the field is a later one.
        have hNe : field ≠ other := by
          intro hSame
          subst hSame
          rw [hTable.lookup_own hRow hField] at hNone
          have hIn := mem_matching.mpr ⟨hRow, hValue, rfl⟩
          rw [hNone] at hIn
          cases hIn
        have hIn : field ∈ rest := by
          rcases List.mem_cons.mp hLater with hSame | hRest
          · exact absurd hSame hNe
          · exact hRest
        exact ih (fun name hName =>
          hFields (List.mem_cons_of_mem _ hName)) hIn
      · rw [hOne]
        rfl

/- Addressed rows are reached by their own values. -/
theorem Addressed.reachesOwn
    (hTable : repo.Addressed table)
    (hUnique : ∀ field ∈ repo.loginFields,
      repo.col field ∈ repo.uniqueColumns) :
    repo.ReachesOwn table := by
  intro row hRow field hField hValue
  exact hTable.run_resolveLoginAmong hUnique hRow hField
    hValue repo.loginFields (fun _ hName => hName) hField

------------------------------------------------------------
-- Writes
------------------------------------------------------------

/- The next id is above every id of the table. -/
theorem lt_nextId
    {row : UserRow}
    (hRow : row ∈ table) :
    row.id < table.nextId := by
  unfold UsersTable.nextId
  induction table with
  | nil => cases hRow
  | cons first rest ih =>
      rw [List.map_cons, List.foldr_cons]
      rcases List.mem_cons.mp hRow with rfl | hRest
      · omega
      · have hLater := ih hRest
        omega

/- What a write that breaks nothing unique shows. -/
theorem ne_of_not_breaksUnique
    {row other : UserRow}
    {column : String}
    (hBreaks : repo.breaksUnique table row = false)
    (hColumn : column ∈ repo.uniqueColumns)
    (hOther : other ∈ table)
    (hValue : row.columns column ≠ .null)
    (hSame : other.columns column = row.columns column) :
    other.id = row.id := by
  by_contra hId
  unfold breaksUnique at hBreaks
  rw [List.any_eq_false] at hBreaks
  apply hBreaks column hColumn
  rw [Bool.and_eq_true, List.any_eq_true]
  refine ⟨decide_eq_true hValue, other, hOther, ?_⟩
  rw [Bool.and_eq_true]
  exact ⟨decide_eq_true hId, decide_eq_true hSame⟩

theorem Apart.symm
    {first second : UserRow}
    (hApart : repo.Apart first second) :
    repo.Apart second first :=
  ⟨hApart.2, hApart.1⟩

/- A new row whose email is canonical and that is apart. -/
theorem Addressed.append
    (hTable : repo.Addressed table)
    {row : UserRow}
    (hFresh : ∀ other ∈ table, other.id ≠ row.id)
    (hBreaks : repo.breaksUnique table row = false)
    (hCanonical : "email" ∈ repo.loginFields →
      repo.canonicalValue
          (row.columns (repo.col "email")) =
        row.columns (repo.col "email"))
    (hApart : ∀ other ∈ table, repo.Apart row other) :
    repo.Addressed (table ++ [row]) where
  ids := by
    rw [List.map_append]
    apply List.Nodup.append hTable.ids
    · exact List.nodup_singleton _
    · intro id hLeft hRight
      rcases List.mem_map.mp hLeft with ⟨other, hOther, rfl⟩
      exact hFresh other hOther
        (List.mem_singleton.mp hRight)
  unique := by
    intro column hColumn left hLeft right hRight hValue
      hSame
    rcases List.mem_append.mp hLeft with hOld | hNew
    · rcases List.mem_append.mp hRight with hOld' | hNew'
      · exact hTable.unique column hColumn left hOld right
          hOld' hValue hSame
      · have hRow := List.mem_singleton.mp hNew'
        subst hRow
        rw [← hSame] at hValue
        exact (ne_of_not_breaksUnique hBreaks hColumn hOld
          hValue hSame.symm).symm
    · have hRow := List.mem_singleton.mp hNew
      subst hRow
      rcases List.mem_append.mp hRight with hOld' | hNew'
      · exact ne_of_not_breaksUnique hBreaks hColumn hOld'
          hValue hSame
      · rw [List.mem_singleton.mp hNew']
  canonical := by
    intro hEmail other hOther
    rcases List.mem_append.mp hOther with hOld | hNew
    · exact hTable.canonical hEmail other hOld
    · rw [List.mem_singleton.mp hNew]
      exact hCanonical hEmail
  apart := by
    intro left hLeft right hRight hId
    rcases List.mem_append.mp hLeft with hOld | hNew
    · rcases List.mem_append.mp hRight with hOld' | hNew'
      · exact hTable.apart left hOld right hOld' hId
      · rw [List.mem_singleton.mp hNew']
        exact (hApart left hOld).symm
    · have hRow := List.mem_singleton.mp hNew
      subst hRow
      rcases List.mem_append.mp hRight with hOld' | hNew'
      · exact hApart right hOld'
      · rw [List.mem_singleton.mp hNew'] at hId
        exact absurd rfl hId

/- The rows after one of them was written. -/
theorem mem_written
    (hTable : repo.Addressed table)
    {row found : UserRow}
    {columns : Data}
    (hRow : row ∈ table)
    (hFound : found ∈ table.map fun other =>
      if other.id = row.id then
        other.write columns
      else
        other) :
    found = row.write columns ∨
      (found ∈ table ∧ found.id ≠ row.id) := by
  rcases List.mem_map.mp hFound with ⟨other, hOther, rfl⟩
  by_cases hId : other.id = row.id
  · left
    rw [if_pos hId, hTable.eq_of_id hOther hRow hId]
  · right
    rw [if_neg hId]
    exact ⟨hOther, hId⟩

/- A write that breaks no index keeps them so. -/
theorem Addressed.written
    (hTable : repo.Addressed table)
    {row : UserRow}
    {columns : Data}
    (hRow : row ∈ table)
    (hBreaks :
      repo.breaksUnique table (row.write columns) = false)
    (hEmail : columns.get (repo.col "email") = none)
    (hApart : ∀ other ∈ table, other.id ≠ row.id →
      repo.Apart (row.write columns) other) :
    repo.Addressed (table.map fun other =>
      if other.id = row.id then
        other.write columns
      else
        other) where
  ids := by
    have hIds :
        (table.map fun other =>
          if other.id = row.id then
            other.write columns
          else
            other).map UserRow.id =
          table.map UserRow.id := by
      rw [List.map_map]
      apply List.map_congr_left
      intro other _
      dsimp only [Function.comp]
      by_cases hId : other.id = row.id
      · rw [if_pos hId]
        rfl
      · rw [if_neg hId]
    rw [hIds]
    exact hTable.ids
  unique := by
    intro column hColumn left hLeft right hRight hValue
      hSame
    rcases mem_written hTable hRow hLeft with
      rfl | ⟨hLeft, hLeftId⟩
    · rcases mem_written hTable hRow hRight with
        rfl | ⟨hRight, -⟩
      · rfl
      · exact ne_of_not_breaksUnique hBreaks hColumn hRight
          hValue hSame
    · rcases mem_written hTable hRow hRight with
        rfl | ⟨hRight, -⟩
      · rw [← hSame] at hValue
        exact (ne_of_not_breaksUnique hBreaks hColumn hLeft
          hValue hSame.symm).symm
      · exact hTable.unique column hColumn left hLeft right
          hRight hValue hSame
  canonical := by
    intro hLogin found hFound
    rcases mem_written hTable hRow hFound with
      rfl | ⟨hOld, -⟩
    · have hKept :
          (row.write columns).columns (repo.col "email") =
            row.columns (repo.col "email") := by
        unfold UserRow.write
        dsimp only
        rw [hEmail]
        rfl
      rw [hKept]
      exact hTable.canonical hLogin row hRow
    · exact hTable.canonical hLogin found hOld
  apart := by
    intro left hLeft right hRight hId
    rcases mem_written hTable hRow hLeft with
      rfl | ⟨hLeft, hLeftId⟩
    · rcases mem_written hTable hRow hRight with
        rfl | ⟨hRight, hRightId⟩
      · exact absurd rfl hId
      · exact hApart right hRight hRightId
    · rcases mem_written hTable hRow hRight with
        rfl | ⟨hRight, -⟩
      · exact (hApart left hLeft hLeftId).symm
      · exact hTable.apart left hLeft right hRight hId

/- Every statement that spares the others keeps the table. -/
theorem Addressed.exec
    (hTable : repo.Addressed table)
    {op : TableOp}
    (hCanonical : repo.CanonicalInsert op)
    (hSpares : repo.SparesOthers table op) :
    repo.Addressed (repo.execTable op table).2 := by
  cases op with
  | select column value => exact hTable
  | insert columns fill =>
      unfold execTable
      dsimp only
      cases hBreaks : repo.breaksIntegrity table
          (table.newRow columns fill) with
      | true =>
          rw [if_pos rfl]
          exact hTable
      | false =>
          rw [if_neg (by decide)]
          apply hTable.append
          · intro other hOther
            exact Nat.ne_of_lt (lt_nextId hOther)
          · exact breaksUnique_of_stored hBreaks
          · intro hEmail
            rcases hCanonical hEmail with
              ⟨value, hValue, hIs⟩
            have hStored :
                (table.newRow columns fill).columns
                    (repo.col "email") = value := by
              unfold UsersTable.newRow UserRow.write
              dsimp only
              rw [hValue]
              rfl
            rw [hStored, hIs]
          · exact hSpares
  | update id columns =>
      unfold execTable
      dsimp only
      cases hFind : table.find? fun row => row.id = id with
      | none => exact hTable
      | some row =>
          dsimp only
          have hRow := List.mem_of_find?_eq_some hFind
          have hId : row.id = id := by
            simpa using List.find?_some hFind
          subst hId
          cases hBreaks : repo.breaksIntegrity table
              (row.write columns) with
          | true =>
              rw [if_pos rfl]
              exact hTable
          | false =>
              rw [if_neg (by decide)]
              exact hTable.written hRow
                (breaksUnique_of_stored hBreaks) hSpares.1
                (hSpares.2 row hRow rfl)

end UserRepository

end Registration

end CrudAuth
