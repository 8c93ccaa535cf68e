import CrudAuth.Registration.Addresses
import CrudAuth.Registration.Register

/-
  What the answer to `POST /register` tells of the users
  table: two tables that differ in private values of the
  body only are to be answered alike.

  The answer is that of the first taken value in the order
  login fields, extra fields.  A private value that is taken
  conceals what follows it, and a free one does not.

  Main declarations:
    * `AuthSurface.answer`
    * `AuthSurface.verdict`
    * `AuthSurface.answer_eq`
    * `AuthSurface.RevealsNothing`
    * `AuthSurface.Hides`
    * `AuthSurface.Parts`
    * `AuthSurface.answer_eq_iff`
-/

namespace CrudAuth

namespace Registration

open Concurrency
open Concurrency.Program

------------------------------------------------------------
-- Values That Accounts Hold
------------------------------------------------------------

namespace UsersTable

/- An account holds the value in the column. -/
def holds
    (table : UsersTable)
    (column : String)
    (value : Value) : Bool :=
  !(table.matching column value).isEmpty

end UsersTable

namespace UserRepository

variable (repo : UserRepository)

/- A unique column has a value at most once. -/
def KeepsUnique (table : UsersTable) : Prop :=
  ∀ column ∈ repo.uniqueColumns, ∀ value,
    (table.matching column value).length ≤ 1

variable {repo}
variable {table : UsersTable}

/- A table holds a value if some row does. -/
theorem holds_iff
    {column : String}
    {value : Value} :
    table.holds column value = true ↔
      value ≠ .null ∧
        ∃ row ∈ table, row.columns column = value := by
  unfold UsersTable.holds
  rw [Bool.not_eq_true',
    List.isEmpty_eq_false_iff_exists_mem]
  constructor
  · rintro ⟨row, hRow⟩
    rcases mem_matching.mp hRow with ⟨hMem, hValue, hHolds⟩
    exact ⟨hValue, row, hMem, hHolds⟩
  · rintro ⟨hValue, row, hMem, hHolds⟩
    exact ⟨row, mem_matching.mpr ⟨hMem, hValue, hHolds⟩⟩

/- Distinct values are held once. -/
theorem keepsUnique_of_nodup
    (hNodup : ∀ column ∈ repo.uniqueColumns,
      (table.map fun row => row.columns column).Nodup) :
    repo.KeepsUnique table := by
  intro column hColumn value
  have hFound :
      ((table.matching column value).map fun row =>
          row.columns column) =
        List.replicate
          (table.matching column value).length value :=
    List.map_eq_replicate_iff.mpr fun _ hRow =>
      (mem_matching.mp hRow).2.2
  have hDistinct :
      ((table.matching column value).map fun row =>
        row.columns column).Nodup :=
    (hNodup column hColumn).sublist
      (List.filter_sublist.map _)
  rw [hFound, List.nodup_replicate] at hDistinct
  exact hDistinct

/- An insert is refused for a value that is held already. -/
theorem breaksUnique_newRow
    (columns : Data)
    (fill : String → Value) :
    repo.breaksUnique table (table.newRow columns fill) =
      repo.uniqueColumns.any fun column =>
        table.holds column
          ((columns.get column).getD (fill column)) := by
  unfold breaksUnique
  congr 1
  funext column
  rw [Bool.eq_iff_iff, holds_iff, Bool.and_eq_true,
    decide_eq_true_iff, List.any_eq_true]
  apply and_congr Iff.rfl
  constructor
  · rintro ⟨row, hRow, hSame⟩
    rw [Bool.and_eq_true] at hSame
    exact ⟨row, hRow, of_decide_eq_true hSame.2⟩
  · rintro ⟨row, hRow, hSame⟩
    have hOther : row.id ≠ table.nextId :=
      Nat.ne_of_lt (lt_nextId hRow)
    refine ⟨row, hRow, ?_⟩
    rw [Bool.and_eq_true]
    exact ⟨decide_eq_true hOther, decide_eq_true hSame⟩

/- A lookup in a unique column finds whether it is held. -/
theorem getByField_run
    (hUnique : repo.KeepsUnique table)
    {field : String}
    (hField : repo.isUniqueColumn field = true)
    (value : Value) :
    ∃ found,
      (repo.getByField field value).run repo.table.exec
          table =
        (.ok found, table) ∧
      found.isSome =
        table.holds (repo.col field)
          (repo.lookupValue field value) := by
  have hOne := hUnique _ (of_decide_eq_true hField)
    (repo.lookupValue field value)
  unfold getByField
  rw [run_selectOne]
  unfold UsersTable.holds
  cases hRows : table.matching (repo.col field)
      (repo.lookupValue field value) with
  | nil => exact ⟨none, rfl, rfl⟩
  | cons row rest =>
      rw [hRows] at hOne
      cases rest with
      | nil => exact ⟨some row, rfl, rfl⟩
      | cons second rest =>
          rw [List.length_cons, List.length_cons] at hOne
          omega

end UserRepository

------------------------------------------------------------
-- Answers
------------------------------------------------------------

namespace AuthSurface

open UserRepository

variable (auth : AuthSurface)

/- Status and body, alone on a table. -/
def answer
    (request : RegisterRequest)
    (table : UsersTable) :
    Except SignUpError RegisterResponse :=
  ((auth.register request).run auth.repo.table.exec table).1

/- The values of a request that gets to read the table. -/
def offers
    (request : RegisterRequest) : Option (Data × Data) :=
  if !request.passwordAccepted then
    none
  else
    (popFields auth.repo.loginFields
      (auth.repo.filterRegistrationData
        request.body)).filter fun values =>
          auth.tooLong (values.1.update values.2) = [] ∧
            request.withinRate = true

/- The unique values that are offered, in their order. -/
def offered (values : Data × Data) : Data :=
  auth.uniqueValues (values.1.update values.2)

/- The columns of the row that would be inserted. -/
def insertedColumns
    (request : RegisterRequest)
    (values : Data × Data) : Data :=
  auth.repo.createKwargs
    (auth.repo.createData
      ((values.1.update
        [("hashed_password",
          .text request.hashedPassword)]).update values.2)
      auth.newUserDefaults request.provided)

/- The value of one of them, or the model's default. -/
def insertedValue
    (request : RegisterRequest)
    (values : Data × Data)
    (column : String) : Value :=
  ((auth.insertedColumns request values).get column).getD
    (request.fill column)

/- An account holds the value of the item. -/
def taken
    (table : UsersTable)
    (item : String × Value) : Bool :=
  table.holds (auth.repo.col item.1)
    (auth.repo.lookupValue item.1 item.2)

/- A login field that is not private, as a username. -/
def isPublic (item : String × Value) : Bool :=
  !auth.isPrivate item.1 && item.1 ∈ auth.repo.loginFields

/- The row that would be inserted. -/
def insertedRow
    (request : RegisterRequest)
    (values : Data × Data)
    (table : UsersTable) : UserRow :=
  table.newRow (auth.insertedColumns request values)
    request.fill

/- A value of a unique column is held already. -/
def collides
    (request : RegisterRequest)
    (values : Data × Data)
    (table : UsersTable) : Bool :=
  auth.repo.uniqueColumns.any fun column =>
    table.holds column
      (auth.insertedValue request values column)

/- The rest of the schema refuses the row. -/
def refuses
    (request : RegisterRequest)
    (values : Data × Data)
    (table : UsersTable) : Bool :=
  auth.repo.refuses table
    (auth.insertedRow request values table)

/- What comes of a creation once no value is taken. -/
def outcome
    (request : RegisterRequest)
    (values : Data × Data)
    (table : UsersTable) :
    Except SignUpError RegisterResponse :=
  if request.fails then
    .error .unhandled
  else if auth.collides request values table ||
      auth.refuses request values table then
    .error (.duplicateValue "Account already exists")
  else
    .ok .enrolled

/- A taken value: told if it is public, else concealed. -/
def judged
    (item : String × Value) :
    Except SignUpError RegisterResponse :=
  if auth.isPublic item then
    .error
      (.duplicateValue
        (capitalize item.1 ++ " already taken"))
  else
    .ok .enrolled

/- The first taken value decides, or else the creation. -/
def verdict
    (table : UsersTable)
    (outcome : Except SignUpError RegisterResponse) :
    Data → Except SignUpError RegisterResponse
  | [] => outcome
  | item :: rest =>
      if auth.taken table item then
        auth.judged item
      else
        verdict table outcome rest

section Verdict

variable {auth}
variable {table : UsersTable}
variable {request : RegisterRequest}
variable {values : Data × Data}

/- Only unique columns are asked about. -/
theorem isUniqueColumn_of_mem
    {items : Data}
    {item : String × Value}
    (hItem : item ∈ auth.uniqueValues items) :
    auth.repo.isUniqueColumn item.1 = true := by
  have hKept := (List.mem_filter.mp hItem).2
  rw [Bool.and_eq_true] at hKept
  exact hKept.2

/- The check before the insert asks every value. -/
theorem anyTaken_run
    (hUnique : auth.repo.KeepsUnique table)
    {items : Data}
    (hItems : ∀ item ∈ items,
      auth.repo.isUniqueColumn item.1 = true) :
    (auth.anyTaken items).run auth.repo.table.exec table =
      (.ok (items.any (auth.taken table)), table) := by
  induction items with
  | nil => rfl
  | cons item rest ih =>
      rcases getByField_run hUnique
          (hItems item List.mem_cons_self) item.2 with
        ⟨found, hRun, hFound⟩
      have hRest := ih fun other hOther =>
        hItems other (List.mem_cons_of_mem _ hOther)
      unfold anyTaken
      rw [Program.bind_eq, run_bind, hRun, List.any_cons]
      unfold taken at hRest ⊢
      rw [← hFound]
      cases found with
      | none => exact hRest
      | some row => rfl

/- The first value that is still taken is judged. -/
theorem onExistingAmong_run
    (hEmail : auth.emailOn = true)
    (hUnique : auth.repo.KeepsUnique table)
    {items : Data}
    (hItems : ∀ item ∈ items,
      auth.repo.isUniqueColumn item.1 = true) :
    (auth.onExistingAmong items).run auth.repo.table.exec
        table =
      (auth.verdict table
        (.error (.duplicateValue "Account already exists"))
        items, table) := by
  induction items with
  | nil => rfl
  | cons item rest ih =>
      rcases getByField_run hUnique
          (hItems item List.mem_cons_self) item.2 with
        ⟨found, hRun, hFound⟩
      have hRest := ih fun other hOther =>
        hItems other (List.mem_cons_of_mem _ hOther)
      unfold onExistingAmong verdict
      rw [Program.bind_eq, run_bind, hRun]
      unfold taken at hRest ⊢
      rw [← hFound]
      cases found with
      | none => exact hRest
      | some row =>
          unfold judged isPublic
          rw [hEmail]
          cases auth.isPrivate item.1 with
          | true => rfl
          | false =>
              by_cases hLogin :
                  item.1 ∈ auth.repo.loginFields
              · simp [hLogin]
              · simp [hLogin]

/- Free values leave the outcome as it is. -/
theorem verdict_of_free
    {outcome : Except SignUpError RegisterResponse}
    {items : Data}
    (hFree : items.any (auth.taken table) = false) :
    auth.verdict table outcome items = outcome := by
  induction items with
  | nil => rfl
  | cons item rest ih =>
      rw [List.any_cons, Bool.or_eq_false_iff] at hFree
      unfold verdict
      rw [hFree.1]
      exact ih hFree.2

/- Where a value is taken, the creation does not matter. -/
theorem verdict_of_taken
    {outcome outcome' : Except SignUpError RegisterResponse}
    {items : Data}
    (hTaken : items.any (auth.taken table) = true) :
    auth.verdict table outcome items =
      auth.verdict table outcome' items := by
  induction items with
  | nil => cases hTaken
  | cons item rest ih =>
      rw [List.any_cons, Bool.or_eq_true] at hTaken
      unfold verdict
      split
      · rfl
      · rename_i hFree
        rcases hTaken with hItem | hRest
        · exact absurd hItem hFree
        · exact ih hRest

/- The insert, where no value of the body is taken. -/
theorem insertUser_run
    (hEmail : auth.emailOn = true)
    (hRecovery : auth.repo.recovery.isSome = true)
    (hUnique : auth.repo.KeepsUnique table)
    (hFree :
      (auth.offered values).any (auth.taken table) = false) :
    ((auth.insertUser request values.1 values.2).run
        auth.repo.table.exec table).1 =
      if auth.collides request values table ||
          auth.refuses request values table then
        .error (.duplicateValue "Account already exists")
      else
        .ok .enrolled := by
  let columns := auth.insertedColumns request values
  have hRefused :
      auth.repo.breaksIntegrity table
          (table.newRow columns request.fill) =
        (auth.collides request values table ||
          auth.refuses request values table) := by
    unfold breaksIntegrity
    rw [breaksUnique_newRow columns request.fill]
    rfl
  have hCreated :
      (auth.repo.create?
          (auth.repo.createData
            ((values.1.update
              [("hashed_password",
                .text request.hashedPassword)]).update
                  values.2)
            auth.newUserDefaults request.provided)
          request.fill).run auth.repo.table.exec table =
        (.ok
          (auth.repo.execTable
            (.insert columns request.fill) table).1,
          (auth.repo.execTable
            (.insert columns request.fill) table).2) :=
    rfl
  have hItems : ∀ item ∈ auth.offered values,
      auth.repo.isUniqueColumn item.1 = true :=
    fun _ => isUniqueColumn_of_mem
  refine (congrArg Prod.fst
    (run_bind _ (auth.repo.create? _ request.fill) _
      table)).trans ?_
  rw [hCreated]
  cases hInsert :
      (auth.collides request values table ||
        auth.refuses request values table) with
  | true =>
      have hNone :
          auth.repo.execTable (.insert columns request.fill)
              table =
            (none, table) := by
        unfold execTable
        dsimp only
        rw [hRefused, hInsert]
        rfl
      rw [hNone]
      have hExisting :=
        onExistingAmong_run hEmail hUnique hItems
      rw [verdict_of_free hFree] at hExisting
      exact congrArg Prod.fst hExisting
  | false =>
      have hSome :
          auth.repo.execTable (.insert columns request.fill)
              table =
            (some (table.newRow columns request.fill),
              table ++
                [table.newRow columns request.fill]) := by
        unfold execTable
        dsimp only
        rw [hRefused, hInsert]
        rfl
      rw [hSome]
      dsimp only
      rw [hEmail, hRecovery]
      rfl

/- The creation, where no value of the body is taken. -/
theorem enroll_run
    (hEmail : auth.emailOn = true)
    (hRecovery : auth.repo.recovery.isSome = true)
    (hUnique : auth.repo.KeepsUnique table)
    (hFree :
      (auth.offered values).any (auth.taken table) = false) :
    ((auth.enroll request values.1 values.2).run
        auth.repo.table.exec table).1 =
      auth.verdict table (auth.outcome request values table)
        (auth.offered values) := by
  rw [verdict_of_free hFree]
  unfold enroll outcome
  split
  · rfl
  · exact insertUser_run hEmail hRecovery hUnique hFree

/- Without an offer, the table is not read. -/
theorem answer_of_none
    (hOffers : auth.offers request = none)
    (table table' : UsersTable) :
    auth.answer request table =
      auth.answer request table' := by
  unfold offers at hOffers
  unfold answer register
  split
  · rfl
  · rename_i hAccepted
    rw [if_neg hAccepted] at hOffers
    cases hPop : popFields auth.repo.loginFields
        (auth.repo.filterRegistrationData request.body) with
    | none => rfl
    | some popped =>
        rw [hPop, Option.filter_eq_none_iff] at hOffers
        have hRejected := hOffers popped rfl
        rw [decide_eq_true_iff, not_and] at hRejected
        dsimp only
        unfold registerValues
        dsimp only
        split
        · rfl
        · rename_i hFits
          have hRate := hRejected (not_not.mp hFits)
          rw [Bool.not_eq_true] at hRate
          rw [hRate]
          rfl

/- An offer is answered by its first taken value. -/
theorem answer_eq
    (hEmail : auth.emailOn = true)
    (hRecovery : auth.repo.recovery.isSome = true)
    (hUnique : auth.repo.KeepsUnique table)
    (hOffers : auth.offers request = some values) :
    auth.answer request table =
      auth.verdict table (auth.outcome request values table)
        (auth.offered values) := by
  have hItems : ∀ item ∈ auth.offered values,
      auth.repo.isUniqueColumn item.1 = true :=
    fun _ => isUniqueColumn_of_mem
  have hAny := anyTaken_run hUnique hItems
  have hExisting :=
    onExistingAmong_run hEmail hUnique hItems
  unfold offers at hOffers
  split at hOffers
  · cases hOffers
  · rename_i hAccepted
    rw [Option.filter_eq_some_iff] at hOffers
    rcases hOffers with ⟨hPop, hPasses⟩
    have hBoth := of_decide_eq_true hPasses
    have hRegister :
        auth.register request =
          (auth.anyTaken (auth.offered values)).bind
            fun taken =>
              if taken then
                auth.onExistingAmong (auth.offered values)
              else
                auth.enroll request values.1 values.2 := by
      unfold register
      rw [if_neg hAccepted, hPop]
      dsimp only
      unfold registerValues
      dsimp only
      rw [if_neg (not_not.mpr hBoth.1), hBoth.2]
      rfl
    unfold answer
    rw [hRegister, run_bind, hAny]
    dsimp only
    split
    · rename_i hTaken
      rw [hExisting]
      exact verdict_of_taken hTaken
    · rename_i hFree
      rw [Bool.not_eq_true] at hFree
      exact enroll_run hEmail hRecovery hUnique hFree

end Verdict

------------------------------------------------------------
-- Two Tables
------------------------------------------------------------

/-
  What a request brings, beside the private values of its
  body, is held by both tables or by neither.
-/
structure AlikeFor
    (request : RegisterRequest)
    (values : Data × Data)
    (left right : UsersTable) : Prop where
  offered : ∀ item ∈ auth.offered values,
    auth.isPrivate item.1 = false →
      auth.taken left item = auth.taken right item
  inserted : ∀ column ∈ auth.repo.uniqueColumns,
    (∀ item ∈ auth.offered values,
      auth.isPrivate item.1 = true →
        ¬ (auth.repo.col item.1 = column ∧
          auth.repo.lookupValue item.1 item.2 =
            auth.insertedValue request values column)) →
      left.holds column
          (auth.insertedValue request values column) =
        right.holds column
          (auth.insertedValue request values column)

/- The tables differ in private values of the body only. -/
def Alike
    (request : RegisterRequest)
    (left right : UsersTable) : Prop :=
  ∀ values ∈ auth.offers request,
    auth.AlikeFor request values left right

/- Tables that are alike for a request are answered alike. -/
def RevealsNothing : Prop :=
  ∀ request left right,
    auth.repo.KeepsUnique left →
    auth.repo.KeepsUnique right →
    auth.Alike request left right →
    auth.answer request left = auth.answer request right

/- The first taken value is public, or the creation fails. -/
def surfaces
    (table : UsersTable)
    (failed : Bool) : Data → Bool
  | [] => failed
  | item :: rest =>
      if auth.taken table item then
        auth.isPublic item
      else
        surfaces table failed rest

/-
  The first value that is taken in either table is taken in
  the left one alone, and hides what surfaces on the right.
-/
def hides
    (left right : UsersTable)
    (failed : Bool) : Data → Bool
  | [] => false
  | item :: rest =>
      if auth.taken right item then
        false
      else if auth.taken left item then
        auth.surfaces right failed rest
      else
        hides left right failed rest

/- A creation fails, for whatever reason. -/
def creationFails
    (request : RegisterRequest)
    (values : Data × Data)
    (table : UsersTable) : Bool :=
  request.fails ||
    (auth.collides request values table ||
      auth.refuses request values table)

/- A private value of the left table hides a failure. -/
def Hides
    (request : RegisterRequest)
    (left right : UsersTable) : Prop :=
  ∃ values ∈ auth.offers request,
    auth.hides left right
      (auth.creationFails request values right)
      (auth.offered values) = true

/- No value of the body belongs to an account of a table. -/
def Free
    (values : Data × Data)
    (table : UsersTable) : Prop :=
  (auth.offered values).any (auth.taken table) = false

/-
  The schema refuses the row in one of the tables alone,
  where neither holds a value of the body or a value of a
  unique column.
-/
def Parts
    (request : RegisterRequest)
    (left right : UsersTable) : Prop :=
  ∃ values ∈ auth.offers request,
    auth.Free values left ∧ auth.Free values right ∧
    request.fails = false ∧
    auth.collides request values left = false ∧
    auth.refuses request values left ≠
      auth.refuses request values right

section Tables

variable {auth}
variable {left right : UsersTable}
variable {request : RegisterRequest}
variable {values : Data × Data}

/- A creation that does not fail is answered uniformly. -/
theorem outcome_eq_enrolled
    {table : UsersTable} :
    auth.outcome request values table = .ok .enrolled ↔
      auth.creationFails request values table = false := by
  unfold outcome creationFails
  cases request.fails with
  | true => simp
  | false =>
      cases auth.collides request values table ||
          auth.refuses request values table with
      | true => simp
      | false => simp

/- An answer is uniform where nothing surfaces. -/
theorem verdict_eq_enrolled
    {table : UsersTable}
    {outcome : Except SignUpError RegisterResponse}
    {failed : Bool}
    (hOutcome : outcome = .ok .enrolled ↔ failed = false)
    {items : Data} :
    auth.verdict table outcome items = .ok .enrolled ↔
      auth.surfaces table failed items = false := by
  induction items with
  | nil => exact hOutcome
  | cons item rest ih =>
      unfold verdict surfaces
      split
      · unfold judged
        cases auth.isPublic item with
        | true => simp
        | false => simp
      · exact ih

/- A private value is concealed. -/
theorem judged_of_private
    {item : String × Value}
    (hPrivate : auth.isPrivate item.1 = true) :
    auth.judged item = .ok .enrolled := by
  unfold judged isPublic
  rw [hPrivate]
  rfl

/-
  Verdicts are alike where neither table hides anything, and
  where the creations end alike if they are reached in both.
-/
theorem verdict_eq_iff
    {outcome outcome' : Except SignUpError RegisterResponse}
    {failed failed' : Bool}
    (hOutcome : outcome = .ok .enrolled ↔ failed = false)
    (hOutcome' : outcome' = .ok .enrolled ↔ failed' = false)
    {items : Data}
    (hPublic : ∀ item ∈ items,
      auth.isPrivate item.1 = false →
        auth.taken left item = auth.taken right item) :
    auth.verdict left outcome items =
        auth.verdict right outcome' items ↔
      auth.hides left right failed' items = false ∧
        auth.hides right left failed items = false ∧
        (items.any (auth.taken left) = false →
          items.any (auth.taken right) = false →
            outcome = outcome') := by
  induction items with
  | nil => simp [verdict, hides]
  | cons item rest ih =>
      have hPrivate
          (hDiffer :
            auth.taken left item ≠ auth.taken right item) :
          auth.judged item = .ok .enrolled := by
        apply judged_of_private
        by_contra hOpen
        rw [Bool.not_eq_true] at hOpen
        exact hDiffer (hPublic item List.mem_cons_self hOpen)
      unfold verdict hides
      rw [List.any_cons, List.any_cons]
      cases hLeft : auth.taken left item with
      | true =>
          cases hRight : auth.taken right item with
          | true => simp
          | false =>
              rw [hLeft, hRight] at hPrivate
              rw [hPrivate (by decide)]
              simp only [if_true, Bool.false_eq_true,
                if_false, Bool.true_or, Bool.true_eq_false,
                false_implies, and_true]
              rw [eq_comm]
              exact verdict_eq_enrolled hOutcome'
      | false =>
          cases hRight : auth.taken right item with
          | true =>
              rw [hLeft, hRight] at hPrivate
              rw [hPrivate (by decide)]
              simp only [if_true, Bool.false_eq_true,
                if_false, Bool.true_or, Bool.true_eq_false,
                false_implies, implies_true, and_true,
                true_and]
              exact verdict_eq_enrolled hOutcome
          | false =>
              simp only [Bool.false_eq_true, if_false,
                Bool.false_or]
              apply ih
              intro other hOther
              exact hPublic other
                (List.mem_cons_of_mem _ hOther)

/- Where nothing of the body is taken, rows collide alike. -/
theorem collides_eq
    (hAlike : auth.AlikeFor request values left right)
    (hLeft :
      (auth.offered values).any (auth.taken left) = false)
    (hRight :
      (auth.offered values).any (auth.taken right) = false) :
    auth.collides request values left =
      auth.collides request values right := by
  have hColumns : ∀ column ∈ auth.repo.uniqueColumns,
      left.holds column
          (auth.insertedValue request values column) =
        right.holds column
          (auth.insertedValue request values column) := by
    intro column hColumn
    by_cases hItem : ∃ item ∈ auth.offered values,
        auth.repo.col item.1 = column ∧
          auth.repo.lookupValue item.1 item.2 =
            auth.insertedValue request values column
    · rcases hItem with ⟨item, hMem, hSame, hValue⟩
      have hFree := List.any_eq_false.mp hLeft item hMem
      have hFree' := List.any_eq_false.mp hRight item hMem
      unfold taken at hFree hFree'
      rw [hSame, hValue, Bool.not_eq_true] at hFree hFree'
      rw [hFree, hFree']
    · apply hAlike.inserted column hColumn
      intro item hMem hPrivate hInserted
      exact hItem ⟨item, hMem, hInserted⟩
  unfold collides
  rw [Bool.eq_iff_iff, List.any_eq_true, List.any_eq_true]
  apply exists_congr
  intro column
  apply and_congr_right
  intro hColumn
  rw [hColumns column hColumn]

/- Outcomes differ only by what else the schema refuses. -/
theorem outcome_eq_iff
    (hCollides :
      auth.collides request values left =
        auth.collides request values right) :
    auth.outcome request values left =
        auth.outcome request values right ↔
      (request.fails = false →
        auth.collides request values left = false →
          auth.refuses request values left =
            auth.refuses request values right) := by
  unfold outcome
  rw [← hCollides]
  cases request.fails <;>
    cases auth.collides request values left <;>
    cases auth.refuses request values left <;>
    cases auth.refuses request values right <;> simp

/-
  The answers are alike where neither table hides anything,
  and the schema does not tell them apart.
-/
theorem answer_eq_iff
    (hEmail : auth.emailOn = true)
    (hRecovery : auth.repo.recovery.isSome = true)
    (hLeft : auth.repo.KeepsUnique left)
    (hRight : auth.repo.KeepsUnique right)
    (hAlike : auth.Alike request left right) :
    auth.answer request left = auth.answer request right ↔
      ¬ auth.Hides request left right ∧
        ¬ auth.Hides request right left ∧
        ¬ auth.Parts request left right := by
  unfold Hides Parts
  cases hOffers : auth.offers request with
  | none =>
      rw [answer_of_none hOffers left right]
      simp
  | some values =>
      have hValues := hAlike values hOffers
      rw [answer_eq hEmail hRecovery hLeft hOffers,
        answer_eq hEmail hRecovery hRight hOffers,
        verdict_eq_iff outcome_eq_enrolled
          outcome_eq_enrolled hValues.offered]
      simp only [Option.mem_some_iff, exists_eq_left',
        Bool.not_eq_true]
      apply and_congr_right'
      apply and_congr_right'
      unfold Free
      constructor
      · rintro hSame ⟨hFree, hFree', hRaised, hOpen, hDiffer⟩
        have hCollides := collides_eq hValues hFree hFree'
        exact hDiffer
          ((outcome_eq_iff hCollides).mp
            (hSame hFree hFree') hRaised hOpen)
      · intro hNone hFree hFree'
        have hCollides := collides_eq hValues hFree hFree'
        apply (outcome_eq_iff hCollides).mpr
        intro hRaised hOpen
        by_contra hDiffer
        exact hNone
          ⟨hFree, hFree', hRaised, hOpen, hDiffer⟩

end Tables

------------------------------------------------------------
-- A Taken Username
------------------------------------------------------------

/- The default identity, with a delivery channel. -/
def mailedAuth : AuthSurface where
  repo :=
    { attributes :=
        ["id", "email", "username", "hashed_password"]
      uniqueColumns := ["email", "username"]
      columnLength := fun _ => none
      columnMap := []
      registerExtraFields := []
      loginFields := ["email", "username"]
      recovery := some "email"
      canonicalEmail := id
      refuses := fun _ _ => false }
  newUserDefaults := []
  emailOn := true

/- Somebody registers Ada's address. -/
def enrollingAda (username : String) : RegisterRequest where
  body := defaultBody "ada@example.org" username
  passwordAccepted := true
  withinRate := true
  hashedPassword := "$2b$12$hash"
  provided := []
  fill := fun _ => .null
  fails := false

/- An account with an address and a username. -/
def accountRow
    (id : Nat)
    (email username : String) : UserRow where
  id := id
  columns := fun column =>
    if column = "email" then
      .text email
    else if column = "username" then
      .text username
    else
      .null

/- Bob's account, with Ada's or without. -/
def withoutAda : UsersTable :=
  [accountRow 1 "bob@example.org" "bob"]

/- And with hers. -/
def withAda : UsersTable :=
  withoutAda ++ [accountRow 2 "ada@example.org" "ada"]

/- The table with the account is consistent. -/
theorem keepsUnique_withAda :
    mailedAuth.repo.KeepsUnique withAda :=
  keepsUnique_of_nodup (by decide)

theorem keepsUnique_withoutAda :
    mailedAuth.repo.KeepsUnique withoutAda :=
  keepsUnique_of_nodup (by decide)

/- Ada's own values tell the two apart. -/
theorem holds_withAda
    {column : String}
    {value : Value}
    (hOther :
      (accountRow 2 "ada@example.org" "ada").columns column ≠
        value) :
    withAda.holds column value =
      withoutAda.holds column value := by
  have hMatching :
      withAda.matching column value =
        withoutAda.matching column value := by
    unfold withAda UsersTable.matching
    rw [List.filter_append,
      List.filter_singleton, decide_eq_false hOther,
      Bool.and_false]
    exact List.append_nil _
  unfold UsersTable.holds
  rw [hMatching]

/- Only her address tells the tables apart. -/
theorem alike_withAda
    {username : String}
    (hOther : username ≠ "ada") :
    mailedAuth.Alike (enrollingAda username) withAda
      withoutAda := by
  have hText : Value.text "ada" ≠ .text username :=
    fun hSame => hOther (Value.text.inj hSame).symm
  have hOffers :
      mailedAuth.offers (enrollingAda username) =
        some (defaultBody "ada@example.org" username, []) :=
    rfl
  rw [Alike, hOffers]
  rintro _ ⟨⟩
  refine ⟨?_, ?_⟩
  · intro item hItem hPublic
    have hItem' :
        item ∈ defaultBody "ada@example.org" username :=
      hItem
    rcases List.mem_pair.mp hItem' with rfl | rfl
    · cases hPublic
    · exact holds_withAda hText
  · intro column hColumn hOpen
    rcases List.mem_pair.mp hColumn with rfl | rfl
    · exact absurd ⟨rfl, rfl⟩
        (hOpen ("email", .text "ada@example.org")
          List.mem_cons_self rfl)
    · exact holds_withAda hText

/- A taken username is told unless the email is taken. -/
theorem not_revealsNothing_of_username :
    ¬ mailedAuth.RevealsNothing := by
  intro hNothing
  have hSame := hNothing (enrollingAda "bob") withAda
    withoutAda keepsUnique_withAda keepsUnique_withoutAda
    (alike_withAda (by decide))
  have hUniform :
      mailedAuth.answer (enrollingAda "bob") withAda =
        .ok .enrolled := by
    decide
  have hTold :
      mailedAuth.answer (enrollingAda "bob") withoutAda =
        .error
          (.duplicateValue "Username already taken") := by
    decide
  rw [hUniform, hTold] at hSame
  cases hSame

/- A free username hides nothing. -/
theorem not_hides_cyd
    {left right : UsersTable}
    (hHidden :
      mailedAuth.hides left right
        (mailedAuth.creationFails (enrollingAda "cyd")
          (defaultBody "ada@example.org" "cyd", []) right)
        (defaultBody "ada@example.org" "cyd") = false) :
    ¬ mailedAuth.Hides (enrollingAda "cyd") left right := by
  rintro ⟨_, ⟨⟩, hHides⟩
  exact Bool.false_ne_true (hHidden.symm.trans hHides)

/- The two tables fail alike. -/
theorem not_parts_cyd
    (left right : UsersTable) :
    ¬ mailedAuth.Parts (enrollingAda "cyd") left right := by
  rintro ⟨_, ⟨⟩, -, -, -, -, hDiffer⟩
  exact hDiffer rfl

/- With a free username, Ada's address stays concealed. -/
theorem answer_withAda_cyd :
    mailedAuth.answer (enrollingAda "cyd") withAda =
      mailedAuth.answer (enrollingAda "cyd") withoutAda :=
  (answer_eq_iff rfl rfl keepsUnique_withAda
    keepsUnique_withoutAda (alike_withAda (by decide))).mpr
      ⟨not_hides_cyd (by decide), not_hides_cyd (by decide),
        not_parts_cyd withAda withoutAda⟩

end AuthSurface

end Registration

end CrudAuth
