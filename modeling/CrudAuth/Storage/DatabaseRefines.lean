import CrudAuth.Storage.Observation

/-
  The database storage does what is expected of a storage,
  one call after the other, wherever the default pattern of
  a scan matches its own keys.

  Main declarations:
    * `DatabaseStorage.view`
    * `DatabaseStorage.alone`
    * `DatabaseStorage.expected`
    * `DatabaseStorage.kept_alone`
-/

------------------------------------------------------------
-- The View Of The Table
------------------------------------------------------------

namespace CrudAuth

namespace Storage

namespace DatabaseStorage

open Concurrency

/- What a read finds of a row. -/
def shown (row : StoreRow) : Live :=
  ⟨row.value, some row.expiresAt⟩

/- The live part of the table. -/
abbrev view (now : Nat) (table : StoreTable) : View :=
  View.of (StoreRow.isLive now) shown table

variable {μ : Type}
variable (codec : Codec μ)
variable (config : Config)

/- A method that nothing interleaves with. -/
def alone
    (now : Nat)
    (table : StoreTable)
    (method : Method μ) :
    Except HttpError method.Ret × Service :=
  (implement codec config method).run machine.exec
    ⟨now, table⟩

variable {codec} {config}
variable {now : Nat}
variable {table : StoreTable}
variable {name : Text}

/- A row that is absent is not seen. -/
theorem view_of_absent
    (hRow : (table.lookup name).filter
      (StoreRow.isLive now) = none) :
    view now table name = none := by
  unfold view View.of
  rw [hRow]
  rfl

/- A live row is seen. -/
theorem view_of_live
    {row : StoreRow}
    (hRow : (table.lookup name).filter
      (StoreRow.isLive now) = some row) :
    view now table name = some (shown row) := by
  unfold view View.of
  rw [hRow]
  rfl

/- A purge is not seen. -/
theorem view_purge (batch : List Text) :
    view now (Transaction.purge now table batch) =
      view now table :=
  View.of_sweep batch

/- A row that is written over, or inserted. -/
theorem writeRow_eq
    (columns : Columns)
    (expiresAt : Nat) :
    Transaction.writeRow table name columns expiresAt =
      (true,
        AList.insert name
          (match table.lookup name with
          | none => .first columns expiresAt
          | some row =>
            row.overwrite columns (some expiresAt))
          table) := by
  unfold Transaction.writeRow Transaction.insert
  unfold Table.updateWhere
  cases hRow : table.lookup name with
  | none => simp [hRow]
  | some row => simp [Option.filter]

theorem run_if_true
    {α : Type}
    {met : Bool}
    (hMet : met = true)
    (yes no : Sql α)
    (service : Service) :
    Program.run machine.exec (if met then yes else no)
        service =
      yes.run machine.exec service := by
  rw [if_pos hMet]

/- A record is written in one statement. -/
theorem create_run
    (sid : Text)
    (data : μ)
    (ttl : Option Nat) :
    (create codec config sid data ttl).run machine.exec
        ⟨now, table⟩ =
      (.ok sid,
        ⟨now,
          (Transaction.writeRow table (key config sid)
            (columns codec data)
            (now + lifetime config.expiration ttl)).2⟩) := by
  have hWritten :
      (Transaction.writeRow table (key config sid)
        (columns codec data)
        (now + lifetime config.expiration ttl)).1 =
          true := by
    rw [writeRow_eq]
  exact run_if_true hWritten _ _ _

/- What is found, as it is loaded. -/
theorem loaded_run
    (row : Option StoreRow)
    (service : Service) :
    (loaded codec (row.map StoreRow.value)).run machine.exec
        service =
      (readModel codec (row.map shown), service) := by
  cases row with
  | none => rfl
  | some row =>
      simp only [loaded, Option.map_some, load, readModel,
        shown]
      cases codec.load row.value <;> rfl

/- The new expiry, if one is asked for. -/
theorem renewed_run
    {α : Type}
    (resetExpiration : Bool)
    (ttl : Option Nat)
    (rest : Option Nat → Sql α) :
    ((renewed config resetExpiration ttl).bind rest).run
        machine.exec ⟨now, table⟩ =
      (rest
        (if resetExpiration then
          some (now + lifetime config.expiration ttl)
        else
          none)).run machine.exec ⟨now, table⟩ := by
  cases resetExpiration <;> rfl

/- A statement, and what follows it. -/
theorem execute_run
    {α : Type}
    (transaction : Transaction)
    (rest : transaction.Ret → Sql α)
    (service : Service) :
    ((execute transaction).bind rest).run machine.exec
        service =
      (rest (Service.exec transaction service).1).run
        machine.exec (Service.exec transaction service).2 :=
  rfl

/- The change of a text: what it makes, or an error. -/
theorem changed_run
    {α : Type}
    {change : μ → Except HttpError μ}
    (raw : Text)
    (rest : μ → Sql α)
    (service : Service) :
    ((load codec raw).bind fun data =>
        (apply change data).bind rest).run machine.exec
          service =
      match (codec.load raw).bind change with
      | .error error => (.error error, service)
      | .ok changed =>
          (rest changed).run machine.exec service := by
  unfold load
  cases codec.load raw with
  | error error => rfl
  | ok data =>
      simp only [Program.done_bind, apply, Except.bind]
      cases change data <;> rfl

/- What a `modify` writes to the row it has read. -/
def rewriteRow
    (columns : Columns)
    (resetExpiration : Bool)
    (expiresAt : Nat)
    (row : StoreRow) : StoreRow :=
  row.overwrite columns
    (if resetExpiration then some expiresAt else none)

/- Alone, the first round of a `modify` is the last. -/
theorem modify_run
    (sid : Text)
    (change : μ → Except HttpError μ)
    (resetExpiration : Bool)
    (ttl : Option Nat) :
    (modify codec config sid change resetExpiration ttl).run
        machine.exec ⟨now, table⟩ =
      match (table.lookup (key config sid)).filter
          (StoreRow.isLive now) with
      | none => (.ok none, ⟨now, table⟩)
      | some row =>
          match (codec.load row.value).bind change with
          | .error error => (.error error, ⟨now, table⟩)
          | .ok changed =>
              (.ok (some changed),
                ⟨now,
                  (table.updateWhere (key config sid)
                    (fun other => other.isLive now &&
                      other.version == row.version)
                    (rewriteRow (columns codec changed)
                      resetExpiration
                      (now +
                        lifetime config.expiration
                          ttl))).2⟩) := by
  unfold modify modifyMaxAttempts modifyRounds
  simp only [Program.bind_eq]
  rw [execute_run, execute_run]
  simp only [Service.exec, Transaction.exec]
  cases hRow : (table.lookup (key config sid)).filter
      (StoreRow.isLive now) with
  | none => rfl
  | some row =>
      have hFound := Option.filter_eq_some_iff.mp hRow
      simp only [Option.map_some]
      rw [changed_run]
      cases (codec.load row.value).bind change with
      | error error => rfl
      | ok changed =>
          have hMet :
              (table.updateWhere (key config sid)
                (fun other => other.isLive now &&
                  other.version == row.version)
                (rewriteRow (columns codec changed)
                  resetExpiration
                  (now + lifetime config.expiration
                    ttl))).1 = true := by
            rw [Table.updateWhere_fst, hFound.1]
            simp [hFound.2]
          dsimp only
          rw [renewed_run, execute_run, execute_run]
          exact run_if_true hMet _ _ _

------------------------------------------------------------
-- What Is Expected
------------------------------------------------------------

/- What the storages are used with. -/
structure InDomain
    (config : Config)
    (method : Method μ) : Prop where
  fits : ∀ sid ∈ method.sid?,
    (getKey config.keyPrefix sid).length ≤
      databaseKeyMaxLength
  timed : ∀ seconds ∈ method.seconds config.expiration,
    1 ≤ seconds
  nonEmpty : ∀ pattern,
    method = .scanKeys (some pattern) → pattern ≠ []

/- The default pattern matches what can be read. -/
def Matching
    (config : Config)
    (now : Nat)
    (table : StoreTable) : Method μ → Prop
  | .scanKeys none =>
      ∀ name live, view now table name = some live →
        Glob.fnmatchcase name (config.keyPrefix ++ ['*']) =
          true
  | _ => True

/- Values of the model, with their users, under own keys. -/
def Kept
    (codec : Codec μ)
    (config : Config)
    (table : StoreTable) : Prop :=
  table.All fun name row =>
    Keepable codec config.keyPrefix name row.value ∧
    row.userId =
      (codec.payloadUserId row.value).join.map UserRef.str

/- A record that lives a second is live. -/
theorem isLive_lifetime
    {ttl : Option Nat}
    (hTimed : 1 ≤ ttl.getD config.expiration) :
    now < now + lifetime config.expiration ttl := by
  unfold lifetime
  omega

/- A live row is there just when it is seen. -/
theorem any_isLive :
    (table.lookup name).any (StoreRow.isLive now) =
      (view now table name).isSome := by
  unfold view View.of
  cases hRow : table.lookup name with
  | none => rfl
  | some row =>
      cases hLive : row.isLive now <;>
        simp [Option.filter, hLive]

theorem isSome_filter :
    ((table.lookup name).filter
      (StoreRow.isLive now)).isSome =
      (view now table name).isSome := by
  unfold view View.of
  rw [Option.isSome_map]

/- A record written is seen. -/
theorem view_write
    {columns : Columns}
    {expires : Nat}
    (hLive : now < expires) :
    view now
        (Transaction.writeRow table name columns expires).2 =
      (view now table).put name
        ⟨columns.value, some expires⟩ := by
  rw [writeRow_eq]
  cases hRow : table.lookup name with
  | none =>
      apply View.of_insert
      exact decide_eq_true hLive
  | some row =>
      apply View.of_insert
      exact decide_eq_true hLive

/- A live row is written over, and stays live. -/
theorem view_overwrite
    {condition : StoreRow → Bool}
    {columns : Columns}
    {resetExpiration : Bool}
    {ttl : Option Nat}
    (hTimed : 1 ≤ ttl.getD config.expiration)
    (hMeets : ∀ row, table.lookup name = some row →
      condition row = row.isLive now) :
    view now
        (table.updateWhere name condition
          (rewriteRow columns resetExpiration
            (now + lifetime config.expiration ttl))).2 =
      (view now table).rewrite name fun live =>
        ⟨columns.value,
          renewedExpiry config.expiration now
            resetExpiration ttl live.expiry⟩ := by
  have hLater := @isLive_lifetime config now ttl hTimed
  apply View.of_updateWhere hMeets
  intro row hLive
  cases resetExpiration with
  | false => exact ⟨hLive, rfl⟩
  | true => exact ⟨decide_eq_true hLater, rfl⟩

/- A modify meets the specification. -/
theorem modify_expected
    {sid : Text}
    {change : μ → Except HttpError μ}
    {resetExpiration : Bool}
    {ttl : Option Nat}
    (hTimed : 1 ≤ ttl.getD config.expiration) :
    let modified :=
      (modify codec config sid change resetExpiration
        ttl).run machine.exec ⟨now, table⟩
    ExpectedModify codec config.expiration now
      (view now table) (key config sid) change
      resetExpiration ttl modified.1
      (view now modified.2.table) := by
  dsimp only
  rw [modify_run]
  unfold ExpectedModify
  cases hRow : (table.lookup (key config sid)).filter
      (StoreRow.isLive now) with
  | none =>
      rw [view_of_absent hRow]
      exact ⟨rfl, rfl⟩
  | some row =>
      rw [view_of_live hRow]
      simp only [readModel, shown]
      cases codec.load row.value with
      | error error => exact ⟨rfl, rfl⟩
      | ok data =>
          simp only [Except.bind, Except.map]
          cases change data with
          | error error => exact ⟨rfl, rfl⟩
          | ok changed =>
              refine ⟨rfl, ?_⟩
              apply view_overwrite hTimed
              intro other hOther
              have hFound :=
                Option.filter_eq_some_iff.mp hRow
              rw [hFound.1] at hOther
              obtain rfl := Option.some.inj hOther
              simp

/- With RETURNING or without, the live row is consumed. -/
theorem consumeRow_eq (returning : Bool) :
    Transaction.consumeRow now table name returning =
      (((table.lookup name).filter
        (StoreRow.isLive now)).map StoreRow.value,
        table.eraseIf name (StoreRow.isLive now)) := by
  cases returning with
  | true => rfl
  | false =>
      unfold Transaction.consumeRow
      unfold Table.deleteWhere Table.eraseIf
      cases hRow : table.lookup name with
      | none => rfl
      | some row =>
          cases hLive : row.isLive now <;>
            simp [Option.filter, hLive]

theorem view_erase :
    view now (table.eraseIf name (StoreRow.isLive now)) =
      (view now table).drop name := by
  apply View.of_drop
  · unfold View.of
    rw [Table.lookup_eraseIf, if_pos rfl]
    simp [Option.filter_filter]
  · intro other hName
    rw [Table.lookup_eraseIf, if_neg hName]

theorem view_remove :
    view now (Transaction.removeRow now table name).2 =
      (view now table).drop name := by
  apply View.of_drop
  · unfold View.of Transaction.removeRow
    rw [Table.lookup_deleteWhere, if_pos rfl]
    cases ((table.deleteWhere name
      (StoreRow.isLive now)).2.lookup name) <;> rfl
  · intro other hName
    unfold Transaction.removeRow
    rw [Table.lookup_deleteWhere, if_neg hName,
      Table.lookup_deleteWhere, if_neg hName]

/- A claim goes through where nothing can be read. -/
theorem claimKey_eq
    (columns : Columns)
    (expires : Nat) :
    Transaction.claimKey now table name columns expires =
      match (table.lookup name).filter
          (StoreRow.isLive now) with
      | some _ => (false, table)
      | none =>
          (true,
            AList.insert name (.first columns expires)
              (table.eraseIf name fun row =>
                row.expiresAt ≤ now)) := by
  unfold Transaction.claimKey Transaction.insert
  unfold Table.deleteWhere
  dsimp only
  rw [Table.lookup_eraseIf, if_pos rfl]
  cases hRow : table.lookup name with
  | none => rfl
  | some row =>
      cases hLive : row.isLive now with
      | true =>
          have hKept : ¬ row.expiresAt ≤ now := by
            simpa [StoreRow.isLive] using hLive
          simp [Option.filter, hLive, hKept, Table.eraseIf,
            hRow]
      | false =>
          have hDropped : row.expiresAt ≤ now := by
            simpa [StoreRow.isLive] using hLive
          simp [Option.filter, hLive, hDropped]

/- A record claimed is seen. -/
theorem view_claim
    {columns : Columns}
    {expires : Nat}
    (hLive : now < expires) :
    view now
        (AList.insert name (StoreRow.first columns expires)
          (table.eraseIf name fun row =>
            row.expiresAt ≤ now)) =
      (view now table).put name
        ⟨columns.value, some expires⟩ := by
  have hErased :
      (fun row : StoreRow => decide (row.expiresAt ≤ now)) =
        fun row => !row.isLive now := by
    funext row
    unfold StoreRow.isLive
    rw [← decide_not]
    simp only [Nat.not_lt]
  have hInserted :
      view now
          (AList.insert name (StoreRow.first columns expires)
            (table.eraseIf name fun row =>
              !row.isLive now)) =
        (view now
          (table.eraseIf name fun row =>
            !row.isLive now)).put name
              (shown (.first columns expires)) :=
    View.of_insert (decide_eq_true hLive)
  rw [hErased, hInserted]
  unfold view
  rw [View.of_eraseIf]
  rfl

/- A claim meets the specification. -/
theorem setIfAbsent_expected
    {sid : Text}
    {data : μ}
    {ttl : Option Nat}
    (hTimed : 1 ≤ ttl.getD config.expiration) :
    let claimed :=
      Transaction.claimKey now table (key config sid)
        (columns codec data)
        (now + lifetime config.expiration ttl)
    claimed.1 =
        (view now table (key config sid)).isNone ∧
      view now claimed.2 =
        if (view now table (key config sid)).isNone then
          (view now table).put (key config sid)
            ⟨codec.dump data,
              some (now + lifetime config.expiration ttl)⟩
        else
          view now table := by
  dsimp only
  rw [claimKey_eq]
  cases hRow : (table.lookup (key config sid)).filter
      (StoreRow.isLive now) with
  | none =>
      rw [view_of_absent hRow]
      exact ⟨rfl, view_claim (isLive_lifetime hTimed)⟩
  | some row =>
      rw [view_of_live hRow]
      exact ⟨rfl, rfl⟩

/- A listed key has a live row of the right kind. -/
theorem mem_selected
    {condition : Text → StoreRow → Prop}
    [∀ name row, Decidable (condition name row)] :
    name ∈ (table.entries.filterMap fun row =>
        if condition row.1 row.2 then some row.1 else none) ↔
      ∃ row, table.lookup name = some row ∧
        condition name row := by
  rw [List.mem_filterMap]
  constructor
  · rintro ⟨⟨other, row⟩, hRow, hSelected⟩
    split at hSelected
    · rename_i hCondition
      obtain rfl := Option.some.inj hSelected
      exact ⟨row, AList.mem_lookup_iff.mpr hRow, hCondition⟩
    · cases hSelected
  · rintro ⟨row, hRow, hCondition⟩
    refine ⟨⟨name, row⟩, AList.mem_lookup_iff.mp hRow, ?_⟩
    rw [if_pos hCondition]

/- The rows of a user. -/
theorem mem_selectUser
    {keyPrefix userId : Text} :
    name ∈ (Transaction.exec
        (.selectUser keyPrefix userId now) now table).1 ↔
      ∃ row, table.lookup name = some row ∧
        row.userId = some userId ∧ row.isLive now = true ∧
          keyPrefix <+: name :=
  @mem_selected table name
    (fun name row =>
      row.userId = some userId ∧ row.isLive now = true ∧
        keyPrefix <+: name) _

theorem mem_selectKeys
    {start : Text} :
    name ∈ (Transaction.exec (.selectKeys start now) now
        table).1 ↔
      ∃ row, table.lookup name = some row ∧
        row.isLive now = true ∧ start <+: name :=
  @mem_selected table name
    (fun name row =>
      row.isLive now = true ∧ start <+: name) _

/- The list of a user is as specified. -/
theorem getUserSessions_expected
    (hKept : Kept codec config table)
    (userId : UserRef)
    (sid : Text) :
    sid ∈ (Transaction.exec
        (.selectUser config.keyPrefix userId.str now) now
        table).1.map (List.drop config.keyPrefix.length) ↔
      ∃ live ∈ view now table (getKey config.keyPrefix sid),
        BelongsTo codec userId live := by
  rw [List.mem_map]
  constructor
  · rintro ⟨name, hName, rfl⟩
    rcases mem_selectUser.mp hName with
      ⟨row, hRow, hUser, hLive, ⟨sid, rfl⟩⟩
    rw [List.drop_left]
    refine ⟨shown row, View.of_eq_some.mpr
      ⟨row, hRow, hLive, rfl⟩, ?_⟩
    unfold BelongsTo shown
    rw [← (hKept _ row hRow).2, hUser]
  · rintro ⟨live, hLive, hBelongs⟩
    rcases View.of_eq_some.mp hLive with
      ⟨row, hRow, hReadable, rfl⟩
    refine ⟨getKey config.keyPrefix sid, ?_, List.drop_left⟩
    apply mem_selectUser.mpr
    refine ⟨row, hRow, ?_, hReadable,
      List.prefix_append _ _⟩
    rw [(hKept _ row hRow).2]
    exact hBelongs

/- A scan lists what can be read and its pattern matches. -/
theorem mem_scanKeys
    {pattern : Option Text} :
    name ∈ (Transaction.exec
        (.selectKeys
          (Glob.literalStart (scanPattern config pattern))
          now) now table).1.filter
            (Glob.fnmatchcase ·
              (scanPattern config pattern)) ↔
      (view now table name).isSome ∧
        Glob.fnmatchcase name (scanPattern config pattern) =
          true := by
  have hView :
      (view now table name).isSome = true ↔
        ∃ row, table.lookup name = some row ∧
          row.isLive now = true := by
    rw [Option.isSome_iff_exists]
    constructor
    · rintro ⟨live, hLive⟩
      rcases View.of_eq_some.mp hLive with
        ⟨row, hRow, hReadable, -⟩
      exact ⟨row, hRow, hReadable⟩
    · rintro ⟨row, hRow, hLive⟩
      exact ⟨shown row,
        View.of_eq_some.mpr ⟨row, hRow, hLive, rfl⟩⟩
  rw [List.mem_filter, mem_selectKeys]
  constructor
  · rintro ⟨⟨row, hRow, hLive, -⟩, hMatches⟩
    exact ⟨hView.mpr ⟨row, hRow, hLive⟩, hMatches⟩
  · rintro ⟨hThere, hMatches⟩
    rcases hView.mp hThere with ⟨row, hRow, hLive⟩
    exact ⟨⟨row, hRow, hLive,
      Glob.starts_of_fnmatchcase hMatches⟩, hMatches⟩

/- The scan is as specified. -/
theorem scanKeys_expected
    {pattern : Option Text}
    (hMatching :
      Matching config now table
        (.scanKeys pattern : Method μ))
    (hNonEmpty : pattern ≠ some [])
    (hThere : (view now table name).isSome = true) :
    Glob.fnmatchcase name (scanPattern config pattern) =
      true ↔ Scanned name pattern := by
  cases pattern with
  | none =>
      rcases Option.isSome_iff_exists.mp hThere with
        ⟨live, hLive⟩
      exact iff_of_true (hMatching name live hLive) trivial
  | some pattern =>
      cases pattern with
      | nil => exact absurd rfl hNonEmpty
      | cons first rest => exact Iff.rfl

/- Alone, the database storage does what is expected. -/
theorem expected
    (hKept : Kept codec config table)
    {method : Method μ}
    (hDomain : InDomain config method)
    (hMatching : Matching config now table method) :
    Expected codec config.keyPrefix config.expiration now
      (view now table) method
      (alone codec config now table method).1
      (view now
        (alone codec config now table method).2.table) := by
  have hKey (sid : Text) (hSid : method.sid? = some sid) :
      getKey config.keyPrefix sid = key config sid :=
    (storedKey_of_fits (hDomain.fits sid hSid)).symm
  have hTimed := hDomain.timed
  cases method with
  | create sid data ttl =>
      simp only [Expected, alone, implement]
      rw [create_run, hKey sid rfl]
      exact ⟨rfl,
        view_write (isLive_lifetime (hTimed _ rfl))⟩
  | get sid =>
      simp only [Expected, alone, implement]
      rw [hKey sid rfl]
      have hRun := @loaded_run μ codec
        ((table.lookup (key config sid)).filter
          (StoreRow.isLive now)) ⟨now, table⟩
      exact ⟨congrArg Prod.fst hRun,
        congrArg (fun ret => view now ret.2.table) hRun⟩
  | update sid data resetExpiration ttl =>
      simp only [Expected, alone, implement, update,
        Program.bind_eq]
      rw [hKey sid rfl, renewed_run]
      constructor
      · apply congrArg Except.ok
        rw [← any_isLive]
        exact Table.updateWhere_fst ..
      · apply view_overwrite (hTimed _ rfl)
        intro row _
        rfl
  | modify sid change resetExpiration ttl =>
      simp only [Expected]
      rw [hKey sid rfl]
      exact modify_expected (hTimed _ rfl)
  | delete sid userId =>
      simp only [Expected]
      rw [hKey sid rfl]
      exact ⟨congrArg Except.ok isSome_filter, view_remove⟩
  | extend sid ttl =>
      simp only [Expected]
      rw [hKey sid rfl]
      constructor
      · apply congrArg Except.ok
        rw [← any_isLive]
        exact Table.updateWhere_fst ..
      · apply View.of_updateWhere
        · intro row _
          rfl
        · intro row _
          exact ⟨decide_eq_true
            (isLive_lifetime (hTimed _ rfl)), rfl⟩
  | exists? sid =>
      simp only [Expected]
      rw [hKey sid rfl]
      exact ⟨congrArg Except.ok any_isLive, rfl⟩
  | setIfAbsent sid data ttl =>
      simp only [Expected]
      rw [hKey sid rfl]
      have hClaimed :=
        @setIfAbsent_expected μ codec config now table sid
          data ttl (hTimed _ rfl)
      exact ⟨congrArg Except.ok hClaimed.1, hClaimed.2⟩
  | getAndDelete sid =>
      simp only [Expected, alone, implement, getAndDelete,
        Program.bind_eq]
      rw [hKey sid rfl, execute_run]
      simp only [Service.exec, Transaction.exec]
      rw [consumeRow_eq, loaded_run]
      exact ⟨rfl, view_erase⟩
  | getUserSessions userId =>
      refine ⟨rfl, _, rfl, fun sid => ?_⟩
      exact getUserSessions_expected hKept userId sid
  | scanKeys pattern =>
      refine ⟨rfl, _, rfl, fun name => ?_⟩
      have hNonEmpty : pattern ≠ some [] := by
        rintro rfl
        exact hDomain.nonEmpty [] rfl rfl
      apply mem_scanKeys.trans
      apply and_congr_right
      exact scanKeys_expected hMatching hNonEmpty

------------------------------------------------------------
-- What Is Kept
------------------------------------------------------------

section Kept

variable (hCodec : codec.Lawful)
variable (hKept : Kept codec config table)

include hCodec

/- A dumped value, with its user. -/
theorem kept_columns
    {sid : Text}
    (hFits :
      (getKey config.keyPrefix sid).length ≤
        databaseKeyMaxLength)
    (data : μ) :
    Keepable codec config.keyPrefix (key config sid)
        (columns codec data).value ∧
      (columns codec data).userId =
        (codec.payloadUserId
          (columns codec data).value).join.map
            UserRef.str := by
  constructor
  · unfold key
    rw [storedKey_of_fits hFits]
    exact keepable_dump hCodec config.keyPrefix sid data
  · simp only [columns, userId]
    rw [hCodec.payload data]

include hKept

/- A write keeps the records in order. -/
theorem kept_write
    {sid : Text}
    (hFits :
      (getKey config.keyPrefix sid).length ≤
        databaseKeyMaxLength)
    (data : μ)
    (expires : Nat) :
    Kept codec config
      (Transaction.writeRow table (key config sid)
        (columns codec data) expires).2 := by
  have hColumns := kept_columns hCodec hFits data
  rw [writeRow_eq]
  apply Table.All.insert hKept
  cases table.lookup (key config sid) <;> exact hColumns

theorem kept_overwrite
    {sid : Text}
    {condition : StoreRow → Bool}
    (hFits :
      (getKey config.keyPrefix sid).length ≤
        databaseKeyMaxLength)
    (data : μ)
    (expires : Option Nat) :
    Kept codec config
      (table.updateWhere (key config sid) condition
        (StoreRow.overwrite (columns codec data)
          expires)).2 := by
  apply Table.All.updateWhere hKept
  intro row _
  exact kept_columns hCodec hFits data

theorem kept_claim
    {sid : Text}
    (hFits :
      (getKey config.keyPrefix sid).length ≤
        databaseKeyMaxLength)
    (data : μ)
    (expires : Nat) :
    Kept codec config
      (Transaction.claimKey now table (key config sid)
        (columns codec data) expires).2 := by
  rw [claimKey_eq]
  split
  · exact hKept
  · apply Table.All.insert (Table.All.eraseIf hKept)
    exact kept_columns hCodec hFits data

/- Every method keeps what is kept. -/
theorem kept_alone
    {method : Method μ}
    (hDomain : InDomain config method) :
    Kept codec config
      (alone codec config now table method).2.table := by
  have hFits := hDomain.fits
  cases method with
  | create sid data ttl =>
      simp only [alone, implement]
      rw [create_run]
      exact kept_write hCodec hKept (hFits sid rfl) data _
  | get sid =>
      have hRun := @loaded_run μ codec
        ((table.lookup (key config sid)).filter
          (StoreRow.isLive now)) ⟨now, table⟩
      have hTable :=
        congrArg (fun ret => ret.2.table) hRun
      exact hTable ▸ hKept
  | update sid data resetExpiration ttl =>
      simp only [alone, implement, update, Program.bind_eq]
      rw [renewed_run]
      exact kept_overwrite hCodec hKept (hFits sid rfl)
        data _
  | modify sid change resetExpiration ttl =>
      simp only [alone, implement]
      rw [modify_run]
      split
      · exact hKept
      · split
        · exact hKept
        · exact kept_overwrite hCodec hKept (hFits sid rfl)
            _ _
  | delete sid userId =>
      exact Table.All.eraseIf (Table.All.eraseIf hKept)
  | extend sid ttl =>
      exact Table.All.updateWhere hKept fun row hRow => hRow
  | exists? sid => exact hKept
  | setIfAbsent sid data ttl =>
      exact kept_claim hCodec hKept (hFits sid rfl) data _
  | getAndDelete sid =>
      simp only [alone, implement, getAndDelete,
        Program.bind_eq]
      rw [execute_run]
      simp only [Service.exec, Transaction.exec]
      rw [consumeRow_eq, loaded_run]
      exact Table.All.eraseIf hKept
  | getUserSessions userId => exact hKept
  | scanKeys pattern => exact hKept

end Kept

end DatabaseStorage

end Storage

end CrudAuth
