import CrudAuth.Storage.DatabaseRefines
import CrudAuth.Storage.MemoryRefines

/-
  `delete_pattern` and `scan_keys` of the two storages, by
  globs.  The database narrows a glob down to the keys that
  start as it does, and asks `fnmatch` of these alone, or of
  none where the pattern has no wildcard.

  Main declarations:
    * `Table.deleteKeys`
    * `DatabaseStorage.deletePattern`
    * `DatabaseStorage.deletePattern_obeys`
    * `MemoryStorage.deletePattern`
    * `Glob.starts_iff_fnmatchcase`
    * `exactGlob_of_under`
-/

------------------------------------------------------------
-- Statements On Many Rows
------------------------------------------------------------

namespace CrudAuth

namespace Storage

open Concurrency

namespace Table

variable {κ ρ : Type} [DecidableEq κ]

/- DELETE of the rows of some keys. -/
def eraseAll
    (table : Table κ ρ)
    (keys : List κ) : Table κ ρ :=
  keys.foldl (fun table key => AList.erase key table) table

/- DELETE where a condition on the key holds. -/
def deleteKeys
    (table : Table κ ρ)
    (condition : κ → Bool) : Nat × Table κ ρ :=
  ((table.keys.filter condition).length,
    table.eraseAll (table.keys.filter condition))

/- What is left after several deletions. -/
theorem lookup_eraseAll
    (table : Table κ ρ)
    (keys : List κ)
    (other : κ) :
    (table.eraseAll keys).lookup other =
      if other ∈ keys then none else table.lookup other := by
  unfold eraseAll
  induction keys generalizing table with
  | nil => simp
  | cons key keys ih =>
      rw [List.foldl_cons, ih, lookup_erase']
      by_cases hKey : key = other
      · subst hKey
        simp
      · simp [hKey, Ne.symm hKey]

@[simp]
theorem lookup_deleteKeys
    (table : Table κ ρ)
    (condition : κ → Bool)
    (other : κ) :
    (table.deleteKeys condition).2.lookup other =
      if condition other then
        none
      else
        table.lookup other := by
  unfold deleteKeys
  rw [lookup_eraseAll]
  by_cases hMeets : condition other = true
  · rw [if_pos hMeets]
    split
    · rfl
    · rename_i hAbsent
      rw [AList.lookup_eq_none]
      intro hThere
      apply hAbsent
      rw [List.mem_filter]
      exact ⟨AList.mem_keys.mp hThere, hMeets⟩
  · rw [if_neg hMeets, if_neg]
    intro hOther
    exact hMeets (List.mem_filter.mp hOther).2

/- Only what is there is deleted. -/
theorem deleteKeys_congr
    {table : Table κ ρ}
    {condition condition' : κ → Bool}
    (hSame : ∀ key ∈ table.keys,
      condition key = condition' key) :
    table.deleteKeys condition =
      table.deleteKeys condition' := by
  unfold deleteKeys
  rw [List.filter_congr hSame]

end Table

------------------------------------------------------------
-- The Database
------------------------------------------------------------

namespace DatabaseStorage

/- The transactions of `delete_pattern`. -/
inductive PatternTransaction where
  | selectStarting (start : Text)
  | deleteStarting (start : Text)
  | deleteIn (keys : List Text)

/- Rows found, or how many were deleted. -/
@[reducible]
def PatternTransaction.Ret : PatternTransaction → Type
  | .selectStarting _ => List Text
  | .deleteStarting _ => Nat
  | .deleteIn _ => Nat

/- The database, as `delete_pattern` sees it. -/
abbrev patternTransactions : Interface where
  Op := PatternTransaction
  Ret := PatternTransaction.Ret

namespace PatternTransaction

/- `_starts_with` -/
def startsWith (start name : Text) : Bool :=
  start <+: name

/- A delete answers how many rows it has deleted. -/
def exec :
    (transaction : PatternTransaction) → StoreTable →
    transaction.Ret × StoreTable
  | .selectStarting start, table =>
      (table.keys.filter (startsWith start), table)
  | .deleteStarting start, table =>
      table.deleteKeys (startsWith start)
  | .deleteIn keys, table =>
      table.deleteKeys keys.contains

/- The keys whose rows a transaction deletes. -/
def Deletes (name : Text) : PatternTransaction → Prop
  | .selectStarting _ => False
  | .deleteStarting start => start <+: name
  | .deleteIn keys => name ∈ keys

end PatternTransaction

/- `f"{pattern}*"` -/
def starred (pattern : Text) : Text :=
  pattern ++ ['*']

/- A `delete_pattern`, as the transactions it makes. -/
abbrev PatternSql := Program patternTransactions HttpError

/- One transaction. -/
def executePattern
    (transaction : PatternTransaction) :
    PatternSql transaction.Ret :=
  Program.call (I := patternTransactions) transaction

/- Without keys, there is no second transaction. -/
def deleteFound (keys : List Text) : PatternSql Nat :=
  if keys.isEmpty then
    return 0
  else
    executePattern (.deleteIn keys)

/- `delete_pattern` -/
def deletePattern (pattern : Text) : PatternSql Nat := do
  let literal := Glob.literalStart pattern
  if literal = pattern then
    executePattern (.deleteStarting literal)
  else
    let candidates ←
      executePattern (.selectStarting literal)
    deleteFound (candidates.filter
      (Glob.fnmatchcase · (starred pattern)))

end DatabaseStorage

------------------------------------------------------------
-- The Memory
------------------------------------------------------------

namespace MemoryStorage

variable (config : Config)
variable (dictionary : Dictionary)

/- The id of a key, or the key itself. -/
def sidOf (key : Text) : Text :=
  if config.keyPrefix <+: key then
    key.drop config.keyPrefix.length
  else
    key

/- The keys are deleted one by one, and counted. -/
def deleteEach :
    List Text → Dictionary → Nat × Dictionary
  | [], dictionary => (0, dictionary)
  | key :: keys, dictionary =>
      let deleted :=
        delete config dictionary (sidOf config key)
      let rest := deleteEach keys deleted.2
      (if deleted.1 then rest.1 + 1 else rest.1, rest.2)

/- `delete_pattern` -/
def deletePattern (pattern : Text) : Nat × Dictionary :=
  let keys :=
    (scanKeys dictionary (some (pattern ++ ['*']))).1
  deleteEach config keys dictionary

variable {config} {dictionary}

/- A key of one's own is spelled back. -/
theorem getKey_sidOf
    {key : Text}
    (hOwn : config.keyPrefix <+: key) :
    getKey config.keyPrefix (sidOf config key) = key := by
  unfold sidOf getKey
  rw [if_pos hOwn]
  exact List.prefix_iff_eq_append.mp hOwn

/- Own keys that are there are all deleted. -/
theorem deleteEach_eq
    {keys : List Text}
    (hOwn : ∀ key ∈ keys, config.keyPrefix <+: key)
    (hThere : ∀ key ∈ keys, key ∈ dictionary.keys)
    (hOnce : keys.Nodup) :
    deleteEach config keys dictionary =
      (keys.length, dictionary.eraseAll keys) := by
  induction keys generalizing dictionary with
  | nil => rfl
  | cons key keys ih =>
      have hNext := List.nodup_cons.mp hOnce
      have hKey := getKey_sidOf (hOwn key List.mem_cons_self)
      have hFound :
          (dictionary.lookup key).isSome = true :=
        mem_keys_iff.mp (hThere key List.mem_cons_self)
      have hRest :
          deleteEach config keys (dictionary.erase key) =
            (keys.length,
              Table.eraseAll (dictionary.erase key)
                keys) := by
        apply ih
        · intro other hOther
          exact hOwn other (List.mem_cons_of_mem _ hOther)
        · intro other hOther
          have hKept : key ≠ other := by
            intro hSame
            apply hNext.1
            rw [hSame]
            exact hOther
          have hStays :=
            hThere other (List.mem_cons_of_mem _ hOther)
          rw [mem_keys_iff] at hStays ⊢
          rw [Table.lookup_erase', if_neg hKept]
          exact hStays
        · exact hNext.2
      unfold deleteEach delete
      dsimp only
      rw [hKey, hRest, if_pos hFound]
      rfl

/- Alone, the glob says what is deleted. -/
theorem deletePattern_eq
    (hOwn : ∀ key ∈ dictionary.keys,
      config.keyPrefix <+: key)
    (pattern : Text) :
    deletePattern config dictionary pattern =
      dictionary.deleteKeys
        (Glob.fnmatchcase · (pattern ++ ['*'])) := by
  apply deleteEach_eq
  · intro key hKey
    exact hOwn key (List.mem_of_mem_filter hKey)
  · intro key hKey
    exact List.mem_of_mem_filter hKey
  · exact dictionary.keys_nodup.filter _

end MemoryStorage

------------------------------------------------------------
-- Two Stages
------------------------------------------------------------

namespace Glob

variable {name pattern : Text}

/- A star after the end leaves the start as it is. -/
theorem literalStart_star (pattern : Text) :
    literalStart (pattern ++ ['*']) =
      literalStart pattern := by
  unfold literalStart
  rw [List.takeWhile_append]
  split
  · rw [show List.takeWhile
        (fun char => !isGlobCharacter char) ['*'] = []
      from rfl, List.append_nil]
    rename_i hWhole
    exact (List.takeWhile_prefix _).eq_of_length
      hWhole |>.symm
  · rfl

/- A pattern that is its own start has no wildcard. -/
theorem not_mem_of_literalStart
    (hPlain : literalStart pattern = pattern) :
    '[' ∉ pattern := by
  intro hBracket
  have hFree : (literalStart pattern).all
      (fun char => !isGlobCharacter char) = true :=
    List.all_takeWhile
  rw [hPlain] at hFree
  have hChar := List.all_eq_true.mp hFree '[' hBracket
  revert hChar
  decide

/- Without wildcards, a start is all that a glob asks. -/
theorem starts_iff_fnmatchcase
    (hPlain : literalStart pattern = pattern) :
    pattern <+: name ↔
      fnmatchcase name (pattern ++ ['*']) = true := by
  constructor
  · rintro ⟨rest, rfl⟩
    exact fnmatchcase_start (not_mem_of_literalStart hPlain)
      rest
  · intro hMatches
    have hStarts := starts_of_fnmatchcase hMatches
    rw [literalStart_star, hPlain] at hStarts
    exact hStarts

/- What the first stage drops, the second would have. -/
theorem filter_start
    (names : List Text)
    {glob : Text} :
    (names.filter fun name =>
        literalStart glob <+: name).filter
          (fnmatchcase · glob) =
      names.filter (fnmatchcase · glob) := by
  rw [List.filter_filter]
  apply List.filter_congr
  intro name _
  cases hMatches : fnmatchcase name glob with
  | false => rfl
  | true =>
      have hStarts := starts_of_fnmatchcase hMatches
      rw [decide_eq_true hStarts]
      rfl

end Glob

------------------------------------------------------------
-- Deleting By A Glob
------------------------------------------------------------

namespace DatabaseStorage

open Program

/- A transaction deletes what the glob matches, at most. -/
def sparing (glob : Text) :
    Contract patternTransactions where
  rule _ op := ∀ name,
    op.Deletes name → Glob.fnmatchcase name glob = true
  answer _ _ := True

/- Whatever happens in between, nothing else is deleted. -/
theorem deletePattern_obeys (pattern : Text) :
    Obeys (sparing (starred pattern)) []
      (deletePattern pattern) fun _ _ => True := by
  unfold deletePattern
  dsimp only
  split
  · rename_i hPlain
    constructor
    · intro name hStarts
      apply (Glob.starts_iff_fnmatchcase hPlain).mp
      rw [← hPlain]
      exact hStarts
    · intro _ _
      trivial
  · constructor
    · intro name hNone
      cases hNone
    · intro candidates _
      change Obeys _ _ (deleteFound _) _
      unfold deleteFound
      split
      · trivial
      · constructor
        · intro name hName
          exact (List.mem_filter.mp hName).2
        · intro _ _
          trivial

/- Alone, the rows of the keys are deleted and counted. -/
theorem deleteFound_run
    (table : StoreTable)
    (condition : Text → Bool) :
    (deleteFound (table.keys.filter condition)).run
        PatternTransaction.exec table =
      (.ok (table.deleteKeys condition).1,
        (table.deleteKeys condition).2) := by
  unfold deleteFound
  split
  · rename_i hNone
    rw [List.isEmpty_iff] at hNone
    unfold Table.deleteKeys
    rw [hNone]
    rfl
  · have hSame :
        table.deleteKeys
            (table.keys.filter condition).contains =
          table.deleteKeys condition := by
      apply Table.deleteKeys_congr
      intro name hName
      rw [Bool.eq_iff_iff, List.contains_iff_mem,
        List.mem_filter]
      exact and_iff_right hName
    rw [← hSame]
    rfl

/- Alone, the glob says what is deleted. -/
theorem deletePattern_run
    (table : StoreTable)
    (pattern : Text) :
    (deletePattern pattern).run PatternTransaction.exec
        table =
      (.ok
        (table.deleteKeys
          (Glob.fnmatchcase · (starred pattern))).1,
        (table.deleteKeys
          (Glob.fnmatchcase · (starred pattern))).2) := by
  unfold deletePattern
  dsimp only
  split
  · -- the shortcut, without `fnmatch`
    rename_i hPlain
    have hSame :
        table.deleteKeys
            (PatternTransaction.startsWith
              (Glob.literalStart pattern)) =
          table.deleteKeys
            (Glob.fnmatchcase · (starred pattern)) := by
      apply Table.deleteKeys_congr
      intro name _
      rw [Bool.eq_iff_iff, hPlain]
      unfold PatternTransaction.startsWith
      rw [decide_eq_true_iff]
      exact Glob.starts_iff_fnmatchcase hPlain
    rw [← hSame]
    rfl
  · -- the candidates, and those that `fnmatch` keeps
    have hKeys :
        (table.keys.filter
          (PatternTransaction.startsWith
            (Glob.literalStart pattern))).filter
              (Glob.fnmatchcase · (starred pattern)) =
          table.keys.filter
            (Glob.fnmatchcase · (starred pattern)) := by
      have hStages :=
        @Glob.filter_start table.keys (starred pattern)
      unfold starred at hStages ⊢
      rw [Glob.literalStart_star] at hStages
      exact hStages
    have hRun := deleteFound_run table
      (Glob.fnmatchcase · (starred pattern))
    rw [← hKeys] at hRun
    exact hRun

end DatabaseStorage

------------------------------------------------------------
-- Exact Globs
------------------------------------------------------------

/- What a storage lists and deletes for a pattern. -/
structure Globbed (ρ : Type) where
  names : List Text
  count : Nat
  after : Table Text ρ

/-
  Listed are the keys of a kind that the glob matches, each
  once.  Gone and counted are the keys that the glob with a
  star matches, and no other key.
-/
structure ExactGlob
    {ρ : Type}
    (pattern : Text)
    (table : Table Text ρ)
    (kept : Text → Prop)
    (globbed : Globbed ρ) : Prop where
  once : globbed.names.Nodup
  lists : ∀ name,
    name ∈ globbed.names ↔
      kept name ∧ Glob.fnmatchcase name pattern = true
  rows : ∀ name,
    globbed.after.lookup name =
      if Glob.fnmatchcase name (pattern ++ ['*']) then
        none
      else
        table.lookup name
  counts :
    globbed.count =
      (table.keys.filter
        (Glob.fnmatchcase · (pattern ++ ['*']))).length

/- The same keys can be read. -/
def SameKeys (view view' : View) : Prop :=
  ∀ name, (view name).isSome = (view' name).isSome

/- Whatever is kept can be read. -/
def AllLive
    {ρ : Type}
    (table : Table Text ρ)
    (view : Table Text ρ → View) : Prop :=
  ∀ name ∈ table.keys, (view table name).isSome = true

/-
  The storages list the same live keys, and the same keys
  stay alive.  Where nothing expired is kept, they list and
  count the same.
-/
structure AgreesOn
    {ρ ρ' : Type}
    (table : Table Text ρ)
    (table' : Table Text ρ')
    (view : Table Text ρ → View)
    (view' : Table Text ρ' → View)
    (globbed : Globbed ρ)
    (globbed' : Globbed ρ') : Prop where
  listed : ∀ name, (view table name).isSome = true →
    (name ∈ globbed.names ↔ name ∈ globbed'.names)
  alive :
    SameKeys (view globbed.after) (view' globbed'.after)
  whole :
    AllLive table view →
    AllLive table' view' →
    globbed.names.Perm globbed'.names ∧
      globbed.count = globbed'.count

namespace ExactGlob

variable {ρ ρ' : Type}
variable {pattern : Text}
variable {table : Table Text ρ}
variable {table' : Table Text ρ'}
variable {kept kept' : Text → Prop}
variable {globbed : Globbed ρ}
variable {globbed' : Globbed ρ'}
variable {readable : ρ → Bool}
variable {readable' : ρ' → Bool}
variable {shown : ρ → Live}
variable {shown' : ρ' → Live}
variable {name : Text}

/- A view of what is left shows what was not matched. -/
theorem view_after
    (hExact : ExactGlob pattern table kept globbed) :
    View.of readable shown globbed.after name =
      if Glob.fnmatchcase name (pattern ++ ['*']) then
        none
      else
        View.of readable shown table name := by
  unfold View.of
  rw [hExact.rows name]
  split
  · rfl
  · rfl

/- What can be read is there. -/
theorem mem_keys_of_view
    (hLive :
      (View.of readable shown table name).isSome = true) :
    name ∈ table.keys := by
  rw [← AList.mem_keys, ← AList.lookup_isSome]
  unfold View.of at hLive
  cases hRow : table.lookup name with
  | none =>
      rw [hRow] at hLive
      cases hLive
  | some row => rfl

/- Exact storages agree on the live keys that they share. -/
theorem agreesOn
    (hExact :
      ExactGlob pattern table
        (fun name =>
          (View.of readable shown table name).isSome = true)
        globbed)
    (hExact' :
      ExactGlob pattern table' (· ∈ table'.keys) globbed')
    (hSame :
      SameKeys (View.of readable shown table)
        (View.of readable' shown' table')) :
    AgreesOn table table' (View.of readable shown)
      (View.of readable' shown') globbed globbed' where
  listed := by
    intro name hLive
    rw [hExact.lists, hExact'.lists]
    have hThere : name ∈ table'.keys := by
      rw [hSame name] at hLive
      exact mem_keys_of_view hLive
    exact and_congr_left' (iff_of_true hLive hThere)
  alive := by
    intro name
    rw [hExact.view_after, hExact'.view_after]
    split
    · rfl
    · exact hSame name
  whole := by
    intro hWhole hWhole'
    have hLive (name : Text) :
        (View.of readable shown table name).isSome = true ↔
          name ∈ table'.keys := by
      rw [hSame name]
      exact ⟨mem_keys_of_view, hWhole' name⟩
    have hKeys : table.keys.Perm table'.keys := by
      rw [List.perm_ext_iff_of_nodup table.keys_nodup
        table'.keys_nodup]
      intro name
      rw [← hLive]
      exact ⟨hWhole name, mem_keys_of_view⟩
    constructor
    · rw [List.perm_ext_iff_of_nodup hExact.once
        hExact'.once]
      intro name
      rw [hExact.lists, hExact'.lists, hLive]
    · rw [hExact.counts, hExact'.counts]
      exact (hKeys.filter _).length_eq

end ExactGlob

/- What the memory lists and deletes. -/
def MemoryStorage.Config.globbed
    (config : MemoryStorage.Config)
    (dictionary : Dictionary)
    (pattern : Text) : Globbed MemoryEntry where
  names := (scanKeys dictionary (some pattern)).1
  count := (deletePattern config dictionary pattern).1
  after := (deletePattern config dictionary pattern).2

/- Alone, the database lists and deletes this. -/
structure DatabaseStorage.Globs
    {μ : Type}
    (codec : Codec μ)
    (config : DatabaseStorage.Config)
    (now : Nat)
    (table : StoreTable)
    (pattern : Text)
    (globbed : Globbed StoreRow) : Prop where
  scan :
    alone codec config now table (.scanKeys (some pattern)) =
      (.ok globbed.names, ⟨now, table⟩)
  delete :
    (deletePattern pattern).run PatternTransaction.exec
        table =
      (.ok globbed.count, globbed.after)

section Storages

variable {μ : Type}
variable (codec : Codec μ)
variable (config : DatabaseStorage.Config)
variable (memory : MemoryStorage.Config)
variable (now : Nat)
variable (table : StoreTable)
variable (dictionary : Dictionary)
variable {pattern : Text}

/- The memory scans and deletes one key at a time. -/
theorem memory_exact
    (hOwn : ∀ name ∈ dictionary.keys,
      memory.keyPrefix <+: name) :
    ExactGlob pattern dictionary (· ∈ dictionary.keys)
      (memory.globbed dictionary pattern) := by
  have hDeleted :=
    MemoryStorage.deletePattern_eq hOwn pattern
  constructor
  · exact dictionary.keys_nodup.filter _
  · intro name
    exact List.mem_filter
  · intro name
    unfold MemoryStorage.Config.globbed
    rw [hDeleted]
    exact dictionary.lookup_deleteKeys _ name
  · unfold MemoryStorage.Config.globbed
    rw [hDeleted]
    rfl

/- A key is selected with its row, once. -/
theorem selectKeys_sublist (start : Text) :
    (Transaction.exec (.selectKeys start now) now
      table).1.Sublist table.keys := by
  unfold Transaction.exec AList.keys List.keys
  dsimp only
  induction table.entries with
  | nil => exact List.Sublist.slnil
  | cons row rows ih =>
      rw [List.filterMap_cons, List.map_cons]
      split
      · exact List.Sublist.cons _ ih
      · rename_i name hName
        have hSame : name = row.1 := by
          split at hName
          · exact (Option.some.inj hName).symm
          · cases hName
        rw [hSame]
        exact ih.cons_cons _

/- The database scans and deletes in two stages. -/
theorem database_exact
    (hPattern : pattern ≠ []) :
    ∃ globbed,
      DatabaseStorage.Globs codec config now table pattern
        globbed ∧
      ExactGlob pattern table
        (fun name =>
          (DatabaseStorage.view now table name).isSome =
            true)
        globbed := by
  let pattern? := some pattern
  let start :=
    Glob.literalStart
      (DatabaseStorage.scanPattern config pattern?)
  let selected :=
    (Transaction.exec (.selectKeys start now) now table).1
  let deleted :=
    table.deleteKeys
      (Glob.fnmatchcase ·
        (DatabaseStorage.starred pattern))
  have hScanned :
      DatabaseStorage.scanPattern config pattern? =
        pattern := by
    cases pattern with
    | nil => exact absurd rfl hPattern
    | cons first rest => rfl
  let names :=
    selected.filter
      (Glob.fnmatchcase ·
        (DatabaseStorage.scanPattern config pattern?))
  refine ⟨⟨names, deleted.1, deleted.2⟩, ?_, ?_⟩
  · constructor
    · rfl
    · exact DatabaseStorage.deletePattern_run table pattern
  · constructor
    · have hSelected := selectKeys_sublist now table start
      exact (table.keys_nodup.sublist hSelected).filter _
    · intro name
      have hName :=
        @DatabaseStorage.mem_scanKeys config now table name
          pattern?
      rw [hScanned] at hName
      dsimp only [names, selected, start]
      rw [hScanned]
      exact hName
    · intro name
      exact table.lookup_deleteKeys _ name
    · rfl

/-
  Globs are exact in the two storages, which agree where
  they hold the same live keys.  The start of a glob is the
  start of all it matches, and all that a glob asks that has
  no wildcard.
-/
theorem exactGlob_of_under
    (hPattern : pattern ≠ [])
    (hOwn : ∀ name ∈ dictionary.keys,
      memory.keyPrefix <+: name) :
    (∃ globbed,
      DatabaseStorage.Globs codec config now table pattern
        globbed ∧
      ExactGlob pattern table
        (fun name =>
          (DatabaseStorage.view now table name).isSome =
            true)
        globbed ∧
      ExactGlob pattern dictionary (· ∈ dictionary.keys)
        (memory.globbed dictionary pattern) ∧
      (SameKeys (DatabaseStorage.view now table)
          (MemoryStorage.view now dictionary) →
        AgreesOn table dictionary (DatabaseStorage.view now)
          (MemoryStorage.view now) globbed
          (memory.globbed dictionary pattern))) ∧
    (∀ name glob, Glob.fnmatchcase name glob = true →
      Glob.literalStart glob <+: name) ∧
    (∀ plain, Glob.literalStart plain = plain →
      ∀ name,
        plain <+: name ↔
          Glob.fnmatchcase name (plain ++ ['*']) =
            true) := by
  have hMemory :=
    @memory_exact memory dictionary pattern hOwn
  constructor
  · rcases database_exact codec config now table hPattern
      with ⟨globbed, hGlobs, hExact⟩
    exact ⟨globbed, hGlobs, hExact, hMemory,
      hExact.agreesOn hMemory⟩
  · constructor
    · intro name glob hMatches
      exact Glob.starts_of_fnmatchcase hMatches
    · intro plain hPlain name
      exact Glob.starts_iff_fnmatchcase hPlain

end Storages

------------------------------------------------------------
-- An Unclosed Bracket
------------------------------------------------------------

namespace UnclosedBracket

/- The database storage of sessions. -/
def database : DatabaseStorage.Config where
  keyPrefix := "session:".toList
  expiration := 1800
  deletesReturning := true
  digest := id

/- The memory storage of sessions. -/
def memory : MemoryStorage.Config where
  keyPrefix := "session:".toList
  expiration := 1800

/- A key with an open bracket. -/
def name : Text := "session:[x".toList

/- The table that it is stored in. -/
def table : StoreTable :=
  AList.insert name ⟨[], none, 1, 1⟩ ∅

/- The dictionary that it is stored in. -/
def dictionary : Dictionary :=
  AList.insert name ⟨[], some 1⟩ ∅

/- An open bracket, which a star cannot close. -/
def pattern : Text := "session:[".toList

/- The two sample stores have the same keys. -/
theorem sameKeys :
    SameKeys (DatabaseStorage.view 0 table)
      (MemoryStorage.view 0 dictionary) := by
  intro other
  unfold DatabaseStorage.view MemoryStorage.view View.of
  unfold table dictionary
  rw [Table.lookup_insert', Table.lookup_insert']
  split
  · rfl
  · rfl

/- The storages agree on the bracket. -/
theorem agreesOn_unclosed :
    ∃ globbed,
      DatabaseStorage.Globs Codec.texts database 0 table
        pattern globbed ∧
      AgreesOn table dictionary (DatabaseStorage.view 0)
        (MemoryStorage.view 0) globbed
        (memory.globbed dictionary pattern) := by
  have hOwn : ∀ other ∈ dictionary.keys,
      memory.keyPrefix <+: other := by
    intro other hOther
    rw [List.mem_singleton.mp hOther]
    exact ⟨"[x".toList, rfl⟩
  have hGlobs :=
    exactGlob_of_under Codec.texts database memory 0 table
      dictionary (List.cons_ne_nil _ _ : pattern ≠ []) hOwn
  rcases hGlobs.1 with ⟨globbed, hRuns, -, -, hAgrees⟩
  exact ⟨globbed, hRuns, hAgrees sameKeys⟩

end UnclosedBracket

end Storage

end CrudAuth
