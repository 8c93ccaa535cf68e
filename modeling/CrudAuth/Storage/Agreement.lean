import CrudAuth.Storage.DatabaseRefines
import CrudAuth.Storage.MemoryRefines

/-
  The memory and the database storage, used alike, with
  what both can store: they answer alike exactly where the
  memory storage is not asked to delete or to scan an
  expired entry that it has not dropped yet, nor for the
  values of nobody by the name of None, and the default
  scan pattern matches the storage's own keys.

  Main declarations:
    * `Storages`
    * `Reached`
    * `ObservablyEqual`
    * `Storable`
    * `Sparing`
    * `observablyEqual_iff`
-/

------------------------------------------------------------
-- Two Storages Side By Side
------------------------------------------------------------

namespace CrudAuth

namespace Storage

/- One prefix, kept in memory and in a database. -/
structure Storages where
  clock : Nat
  dictionary : Dictionary
  table : StoreTable

namespace Storages

open DatabaseStorage (Config)

variable {μ : Type}
variable (codec : Codec μ)
variable (config : Config)

/- The memory storage of the same prefix and TTL. -/
def memoryConfig : MemoryStorage.Config where
  keyPrefix := config.keyPrefix
  expiration := config.expiration

/- A call of the memory storage. -/
def inMemory
    (storages : Storages)
    (method : Method μ) :
    Except HttpError method.Ret × Dictionary :=
  MemoryStorage.perform codec (memoryConfig config)
    storages.clock storages.dictionary method

/- The same call of the database storage. -/
def inDatabase
    (storages : Storages)
    (method : Method μ) :
    Except HttpError method.Ret × DatabaseStorage.Service :=
  DatabaseStorage.alone codec config storages.clock
    storages.table method

/- A call of both, time, a sweep, or a purge. -/
inductive Step (μ : Type) where
  | call (method : Method μ)
  | pass (time : Nat)
  | sweep
  | purge (batch : List Text)

/- What a step leaves of both. -/
def after (storages : Storages) : Step μ → Storages
  | .call method =>
      { storages with
        dictionary :=
          (inMemory codec config storages method).2
        table :=
          (inDatabase codec config storages method).2.table }
  | .pass time =>
      { storages with clock := storages.clock + time }
  | .sweep =>
      { storages with
        dictionary :=
          MemoryStorage.sweep storages.clock
            storages.dictionary }
  | .purge batch =>
      { storages with
        table :=
          Transaction.purge storages.clock storages.table
            batch }

/- No entry is exactly at its expiry. -/
structure Settled (storages : Storages) (now : Nat) :
    Prop where
  entries : ∀ key entry,
    storages.dictionary.lookup key = some entry →
      entry.expiry ≠ some now
  rows : ∀ key row,
    storages.table.lookup key = some row →
      row.expiresAt ≠ now

/- The steps of a run, of calls that meet a condition. -/
def Allowed
    (condition : Storages → Method μ → Prop)
    (storages : Storages) : Step μ → Prop
  | .call method =>
      DatabaseStorage.InDomain config method ∧
        condition storages method
  | .pass time => storages.Settled (storages.clock + time)
  | .sweep => True
  | .purge _ => True

/- What is reached from two empty storages. -/
inductive Reached
    (condition : Storages → Method μ → Prop) :
    Storages → Prop
  | start (clock : Nat) : Reached condition ⟨clock, ∅, ∅⟩
  | step
      {storages : Storages}
      (hReached : Reached condition storages)
      {step : Step μ}
      (hAllowed : Allowed config condition storages step) :
      Reached condition (storages.after codec config step)

/- Expired entries have never existed. -/
def forgetful (storages : Storages) : Storages where
  clock := storages.clock
  dictionary :=
    MemoryStorage.sweep storages.clock storages.dictionary
  table :=
    Transaction.purge storages.clock storages.table
      storages.table.keys

/-
  Both storages answer alike, and each as if its expired
  entries had never existed.
-/
structure ObservablyEqual
    (storages : Storages)
    (method : Method μ) : Prop where
  same : SameAnswers method
    (inMemory codec config storages method).1
    (inDatabase codec config storages method).1
  memory : SameAnswers method
    (inMemory codec config storages method).1
    (inMemory codec config storages.forgetful method).1
  database : SameAnswers method
    (inDatabase codec config storages method).1
    (inDatabase codec config storages.forgetful method).1

/-
  A call that both storages can carry out: it names its
  record, its expiry is a datetime that exists, and the
  column for user ids can hold the one it writes.
-/
structure Storable
    (storages : Storages)
    (method : Method μ) : Prop where
  named : ∀ sid ∈ method.sid?, sid ≠ []
  dated :
    MemoryStorage.DatedMethod (memoryConfig config)
      storages.clock method
  owned : ∀ written, method.Writes written →
    ∀ userId ∈ DatabaseStorage.userId codec written,
      userId.length ≤ databaseKeyMaxLength

/-
  What a method deletes or scans in memory has not expired,
  no null user is listed there, and the default pattern
  matches what it is used for.
-/
structure Sparing
    (storages : Storages)
    (method : Method μ) : Prop where
  memory :
    MemoryStorage.Sparing codec (memoryConfig config)
      storages.clock storages.dictionary method
  database :
    DatabaseStorage.Matching config storages.clock
      storages.table method

/- A call that both can carry out, and that spares them. -/
structure Alike
    (storages : Storages)
    (method : Method μ) : Prop where
  storable : Storable codec config storages method
  sparing : Sparing codec config storages method

------------------------------------------------------------
-- Agreement
------------------------------------------------------------

variable {codec} {config}
variable {storages : Storages}

/- What the memory storage shows. -/
def memoryView (storages : Storages) : View :=
  MemoryStorage.view storages.clock storages.dictionary

/- What the database storage shows. -/
def databaseView (storages : Storages) : View :=
  DatabaseStorage.view storages.clock storages.table

/- Both show the same, and keep what they may. -/
structure Agree
    (codec : Codec μ)
    (config : Config)
    (storages : Storages) : Prop where
  views : storages.memoryView = storages.databaseView
  memory :
    MemoryStorage.Kept codec (memoryConfig config)
      storages.dictionary
  database :
    DatabaseStorage.Kept codec config storages.table

/- What is expected of a call of either storage. -/
theorem Agree.expected_memory
    (hAgree : Agree codec config storages)
    {method : Method μ}
    (hStorable : Storable codec config storages method)
    (hSparing : Sparing codec config storages method) :
    Expected codec config.keyPrefix config.expiration
      storages.clock storages.memoryView method
      (inMemory codec config storages method).1
      (MemoryStorage.view storages.clock
        (inMemory codec config storages method).2) :=
  MemoryStorage.expected hAgree.memory hStorable.dated
    hSparing.memory

/- The database answers as expected. -/
theorem Agree.expected_database
    (hAgree : Agree codec config storages)
    {method : Method μ}
    (hDomain : DatabaseStorage.InDomain config method)
    (hSparing : Sparing codec config storages method) :
    Expected codec config.keyPrefix config.expiration
      storages.clock storages.memoryView method
      (inDatabase codec config storages method).1
      (DatabaseStorage.view storages.clock
        (inDatabase codec config storages
          method).2.table) := by
  rw [hAgree.views]
  exact DatabaseStorage.expected hAgree.database hDomain
    hSparing.database

/- Later, both show the same part of what they showed. -/
theorem Agree.pass
    (hAgree : Agree codec config storages)
    {now : Nat}
    (hLater : storages.clock ≤ now)
    (hSettled : storages.Settled now) :
    MemoryStorage.view now storages.dictionary =
      DatabaseStorage.view now storages.table := by
  funext key
  have hViews := congrFun hAgree.views key
  apply Option.ext
  intro live
  constructor
  · intro hLive
    rcases View.of_eq_some.mp hLive with
      ⟨entry, hEntry, hReadable, rfl⟩
    rw [MemoryStorage.readable_iff] at hReadable
    have hEarlier :
        storages.memoryView key =
          some (MemoryStorage.shown entry) :=
      View.of_eq_some.mpr
        ⟨entry, hEntry,
          MemoryStorage.readable_iff.mpr
            fun expiry hExpiry =>
              hLater.trans (hReadable expiry hExpiry),
          rfl⟩
    rw [hViews] at hEarlier
    rcases View.of_eq_some.mp hEarlier with
      ⟨row, hRow, -, hShown⟩
    have hExpiry : some row.expiresAt = entry.expiry :=
      congrArg Live.expiry hShown
    have hReached := hReadable _ hExpiry.symm
    have hApart := hSettled.rows key row hRow
    apply View.of_eq_some.mpr
    refine ⟨row, hRow, ?_, hShown⟩
    simp only [StoreRow.isLive, decide_eq_true_eq]
    omega
  · intro hLive
    rcases View.of_eq_some.mp hLive with
      ⟨row, hRow, hReadable, rfl⟩
    simp only [StoreRow.isLive, decide_eq_true_eq]
      at hReadable
    have hEarlier :
        storages.databaseView key =
          some (DatabaseStorage.shown row) := by
      apply View.of_eq_some.mpr
      refine ⟨row, hRow, ?_, rfl⟩
      simp only [StoreRow.isLive, decide_eq_true_eq]
      omega
    rw [← hViews] at hEarlier
    rcases View.of_eq_some.mp hEarlier with
      ⟨entry, hEntry, -, hShown⟩
    have hExpiry : entry.expiry = some row.expiresAt :=
      congrArg Live.expiry hShown
    apply View.of_eq_some.mpr
    refine ⟨entry, hEntry, ?_, hShown⟩
    rw [MemoryStorage.readable_iff, hExpiry]
    rintro _ ⟨⟩
    exact hReadable.le

/- Backends used alike agree. -/
theorem agree_of_reached
    (hCodec : codec.Lawful)
    (hReached :
      Reached codec config (Alike codec config) storages) :
    Agree codec config storages := by
  induction hReached with
  | start clock =>
      refine ⟨?_, ?_, ?_⟩
      · rfl
      · intro key entry hEntry
        cases hEntry
      · intro key row hRow
        cases hRow
  | @step storages _ step hAllowed ih =>
      cases step with
      | call method =>
          rcases hAllowed with ⟨hDomain, hAlike⟩
          have hMemory :=
            ih.expected_memory hAlike.storable hAlike.sparing
          have hDatabase :=
            ih.expected_database hDomain hAlike.sparing
          constructor
          · exact (hMemory.sameAnswers hDatabase).2
          · exact MemoryStorage.kept_perform hCodec ih.memory
              method
          · exact DatabaseStorage.kept_alone hCodec
              ih.database hDomain
      | pass time =>
          exact ⟨ih.pass (Nat.le_add_right _ _) hAllowed,
            ih.memory, ih.database⟩
      | sweep =>
          exact ⟨MemoryStorage.view_sweep.trans ih.views,
            Table.All.sweep ih.memory _, ih.database⟩
      | purge batch =>
          exact ⟨ih.views.trans
              (DatabaseStorage.view_purge batch).symm,
            ih.memory, Table.All.sweep ih.database batch⟩

------------------------------------------------------------
-- Forgetting What Has Expired
------------------------------------------------------------

/- They agree though expired records remain. -/
theorem Agree.forgetful
    (hAgree : Agree codec config storages) :
    Agree codec config storages.forgetful where
  views :=
    MemoryStorage.view_sweep.trans
      (hAgree.views.trans
        (DatabaseStorage.view_purge _).symm)
  memory := Table.All.sweep hAgree.memory _
  database := Table.All.sweep hAgree.database _

/- Where nothing has expired, nothing expired is met. -/
theorem Sparing.forgetful
    {method : Method μ}
    (hSparing : Sparing codec config storages method) :
    Sparing codec config storages.forgetful method := by
  constructor
  · cases method with
    | delete sid userId =>
        intro entry hEntry
        exact hSparing.memory entry
          (Table.lookup_of_sweep _ hEntry)
    | scanKeys pattern =>
        intro key entry hEntry hScanned
        exact hSparing.memory key entry
          (Table.lookup_of_sweep _ hEntry) hScanned
    | getUserSessions userId =>
        intro key live hLive
        apply hSparing.memory key live
        rw [← hLive]
        exact congrFun MemoryStorage.view_sweep.symm key
    | _ => trivial
  · cases method with
    | scanKeys pattern =>
        cases pattern with
        | some pattern => trivial
        | none =>
            intro name live hLive
            apply hSparing.database name live
            rw [← hLive]
            exact congrFun
              (DatabaseStorage.view_purge _).symm name
    | _ => trivial

/- What can be stored does not depend on what has expired. -/
theorem Storable.forgetful
    {method : Method μ}
    (hStorable : Storable codec config storages method) :
    Storable codec config storages.forgetful method :=
  ⟨hStorable.named, hStorable.dated, hStorable.owned⟩

/- Where expired entries are spared, all answers agree. -/
theorem Agree.observablyEqual
    (hAgree : Agree codec config storages)
    {method : Method μ}
    (hDomain : DatabaseStorage.InDomain config method)
    (hStorable : Storable codec config storages method)
    (hSparing : Sparing codec config storages method) :
    ObservablyEqual codec config storages method := by
  have hMemory := hAgree.expected_memory hStorable hSparing
  have hDatabase :=
    hAgree.expected_database hDomain hSparing
  have hMemory' :=
    hAgree.forgetful.expected_memory
      (hStorable.forgetful) hSparing.forgetful
  have hDatabase' :=
    hAgree.forgetful.expected_database hDomain
      hSparing.forgetful
  have hView :
      storages.forgetful.memoryView = storages.memoryView :=
    MemoryStorage.view_sweep
  rw [hView] at hMemory' hDatabase'
  exact
    { same := (hMemory.sameAnswers hDatabase).1
      memory := (hMemory.sameAnswers hMemory').1
      database := (hDatabase.sameAnswers hDatabase').1 }

/- An entry that is seen has not expired. -/
theorem unexpired_of_isSome
    {key : Text}
    {entry : MemoryEntry}
    (hEntry : storages.dictionary.lookup key = some entry)
    (hSeen : (storages.memoryView key).isSome = true) :
    MemoryStorage.expired storages.clock entry = false := by
  cases hExpired :
      MemoryStorage.expired storages.clock entry with
  | false => rfl
  | true =>
      unfold memoryView MemoryStorage.view View.of at hSeen
      rw [hEntry] at hSeen
      simp [Option.filter, MemoryStorage.readable,
        hExpired] at hSeen

/- A scan that is answered alike, key by key. -/
theorem scanned_of_same
    {pattern : Option Text}
    (hSame : SameAnswers (.scanKeys pattern : Method μ)
      (inMemory codec config storages (.scanKeys pattern)).1
      (inDatabase codec config storages
        (.scanKeys pattern)).1)
    (key : Text) :
    ((storages.dictionary.lookup key).isSome ∧
        Scanned key pattern) ↔
      (storages.databaseView key).isSome ∧
        Glob.fnmatchcase key
          (DatabaseStorage.scanPattern config pattern) =
            true := by
  rcases hSame with
    ⟨members, members', hMemory, hDatabase, hMembers⟩
  obtain rfl := Except.ok.inj hMemory
  obtain rfl := Except.ok.inj hDatabase
  exact (MemoryStorage.mem_scanKeys.symm.trans
    (hMembers key)).trans DatabaseStorage.mem_scanKeys

/- Where the storages answer alike, no null user is met. -/
theorem Agree.not_showsNull
    (hAgree : Agree codec config storages)
    {userId : UserRef}
    (hDomain :
      DatabaseStorage.InDomain config
        (.getUserSessions userId : Method μ))
    (hSame : SameAnswers (.getUserSessions userId : Method μ)
      (inMemory codec config storages
        (.getUserSessions userId)).1
      (inDatabase codec config storages
        (.getUserSessions userId)).1)
    {key : Text}
    {live : Live}
    (hLive : storages.memoryView key = some live) :
    ¬ MemoryStorage.ShowsNull codec userId live := by
  intro hNull
  rcases hSame with
    ⟨members, members', hMemory, hDatabase, hMembers⟩
  rcases View.of_eq_some.mp hLive with
    ⟨entry, hEntry, -, -⟩
  rcases (hAgree.memory key entry hEntry).1 with ⟨sid, rfl⟩
  -- Memory lists the record, so the database must, too.
  have hListed : sid ∈ members := by
    obtain rfl := Except.ok.inj hMemory
    rw [(MemoryStorage.getUserSessions_eq hAgree.memory
      userId).2]
    exact ⟨live, hLive,
      MemoryStorage.shows_iff.mpr (.inr hNull)⟩
  have hBelongs :
      ∃ live ∈ storages.databaseView
          (getKey config.keyPrefix sid),
        BelongsTo codec userId live := by
    rcases DatabaseStorage.expected hAgree.database hDomain
      trivial with ⟨-, sids, hSids, hMeans⟩
    obtain rfl := Except.ok.inj (hDatabase.symm.trans hSids)
    exact (hMeans sid).mp ((hMembers sid).mp hListed)
  rcases hBelongs with ⟨other, hOther, hBelongs⟩
  have hThere :
      storages.memoryView (getKey config.keyPrefix sid) =
        some other :=
    (congrFun hAgree.views _).trans hOther
  obtain rfl := Option.some.inj (hLive.symm.trans hThere)
  exact MemoryStorage.not_belongsTo_of_showsNull hNull
    hBelongs

/-
  Where the storages answer alike, nothing expired is met.
-/
theorem Agree.sparing
    (hAgree : Agree codec config storages)
    {method : Method μ}
    (hDomain : DatabaseStorage.InDomain config method)
    (hSame : SameAnswers method
      (inMemory codec config storages method).1
      (inDatabase codec config storages method).1) :
    Sparing codec config storages method := by
  cases method with
  | getUserSessions userId =>
      refine ⟨?_, trivial⟩
      intro key live hLive hNull
      exact hAgree.not_showsNull hDomain hSame hLive hNull
  | delete sid userId =>
      refine ⟨fun entry hEntry => ?_, trivial⟩
      have hAnswer :
          (inDatabase codec config storages
            (.delete sid userId)).1 =
          .ok (storages.databaseView
            (getKey config.keyPrefix sid)).isSome :=
        (DatabaseStorage.expected hAgree.database hDomain
          trivial).1
      have hThere := Except.ok.inj (hSame.trans hAnswer)
      have hStored :
          (storages.dictionary.lookup
            (getKey config.keyPrefix sid)).isSome = true :=
        (congrArg Option.isSome hEntry).trans rfl
      apply unexpired_of_isSome hEntry
      rw [hAgree.views]
      exact hThere.symm.trans hStored
  | scanKeys pattern =>
      have hScanned := scanned_of_same hSame
      constructor
      · intro key entry hEntry hMatches
        apply unexpired_of_isSome hEntry
        rw [hAgree.views]
        exact ((hScanned key).mp
          ⟨by rw [hEntry]; rfl, hMatches⟩).1
      · cases pattern with
        | some pattern => trivial
        | none =>
            intro key live hLive
            have hFound :
                storages.memoryView key = some live :=
              (congrFun hAgree.views key).trans hLive
            rcases View.of_eq_some.mp hFound with
              ⟨entry, hEntry, -, -⟩
            exact ((hScanned key).mp
              ⟨by rw [hEntry]; rfl, trivial⟩).2
  | _ => exact ⟨trivial, trivial⟩

/-
  Wherever a run of calls that both can carry out and that
  spare expired entries and null users has come, such a
  call is answered alike, and as if no expired entry had
  existed, if and only if it spares them too.
-/
theorem observablyEqual_iff
    (hCodec : codec.Lawful)
    (hReached :
      Reached codec config (Alike codec config) storages)
    {method : Method μ}
    (hDomain : DatabaseStorage.InDomain config method)
    (hStorable : Storable codec config storages method) :
    ObservablyEqual codec config storages method ↔
      Sparing codec config storages method := by
  have hAgree := agree_of_reached hCodec hReached
  constructor
  · intro hEqual
    exact hAgree.sparing hDomain hEqual.same
  · exact hAgree.observablyEqual hDomain hStorable

/-
  Past the last datetime only the database creates: the
  memory storage has written the value, and raises.
-/
theorem not_same_of_undated
    {sid : Text}
    {data : μ}
    {ttl : Option Nat}
    (hUndated :
      ¬ MemoryStorage.Dated (memoryConfig config)
        storages.clock ttl) :
    ¬ SameAnswers (.create sid data ttl)
      (inMemory codec config storages
        (.create sid data ttl)).1
      (inDatabase codec config storages
        (.create sid data ttl)).1 := by
  intro hSame
  have hMemory :
      (inMemory codec config storages
        (.create sid data ttl)).1 = .error .unhandled := by
    unfold MemoryStorage.Dated at hUndated
    simp only [inMemory, MemoryStorage.perform,
      MemoryStorage.create, MemoryStorage.expire,
      MemoryStorage.expiryOf, if_neg hUndated]
  have hDatabase :
      (inDatabase codec config storages
        (.create sid data ttl)).1 = .ok sid :=
    congrArg Prod.fst
      (DatabaseStorage.create_run sid data ttl)
  cases hMemory.symm.trans (hSame.trans hDatabase)

------------------------------------------------------------
-- A Lingering Entry
------------------------------------------------------------

namespace Lingering

/- A prefix without brackets, and keys as they are. -/
def testing : Config where
  keyPrefix := "test:".toList
  expiration := 1800
  deletesReturning := true
  digest := id

/- The one key of the run. -/
def sid : Text := "one".toList

/- An entry of one second, created and left for two. -/
def steps : List (Step Text) :=
  [.call (.create sid "old".toList (some 1)), .pass 2000]

/- The memory storage still has the entry. -/
def lingering : Storages :=
  steps.foldl (after Codec.texts testing) ⟨0, ∅, ∅⟩

theorem inDomain_create :
    DatabaseStorage.InDomain testing
      (.create sid "old".toList (some 1)) where
  fits := by
    rintro _ ⟨⟩
    decide
  timed := by
    rintro _ ⟨⟩
    decide
  nonEmpty := by
    rintro _ ⟨⟩

theorem inDomain_delete :
    DatabaseStorage.InDomain testing
      (.delete sid none : Method Text) where
  fits := by
    rintro _ ⟨⟩
    decide
  timed := by
    rintro _ ⟨⟩
  nonEmpty := by
    rintro _ ⟨⟩

/- What one insert into an empty table has put there. -/
theorem eq_of_lookup_insert
    {ρ : Type}
    {key other : Text}
    {row row' : ρ}
    (hRow :
      (AList.insert key row (∅ : Table Text ρ)).lookup
        other = some row') :
    row' = row := by
  rw [Table.lookup_insert'] at hRow
  split at hRow
  · exact (Option.some.inj hRow).symm
  · cases hRow

/- Both have stored the value. -/
def created : Storages :=
  after Codec.texts testing ⟨0, ∅, ∅⟩
    (.call (.create sid "old".toList (some 1)))

/- Two seconds later nothing is just expiring. -/
theorem settled_created : created.Settled 2000 := by
  constructor
  · intro key entry hEntry
    have hInserted :
        (AList.insert (getKey testing.keyPrefix sid)
          ⟨"old".toList, some 1000⟩
          (∅ : Dictionary)).lookup
            key = some entry :=
      hEntry
    rw [eq_of_lookup_insert hInserted]
    decide
  · intro key row hRow
    have hInserted :
        (AList.insert (getKey testing.keyPrefix sid)
          ⟨"old".toList, none, 1, 1000⟩
          (∅ : StoreTable)).lookup key = some row :=
      hRow
    rw [eq_of_lookup_insert hInserted]
    decide

/- The sample storages are reached. -/
theorem reached_lingering
    {condition : Storages → Method Text → Prop}
    (hCreate : condition ⟨0, ∅, ∅⟩
      (.create sid "old".toList (some 1))) :
    Reached Codec.texts testing condition lingering := by
  have hCreated :
      Reached Codec.texts testing condition created :=
    .step (.start 0) ⟨inDomain_create, hCreate⟩
  have hPassed :
      Allowed testing condition created
        (.pass 2000 : Step Text) :=
    settled_created
  exact .step hCreated hPassed

/- Memory has deleted what the database does not have. -/
theorem not_observablyEqual :
    ¬ ∀ storages,
      Reached Codec.texts testing (fun _ _ =>
        True) storages →
      ∀ method, DatabaseStorage.InDomain testing method →
        ObservablyEqual Codec.texts testing storages
          method := by
  intro hAlways
  have hSame :=
    (hAlways lingering (reached_lingering trivial)
    (.delete sid none) inDomain_delete).same
  have hTrue :
      (inMemory Codec.texts testing lingering
        (.delete sid none)).1 = .ok true := rfl
  have hFalse :
      (inDatabase Codec.texts testing lingering
        (.delete sid none)).1 = .ok false := rfl
  have hAnswers :
      (Except.ok true : Except HttpError Bool) = .ok false :=
    hTrue.symm.trans (hSame.trans hFalse)
  cases hAnswers

theorem inDomain_get :
    DatabaseStorage.InDomain testing
      (.get sid : Method Text) where
  fits := by
    rintro _ ⟨⟩
    decide
  timed := by
    rintro _ ⟨⟩
  nonEmpty := by
    rintro _ ⟨⟩

theorem storable_create :
    Storable Codec.texts testing ⟨0, ∅, ∅⟩
      (.create sid "old".toList (some 1)) where
  named := by
    rintro _ ⟨⟩
    decide
  dated := by
    rintro _ ⟨⟩
    decide
  owned := by
    rintro _ rfl _ ⟨⟩

theorem storable_get :
    Storable Codec.texts testing lingering
      (.get sid) where
  named := by
    rintro _ ⟨⟩
    decide
  dated := by
    rintro _ ⟨⟩
  owned := by
    rintro _ ⟨⟩

/- A `get` does not tell that the entry is still there. -/
theorem observablyEqual_get :
    ObservablyEqual Codec.texts testing lingering
      (.get sid) :=
  (observablyEqual_iff Codec.lawful_texts
    (reached_lingering
      ⟨storable_create, ⟨trivial, trivial⟩⟩)
    inDomain_get storable_get).mpr ⟨trivial, trivial⟩

end Lingering

end Storages

end Storage

end CrudAuth
