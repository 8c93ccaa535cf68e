import CrudAuth.Storage.DatabaseRefines
import CrudAuth.Storage.DeletePattern
import CrudAuth.Storage.ShortenedKeys

/-
  The ids that `get_user_sessions` lists lead back to the
  rows that were listed, whatever storages share the table
  and however their calls interleave.

  Main declarations:
    * `only`
    * `implement_only`
    * `Fitting`
    * `fitting_of_reaches`
    * `LeadsBack`
    * `leadsBack_of_reaches`
-/

------------------------------------------------------------
-- Rows That A Call Touches
------------------------------------------------------------

namespace CrudAuth

namespace Storage

namespace DatabaseStorage

open Concurrency
open Concurrency.Program

/-
  The row that a transaction is about, if it is about one.
-/
def rowOf : Transaction → Option Text
  | .clock => none
  | .selectValue key _ => some key
  | .selectVersion key _ => some key
  | .selectKey key _ => some key
  | .write key _ _ => some key
  | .update key _ _ _ => some key
  | .updateVersion key _ _ _ _ => some key
  | .extend key _ _ => some key
  | .remove key => some key
  | .claim key _ _ => some key
  | .consume key _ => some key
  | .selectUser _ _ _ => none
  | .selectKeys _ _ => none

/- No row is touched but the one of `name`. -/
def only (name : Text) : Contract transactions where
  rule _ op := ∀ touched ∈ rowOf op, touched = name
  answer _ _ := True

/- What is left of a program keeps to a rule. -/
abbrev Keeps
    {α : Type}
    (contract : Contract transactions)
    (program : Sql α) : Prop :=
  ∀ past, Obeys contract past program fun _ _ => True

section Keeps

variable {α β : Type}
variable {contract : Contract transactions}

/- A part that keeps to a row, and the rest. -/
theorem keeps_bind
    {program : Sql α}
    {rest : α → Sql β}
    (hProgram : Keeps contract program)
    (hRest : ∀ value, Keeps contract (rest value)) :
    Keeps contract (program.bind rest) := by
  intro past
  apply (hProgram past).bind
  · intro past' value _ _
    exact hRest value past'
  · intro _ _ _ _
    trivial

/- A statement that keeps to a row. -/
theorem keeps_execute
    {transaction : Transaction}
    (hRule : ∀ past, contract.rule past transaction) :
    Keeps contract (execute transaction) := by
  intro past
  constructor
  · exact hRule past
  · intro _ _
    trivial

end Keeps

section Methods

variable {μ : Type}
variable (codec : Codec μ)
variable (config : Config)
variable (name : Text)

theorem keeps_clock :
    Keeps (only name) (execute .clock) := by
  apply keeps_execute
  intro past touched hTouched
  cases hTouched

/- Decoding a record reads no row. -/
theorem keeps_load (raw : Text) :
    Keeps (only name) (load codec raw) := by
  intro past
  unfold load
  split
  · trivial
  · trivial

theorem keeps_loaded (raw : Option Text) :
    Keeps (only name) (loaded codec raw) := by
  cases raw with
  | none =>
      intro past
      trivial
  | some raw =>
      apply keeps_bind (keeps_load codec name raw)
      intro data past
      trivial

theorem keeps_apply
    (change : μ → Except HttpError μ)
    (data : μ) :
    Keeps (only name) (apply change data) := by
  intro past
  unfold apply
  split
  · trivial
  · trivial

theorem keeps_expiresAt (expiration : Option Nat) :
    Keeps (only name) (expiresAt config expiration) := by
  apply keeps_bind (keeps_clock name)
  intro now past
  trivial

theorem keeps_renewed
    (resetExpiration : Bool)
    (expiration : Option Nat) :
    Keeps (only name)
      (renewed config resetExpiration expiration) := by
  unfold renewed
  split
  · apply keeps_bind (keeps_expiresAt config name expiration)
    intro expires past
    trivial
  · intro past
    trivial

variable {name}

/- A transaction about the one row. -/
theorem keeps_row
    {transaction : Transaction}
    (hRow : rowOf transaction = some name) :
    Keeps (only name) (execute transaction) := by
  apply keeps_execute
  intro past touched hTouched
  rw [hRow] at hTouched
  exact (Option.mem_some.mp hTouched).symm

/- Every round is about the one row. -/
theorem keeps_modifyRounds
    (sid : Text)
    (change : μ → Except HttpError μ)
    (resetExpiration : Bool)
    (expiration : Option Nat)
    (current rounds : Nat) :
    Keeps (only (key config sid))
      (modifyRounds codec config sid change resetExpiration
        expiration current rounds) := by
  induction rounds with
  | zero =>
      intro past
      trivial
  | succ rounds ih =>
      unfold modifyRounds
      apply keeps_bind (keeps_row rfl)
      intro read
      cases read with
      | none =>
          intro past
          trivial
      | some read =>
          apply keeps_bind (keeps_load codec _ read.1)
          intro data
          apply keeps_bind (keeps_apply _ change data)
          intro changed
          apply keeps_bind
            (keeps_renewed config _ resetExpiration
              expiration)
          intro expires
          apply keeps_bind (keeps_clock _)
          intro now
          apply keeps_bind (keeps_row rfl)
          intro updated
          split
          · intro past
            trivial
          · exact ih

/- A call with an id is about the row of its key. -/
theorem implement_only
    {method : Method μ}
    {sid : Text}
    (hSid : method.sid? = some sid) :
    Keeps (only (key config sid))
      (implement codec config method) := by
  cases method with
  | create sid data expiration =>
      cases hSid
      apply keeps_bind (keeps_expiresAt config _ expiration)
      intro expires
      apply keeps_bind (keeps_row rfl)
      intro written
      split
      · intro past
        trivial
      · apply keeps_bind (keeps_row rfl)
        intro again past
        split
        · trivial
        · trivial
  | get sid =>
      cases hSid
      apply keeps_bind (keeps_clock _)
      intro now
      apply keeps_bind (keeps_row rfl)
      exact keeps_loaded codec _
  | update sid data resetExpiration expiration =>
      cases hSid
      apply keeps_bind
        (keeps_renewed config _ resetExpiration expiration)
      intro expires
      apply keeps_bind (keeps_clock _)
      intro now
      exact keeps_row rfl
  | modify sid change resetExpiration expiration =>
      cases hSid
      apply keeps_bind (keeps_clock _)
      intro current
      exact keeps_modifyRounds codec config sid change
        resetExpiration expiration current modifyMaxAttempts
  | delete sid userId =>
      cases hSid
      exact keeps_row rfl
  | extend sid expiration =>
      cases hSid
      apply keeps_bind (keeps_clock _)
      intro now
      apply keeps_bind (keeps_expiresAt config _ expiration)
      intro expires
      exact keeps_row rfl
  | exists? sid =>
      cases hSid
      apply keeps_bind (keeps_clock _)
      intro now
      exact keeps_row rfl
  | setIfAbsent sid data expiration =>
      cases hSid
      apply keeps_bind (keeps_expiresAt config _ expiration)
      intro expires
      exact keeps_row rfl
  | getAndDelete sid =>
      cases hSid
      apply keeps_bind (keeps_row rfl)
      exact keeps_loaded codec _
  | getUserSessions userId => cases hSid
  | scanKeys pattern => cases hSid

end Methods

------------------------------------------------------------
-- Storages That Share The Table
------------------------------------------------------------

/- Every key fits the key column. -/
def Fitting (table : StoreTable) : Prop :=
  table.All fun name _ => name.length ≤ databaseKeyMaxLength

/-
  The row that a transaction inserts, if it was not there.
-/
def insertedRow : Transaction → Option Text
  | .write key _ _ => some key
  | .claim key _ _ => some key
  | _ => none

/- Only keys that fit are inserted. -/
def fitting : Contract transactions where
  rule _ op := ∀ name ∈ insertedRow op,
    name.length ≤ databaseKeyMaxLength
  answer _ _ := True

/- Time passes, rows are purged, and patterns delete rows. -/
inductive Upkeep where
  | service (tick : Service.Tick)
  | deleteKeys (condition : Text → Bool)

/- Time passes, or whoever shares the table deletes keys. -/
def upkeep : Upkeep → Service → Service
  | .service tick, service => service.tick tick
  | .deleteKeys condition, service =>
      { service with
        table := (service.table.deleteKeys condition).2 }

/- The clients of all storages that share the table. -/
abbrev shared : Machine transactions Service where
  Tick := Upkeep
  exec := Service.exec
  tick := upkeep

section Shared

variable {κ : Type}
variable {μ : κ → Type}

/- Calls of many storages; errors can be caught. -/
abbrev storageCalls (μ : κ → Type) : Interface where
  Op := (store : κ) × Method (μ store)
  Ret := fun call => Except HttpError call.2.Ret

variable (codecs : (store : κ) → Codec (μ store))
variable (configs : κ → Config)

/- A call of the storage it names. -/
def callStore
    (call : (store : κ) × Method (μ store)) :
    Sql (Except HttpError call.2.Ret) :=
  (implement (codecs call.1) (configs call.1) call.2).attempt

/- A new table, and clients about to run. -/
def deployed
    {ι α : Type}
    (clock : Nat)
    (clients : ι → Program (storageCalls μ) HttpError α) :
    Concurrency.Config ι transactions Service HttpError α
    where
  state := ⟨clock, ∅⟩
  history := []
  pool := fun client =>
    (clients client).translate (callStore codecs configs)

/- What is deleted does not matter to what is left. -/
theorem fitting_upkeep
    (service : Service)
    (tick : Upkeep)
    (hFitting : Fitting service.table) :
    Fitting (upkeep tick service).table := by
  cases tick with
  | service tick =>
      cases tick with
      | pass time => exact hFitting
      | purge batch => exact Table.All.sweep hFitting batch
  | deleteKeys condition =>
      intro name row hRow
      apply hFitting name row
      simp only [upkeep, Table.lookup_deleteKeys] at hRow
      split at hRow
      · cases hRow
      · exact hRow

/- A name that fits may be inserted. -/
theorem fitting_insert
    {table : StoreTable}
    {name : Text}
    {row : StoreRow}
    (hFitting : Fitting table)
    (hName : name.length ≤ databaseKeyMaxLength) :
    Fitting (Transaction.insert table name row).2 := by
  unfold Transaction.insert
  split
  · exact hFitting
  · exact Table.All.insert hFitting hName

/- A transaction that inserts a key that fits. -/
theorem fitting_exec
    {service : Service}
    {op : Transaction}
    (hFitting : Fitting service.table)
    (hRule : ∀ name ∈ insertedRow op,
      name.length ≤ databaseKeyMaxLength) :
    Fitting (Service.exec op service).2.table := by
  cases op with
  | clock => exact hFitting
  | selectValue => exact hFitting
  | selectVersion => exact hFitting
  | selectKey => exact hFitting
  | selectUser => exact hFitting
  | selectKeys => exact hFitting
  | update =>
      exact Table.All.updateWhere hFitting
        fun _ hName => hName
  | updateVersion =>
      exact Table.All.updateWhere hFitting
        fun _ hName => hName
  | extend =>
      exact Table.All.updateWhere hFitting
        fun _ hName => hName
  | remove name =>
      exact Table.All.eraseIf (Table.All.eraseIf hFitting)
  | consume name returning =>
      simp only [Service.exec, Transaction.exec]
      rw [consumeRow_eq]
      exact Table.All.eraseIf hFitting
  | write name columns expiresAt =>
      simp only [Service.exec, Transaction.exec]
      unfold Transaction.writeRow
      dsimp only
      have hUpdated :
          Fitting
            (service.table.updateWhere name (fun _ => true)
              (StoreRow.overwrite columns
                (some expiresAt))).2 :=
        Table.All.updateWhere hFitting fun _ hName => hName
      split
      · exact hUpdated
      · exact fitting_insert hUpdated (hRule name rfl)
  | claim name columns expiresAt =>
      apply fitting_insert _ (hRule name rfl)
      exact Table.All.eraseIf hFitting

/- What inserts nothing keeps to what may be inserted. -/
theorem keeps_read
    {transaction : Transaction}
    (hRead : insertedRow transaction = none) :
    Keeps fitting (execute transaction) := by
  apply keeps_execute
  intro past name hInserted
  rw [hRead] at hInserted
  cases hInserted

variable {codecs} {configs}

/- The calls insert stored keys, which fit. -/
theorem callStore_fitting
    (hFits : ∀ store sid,
      (key (configs store) sid).length ≤
        databaseKeyMaxLength)
    (call : (store : κ) × Method (μ store)) :
    Keeps fitting
      (implement (codecs call.1) (configs call.1)
        call.2) := by
  intro past
  rcases call with ⟨store, method⟩
  cases hSid : method.sid? with
  | some sid =>
      have hOnly :=
        implement_only (codecs store) (configs store)
          hSid past
      apply hOnly.relax
      · intro past op hTouched name hInserted
        have hRow : name ∈ rowOf op := by
          cases op with
          | write => exact hInserted
          | claim => exact hInserted
          | _ => cases hInserted
        rw [hTouched name hRow]
        exact hFits store sid
      · intro op ret _
        trivial
  | none =>
      cases method with
      | getUserSessions userId =>
          refine keeps_bind (keeps_read rfl) ?_ past
          intro now
          apply keeps_bind (keeps_read rfl)
          intro names past'
          trivial
      | scanKeys pattern =>
          refine keeps_bind (keeps_read rfl) ?_ past
          intro now
          apply keeps_bind (keeps_read rfl)
          intro names past'
          trivial
      | _ => cases hSid

/- In every run, every key fits the key column. -/
theorem fitting_of_reaches
    {ι α : Type}
    [DecidableEq ι]
    {clock : Nat}
    {clients : ι → Program (storageCalls μ) HttpError α}
    {after :
      Concurrency.Config ι transactions Service HttpError α}
    (hFits : ∀ store sid,
      (key (configs store) sid).length ≤
        databaseKeyMaxLength)
    (hReaches :
      Reaches shared anyStep
        (deployed codecs configs clock clients) after) :
    Fitting after.state.table := by
  have hObeys (client : ι) :
      ((deployed codecs configs clock clients).pool
        client).Obeys fitting [] fun _ _ => True := by
    have hFree :
        Obeys anything [] (clients client) fun _ _ => True :=
      obeys_of_free fun _ _ _ => trivial
    apply @Obeys.translate _ _ _ _ _ _ _ _ _ _
      (fun _ _ => True) _ hFree trivial
    intro lowPast past call _ _
    apply (callStore_fitting hFits call lowPast).attempt
    intro past' result _ _
    rw [returns_ok]
    exact ⟨trivial, trivial⟩
  have hTrace := hReaches.trace hObeys fun _ _ _ => trivial
  apply hTrace.invariant fun service _ =>
    Fitting service.table
  · intro name row hRow
    cases hRow
  · intro service history client op _ hRule _ hFitting
    exact fitting_exec hFitting hRule
  · intro service history tick hFitting
    exact fitting_upkeep service tick hFitting

end Shared

------------------------------------------------------------
-- Back To The Listed Row
------------------------------------------------------------

/- A row that a storage lists for a user. -/
structure Listed
    (config : Config)
    (now : Nat)
    (table : StoreTable)
    (userId : UserRef)
    (name : Text)
    (row : StoreRow) : Prop where
  stored : table.lookup name = some row
  owned : row.userId = some userId.str
  live : row.isLive now = true
  starts : config.keyPrefix <+: name

/-
  Calls with the id find the row under `name`, change it and
  delete it, and touch no other row, whatever they are and
  whatever happens between their transactions.
-/
structure ActsOn
    {μ : Type}
    (codec : Codec μ)
    (config : Config)
    (now : Nat)
    (table : StoreTable)
    (sid name : Text)
    (row : StoreRow) : Prop where
  stored : key config sid = name
  get :
    alone codec config now table (.get sid) =
      ((codec.load row.value).map some, ⟨now, table⟩)
  modify : ∀ change resetExpiration expiration changed,
    (codec.load row.value).bind change = .ok changed →
    alone codec config now table
        (.modify sid change resetExpiration expiration) =
      (.ok (some changed),
        ⟨now,
          AList.insert name
            (rewriteRow (columns codec changed)
              resetExpiration
              (now + lifetime config.expiration expiration)
              row)
            table⟩)
  refuse : ∀ change resetExpiration expiration error,
    (codec.load row.value).bind change = .error error →
    alone codec config now table
        (.modify sid change resetExpiration expiration) =
      (.error error, ⟨now, table⟩)
  delete : ∀ userId,
    alone codec config now table (.delete sid userId) =
      (.ok true, ⟨now, AList.erase name table⟩)
  only : ∀ method : Method μ, method.sid? = some sid →
    Keeps (only name) (implement codec config method)

/-
  The ids that are listed for a user are those of the rows
  that are listed, and act on them.
-/
def LeadsBack
    {μ : Type}
    (codec : Codec μ)
    (config : Config)
    (now : Nat)
    (table : StoreTable) : Prop :=
  ∀ userId, ∃ sids,
    alone codec config now table (.getUserSessions userId) =
      (.ok sids, ⟨now, table⟩) ∧
    (∀ sid ∈ sids, ∃ name row,
      Listed config now table userId name row ∧
        sid = name.drop config.keyPrefix.length) ∧
    (∀ name row, Listed config now table userId name row →
      name.drop config.keyPrefix.length ∈ sids ∧
        ActsOn codec config now table
          (name.drop config.keyPrefix.length) name row)

section Back

variable {μ : Type}
variable {codec : Codec μ}
variable {config : Config}
variable {now : Nat}
variable {table : StoreTable}
variable {sid name : Text}
variable {row : StoreRow}

/- Cut off and put back, a prefix makes the stored key. -/
theorem key_of_drop
    (hStarts : config.keyPrefix <+: name)
    (hFits : name.length ≤ databaseKeyMaxLength) :
    key config (name.drop config.keyPrefix.length) =
      name := by
  unfold key getKey
  rw [List.prefix_iff_eq_append.mp hStarts]
  exact storedKey_of_fits hFits

/- A live row is deleted by the first of two deletes. -/
theorem removeRow_of_live
    (hStored : table.lookup name = some row)
    (hLive : row.isLive now = true) :
    Transaction.removeRow now table name =
      (true, AList.erase name table) := by
  have hErased :
      table.eraseIf name (StoreRow.isLive now) =
        AList.erase name table := by
    unfold Table.eraseIf
    rw [hStored, Option.any_some, if_pos hLive]
  have hGone :
      Table.eraseIf (AList.erase name table) name
          (fun _ => true) =
        AList.erase name table := by
    unfold Table.eraseIf
    rw [AList.lookup_erase, Option.any_none]
    exact if_neg Bool.false_ne_true
  unfold Transaction.removeRow Table.deleteWhere
  dsimp only
  rw [hErased, hGone, hStored, Option.filter_some,
    if_pos hLive]
  rfl

/- Where the row meets a condition, it is rewritten. -/
theorem updateWhere_of_meets
    {condition : StoreRow → Bool}
    {change : StoreRow → StoreRow}
    (hStored : table.lookup name = some row)
    (hMeets : condition row = true) :
    table.updateWhere name condition change =
      (true, AList.insert name (change row) table) := by
  unfold Table.updateWhere
  rw [hStored, Option.filter_some, if_pos hMeets]

/- Calls with the key of a live row act on it. -/
theorem actsOn_of_key
    (hKey : key config sid = name)
    (hStored : table.lookup name = some row)
    (hLive : row.isLive now = true) :
    ActsOn codec config now table sid name row := by
  have hFound :
      (table.lookup (key config sid)).filter
          (StoreRow.isLive now) =
        some row := by
    rw [hKey]
    exact Option.filter_eq_some_iff.mpr ⟨hStored, hLive⟩
  constructor
  · exact hKey
  · have hRun :
        alone codec config now table (.get sid) =
          (readModel codec
            (((table.lookup (key config sid)).filter
              (StoreRow.isLive now)).map shown),
            ⟨now, table⟩) :=
      loaded_run _ _
    rw [hRun, hFound]
    rfl
  · intro change resetExpiration expiration changed hChanged
    have hRun :=
      @modify_run μ codec config now table sid change
        resetExpiration expiration
    rw [hFound] at hRun
    dsimp only at hRun
    rw [hChanged] at hRun
    dsimp only at hRun
    rw [hKey, updateWhere_of_meets hStored] at hRun
    · exact hRun
    · simp [hLive]
  · intro change resetExpiration expiration error hError
    have hRun :=
      @modify_run μ codec config now table sid change
        resetExpiration expiration
    rw [hFound] at hRun
    dsimp only at hRun
    rw [hError] at hRun
    exact hRun
  · intro userId
    have hRemoved := removeRow_of_live hStored hLive
    rw [← hKey] at hRemoved
    have hRun :
        alone codec config now table (.delete sid userId) =
          (.ok
            (Transaction.removeRow now table
              (key config sid)).1,
            ⟨now,
              (Transaction.removeRow now table
                (key config sid)).2⟩) :=
      rfl
    rw [hRun, hRemoved, hKey]
  · intro method hSid
    rw [← hKey]
    exact implement_only codec config hSid

/- Where every key fits, what is listed leads back. -/
theorem leadsBack_of_fitting
    (hFitting : Fitting table) :
    LeadsBack codec config now table := by
  intro userId
  let names :=
    (Transaction.exec
      (.selectUser config.keyPrefix userId.str now) now
      table).1
  refine ⟨names.map (List.drop config.keyPrefix.length),
    rfl, ?_, ?_⟩
  · intro sid hSid
    rcases List.mem_map.mp hSid with ⟨name, hName, hDrop⟩
    rcases mem_selectUser.mp hName with
      ⟨row, hStored, hOwned, hLive, hStarts⟩
    exact ⟨name, row, ⟨hStored, hOwned, hLive, hStarts⟩,
      hDrop.symm⟩
  · intro name row hListed
    constructor
    · apply List.mem_map_of_mem
      exact mem_selectUser.mpr
        ⟨row, hListed.stored, hListed.owned, hListed.live,
          hListed.starts⟩
    · have hFits := hFitting name row hListed.stored
      exact actsOn_of_key (key_of_drop hListed.starts hFits)
        hListed.stored hListed.live

end Back

/-
  Stored keys do the work of the full keys: they are
  shortened faithfully, and in every run of the clients of
  any storages, what a storage lists leads back.  Digests of
  one length cannot tell all texts apart: they are taken to
  tell apart the keys in use.
-/
theorem leadsBack_of_reaches
    {ι α κ : Type}
    [DecidableEq ι]
    {μ : κ → Type}
    {digest : Text → Text}
    {keys : Set Text}
    {codecs : (store : κ) → Codec (μ store)}
    {configs : κ → Config}
    {clock : Nat}
    {clients : ι → Program (storageCalls μ) HttpError α}
    {after :
      Concurrency.Config ι transactions Service HttpError α}
    (hDigest : ∀ key, (digest key).length = digestLength)
    (hApart : Set.InjOn digest keys)
    (hDigests : ∀ store, (configs store).digest = digest)
    (hReaches :
      Reaches shared anyStep
        (deployed codecs configs clock clients) after) :
    Shortens digest keys ∧
      ∀ store,
        LeadsBack (codecs store) (configs store)
          after.state.clock after.state.table := by
  constructor
  · exact shortens_of_injOn hDigest hApart
  · intro store
    apply leadsBack_of_fitting
    refine fitting_of_reaches ?_ hReaches
    intro store sid
    unfold key
    rw [hDigests store]
    exact length_storedKey_le hDigest _

------------------------------------------------------------
-- A Long Session Id
------------------------------------------------------------

namespace LongIds

/- The prefix of the sessions. -/
def session : Text := "session:".toList

/- An id that no column holds. -/
def sid (char : Char) : Text :=
  List.replicate 300 char

/- SHA-256, of the two keys that are shortened. -/
def digest (key : Text) : Text :=
  if key = session ++ sid 'a' then
    ("541fde02b7e5a2d76f89c6320e510da4" ++
      "2fb67479f806032b785d3ff697a2b8bd").toList
  else if key = session ++ sid 'b' then
    ("718de828cd12c02b944be9e4ec411017" ++
      "68402d8c843e6d3848588da8944cb267").toList
  else
    List.replicate digestLength '0'

/- The storage of the sessions. -/
def store : Config where
  keyPrefix := session
  expiration := 1800
  deletesReturning := true
  digest := digest

/- Values of one user. -/
def user : UserRef := .text "user".toList

/- Values that belong to that user. -/
def values : Codec Text where
  dump := id
  load := .ok
  userId := fun _ => some (some user)
  payloadUserId := fun _ => some (some user)

/- One client creates two sessions. -/
def client :
    Program (storageCalls fun _ : Unit => Text) HttpError
      (Except HttpError Text) :=
  (Program.call (I := storageCalls fun _ : Unit => Text)
    ⟨(), .create (sid 'a') [] none⟩).bind fun _ =>
      Program.call (I := storageCalls fun _ : Unit => Text)
        ⟨(), .create (sid 'b') [] none⟩

/- The run, if its schedule can be followed. -/
def created? :=
  (deployed (fun _ : Unit => values) (fun _ => store) 0
    (fun _ : Unit => client)).run shared anyStep
      ([(), (), (), ()].map .thread)

theorem length_digest (key : Text) :
    (digest key).length = digestLength := by
  unfold digest
  split
  · rfl
  · split
    · rfl
    · exact List.length_replicate

/- The two sample ids differ. -/
theorem sid_ne :
    session ++ sid 'b' ≠ session ++ sid 'a' := by
  intro hSame
  have hSids := List.append_cancel_left hSame
  have hHeads := congrArg List.head? hSids
  revert hHeads
  decide

/- The two keys have different digests. -/
theorem injOn_digest :
    Set.InjOn digest
      {session ++ sid 'a', session ++ sid 'b'} := by
  rw [Set.injOn_pair]
  intro hSame
  exfalso
  unfold digest at hSame
  rw [if_pos rfl, if_neg sid_ne, if_pos rfl] at hSame
  revert hSame
  decide

/- Both sessions are found again. -/
theorem leadsBack_created :
    ∃ run : created?.isSome,
      Shortens digest
        {session ++ sid 'a', session ++ sid 'b'} ∧
        ∀ _ : Unit,
          LeadsBack values store
            (created?.get run).state.clock
            (created?.get run).state.table := by
  have hRuns : created?.isSome := rfl
  refine ⟨hRuns, ?_⟩
  apply leadsBack_of_reaches length_digest injOn_digest
    (fun _ => rfl)
  exact Reaches.of_run (Option.some_get hRuns).symm

end LongIds

end DatabaseStorage

end Storage

end CrudAuth
