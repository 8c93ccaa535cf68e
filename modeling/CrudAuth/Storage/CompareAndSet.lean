import CrudAuth.Storage.DatabaseStorage

/-
  `modify` of the database storage against every other
  method: it compares and sets, for as long as no row that
  it has read is replaced by a row of its own version.

  Main declarations:
    * `ComparesAndSets`
    * `Unreplaced`
    * `exec_ages`
    * `comparesAndSets_of_unreplaced`
-/

------------------------------------------------------------
-- Clients Of One Table
------------------------------------------------------------

namespace CrudAuth

namespace Storage

namespace DatabaseStorage

open Concurrency
open Concurrency.Program

variable {μ : Type}
variable (codec : Codec μ)
variable (config : Config)

/- A call with what it returned. -/
abbrev Outcome (μ : Type) :=
  (method : Method μ) × method.Ret

/- What clients do, next to the states they do it in. -/
abbrev moments : Interface := observed transactions Service

/- A transaction, with the service it was run on. -/
abbrev Moment (ι : Type) := Event ι moments

/- A client makes one call. -/
def client
    (method : Method μ) :
    Program transactions HttpError (Outcome μ) :=
  (implement codec config method).bind fun ret =>
    .done ⟨method, ret⟩

variable {ι : Type} [DecidableEq ι]

/- Clients about to make their calls. -/
def opening
    (service : Service)
    (methods : ι → Method μ) :
    Concurrency.Config ι moments Service HttpError
      (Outcome μ) where
  state := service
  history := []
  pool := fun thread =>
    (client codec config (methods thread)).observed Service

------------------------------------------------------------
-- Comparing And Setting
------------------------------------------------------------

/- `value` is what `change` makes of a stored text. -/
def Makes
    (change : μ → Except HttpError μ)
    (value : μ)
    (raw : Text) : Prop :=
  (codec.load raw).bind change = .ok value

/- The key, the columns and the state of a guarded update. -/
def guardedUpdate :
    Moment ι → Option (Text × Columns × Service)
  | ⟨_, .updateVersion key _ _ written _, (true, service)⟩ =>
      some (key, written, service)
  | _ => none

/-
  The event has written `value`, which `change` makes of
  what was live and stored when it did.
-/
def Sets
    (key : Text)
    (change : μ → Except HttpError μ)
    (value : μ)
    (event : Moment ι) : Prop :=
  ∃ service raw,
    guardedUpdate event =
      some (key, columns codec value, service) ∧
    service.live key = some raw ∧
    Makes codec change value raw

/-
  A `modify` that has returned a value has set it, and one
  that has returned nothing found nothing live.
-/
def ComparesAndSets
    (history : List (Moment ι))
    (thread : ι) : Outcome μ → Prop
  | ⟨.modify sid change _ _, some value⟩ =>
      ∃ event ∈ history, event.thread = thread ∧
        Sets codec (key config sid) change value event
  | ⟨.modify sid _ _ _, none⟩ =>
      ∃ event ∈ history, event.thread = thread ∧
        event.moment.live (key config sid) = none
  | _ => True

/- The event has put a new row under the key. -/
def inserts (key : Text) : Moment ι → Bool
  | ⟨_, .write other _ _, ret⟩ =>
      other == key && (ret.2.table.lookup key).isNone
  | ⟨_, .claim other _ _, ret⟩ => other == key && ret.1
  | _ => false

/- The thread has read a row with its version. -/
def readsVersion (thread : ι) (event : Moment ι) : Bool :=
  event.thread = thread &&
    match event.op with
    | .selectVersion _ _ => true
    | _ => false

/- What has happened since the thread read a version. -/
def sinceRead
    (thread : ι)
    (history : List (Moment ι)) : List (Moment ι) :=
  history.takeWhile fun event => !readsVersion thread event

/- The key, the bound and the version of a guarded update. -/
def guardOf : Transaction → Option (Text × Nat × Nat)
  | .updateVersion key now version _ _ =>
      some (key, now, version)
  | _ => none

/-
  Where a guarded update meets the version it has read, the
  row has neither expired nor been inserted since the read.
-/
def Unreplaced : Condition ι moments Service :=
  fun service history thread op =>
    ∀ guard ∈ guardOf op,
      ∀ row ∈ service.table.lookup guard.1,
        row.isLive guard.2.1 = true →
        row.version = guard.2.2 →
        row.isLive service.clock = true ∧
        ∀ event ∈ sinceRead thread history,
          inserts guard.1 event = false

instance :
    ∀ (service : Service) (history : List (Moment ι))
      (thread : ι) (op : Transaction),
      Decidable (Unreplaced service history thread op) :=
  fun service history thread op =>
    inferInstanceAs (Decidable
      (∀ guard ∈ guardOf op,
        ∀ row ∈ service.table.lookup guard.1,
          row.isLive guard.2.1 = true →
          row.version = guard.2.2 →
          row.isLive service.clock = true ∧
          ∀ event ∈ sinceRead thread history,
            inserts guard.1 event = false))

------------------------------------------------------------
-- Versions Of One Row
------------------------------------------------------------

/- The row has a later version, or is what it was. -/
def Ages (row row' : StoreRow) : Prop :=
  row.version < row'.version ∨
    row'.version = row.version ∧ row'.value = row.value

/- An overwritten row has a later version. -/
theorem ages_overwrite
    (columns : Columns)
    (expiresAt : Option Nat)
    (row : StoreRow) :
    Ages row (row.overwrite columns expiresAt) := by
  left
  exact Nat.lt_succ_self row.version

theorem ages_refl (row : StoreRow) : Ages row row :=
  Or.inr ⟨rfl, rfl⟩

section Rows

variable {table : StoreTable}
variable {key other : Text}
variable {row' : StoreRow}

/- An update that ages the row it touches. -/
theorem ages_of_updateWhere
    {condition : StoreRow → Bool}
    {change : StoreRow → StoreRow}
    (hChange : ∀ row, Ages row (change row))
    (hRow :
      (table.updateWhere key condition change).2.lookup
        other = some row') :
    ∃ row, table.lookup other = some row ∧
      Ages row row' := by
  rw [Table.lookup_updateWhere] at hRow
  split at hRow
  · rcases Option.map_eq_some_iff.mp hRow with
      ⟨row, hOld, hNew⟩
    refine ⟨row, hOld, ?_⟩
    rw [← hNew]
    split
    · exact hChange row
    · exact ages_refl row
  · exact ⟨row', hRow, ages_refl row'⟩

/- A row that survives has not changed. -/
theorem ages_of_deleteWhere
    {condition : StoreRow → Bool}
    (hRow :
      (table.deleteWhere key condition).2.lookup other =
        some row') :
    table.lookup other = some row' := by
  rw [Table.lookup_deleteWhere] at hRow
  split at hRow
  · exact (Option.filter_eq_some_iff.mp hRow).1
  · exact hRow

/- Only an insert puts a row where there was none. -/
theorem lookup_insert
    {row : StoreRow}
    (hRow :
      (Transaction.insert table key row).2.lookup other =
        some row') :
    table.lookup other = some row' ∨
      key = other ∧ table.lookup key = none := by
  unfold Transaction.insert at hRow
  split at hRow
  · exact Or.inl hRow
  · rename_i hNone
    rw [Table.lookup_insert'] at hRow
    split at hRow
    · rename_i hKey
      exact Or.inr ⟨hKey, hNone⟩
    · exact Or.inl hRow

end Rows

omit [DecidableEq ι] in
/-
  A row that is there after a step was there before it, at
  an earlier version or with the same value, unless the
  step has inserted it.
-/
theorem exec_ages
    {op : Transaction}
    {service : Service}
    {key : Text}
    {row' : StoreRow}
    {thread : ι}
    (hRow :
      (Service.exec op service).2.table.lookup key =
        some row')
    (hOld :
      inserts key
        (⟨thread, op, ((Service.exec op service).1,
          service)⟩ : Moment ι) = false) :
    ∃ row,
      service.table.lookup key = some row ∧
        Ages row row' := by
  cases op with
  | clock => exact ⟨row', hRow, ages_refl row'⟩
  | selectValue => exact ⟨row', hRow, ages_refl row'⟩
  | selectVersion => exact ⟨row', hRow, ages_refl row'⟩
  | selectKey => exact ⟨row', hRow, ages_refl row'⟩
  | selectUser => exact ⟨row', hRow, ages_refl row'⟩
  | selectKeys => exact ⟨row', hRow, ages_refl row'⟩
  | update =>
      exact ages_of_updateWhere (ages_overwrite _ _) hRow
  | updateVersion =>
      exact ages_of_updateWhere (ages_overwrite _ _) hRow
  | extend other now expiresAt =>
      have hExtended (row : StoreRow) :
          Ages row (row.extended expiresAt) :=
        Or.inr ⟨rfl, rfl⟩
      exact ages_of_updateWhere hExtended hRow
  | remove other =>
      exact ⟨row',
        ages_of_deleteWhere (ages_of_deleteWhere hRow),
        ages_refl row'⟩
  | consume other returning =>
      refine ⟨row', ?_, ages_refl row'⟩
      cases returning with
      | true => exact ages_of_deleteWhere hRow
      | false =>
          simp only [Service.exec, Transaction.exec,
            Transaction.consumeRow] at hRow
          split at hRow
          · exact hRow
          · exact ages_of_deleteWhere hRow
  | write other written expiresAt =>
      simp only [Service.exec, Transaction.exec,
        Transaction.writeRow] at hRow
      split at hRow
      · exact ages_of_updateWhere (ages_overwrite _ _) hRow
      · rename_i hNone
        rcases lookup_insert hRow with
          hKept | ⟨rfl, hFree⟩
        · exact ages_of_updateWhere
            (ages_overwrite _ _) hKept
        · exfalso
          rw [Table.updateWhere_fst] at hNone
          cases hThere : service.table.lookup other with
          | none => simp [inserts, hThere] at hOld
          | some row => simp [hThere] at hNone
  | claim other written expiresAt =>
      rcases lookup_insert hRow with hKept | ⟨rfl, hFree⟩
      · exact ⟨row', ages_of_deleteWhere hKept,
          ages_refl row'⟩
      · exfalso
        simp [inserts, Service.exec, Transaction.exec,
          Transaction.claimKey, Transaction.insert, hFree]
          at hOld

------------------------------------------------------------
-- What A Modify Has Done
------------------------------------------------------------

/- The transactions a call has made, the last one first. -/
abbrev Made := List (Action transactions)

/- The clock was read in this call. -/
def Clocked (made : Made) (now : Nat) : Prop :=
  (⟨.clock, now⟩ : Action transactions) ∈ made

/-
  A `modify` ends with its guarded update, for the version
  and the text that it had read last, or with a read that
  found nothing.
-/
def Modified
    (sid : Text)
    (change : μ → Except HttpError μ)
    (made : Made) : Option μ → Prop
  | some value =>
      ∃ now version expires between current raw earlier,
        made =
          ⟨.updateVersion (key config sid) now version
            (columns codec value) expires, true⟩ ::
          (between ++
            ⟨.selectVersion (key config sid) current,
              some (raw, version)⟩ :: earlier) ∧
        (∀ action ∈ between, action.op = .clock) ∧
        Makes codec change value raw
  | none =>
      ∃ current earlier,
        made =
          ⟨.selectVersion (key config sid) current, none⟩ ::
            earlier ∧
        Clocked earlier current

/- What a client has done when its call returns. -/
def Returned (made : Made) : Outcome μ → Prop
  | ⟨.modify sid change _ _, ret⟩ =>
      Modified codec config sid change made ret
  | _ => True

/- Nothing is asked of what is no operation. -/
theorem obeys_load
    {past : Made}
    {raw : Text}
    {post : Made → μ → Prop}
    (hPost : ∀ data, codec.load raw = .ok data →
      post past data) :
    Obeys anything past (load codec raw) (Returns post) := by
  unfold load
  split
  · rename_i data hData
    rw [obeys_done, returns_ok]
    exact hPost data hData
  · exact returns_error _

/- The change itself performs nothing. -/
theorem obeys_apply
    {past : Made}
    {change : μ → Except HttpError μ}
    {data : μ}
    {post : Made → μ → Prop}
    (hPost : ∀ changed, change data = .ok changed →
      post past changed) :
    Obeys anything past (apply change data)
      (Returns post) := by
  unfold apply
  split
  · rename_i changed hChanged
    rw [obeys_done, returns_ok]
    exact hPost changed hChanged
  · exact returns_error _

/- A new expiry only reads the clock. -/
theorem renewed_obeys
    (past : Made)
    (resetExpiration : Bool)
    (expiration : Option Nat) :
    Obeys anything past
      (renewed config resetExpiration expiration)
      (Returns fun past' _ =>
        ∃ between,
          past' = between ++ past ∧
          ∀ action ∈ between, action.op = .clock) := by
  unfold renewed
  cases resetExpiration with
  | false =>
      rw [if_neg Bool.false_ne_true, obeys_pure, returns_ok]
      exact ⟨[], rfl, fun _ hNone => absurd hNone
        List.not_mem_nil⟩
  | true =>
      rw [if_pos rfl]
      constructor
      · trivial
      · intro now _
        change Returns _ _ (Except.ok _)
        rw [returns_ok]
        refine ⟨[⟨.clock, now⟩], rfl, ?_⟩
        intro action hAction
        rw [List.mem_singleton.mp hAction]

/- A round reads, and writes to what it has read. -/
theorem modifyRounds_obeys
    {sid : Text}
    {change : μ → Except HttpError μ}
    {resetExpiration : Bool}
    {expiration : Option Nat}
    {current rounds : Nat}
    {past : Made}
    (hClocked : Clocked past current) :
    Obeys anything past
      (modifyRounds codec config sid change resetExpiration
        expiration current rounds)
      (Returns (Modified codec config sid change)) := by
  induction rounds generalizing past with
  | zero => exact returns_error _
  | succ rounds ih =>
      unfold modifyRounds
      refine obeys_call_bind trivial fun read _ => ?_
      cases read with
      | none =>
          rw [obeys_pure, returns_ok]
          exact ⟨current, past, rfl, hClocked⟩
      | some row =>
          rcases row with ⟨raw, version⟩
          let read : Action transactions :=
            ⟨.selectVersion (key config sid) current,
              some (raw, version)⟩
          have hLoad :
              Obeys anything (read :: past) (load codec raw)
                (Returns fun past' data =>
                  past' = read :: past ∧
                    codec.load raw = .ok data) :=
            obeys_load codec fun data hData => ⟨rfl, hData⟩
          apply hLoad.andThen
          rintro _ data - ⟨rfl, hData⟩
          have hApply :
              Obeys anything (read :: past)
                (apply change data)
                (Returns fun past' changed =>
                  past' = read :: past ∧
                    change data = .ok changed) :=
            obeys_apply fun changed hChanged =>
              ⟨rfl, hChanged⟩
          apply hApply.andThen
          rintro _ changed - ⟨rfl, hChanged⟩
          apply (renewed_obeys config (read :: past)
            resetExpiration expiration).andThen
          rintro _ expires - ⟨between, rfl, hBetween⟩
          refine obeys_call_bind trivial fun now _ => ?_
          refine obeys_call_bind trivial fun written _ => ?_
          cases written with
          | true =>
              rw [if_pos rfl, obeys_pure, returns_ok]
              refine ⟨now, version, expires,
                ⟨.clock, now⟩ :: between, current, raw, past,
                rfl, ?_, ?_⟩
              · intro action hAction
                rcases List.mem_cons.mp hAction with
                  rfl | hOlder
                · rfl
                · exact hBetween action hOlder
              · unfold Makes
                rw [hData]
                exact hChanged
          | false =>
              rw [if_neg Bool.false_ne_true]
              apply ih
              have hOlder :
                  Clocked (between ++ read :: past)
                    current :=
                List.mem_append_right _
                  (List.mem_cons_of_mem _ hClocked)
              exact List.mem_cons_of_mem _
                (List.mem_cons_of_mem _ hOlder)

/- A modify reads before it writes. -/
theorem modify_obeys
    (sid : Text)
    (change : μ → Except HttpError μ)
    (resetExpiration : Bool)
    (expiration : Option Nat) :
    Obeys anything []
      (modify codec config sid change resetExpiration
        expiration)
      (Returns (Modified codec config sid change)) := by
  unfold modify
  refine obeys_call_bind trivial fun current _ => ?_
  apply modifyRounds_obeys
  exact List.mem_cons_self

/- Every client has done what its outcome says. -/
theorem client_obeys (method : Method μ) :
    Obeys anything [] (client codec config method)
      (Returns (Returned codec config)) := by
  have hOther
      (hAny : ∀ made ret,
        Returned codec config made ⟨method, ret⟩) :
      Obeys anything [] (client codec config method)
        (Returns (Returned codec config)) := by
    unfold client
    have hFree :
        Obeys anything [] (implement codec config method)
          (fun _ _ => True) :=
      obeys_of_free fun _ _ _ => trivial
    apply hFree.bind
    · intro made ret _ _
      rw [obeys_done, returns_ok]
      exact hAny made ret
    · intro made error _ _
      exact returns_error error
  cases method with
  | modify sid change resetExpiration expiration =>
      apply (modify_obeys codec config sid change
        resetExpiration expiration).andThen
      intro made ret _ hRet
      rw [obeys_done, returns_ok]
      exact hRet
  | create => exact hOther fun _ _ => trivial
  | get => exact hOther fun _ _ => trivial
  | update => exact hOther fun _ _ => trivial
  | delete => exact hOther fun _ _ => trivial
  | extend => exact hOther fun _ _ => trivial
  | exists? => exact hOther fun _ _ => trivial
  | setIfAbsent => exact hOther fun _ _ => trivial
  | getAndDelete => exact hOther fun _ _ => trivial
  | getUserSessions => exact hOther fun _ _ => trivial
  | scanKeys => exact hOther fun _ _ => trivial

------------------------------------------------------------
-- Runs
------------------------------------------------------------

section Runs

variable {service after : Service}
variable {contract : ι → Contract moments}
variable {condition : Condition ι moments Service}
variable {later earlier history : List (Moment ι)}
variable {event : Moment ι}

/- Nothing turns the clock back. -/
theorem clock_since
    (hTrace :
      Trace (Machine.observed machine) contract condition
        service [] after (later ++ event :: earlier)) :
    event.moment.clock ≤ after.clock := by
  apply hTrace.since
    (fun service => event.moment.clock ≤ service.clock)
    (fun _ => True)
  · exact Nat.le_refl event.moment.clock
  · intro newer _
    trivial
  · intro before thread op hBefore _
    exact hBefore
  · intro before tick hBefore
    cases tick with
    | pass time => exact Nat.le_add_right_of_le hBefore
    | purge batch => exact hBefore

/-
  A row that was read is followed by later versions, or
  still is what was read, until a row is inserted.
-/
def Follows
    (key : Text)
    (version : Nat)
    (raw : Text)
    (service : Service) : Prop :=
  ∀ row, service.table.lookup key = some row →
    version < row.version ∨
      row.version = version ∧ row.value = raw

/- What was read is what the row held. -/
theorem follows_since
    {key raw : Text}
    {version : Nat}
    (hTrace :
      Trace (Machine.observed machine) contract condition
        service [] after (later ++ event :: earlier))
    (hRead :
      Follows key version raw
        (Service.exec event.op event.moment).2)
    (hLater : ∀ newer ∈ later, inserts key newer = false) :
    Follows key version raw after := by
  apply hTrace.since (Follows key version raw)
    (fun newer => inserts key newer = false) hRead hLater
  · intro before thread op hBefore hKeeps row' hRow'
    rcases exec_ages hRow' hKeeps with ⟨row, hRow, hAges⟩
    rcases hBefore row hRow with hNewer | ⟨hVersion, hValue⟩
    · left
      rcases hAges with hAges | ⟨hSame, -⟩ <;> omega
    · rcases hAges with hAges | ⟨hSame, hKept⟩
      · left
        omega
      · right
        exact ⟨hSame.trans hVersion, hKept.trans hValue⟩
  · intro before tick hBefore
    cases tick with
    | pass time => exact hBefore
    | purge batch =>
        intro row hRow
        exact hBefore row (Table.lookup_of_sweep batch hRow)

/- A guarded update that went through met its version. -/
theorem met_of_updateVersion
    {key : Text}
    {now version : Nat}
    {written : Columns}
    {expires : Option Nat}
    (hMet :
      (Service.exec
        (.updateVersion key now version written expires)
        service).1 = true) :
    ∃ row,
      service.table.lookup key = some row ∧
        row.isLive now = true ∧ row.version = version := by
  have hAny :
      ((service.table.lookup key).any fun row =>
        row.isLive now && row.version == version) =
          true := by
    rw [← Table.updateWhere_fst]
    exact hMet
  cases hRow : service.table.lookup key with
  | none => simp [hRow] at hAny
  | some row =>
      simp only [hRow, Option.any_some, Bool.and_eq_true,
        beq_iff_eq] at hAny
      exact ⟨row, rfl, hAny⟩

/- What was read was there, at its version. -/
theorem follows_read
    {key raw : Text}
    {now version : Nat}
    (hRead :
      some (raw, version) =
        (Service.exec (.selectVersion key now) service).1) :
    Follows key version raw service := by
  intro row hRow
  right
  simp only [Service.exec, Transaction.exec, hRow] at hRead
  cases hLive : row.isLive now with
  | false => simp [Option.filter, hLive] at hRead
  | true =>
      simp only [Option.filter, hLive, if_true,
        Option.map_some, Option.some.injEq,
        Prod.mk.injEq] at hRead
      exact ⟨hRead.2.symm, hRead.1.symm⟩

/- Between a read and its guarded update, only clocks. -/
theorem sinceRead_eq
    {thread : ι}
    {read : Moment ι}
    (hRead : readsVersion thread read = true)
    (hClocks :
      ∀ action ∈ (own thread later).map seen,
        action.op = .clock) :
    sinceRead thread (later ++ read :: earlier) = later := by
  unfold sinceRead
  rw [List.takeWhile_append_of_pos]
  · simp [hRead]
  · intro newer hNewer
    by_cases hThread : newer.thread = thread
    · subst hThread
      have hOp : newer.op = .clock := by
        apply hClocks (seen newer.action)
        apply List.mem_map_of_mem
        rw [mem_own_iff]
        exact hNewer
      simp [readsVersion, hOp]
    · simp [readsVersion, hThread]

/- What a `modify` returns, it has set. -/
theorem sets_of_modified
    {thread : ι}
    {sid : Text}
    {change : μ → Except HttpError μ}
    {value : μ}
    (hTrace :
      Trace (Machine.observed machine) contract Unreplaced
        service [] after history)
    (hModified :
      Modified codec config sid change
        ((own thread history).map seen) (some value)) :
    ∃ event ∈ history, event.thread = thread ∧
      Sets codec (key config sid) change value event := by
  rcases hModified with
    ⟨now, version, expires, between, current, raw, older,
      hMade, hClocks, hMakes⟩
  -- the guarded update, and the read it was made for
  rcases split_of_newest hMade with
    ⟨later, moment, earlier, rfl, hOlder⟩
  rcases split_of_seen hOlder with
    ⟨between', moment', earlier', rfl, rfl, -⟩
  rcases hTrace.at_moment with
    ⟨hBefore, -, hUnreplaced, hWritten⟩
  rcases met_of_updateVersion hWritten.symm with
    ⟨row, hRow, hLive, hVersion⟩
  have hReads :
      readsVersion thread
        (⟨thread, .selectVersion (key config sid) current,
          (some (raw, version), moment')⟩ : Moment ι) =
            true := by
    simp [readsVersion]
  have hSince := hUnreplaced _ rfl row hRow hLive hVersion
  rw [sinceRead_eq hReads hClocks] at hSince
  have hRow' :
      moment.table.lookup (key config sid) = some row :=
    hRow
  have hLive' : row.isLive moment.clock = true := hSince.1
  have hFollows :
      Follows (key config sid) version raw moment := by
    apply follows_since hBefore _ hSince.2
    exact follows_read hBefore.at_moment.2.2.2
  have hValue : row.value = raw := by
    rcases hFollows row hRow' with hNewer | ⟨-, hValue⟩
    · omega
    · exact hValue
  have hStored :
      moment.live (key config sid) = some raw := by
    simp [Service.live, hRow', hLive', hValue,
      Option.filter]
  exact ⟨_, List.mem_append_right _ List.mem_cons_self,
    rfl, moment, raw, rfl, hStored, hMakes⟩

/- Where a `modify` finds nothing, nothing is live. -/
theorem absent_of_modified
    {thread : ι}
    {sid : Text}
    {change : μ → Except HttpError μ}
    (hTrace :
      Trace (Machine.observed machine) contract condition
        service [] after history)
    (hModified :
      Modified codec config sid change
        ((own thread history).map seen) none) :
    ∃ event ∈ history, event.thread = thread ∧
      event.moment.live (key config sid) = none := by
  rcases hModified with ⟨current, older, hMade, hClocked⟩
  rcases split_of_newest hMade with
    ⟨later, moment, earlier, rfl, rfl⟩
  rcases hTrace.at_moment with ⟨hBefore, -, -, hFound⟩
  have hRead :
      none =
        (Service.exec
          (.selectVersion (key config sid) current)
          moment).1 :=
    hFound
  -- the bound of the read was a clock that has passed
  have hPassed : current ≤ moment.clock := by
    rcases List.mem_iff_append.mp hClocked with
      ⟨newer, older, hSplit⟩
    rcases split_of_seen hSplit with
      ⟨later', moment', earlier', rfl, -, -⟩
    have hCurrent : current = moment'.clock :=
      hBefore.at_moment.2.2.2
    rw [hCurrent]
    exact clock_since hBefore
  have hAbsent :
      moment.live (key config sid) = none := by
    unfold Service.live
    cases hRow :
        moment.table.lookup (key config sid) with
    | none => rfl
    | some row =>
        simp only [Service.exec, Transaction.exec, hRow]
          at hRead
        cases hLive : row.isLive current with
        | true => simp [Option.filter, hLive] at hRead
        | false =>
            have hExpired :
                row.isLive moment.clock = false := by
              simp only [StoreRow.isLive,
                decide_eq_false_iff_not] at hLive ⊢
              omega
            simp [Option.filter, hExpired]
  exact ⟨_, List.mem_append_right _ List.mem_cons_self,
    rfl, hAbsent⟩

end Runs

/-
  In a run that never replaces a row under a guarded update
  that has read it, every `modify` compares and sets.
-/
theorem comparesAndSets_of_unreplaced
    (methods : ι → Method μ)
    (service : Service)
    {after :
      Concurrency.Config ι moments Service HttpError
        (Outcome μ)}
    (hReaches :
      Reaches (Machine.observed machine) Unreplaced
        (opening codec config service methods) after)
    {thread : ι}
    {outcome : Outcome μ}
    (hDone : after.pool thread = .done outcome) :
    ComparesAndSets codec config after.history thread
      outcome := by
  have hObeys (thread : ι) :
      ((opening codec config service methods).pool
        thread).Obeys (anything.observed Service) []
          fun past result =>
            Returns (Returned codec config) (past.map seen)
              result :=
    Obeys.observed (client_obeys codec config
      (methods thread))
  have hAnswer (thread : ι) (op : Transaction)
      (service : Service) :
      ((anything : Contract transactions).observed
        Service).answer op
          ((Machine.observed machine).exec op service).1 :=
    trivial
  have hTrace := hReaches.trace hObeys hAnswer
  have hEnd := hReaches.obeys hObeys hAnswer thread
  rw [hDone, obeys_done, returns_ok] at hEnd
  rcases outcome with ⟨method, ret⟩
  cases method with
  | modify sid change resetExpiration expiration =>
      cases ret with
      | some value =>
          exact sets_of_modified codec config hTrace hEnd
      | none =>
          have hModified :
              Modified codec config sid change
                ((own thread after.history).map seen) none :=
            hEnd
          exact absent_of_modified codec config hTrace
            hModified
  | _ => trivial

------------------------------------------------------------
-- A Replaced Row
------------------------------------------------------------

namespace Replacement

/- The storage of sessions. -/
def store : Config where
  keyPrefix := "session:".toList
  expiration := 1800
  deletesReturning := true
  digest := id

/- One row, under the key of `sid`. -/
def stored (sid : Text) : Service where
  clock := 0
  table :=
    AList.insert (key store sid)
      ⟨"old".toList, none, 1, 1800000⟩ ∅

/- The change: an exclamation mark. -/
def append (text : Text) : Except HttpError Text :=
  .ok (text ++ "!".toList)

/- The one key of the run. -/
def sid : Text := "one".toList

/- One client modifies what two others replace. -/
def methods : Fin 3 → Method Text
  | 0 => .modify sid append false none
  | 1 => .delete sid none
  | 2 => .create sid "new".toList none

/- The row is replaced between the read and the write. -/
def replacing :
    List (Choice (Fin 3) (Machine.observed machine).Tick) :=
  [0, 0, 1, 2, 2, 0, 0].map .thread

/- The run, if its schedule can be followed. -/
def replaced? :=
  (opening Codec.texts store (stored sid) methods).run
    (Machine.observed machine) anyStep replacing

/- The new row is overwritten by a change of the old one. -/
theorem not_comparesAndSets :
    ¬ ∀ after,
      Reaches (Machine.observed machine) anyStep
        (opening Codec.texts store (stored sid) methods)
        after →
      ∀ thread outcome,
        after.pool thread = .done outcome →
        ComparesAndSets Codec.texts store after.history
          thread
          outcome := by
  intro hAlways
  have hRuns : replaced?.isSome := rfl
  have hReaches :=
    Reaches.of_run (Option.some_get hRuns).symm
  have hSet := hAlways _ hReaches 0
    ⟨.modify sid append false none, some "old!".toList⟩ rfl
  rcases hSet with
    ⟨event, hEvent, -, service, raw, hGuarded, hLive,
      hMakes⟩
  have hFound :
      (((replaced?.get hRuns).history.filterMap
        guardedUpdate).all fun update =>
          update.2.2.live (key store sid) ==
            some "new".toList) = true := by
    rfl
  have hUpdate :=
    List.all_eq_true.mp hFound _
      (List.mem_filterMap.mpr ⟨event, hEvent, hGuarded⟩)
  have hNew : some raw = some "new".toList := by
    rw [← hLive]
    exact eq_of_beq hUpdate
  obtain rfl := Option.some.inj hNew
  have hChanged : "new!".toList = "old!".toList :=
    Except.ok.inj hMakes
  exact absurd hChanged (by decide)

/- One client modifies what another updates. -/
def updating : Bool → Method Text
  | false => .modify sid append false none
  | true => .update sid "mid".toList false none

/- The update comes between the read and the first write. -/
def updated? :=
  (opening Codec.texts store (stored sid) updating).run
    (Machine.observed machine) Unreplaced
    ([false, false, true, true, false, false, false, false,
      false].map .thread)

/-
  The change is made again, of what was written meanwhile.
-/
theorem comparesAndSets_updated :
    ∃ run : updated?.isSome,
      ComparesAndSets Codec.texts store
        (updated?.get run).history false
        ⟨.modify sid append false none,
          some "mid!".toList⟩ := by
  have hRuns : updated?.isSome := by decide +kernel
  refine ⟨hRuns, ?_⟩
  apply comparesAndSets_of_unreplaced Codec.texts store
    updating (stored sid)
    (Reaches.of_run (Option.some_get hRuns).symm)
  rfl

end Replacement

end DatabaseStorage

end Storage

end CrudAuth
