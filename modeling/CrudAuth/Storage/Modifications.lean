import CrudAuth.Concurrency.Observed
import CrudAuth.Storage.Backends

/-
  Records that are read, modified and deleted, and never
  created: on every backend a deleted record stays deleted,
  and a `modify` changes the value that it writes over.

  Main declarations:
    * `Mild`
    * `Becomes`
    * `Overwrites`
    * `Lasting`
    * `Memory.lasting`
    * `Database.lasting`
    * `Redis.lasting`
    * `lastingOf`
-/

------------------------------------------------------------
-- Clients That Do Not Create
------------------------------------------------------------

namespace CrudAuth

namespace Storage

open Concurrency
open Concurrency.Program

variable {κ ν ω : Type}
variable {J : Interface}

/- Calls that create no record. -/
def Mild : Call κ ν → Prop
  | .create _ _ _ => False
  | .setIfAbsent _ _ _ => False
  | _ => True

/- Clients that only make such calls. -/
def mildClients (κ ν : Type) (J : Interface) :
    Contract (client (calls κ ν) J) where
  rule _
    | .call call => Mild call
    | _ => True
  answer _ _ := True

/-
  What a command of a call may make of the value under a
  key: it leaves it, removes it, or applies the change.
-/
inductive Becomes
    (call : Call κ ν)
    (key : κ) :
    Option ν → Option ν → Prop where
  | same (value : Option ν) : Becomes call key value value
  | gone (value : Option ν) : Becomes call key value none
  | changed
      {change : ν → ν}
      {reset : Bool}
      {expiration : Option Nat}
      (old : ν)
      (hCall : call = .modify key change reset expiration) :
      Becomes call key (some old) (some (change old))

section Becoming

variable {call : Call κ ν}
variable {key : κ}
variable {before after : Option ν}

/- A command that brings up no value of its own. -/
theorem becomes_of_kept
    (hKept : ∀ value, after = some value →
      before = some value) :
    Becomes call key before after := by
  cases after with
  | none => exact .gone before
  | some value =>
      rw [hKept value rfl]
      exact .same _

/- A value that is not there is not made. -/
theorem Becomes.none
    (hBecomes : Becomes call key none after) :
    after = Option.none := by
  cases hBecomes with
  | same => rfl
  | gone => rfl

end Becoming

/- A backend's commands, next to the states they meet. -/
abbrev Served
    (backend : Backend κ ν)
    (J : Interface)
    (ω : Type) : Interface :=
  observed (layered (calls κ ν) backend.commands J)
    (Layered backend.State ω)

/- A call of a client, or a step of the backend. -/
abbrev Moment
    (ι : Type)
    (backend : Backend κ ν)
    (J : Interface)
    (ω : Type) :=
  Event ι (Served backend J ω)

/- A backend that serves the clients of a world. -/
abbrev serving
    (backend : Backend κ ν)
    (world : Server J ω) :
    Machine (Served backend J ω) (Layered backend.State ω) :=
  (Layered.machine (calls κ ν) backend.server world).observed

/-
  An event that has found `old` stored under the key, and
  has left `new` there.
-/
def Overwrites
    {ι : Type}
    (backend : Backend κ ν)
    (world : Server J ω)
    (key : κ)
    (old new : ν)
    (event : Moment ι backend J ω) : Prop :=
  backend.stored event.moment.store key = some old ∧
  backend.stored
    ((serving backend world).exec event.op
      event.moment).2.store key = some new

/- The events of a thread are commands of its call. -/
def OnlyCommands
    {ι σ : Type}
    {C I J : Interface}
    (thread : ι)
    (events : List (Event ι (observed (layered C I J) σ))) :
    Prop :=
  ∀ event ∈ events, event.thread = thread →
    ∃ command, event.op = .command command

variable {ι : Type} [DecidableEq ι]

/- The moments of a run of such clients. -/
abbrev Mildly
    (backend : Backend κ ν)
    (discipline :
      Layered.Discipline (calls κ ν) backend.commands)
    (world : Server J ω)
    (start : Layered backend.State ω) :
    Layered backend.State ω →
    List (Moment ι backend J ω) → Prop :=
  Trace (serving backend world)
    (fun _ =>
      (discipline.contract (mildClients κ ν J)).observed
        (Layered backend.State ω))
    anyStep start []

/-
  What a backend's commands do for these clients: only a
  `modify` writes, and it changes what it writes over, a
  `delete` that returns has removed the record, and a
  `modify` that returns a value has written it.
-/
structure Lasting
    (ι : Type) [DecidableEq ι]
    (backend : Backend κ ν)
    (discipline :
      Layered.Discipline (calls κ ν) backend.commands)
    (world : Server J ω) : Prop where
  command : ∀ {start state history} {thread : ι} {call made}
    {op : backend.commands.Op} {key},
    Mildly backend discipline world start state history →
    Layered.underway ((own thread history).map seen) =
      some (call, made) →
    Mild call →
    discipline.rule call made op →
    Becomes call key
      (backend.stored state.store key)
      (backend.stored
        (backend.server.exec op state.clock state.store).2
        key)
  upkeep : ∀ upkeep now state key value,
    backend.stored (backend.server.upkeep upkeep now state)
      key = some value →
    backend.stored state key = some value
  removes : ∀ {key userId made ret},
    discipline.returns (.delete key userId) made ret →
    ∃ action ∈ made, ∀ now state,
      backend.stored
        (backend.server.exec action.op now state).2 key =
          none
  writes : ∀ {start state history} {thread : ι}
    {key change reset expiration made old new},
    Mildly backend discipline world start state history →
    Layered.underway ((own thread history).map seen) =
      some (.modify key change reset expiration, made) →
    discipline.returns
      (.modify key change reset expiration) made
      (some (old, new)) →
    new = change old ∧
    ∃ between event earlier,
      history = between ++ event :: earlier ∧
      event.thread = thread ∧
      (∃ command, event.op = .command command) ∧
      OnlyCommands thread between ∧
      Overwrites backend world key old new event

------------------------------------------------------------
-- The Call Under Way
------------------------------------------------------------

variable {C I : Interface}

/- A command, as an action of a layered program. -/
def asCommand (action : Action I) :
    Action (layered C I J) :=
  ⟨.command action.op, action.ret⟩

/- The call under way is where its client's past began. -/
theorem past_of_underway
    {past : List (Action (layered C I J))}
    {call : C.Op}
    {made : List (Action I)}
    (hUnderway :
      Layered.underway past = some (call, made)) :
    ∃ time rest,
      past = made.map asCommand ++
        ⟨.began call, time⟩ :: rest := by
  induction past generalizing made with
  | nil => cases hUnderway
  | cons newest past ih =>
      rcases newest with ⟨op, ret⟩
      cases op with
      | command op =>
          cases hOlder : Layered.underway past with
          | none =>
              simp [Layered.underway, hOlder] at hUnderway
          | some older =>
              obtain ⟨rfl, rfl⟩ := by
                simpa [Layered.underway, hOlder]
                  using hUnderway
              rcases ih hOlder with ⟨time, rest, rfl⟩
              exact ⟨time, rest, rfl⟩
      | began op =>
          obtain ⟨rfl, rfl⟩ := by
            simpa [Layered.underway] using hUnderway
          exact ⟨ret, past, rfl⟩
      | now => cases hUnderway
      | finished op ret => cases hUnderway
      | app op => cases hUnderway

/- Commands after the beginning of a call are its own. -/
theorem underway_commands
    (made : List (Action I))
    {call : C.Op}
    {time : Nat}
    {rest : List (Action (layered C I J))} :
    Layered.underway
        (made.map asCommand ++ ⟨.began call, time⟩ :: rest) =
      some (call, made) := by
  induction made with
  | nil => rfl
  | cons action made ih =>
      simp [asCommand, Layered.underway, ih]

variable {σ : Type}
variable {events :
  List (Event ι (observed (layered C I J) σ))}
variable {thread : ι}
variable {called : C.Op}

/- A command of the call under way, in the events. -/
theorem split_of_underway
    {newer older : List (Action I)}
    {action : Action I}
    (hUnderway :
      Layered.underway ((own thread events).map seen) =
        some (called, newer ++ action :: older)) :
    ∃ between moment earlier,
      events = between ++
        ⟨thread, .command action.op,
          (action.ret, moment)⟩ :: earlier ∧
      OnlyCommands thread between ∧
      Layered.underway ((own thread earlier).map seen) =
        some (called, older) := by
  rcases past_of_underway hUnderway with
    ⟨time, rest, hPast⟩
  rw [List.map_append, List.map_cons, List.append_assoc,
    List.cons_append] at hPast
  rcases split_of_seen hPast with
    ⟨between, moment, earlier, hEvents, hNewer, hOlder⟩
  refine ⟨between, moment, earlier, hEvents, ?_, ?_⟩
  · intro event hEvent hThread
    have hOwn : event.action ∈ own thread between := by
      rw [mem_own_iff, ← hThread]
      exact hEvent
    have hSeen := List.mem_map_of_mem (f := seen) hOwn
    rw [hNewer] at hSeen
    rcases List.mem_map.mp hSeen with ⟨command, -, hSame⟩
    exact ⟨command.op, (congrArg Action.op hSame).symm⟩
  · rw [hOlder]
    exact underway_commands older

/- The newest command of the call under way. -/
theorem newest_of_underway
    {older : List (Action I)}
    {action : Action I}
    (hUnderway :
      Layered.underway ((own thread events).map seen) =
        some (called, action :: older)) :
    ∃ between moment earlier,
      events = between ++
        ⟨thread, .command action.op,
          (action.ret, moment)⟩ :: earlier ∧
      OnlyCommands thread between ∧
      Layered.underway ((own thread earlier).map seen) =
        some (called, older) := by
  rw [← List.nil_append (action :: older)] at hUnderway
  exact split_of_underway hUnderway

variable {backend : Backend κ ν}
variable {discipline :
  Layered.Discipline (calls κ ν) backend.commands}
variable {world : Server J ω}
variable {start state : Layered backend.State ω}
variable {history : List (Moment ι backend J ω)}

/- What allowed a command of a mild client. -/
theorem rule_of_command
    {moment : Layered backend.State ω}
    {op : backend.commands.Op}
    {ret : backend.commands.Ret op}
    (hTrace :
      Mildly backend discipline world start state history)
    (hEvent :
      (⟨thread, .command op, (ret, moment)⟩ :
        Moment ι backend J ω) ∈ history) :
    ∃ call made,
      Mild call ∧ discipline.rule call made op := by
  rcases hTrace.at_member hEvent with
    ⟨_, _, -, -, hRule, -, -⟩
  rcases hRule with ⟨call, made, -, hMild, hRule, -⟩
  exact ⟨call, made, hMild, hRule⟩

------------------------------------------------------------
-- In Memory
------------------------------------------------------------

namespace Memory

variable [DecidableEq κ] [Owned ν]

/- An entry that survives was there before. -/
omit [Owned ν] in
theorem lookup_of_checkExpiry
    {memory : Memory κ ν}
    {now : Nat}
    {key other : κ}
    {entry : Entry ν}
    (hEntry :
      (memory.checkExpiry now other).lookup key =
        some entry) :
    memory.lookup key = some entry := by
  unfold checkExpiry at hEntry
  rw [Table.lookup_eraseIf] at hEntry
  split at hEntry
  · exact (Option.filter_eq_some_iff.mp hEntry).1
  · exact hEntry

/- So was one that survives a deletion. -/
omit [Owned ν] in
theorem lookup_of_erase
    {memory : Memory κ ν}
    {key other : κ}
    {entry : Entry ν}
    (hEntry :
      (AList.erase other memory).lookup key = some entry) :
    memory.lookup key = some entry := by
  rw [Table.lookup_erase'] at hEntry
  split at hEntry
  · cases hEntry
  · exact hEntry

/- Nothing is modified where nothing is. -/
omit [Owned ν] in
theorem modify_none
    {expiration now : Nat}
    {memory : Memory κ ν}
    {key : κ}
    {change : ν → ν}
    {reset : Bool}
    {ttl : Option Nat}
    (hNone :
      (memory.checkExpiry now key).lookup key = none) :
    modify expiration now memory key change reset ttl =
      (none, memory.checkExpiry now key) := by
  simp only [modify, get, hNone, Option.map_none]

omit [Owned ν] in
/- A live entry is changed in place. -/
theorem modify_some
    {now : Nat}
    {memory : Memory κ ν}
    {key : κ}
    {entry : Entry ν}
    (expiration : Nat)
    (change : ν → ν)
    (reset : Bool)
    (ttl : Option Nat)
    (hSome :
      (memory.checkExpiry now key).lookup key =
        some entry) :
    ∃ expiry,
      modify expiration now memory key change reset ttl =
        (some (entry.value, change entry.value),
          AList.insert key ⟨change entry.value, expiry⟩
            ((memory.checkExpiry now key).checkExpiry
              now key)) := by
  have hAgain :
      ((memory.checkExpiry now key).checkExpiry now
        key).lookup key = some entry := by
    have hLive := hSome
    unfold checkExpiry at hLive
    rw [Table.lookup_eraseIf, if_pos rfl,
      Option.filter_eq_some_iff] at hLive
    change ((memory.checkExpiry now key).eraseIf key
      (expired now)).lookup key = some entry
    rw [Table.lookup_eraseIf, if_pos rfl, hSome,
      Option.filter_eq_some_iff]
    exact ⟨rfl, hLive.2⟩
  refine ⟨if reset then now + lifetime expiration ttl else
    entry.expiry, ?_⟩
  simp only [modify, get, update, hSome, Option.map_some,
    hAgain]

omit [Owned ν] in
/- What a `modify` answers, it has found and written. -/
theorem stored_modify
    {expiration now : Nat}
    {memory : Memory κ ν}
    {key : κ}
    {change : ν → ν}
    {reset : Bool}
    {ttl : Option Nat}
    {old new : ν}
    (hAnswer :
      (modify expiration now memory key change reset
        ttl).1 = some (old, new)) :
    new = change old ∧
    (memory.lookup key).map Entry.value = some old ∧
    ((modify expiration now memory key change reset
      ttl).2.lookup key).map Entry.value = some new := by
  cases hEntry :
      (memory.checkExpiry now key).lookup key with
  | none =>
      rw [modify_none hEntry] at hAnswer
      cases hAnswer
  | some entry =>
      rcases modify_some expiration change reset ttl hEntry
        with ⟨expiry, hModify⟩
      rw [hModify] at hAnswer ⊢
      obtain ⟨rfl, rfl⟩ := by simpa using hAnswer
      have hBefore := hEntry
      unfold checkExpiry at hBefore
      rw [Table.lookup_eraseIf, if_pos rfl,
        Option.filter_eq_some_iff] at hBefore
      refine ⟨rfl, ?_, ?_⟩
      · rw [hBefore.1]
        rfl
      · rw [AList.lookup_insert]
        rfl

omit [Owned ν] in
/- Entries that were there before are not new values. -/
theorem becomes_of_lookup
    {memory memory' : Memory κ ν}
    {call : Call κ ν}
    {key : κ}
    (hOlder : ∀ entry,
      memory'.lookup key = some entry →
        memory.lookup key = some entry) :
    Becomes call key
      ((memory.lookup key).map Entry.value)
      ((memory'.lookup key).map Entry.value) := by
  apply becomes_of_kept
  intro value hValue
  rcases Option.map_eq_some_iff.mp hValue with
    ⟨entry, hEntry, rfl⟩
  rw [hOlder entry hEntry]
  rfl

/- A mild call leaves, removes or changes an entry. -/
theorem becomes_exec
    {expiration now : Nat}
    {memory : Memory κ ν}
    {call : Call κ ν}
    {key : κ}
    (hMild : Mild call) :
    Becomes call key
      ((memory.lookup key).map Entry.value)
      (((exec expiration call now memory).2.lookup key).map
        Entry.value) := by
  cases call with
  | create _ _ _ => cases hMild
  | setIfAbsent _ _ _ => cases hMild
  | get other =>
      exact becomes_of_lookup fun _ => lookup_of_checkExpiry
  | delete other userId =>
      exact becomes_of_lookup fun _ => lookup_of_erase
  | getUserSessions userId =>
      exact becomes_of_lookup fun _ =>
        Table.lookup_of_sweep _
  | removeFromUserIndex _ _ => exact .same _
  | getAndDelete other =>
      apply becomes_of_lookup
      intro entry hEntry
      change (getAndDelete now memory other).2.lookup key =
        some entry at hEntry
      unfold getAndDelete at hEntry
      split at hEntry
      · rename_i hGet
        obtain ⟨-, rfl⟩ := Prod.mk.inj hGet
        exact lookup_of_checkExpiry hEntry
      · rename_i hGet
        obtain ⟨-, rfl⟩ := Prod.mk.inj hGet
        exact lookup_of_checkExpiry (lookup_of_erase hEntry)
  | modify other change reset ttl =>
      change Becomes _ key _
        (((modify expiration now memory other change
          reset ttl).2.lookup key).map Entry.value)
      cases hFound :
          (memory.checkExpiry now other).lookup other with
      | none =>
          rw [modify_none hFound]
          exact becomes_of_lookup fun _ =>
            lookup_of_checkExpiry
      | some found =>
          rcases modify_some expiration change reset ttl
            hFound with ⟨expiry, hModify⟩
          rw [hModify]
          by_cases hKey : other = key
          · subst hKey
            rw [lookup_of_checkExpiry hFound,
              AList.lookup_insert]
            exact .changed found.value rfl
          · apply becomes_of_lookup
            intro entry hEntry
            rw [AList.lookup_insert_ne (Ne.symm hKey)]
              at hEntry
            exact lookup_of_checkExpiry
              (lookup_of_checkExpiry hEntry)

/- The dictionary is such a backend. -/
theorem lasting
    (expiration : Nat)
    (world : Server J ω) :
    Lasting ι (memory expiration : Backend κ ν)
      Memory.discipline world where
  command := by
    rintro start state history thread call made op key -
      - hMild ⟨-, rfl⟩
    exact becomes_exec hMild
  upkeep := by
    intro upkeep now state key value hValue
    rcases Option.map_eq_some_iff.mp hValue with
      ⟨entry, hEntry, hSame⟩
    exact Option.map_eq_some_iff.mpr
      ⟨entry, Table.lookup_of_sweep _ hEntry, hSame⟩
  removes := by
    rintro key userId made ret rfl
    refine ⟨_, List.mem_singleton_self _, ?_⟩
    intro now state
    refine Option.map_eq_none_iff.mpr ?_
    exact AList.lookup_erase key _
  writes := by
    rintro start state history thread key change reset ttl
      made old new hTrace hUnderway rfl
    rcases newest_of_underway hUnderway with
      ⟨between, moment, earlier, rfl, hBetween, -⟩
    have hAnswer := hTrace.at_moment.2.2.2
    rcases stored_modify hAnswer.symm with
      ⟨hNew, hBefore, hAfter⟩
    exact ⟨hNew, between, _, earlier, rfl, rfl, ⟨_, rfl⟩,
      hBetween, hBefore, hAfter⟩

end Memory

------------------------------------------------------------
-- In The Database
------------------------------------------------------------

namespace Database

variable [DecidableEq κ] [DecidableEq ν]

/- A row that still has the version has the value. -/
def Knows
    (key : κ)
    (version : Nat)
    (value : ν)
    (database : Database κ ν) : Prop :=
  ∀ row, database.lookup key = some row →
    version ≤ row.version ∧
      (row.version = version → row.value = value)

/- The statement puts no row under the key. -/
def Spares (key : κ) (statement : Statement κ ν) : Prop :=
  ∀ data, statement ≠ .insert key data

variable {database : Database κ ν}
variable {key other : κ}
variable {version : Nat}
variable {value : ν}

omit [DecidableEq ν] in
/- An update moves the version on. -/
theorem Knows.updateWhere
    {condition : Row ν → Bool}
    {data : RowData ν}
    (hKnows : Knows key version value database) :
    Knows key version value
      (database.updateWhere other condition data).2 := by
  intro row hRow
  rw [lookup_updateWhere] at hRow
  split at hRow
  · rcases Option.map_eq_some_iff.mp hRow with
      ⟨before, hBefore, rfl⟩
    rcases hKnows before hBefore with ⟨hOlder, hSame⟩
    split
    · refine ⟨Nat.le_succ_of_le hOlder, fun hVersion => ?_⟩
      have hLess : version < before.version + 1 :=
        Nat.lt_succ_of_le hOlder
      exact absurd hVersion hLess.ne'
    · exact ⟨hOlder, hSame⟩
  · exact hKnows row hRow

/- A deletion tells nothing new. -/
omit [DecidableEq ν] in
theorem Knows.deleteWhere
    {condition : Row ν → Bool}
    (hKnows : Knows key version value database) :
    Knows key version value
      (database.deleteWhere other condition).2 := by
  intro row hRow
  rw [lookup_deleteWhere] at hRow
  split at hRow
  · exact hKnows row (Option.filter_eq_some_iff.mp hRow).1
  · exact hKnows row hRow

omit [DecidableEq ν] in
theorem lookup_deleted :
    (database.deleteWhere key fun _ => true).2.lookup key =
      none := by
  rw [lookup_deleteWhere, if_pos rfl]
  cases database.lookup key with
  | none => rfl
  | some row => rfl

/- What does not put a row there keeps what is known. -/
theorem Knows.exec
    {statement : Statement κ ν}
    {now : Nat}
    (hKnows : Knows key version value database)
    (hSpares : Spares key statement) :
    Knows key version value
      (Database.exec statement now database).2 := by
  cases statement with
  | clock => exact hKnows
  | select other bound => exact hKnows
  | selectKeys userId bound => exact hKnows
  | update other data => exact hKnows.updateWhere
  | updateVersion other bound guard data =>
      exact hKnows.updateWhere
  | deleteLive other bound => exact hKnows.deleteWhere
  | deleteKey other => exact hKnows.deleteWhere
  | deleteExpired other bound => exact hKnows.deleteWhere
  | deleteReturning other bound =>
      exact hKnows.deleteWhere
  | deleteValue other bound value =>
      exact hKnows.deleteWhere
  | insert other data =>
      intro row hRow
      change (database.insertRow other data).2.lookup key =
        some row at hRow
      rw [lookup_insertRow] at hRow
      split at hRow
      · rename_i hKey
        obtain ⟨rfl, -⟩ := hKey
        exact absurd rfl (hSpares data)
      · exact hKnows row hRow

omit [DecidableEq ν] in
theorem Knows.purge
    {batch : List κ}
    {now : Nat}
    (hKnows : Knows key version value database) :
    Knows key version value
      (Database.purge batch now database) :=
  fun row hRow =>
    hKnows row (Table.lookup_of_sweep _ hRow)

/- A read tells the value with its version. -/
theorem knows_of_select
    {current now : Nat}
    (hRead :
      (Database.exec (.select key current) now
        database).1 = some (value, version)) :
    Knows key version value database := by
  rcases Option.map_eq_some_iff.mp hRead with
    ⟨found, hFound, hSame⟩
  obtain ⟨rfl, rfl⟩ := by simpa using hSame
  have hLookup := (Option.filter_eq_some_iff.mp hFound).1
  intro row hRow
  rw [hLookup] at hRow
  obtain rfl := Option.some.inj hRow
  exact ⟨Nat.le_refl _, fun _ => rfl⟩

/- A guarded update that is done was done on the value. -/
theorem overwrites_of_updateVersion
    {bound now : Nat}
    {data : RowData ν}
    (hKnows : Knows key version value database)
    (hDone :
      (Database.exec (.updateVersion key bound version data)
        now database).1 = true) :
    (database.lookup key).map Row.value = some value ∧
    ((Database.exec (.updateVersion key bound version data)
      now database).2.lookup key).map Row.value =
        some data.value := by
  change (database.updateWhere key _ data).1 = true at hDone
  rw [updateWhere_fst, Option.any_eq_true] at hDone
  rcases hDone with ⟨row, hRow, hGuard⟩
  have hVersion : row.version = version := by
    simp only [Bool.and_eq_true, beq_iff_eq] at hGuard
    exact hGuard.2
  have hValue := (hKnows row hRow).2 hVersion
  constructor
  · rw [hRow, Option.map_some, hValue]
  · change ((database.updateWhere key _
      data).2.lookup key).map Row.value = some data.value
    rw [lookup_updateWhere, if_pos rfl, hRow,
      Option.map_some, if_pos hGuard]
    rfl

variable [Owned ν]

omit [DecidableEq κ] [DecidableEq ν] in
/- A call that creates no record inserts no row. -/
theorem spares_of_rule
    {config : Config}
    {call : Call κ ν}
    {made : Made κ ν}
    {statement : Statement κ ν}
    (hMild : Mild call)
    (hRule : rule config call made statement) :
    Spares key statement := by
  rintro data rfl
  rcases hRule with ⟨_, _, rfl, -⟩ | ⟨_, _, rfl, -⟩
  · exact hMild
  · exact hMild

variable {config : Config}
variable {world : Server J ω}
variable {start state :
  Layered (Database κ ν) ω}
variable {history :
  List
    (Moment ι (Storage.database config : Backend κ ν) J ω)}
variable {call : Call κ ν}

/- What the call under way has read is still known. -/
theorem knows_of_underway
    {newer older : Made κ ν}
    {current : Nat}
    (hTrace : Mildly (Storage.database config)
      (Database.discipline config) world start state history)
    (hUnderway :
      Layered.underway ((own thread history).map seen) =
        some (call, newer ++
          ⟨.select key current, some (value, version)⟩ ::
            older)) :
    Knows key version value state.store := by
  rcases split_of_underway hUnderway with
    ⟨between, moment, earlier, rfl, -, -⟩
  have hRead :
      (Database.exec (.select key current) moment.clock
        moment.store).1 = some (value, version) :=
    hTrace.at_moment.2.2.2.symm
  refine hTrace.since
    (fun state => Knows key version value state.store)
    (fun event => ∀ statement,
      event.op = LayeredOp.command statement →
        Spares key statement) ?_ ?_ ?_ ?_
  · exact knows_of_select hRead
  · rintro ⟨newer, op, ret, moment⟩ hNewer statement rfl
    rcases rule_of_command hTrace
        (List.mem_append_left _ hNewer) with
      ⟨call, made, hMild, hRule⟩
    exact spares_of_rule hMild hRule
  · intro before thread op hKnows hSpares
    cases op with
    | command statement =>
        exact hKnows.exec (hSpares statement rfl)
    | now => exact hKnows
    | began call => exact hKnows
    | finished call ret => exact hKnows
    | app op => exact hKnows
  · intro before tick hKnows
    cases tick with
    | pass time => exact hKnows
    | store batch => exact hKnows.purge
    | app upkeep => exact hKnows

omit [DecidableEq ν] [Owned ν] in
/- Rows that were there before are not new values. -/
theorem becomes_of_lookup
    {later : Database κ ν}
    (hOlder : ∀ row,
      later.lookup key = some row →
        database.lookup key = some row) :
    Becomes call key
      ((database.lookup key).map Row.value)
      ((later.lookup key).map Row.value) := by
  apply becomes_of_kept
  intro value hValue
  rcases Option.map_eq_some_iff.mp hValue with
    ⟨row, hRow, rfl⟩
  rw [hOlder row hRow]
  rfl

/- A row is deleted or stays as it was. -/
omit [DecidableEq ν] [Owned ν] in
theorem becomes_deleteWhere
    {condition : Row ν → Bool} :
    Becomes call key
      ((database.lookup key).map Row.value)
      (((database.deleteWhere other condition).2.lookup
        key).map Row.value) := by
  apply becomes_of_lookup
  intro row hRow
  rw [lookup_deleteWhere] at hRow
  split at hRow
  · exact (Option.filter_eq_some_iff.mp hRow).1
  · exact hRow

omit [DecidableEq ν] [Owned ν] in
/- A guarded update changes the value that was read. -/
theorem becomes_updateWhere
    {condition : Row ν → Bool}
    {data : RowData ν}
    {change : ν → ν}
    {reset : Bool}
    {expiration : Option Nat}
    (hKnows : Knows other version value database)
    (hVersion : ∀ row, condition row = true →
      row.version = version)
    (hCall : call = .modify other change reset expiration)
    (hData : data.value = change value) :
    Becomes call key
      ((database.lookup key).map Row.value)
      (((database.updateWhere other condition
        data).2.lookup key).map Row.value) := by
  rw [lookup_updateWhere]
  split
  · rename_i hKey
    subst hKey
    cases hRow : database.lookup other with
    | none => exact .same _
    | some row =>
        rw [Option.map_some, Option.map_some]
        split
        · rename_i hMeets
          have hSame : row.value = value :=
            (hKnows row hRow).2 (hVersion row hMeets)
          change Becomes call other (some row.value)
            (some data.value)
          rw [hData, ← hSame]
          exact .changed row.value hCall
        · exact .same _
  · exact .same _

/- A statement leaves, removes or changes a row. -/
theorem becomes_exec
    {made : Made κ ν}
    {statement : Statement κ ν}
    (hTrace : Mildly (Storage.database config)
      (Database.discipline config) world start state history)
    (hUnderway :
      Layered.underway ((own thread history).map seen) =
        some (call, made))
    (hMild : Mild call)
    (hRule : rule config call made statement) :
    Becomes call key
      ((state.store.lookup key).map Row.value)
      (((Database.exec statement state.clock
        state.store).2.lookup key).map Row.value) := by
  cases statement with
  | clock => exact .same _
  | select other bound => exact .same _
  | selectKeys userId bound => exact .same _
  | deleteLive other bound => exact becomes_deleteWhere
  | deleteKey other => exact becomes_deleteWhere
  | deleteExpired other bound => exact becomes_deleteWhere
  | deleteReturning other bound => exact becomes_deleteWhere
  | deleteValue other bound value =>
      exact becomes_deleteWhere
  | insert other data =>
      exact absurd rfl (spares_of_rule hMild hRule data)
  | update other data =>
      rcases hRule with ⟨_, _, rfl, -⟩
      exact hMild.elim
  | updateVersion other bound guard data =>
      rcases hRule with
        ⟨-, change, reset, expiration, hCall, current, old,
          hRead, hData, -⟩
      rcases List.append_of_mem hRead with
        ⟨newer, older, rfl⟩
      have hKnows := knows_of_underway hTrace hUnderway
      refine becomes_updateWhere hKnows ?_ hCall hData
      intro row hMeets
      simp only [Bool.and_eq_true, beq_iff_eq] at hMeets
      exact hMeets.2

theorem lasting
    (config : Config)
    (world : Server J ω) :
    Lasting ι (Storage.database config : Backend κ ν)
      (Database.discipline config) world where
  command := by
    intro start state history thread call made op key
    exact becomes_exec
  upkeep := by
    intro upkeep now state key value hValue
    rcases Option.map_eq_some_iff.mp hValue with
      ⟨row, hRow, hSame⟩
    exact Option.map_eq_some_iff.mpr
      ⟨row, Table.lookup_of_sweep _ hRow, hSame⟩
  removes := by
    intro key userId made ret hMade
    refine ⟨_, hMade, ?_⟩
    intro now state
    refine Option.map_eq_none_iff.mpr ?_
    exact lookup_deleted
  writes := by
    rintro start state history thread key change reset ttl
      made old new hTrace hUnderway
      ⟨hNew, bound, current, version, row, earlier, rfl,
        hValue, hRead⟩
    rcases newest_of_underway hUnderway with
      ⟨between, moment, past, rfl, hBetween, hPast⟩
    rcases List.append_of_mem hRead with
      ⟨newer, older, rfl⟩
    have hMoment := hTrace.at_moment
    have hKnows := knows_of_underway hMoment.1 hPast
    have hWrites := overwrites_of_updateVersion hKnows
      hMoment.2.2.2.symm
    rw [hValue] at hWrites
    exact ⟨hNew, between, _, past, rfl, rfl, ⟨_, rfl⟩,
      hBetween, hWrites⟩

end Database

------------------------------------------------------------
-- In Redis
------------------------------------------------------------

namespace Redis

variable [DecidableEq κ]

/- A key that was not modified since is as it was. -/
structure Later
    (key : κ)
    (earlier later : Redis κ ν) : Prop where
  le : earlier.modified key ≤ later.modified key
  same : later.modified key = earlier.modified key →
    later.records.lookup key = earlier.records.lookup key

/- A key that is not modified since has the value. -/
structure Knows
    (key : κ)
    (watched : Nat)
    (value : ν)
    (redis : Redis κ ν) : Prop where
  le : watched ≤ redis.modified key
  same : redis.modified key = watched →
    (redis.records.lookup key).map Record.value = some value

variable {redis next : Redis κ ν}
variable {key other : κ}
variable {watched now : Nat}
variable {value : ν}

theorem later_refl : Later key redis redis :=
  ⟨Nat.le_refl _, fun _ => rfl⟩

/- A write moves the records on. -/
theorem later_put
    {record : Record ν} :
    Later key redis (redis.put other record) := by
  by_cases hKey : other = key
  · subst hKey
    have hModified :
        (redis.put other record).modified other =
          redis.modified other + 1 :=
      Function.update_self _ _ _
    constructor
    · rw [hModified]
      exact Nat.le_succ _
    · intro hSame
      rw [hModified] at hSame
      exact absurd hSame (Nat.succ_ne_self _)
  · constructor
    · exact (Function.update_of_ne (Ne.symm hKey) _ _).ge
    · intro _
      rw [lookup_put, if_neg hKey]

theorem later_remove :
    Later key redis (redis.remove other) := by
  by_cases hThere : (redis.records.lookup other).isSome
  · by_cases hKey : other = key
    · subst hKey
      have hModified :
          (redis.remove other).modified other =
            redis.modified other + 1 := by
        unfold remove
        rw [if_pos hThere]
        exact Function.update_self _ _ _
      constructor
      · rw [hModified]
        exact Nat.le_succ _
      · intro hSame
        rw [hModified] at hSame
        exact absurd hSame (Nat.succ_ne_self _)
    · constructor
      · unfold remove
        rw [if_pos hThere]
        exact (Function.update_of_ne (Ne.symm hKey) _ _).ge
      · intro _
        rw [lookup_remove, if_neg hKey]
  · have hSame : redis.remove other = redis :=
      if_neg hThere
    rw [hSame]
    exact later_refl

theorem lookup_removed :
    (redis.remove key).records.lookup key = none := by
  rw [lookup_remove, if_pos rfl]

/- A record that survives was there before. -/
theorem lookup_of_evict
    {record : Record ν}
    (hRecord :
      (evict other now redis).records.lookup key =
        some record) :
    redis.records.lookup key = some record := by
  rw [lookup_evict] at hRecord
  split at hRecord
  · exact (Option.filter_eq_some_iff.mp hRecord).1
  · exact hRecord

/- Every command tells those who watch. -/
theorem later_exec (command : RedisCommand κ ν) :
    Later key redis (exec command now redis).2 := by
  cases command with
  | set other data ttl => exact later_put
  | setNx other data ttl =>
      dsimp only [exec]
      split
      · exact later_refl
      · exact later_put
  | get other => exact later_refl
  | watch other => exact later_refl
  | exec other guard data ttl =>
      dsimp only [exec]
      split
      · exact later_put
      · exact later_refl
  | del other => exact later_remove
  | getDel other => exact later_remove
  | index userId other ttl =>
      exact ⟨Nat.le_refl _, fun _ => rfl⟩
  | srem userId other =>
      dsimp only [exec, removeFromIndex]
      split
      · exact later_refl
      · exact ⟨Nat.le_refl _, fun _ => rfl⟩
  | smembers userId => exact later_refl

theorem later_evict :
    Later key redis (evict other now redis) := by
  unfold evict
  split
  · exact later_remove
  · exact later_refl

/- What is watched is known until it moves. -/
theorem Knows.later
    (hKnows : Knows key watched value redis)
    (hLater : Later key redis next) :
    Knows key watched value next := by
  refine ⟨hKnows.le.trans hLater.le, fun hSame => ?_⟩
  have hBefore : redis.modified key = watched :=
    Nat.le_antisymm (hLater.le.trans hSame.le) hKnows.le
  rw [hLater.same (hSame.trans hBefore.symm)]
  exact hKnows.same hBefore

/- A read after the WATCH tells the value. -/
theorem knows_of_get
    (hWatched : watched ≤ redis.modified key)
    (hRead : (exec (.get key) now redis).1 = some value) :
    Knows key watched value redis := by
  refine ⟨hWatched, fun _ => ?_⟩
  rcases Option.map_eq_some_iff.mp hRead with
    ⟨record, hRecord, rfl⟩
  rw [(alive_eq_some.mp hRecord).1]
  rfl

/- An EXEC that is not aborted was done on the value. -/
theorem overwrites_of_exec
    {data : ν}
    {ttl : Option Nat}
    (hKnows : Knows key watched value redis)
    (hDone :
      (exec (.exec key watched data ttl) now redis).1 =
        true) :
    (redis.records.lookup key).map Record.value =
        some value ∧
    ((exec (.exec key watched data ttl) now
      redis).2.records.lookup key).map Record.value =
        some data := by
  dsimp only [exec] at hDone ⊢
  split at hDone
  · rename_i hGuard
    rw [if_pos hGuard]
    refine ⟨hKnows.same hGuard.1, ?_⟩
    dsimp only
    rw [lookup_put, if_pos rfl]
    rfl
  · cases hDone

variable [Owned ν]
variable {config : Config}
variable {world : Server J ω}
variable {start state : Layered (Redis κ ν) ω}
variable {history :
  List (Moment ι (Storage.redis config : Backend κ ν) J ω)}
variable {thread : ι}
variable {call : Call κ ν}

/- What was seen of a key under WATCH is still known. -/
theorem knows_of_underway
    {newer older : Made κ ν}
    (hTrace : Mildly (Storage.redis config)
      (Redis.discipline config) world start state history)
    (hUnderway :
      Layered.underway ((own thread history).map seen) =
        some (call, newer ++
          ⟨.get key, some value⟩ ::
            ⟨.watch key, watched⟩ :: older)) :
    Knows key watched value state.store := by
  rcases split_of_underway hUnderway with
    ⟨between, moment, earlier, rfl, -, hEarlier⟩
  rcases newest_of_underway hEarlier with
    ⟨between', moment', earlier', rfl, -, -⟩
  have hRead := hTrace.at_moment
  have hWatch := hRead.1.at_moment
  have hWatched :
      watched ≤ moment.store.modified key := by
    refine hRead.1.since
      (fun state => watched ≤ state.store.modified key)
      (fun _ => True) ?_ (fun _ _ => trivial) ?_ ?_
    · exact Nat.le_of_eq hWatch.2.2.2
    · intro before thread op hBefore _
      cases op with
      | command command =>
          exact hBefore.trans (later_exec command).le
      | now => exact hBefore
      | began call => exact hBefore
      | finished call ret => exact hBefore
      | app op => exact hBefore
    · intro before tick hBefore
      cases tick with
      | pass time => exact hBefore
      | store key => exact hBefore.trans later_evict.le
      | app upkeep => exact hBefore
  refine hTrace.since
    (fun state => Knows key watched value state.store)
    (fun _ => True) ?_ (fun _ _ => trivial) ?_ ?_
  · exact knows_of_get hWatched hRead.2.2.2.symm
  · intro before thread op hKnows _
    cases op with
    | command command =>
        exact hKnows.later (later_exec command)
    | now => exact hKnows
    | began call => exact hKnows
    | finished call ret => exact hKnows
    | app op => exact hKnows
  · intro before tick hKnows
    cases tick with
    | pass time => exact hKnows
    | store key => exact hKnows.later later_evict
    | app upkeep => exact hKnows

/- A record is removed or stays as it was. -/
omit [Owned ν] in
theorem becomes_remove :
    Becomes call key
      ((redis.records.lookup key).map Record.value)
      (((redis.remove other).records.lookup key).map
        Record.value) := by
  rw [lookup_remove]
  split
  · exact .gone _
  · exact .same _

/- A command leaves, removes or changes a record. -/
theorem becomes_exec
    {made : Made κ ν}
    {op : RedisCommand κ ν}
    (hTrace : Mildly (Storage.redis config)
      (Redis.discipline config) world start state history)
    (hUnderway :
      Layered.underway ((own thread history).map seen) =
        some (call, made))
    (hMild : Mild call)
    (hRule : rule config call made op) :
    Becomes call key
      ((state.store.records.lookup key).map Record.value)
      (((exec op state.clock state.store).2.records.lookup
        key).map Record.value) := by
  cases op with
  | get other => exact .same _
  | watch other => exact .same _
  | smembers userId => exact .same _
  | index userId other ttl => exact .same _
  | srem userId other =>
      dsimp only [exec, removeFromIndex]
      split
      · exact .same _
      · exact .same _
  | del other => exact becomes_remove
  | getDel other => exact becomes_remove
  | set other data ttl =>
      rcases hRule with ⟨_, rfl, -⟩
      exact hMild.elim
  | setNx other data ttl =>
      rcases hRule with ⟨_, rfl, -⟩
      exact hMild.elim
  | exec other guard data ttl =>
      rcases hRule with
        ⟨change, reset, expiration, old, earlier, hCall, rfl,
          -, rfl⟩
      rw [← List.nil_append (_ :: _ :: _)] at hUnderway
      have hKnows := knows_of_underway hTrace hUnderway
      dsimp only [exec]
      split
      · rename_i hGuard
        dsimp only
        rw [lookup_put]
        split
        · rename_i hKey
          subst hKey
          rw [hKnows.same hGuard.1]
          exact .changed old hCall
        · exact .same _
      · exact .same _

theorem lasting
    (config : Config)
    (world : Server J ω) :
    Lasting ι (Storage.redis config : Backend κ ν)
      (Redis.discipline config) world where
  command := by
    intro start state history thread call made op key
    exact becomes_exec
  upkeep := by
    intro upkeep now state key value hValue
    rcases Option.map_eq_some_iff.mp hValue with
      ⟨record, hRecord, hSame⟩
    exact Option.map_eq_some_iff.mpr
      ⟨record, lookup_of_evict hRecord, hSame⟩
  removes := by
    intro key userId made ret hMade
    refine ⟨_, hMade, ?_⟩
    intro now state
    refine Option.map_eq_none_iff.mpr ?_
    exact lookup_removed
  writes := by
    rintro start state history thread key change reset ttl
      made old new hTrace hUnderway
      ⟨-, swapped, ⟨newer, rfl⟩, hNew, watched, earlier,
        rfl⟩
    rcases split_of_underway hUnderway with
      ⟨between, moment, past, rfl, hBetween, hPast⟩
    have hMoment := hTrace.at_moment
    rw [← List.nil_append (_ :: _ :: _)] at hPast
    have hKnows := knows_of_underway hMoment.1 hPast
    exact ⟨hNew, between, _, past, rfl, rfl, ⟨_, rfl⟩,
      hBetween,
      overwrites_of_exec hKnows hMoment.2.2.2.symm⟩

end Redis

------------------------------------------------------------
-- On Every Backend
------------------------------------------------------------

variable [DecidableEq κ] [DecidableEq ν] [Owned ν]

/- Each backend is such a one. -/
theorem lastingOf
    (choice : BackendChoice)
    (world : Server J ω) :
    Lasting ι (getSessionStorage choice : Backend κ ν)
      (disciplineOf choice) world := by
  cases choice with
  | memory expiration =>
      exact Memory.lasting expiration world
  | database config => exact Database.lasting config world
  | redis config => exact Redis.lasting config world

section Runs

variable {choice : BackendChoice}
variable {world : Server J ω}
variable {start state :
  Layered (getSessionStorage choice : Backend κ ν).State ω}
variable {history :
  List (Moment ι (getSessionStorage choice : Backend κ ν)
    J ω)}
variable {thread : ι}
variable {key : κ}

/- No step makes a record that is not there. -/
theorem stored_exec
    {op : LayeredOp (calls κ ν) (Commands κ ν choice) J}
    (hTrace : Mildly (getSessionStorage choice)
      (disciplineOf choice) world start state history)
    (hRule :
      ((disciplineOf choice).contract
        (mildClients κ ν J)).rule
          ((own thread history).map seen) op)
    (hNone :
      (getSessionStorage choice).stored state.store key =
        none) :
    (getSessionStorage choice).stored
      ((serving (getSessionStorage choice) world).exec op
        state).2.store key = none := by
  cases op with
  | command op =>
      rcases hRule with
        ⟨call, made, hUnderway, hMild, hRule, -⟩
      have hBecomes : Becomes call key _ _ :=
        (lastingOf choice world).command hTrace hUnderway
          hMild hRule
      rw [hNone] at hBecomes
      exact hBecomes.none
  | now => exact hNone
  | began call => exact hNone
  | finished call ret => exact hNone
  | app op => exact hNone

/- Time stores nothing. -/
theorem stored_tick
    (tick : (serving (getSessionStorage choice :
      Backend κ ν) world).Tick)
    (hNone :
      (getSessionStorage choice).stored state.store key =
        none) :
    (getSessionStorage choice).stored
      ((serving (getSessionStorage choice) world).tick tick
        state).store key = none := by
  cases tick with
  | pass time => exact hNone
  | store upkeep =>
      rw [Option.eq_none_iff_forall_ne_some]
      intro value hValue
      have hBefore :=
        (lastingOf (ι := Unit) choice world).upkeep
          upkeep _ _
          key value hValue
      rw [hNone] at hBefore
      cases hBefore
  | app upkeep => exact hNone

/- Nor does any event of a run. -/
theorem stored_of_event
    {event : Moment ι
      (getSessionStorage choice : Backend κ ν) J ω}
    (hTrace : Mildly (getSessionStorage choice)
      (disciplineOf choice) world start state history)
    (hEvent : event ∈ history)
    (hNone :
      (getSessionStorage choice).stored event.moment.store
        key = none) :
    (getSessionStorage choice).stored
      ((serving (getSessionStorage choice) world).exec
        event.op event.moment).2.store key = none := by
  rcases List.append_of_mem hEvent with
    ⟨later, earlier, rfl⟩
  have hMoment := hTrace.at_moment
  exact stored_exec hMoment.1 hMoment.2.1 hNone

/- A `delete` that has returned has removed the record. -/
theorem stored_of_deleted
    {userId : Option UserId}
    {ret : Bool}
    {answer : Nat × Layered
      (getSessionStorage choice : Backend κ ν).State ω}
    (hTrace : Mildly (getSessionStorage choice)
      (disciplineOf choice) world start state history)
    (hDeleted :
      (⟨thread, .finished (.delete key userId) ret,
        answer⟩ :
          Moment ι (getSessionStorage choice : Backend κ ν)
            J ω) ∈ history) :
    (getSessionStorage choice).stored state.store key =
      none := by
  rcases List.append_of_mem hDeleted with
    ⟨later, earlier, rfl⟩
  rcases hTrace.at_moment.2.1 with
    ⟨-, made, hUnderway, hReturns⟩
  rcases (lastingOf (ι := ι) choice world).removes hReturns
    with ⟨action, hAction, hRemoves⟩
  rcases List.append_of_mem hAction with
    ⟨newer, older, rfl⟩
  rcases split_of_underway hUnderway with
    ⟨between, moment, past, rfl, -, -⟩
  have hWhole := hTrace
  rw [← List.cons_append, ← List.append_assoc] at hWhole
  refine hWhole.since
    (fun state =>
      (getSessionStorage choice).stored state.store key =
        none)
    (fun event =>
      (getSessionStorage choice).stored event.moment.store
          key = none →
        (getSessionStorage choice).stored
          ((serving (getSessionStorage choice) world).exec
            event.op event.moment).2.store key = none)
    (hRemoves _ _) ?_ ?_ ?_
  · intro event hEvent
    exact stored_of_event hWhole
      (List.mem_append_left _ hEvent)
  · intro before active op hBefore hKeeps
    exact hKeeps hBefore
  · intro before tick hBefore
    exact stored_tick tick hBefore

end Runs

end Storage

end CrudAuth
