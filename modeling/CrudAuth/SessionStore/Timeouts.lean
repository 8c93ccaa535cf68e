import CrudAuth.SessionStore.Discipline

/-
  Idle and absolute timeouts over whole runs: what keeps a
  session alive is its creation and the activity that a
  `validate_session` has timed, and nothing else.

  Main declarations:
    * `Created`
    * `TookTime`
    * `InTime`
    * `created_unique`
    * `inTime_of_validated`
-/

------------------------------------------------------------
-- Runs Of Requests
------------------------------------------------------------

namespace CrudAuth

namespace SessionStore

open Concurrency
open Concurrency.Program

section Runs

variable {ι : Type} [DecidableEq ι]
variable (manager : Manager)
variable (expiry : Expiry)

/- Empty stores, and the requests of the clients. -/
def opening
    (clock nextId : Nat)
    (requests : ι → Request) :
    Config ι storeOps Stores HttpError Outcome where
  state := ⟨clock, nextId, ∅, ∅, []⟩
  history := []
  pool := fun thread => (requests thread).perform manager

/- All steps of the callers, the last one first. -/
abbrev History (ι : Type) := List (Event ι storeOps)

/- The times and the window a session was created with. -/
def Created
    (requests : ι → Request)
    (history : History ι)
    (key : Nat)
    (data : SessionData) : Prop :=
  ∃ thread new ttl,
    requests thread = .createSession new ∧
    (⟨thread, .sessionCreate key data ttl, ()⟩ :
      Event ι storeOps) ∈ history ∧
    (⟨thread, .now, data.createdAt⟩ : Event ι storeOps) ∈
      history ∧
    (⟨thread, .now, data.lastActivity⟩ :
      Event ι storeOps) ∈ history

/- A `validate_session` of the session has read the clock. -/
def TookTime
    (requests : ι → Request)
    (history : History ι)
    (key time : Nat) : Prop :=
  ∃ thread sessionId,
    requests thread = .validateSession sessionId true ∧
    manager.key sessionId = key ∧
    (⟨thread, .now, time⟩ : Event ι storeOps) ∈ history

/-
  The session was in time when the thread read the clock:
  by then it had been created, or timed by a
  `validate_session`, within its own window, and created
  within the absolute limit.
-/
def InTime
    (requests : ι → Request)
    (history : History ι)
    (thread : ι)
    (key : Nat)
    (session : SessionData) : Prop :=
  ∃ later time earlier data activity,
    history = later ++ ⟨thread, .now, time⟩ :: earlier ∧
    Created requests earlier key data ∧
    data.rememberMe = session.rememberMe ∧
    (activity = data.lastActivity ∨
      TookTime manager requests earlier key activity) ∧
    activity ≤ time ∧
    time ≤ activity +
      manager.config.timeoutSecondsFor session.rememberMe ∧
    data.createdAt ≤ time ∧
    ∀ limit ∈ manager.config.absoluteTimeout,
      time ≤ data.createdAt + limit

------------------------------------------------------------
-- What The Store Holds
------------------------------------------------------------

variable {manager} {expiry}
variable {requests : ι → Request}
variable {stores' : Stores}
variable {history earlier : History ι}
variable {key : Nat}

/- A stored session has the times of its own history. -/
def Genuine
    (manager : Manager)
    (requests : ι → Request)
    (history : History ι)
    (key : Nat)
    (session : SessionData) : Prop :=
  ∃ data,
    Created requests history key data ∧
    session.createdAt = data.createdAt ∧
    session.rememberMe = data.rememberMe ∧
    (session.lastActivity = data.lastActivity ∨
      TookTime manager requests history key
        session.lastActivity)

/- A creation stays in the history. -/
omit [DecidableEq ι] in
theorem Created.mono
    {data : SessionData}
    (hCreated : Created requests earlier key data)
    (hSuffix : earlier <:+ history) :
    Created requests history key data := by
  rcases hCreated with
    ⟨thread, new, ttl, hRequest, hStored, hCreated,
      hActivity⟩
  exact ⟨thread, new, ttl, hRequest, hSuffix.subset hStored,
    hSuffix.subset hCreated, hSuffix.subset hActivity⟩

omit [DecidableEq ι] in
theorem TookTime.mono
    {time : Nat}
    (hTook : TookTime manager requests earlier key time)
    (hSuffix : earlier <:+ history) :
    TookTime manager requests history key time := by
  rcases hTook with
    ⟨thread, sessionId, hRequest, hKey, hTime⟩
  exact ⟨thread, sessionId, hRequest, hKey,
    hSuffix.subset hTime⟩

omit [DecidableEq ι] in
theorem Genuine.mono
    {session : SessionData}
    (hGenuine :
      Genuine manager requests earlier key session)
    (hSuffix : earlier <:+ history) :
    Genuine manager requests history key session := by
  rcases hGenuine with
    ⟨data, hCreated, hTime, hWindow, hActivity⟩
  exact ⟨data, hCreated.mono hSuffix, hTime, hWindow,
    hActivity.imp_right fun hTook => hTook.mono hSuffix⟩

/- What one operation can do to a stored session. -/
theorem lookup_exec
    {op : StoreOp}
    {record : Timed SessionData}
    (hRecord :
      (Stores.exec expiry op stores').2.sessions.lookup key =
        some record) :
    stores'.sessions.lookup key = some record ∨
    (∃ data ttl,
      op = .sessionCreate key data ttl ∧
        record.value = data) ∨
    ∃ change ttl old,
      op = .sessionModify key change ttl ∧
      stores'.sessions.lookup key = some old ∧
      record.value = change old.value := by
  cases op with
  | sessionCreate other data ttl =>
      simp only [Stores.exec, Stores.setSession,
        Storage.Table.lookup_insert'] at hRecord
      split at hRecord
      · rename_i hKey
        subst hKey
        obtain rfl := Option.some.inj hRecord
        exact Or.inr (Or.inl ⟨data, ttl, rfl, rfl⟩)
      · exact Or.inl hRecord
  | sessionModify other change ttl =>
      simp only [Stores.exec] at hRecord
      split at hRecord
      · exact Or.inl hRecord
      · rename_i old hOld
        simp only [Stores.setSession,
          Storage.Table.lookup_insert'] at hRecord
        split at hRecord
        · rename_i hKey
          subst hKey
          obtain rfl := Option.some.inj hRecord
          have hThere := Option.filter_eq_some_iff.mp hOld
          exact Or.inr (Or.inr
            ⟨change, ttl, old, rfl, hThere.1, rfl⟩)
        · exact Or.inl hRecord
  | sessionDelete other =>
      simp only [Stores.exec, Storage.Table.lookup_erase']
        at hRecord
      split at hRecord
      · cases hRecord
      · exact Or.inl hRecord
  | csrfExtend other ttl =>
      simp only [Stores.exec] at hRecord
      split at hRecord <;> exact Or.inl hRecord
  | _ => exact Or.inl hRecord

/- A read session is stored. -/
theorem stored_of_get
    {session : SessionData}
    (hGet :
      some session =
        (Stores.exec expiry (.sessionGet key) stores').1) :
    ∃ record,
      stores'.sessions.lookup key = some record ∧
        record.value = session := by
  rcases Option.map_eq_some_iff.mp hGet.symm with
    ⟨record, hRecord, hValue⟩
  exact ⟨record, (Option.filter_eq_some_iff.mp hRecord).1,
    hValue⟩

/- What a `modify` returns is a change of what is stored. -/
theorem stored_of_modify
    {change : SessionData → SessionData}
    {ttl : Option Nat}
    {runs : List SessionData}
    {session : SessionData}
    (hModify :
      some (runs, session) =
        (Stores.exec expiry
          (.sessionModify key change ttl) stores').1) :
    ∃ record,
      stores'.sessions.lookup key = some record ∧
        session = change record.value := by
  simp only [Stores.exec] at hModify
  split at hModify
  · cases hModify
  · rename_i record hRecord
    have hSame := Prod.mk.inj (Option.some.inj hModify)
    exact ⟨record, (Option.filter_eq_some_iff.mp hRecord).1,
      hSame.2⟩

------------------------------------------------------------
-- Invariants
------------------------------------------------------------

variable {start : Stores}

/- What the callers have done to the stores. -/
abbrev Runs
    (manager : Manager)
    (expiry : Expiry)
    (requests : ι → Request)
    (start stores' : Stores)
    (history : History ι) : Prop :=
  Trace (stores expiry)
    (fun thread => (requests thread).contract manager)
    anyStep start [] stores' history

/- No clock reading is later than the clock. -/
theorem time_le
    (hRuns : Runs manager expiry requests start stores'
      history) :
    ∀ thread time,
      (⟨thread, .now, time⟩ : Event ι storeOps) ∈ history →
        time ≤ stores'.clock := by
  apply hRuns.invariant fun stores' history =>
    ∀ thread time,
      (⟨thread, .now, time⟩ : Event ι storeOps) ∈ history →
        time ≤ stores'.clock
  · intro thread time hTime
    cases hTime
  · intro before history active op _ _ _ hBefore thread time
      hTime
    have hClock :
        (Stores.exec expiry op before).2.clock =
          before.clock := by
      cases op with
      | sessionModify =>
          simp only [Stores.exec]
          split <;> rfl
      | csrfExtend =>
          simp only [Stores.exec]
          split <;> rfl
      | _ => rfl
    change time ≤ (Stores.exec expiry op before).2.clock
    rw [hClock]
    rcases List.mem_cons.mp hTime with hNew | hOld
    · cases hNew
      exact Nat.le_refl _
    · exact hBefore thread time hOld
  · intro before history tick hBefore thread time hTime
    have hTime := hBefore thread time hTime
    cases tick with
    | pass more => exact Nat.le_add_right_of_le hTime
    | lose reruns => exact hTime

/- Every stored session is genuine. -/
theorem genuine
    (hRuns : Runs manager expiry requests start stores'
      history)
    (hStart : start.sessions = ∅) :
    ∀ key record,
      stores'.sessions.lookup key = some record →
        Genuine manager requests history key
          record.value := by
  apply hRuns.invariant fun stores' history =>
    ∀ key record,
      stores'.sessions.lookup key = some record →
        Genuine manager requests history key record.value
  · intro key record hRecord
    rw [hStart] at hRecord
    cases hRecord
  · intro before history active op hBefore hRule _ hGenuine
      key record hRecord
    have hOlder : history <:+
        (⟨active, op, (Stores.exec expiry op before).1⟩ ::
          history : History ι) :=
      List.suffix_cons _ _
    rcases lookup_exec hRecord with
      hOld | ⟨data, ttl, rfl, rfl⟩ |
        ⟨change, ttl, old, rfl, hOld, hValue⟩
    · exact (hGenuine key record hOld).mono hOlder
    · rcases hRule with
        ⟨new, sessionId, hRequest, -, -, hCreated, hActivity,
          -⟩
      refine ⟨record.value, ⟨active, new, ttl, hRequest,
        List.mem_cons_self, ?_, ?_⟩, rfl, rfl, Or.inl rfl⟩
      · exact hOlder.subset (mem_own_iff.mp hCreated)
      · exact hOlder.subset (mem_own_iff.mp hActivity)
    · have hOldGenuine := (hGenuine key old hOld).mono hOlder
      rcases hOldGenuine with
        ⟨data, hCreated, hTime, hWindow, hActivity⟩
      rw [hValue]
      rcases hRule with
        hSteady | ⟨sessionId, now, hRequest, hKey, rfl, hNow⟩
      · have hKeeps := hSteady old.value
        refine ⟨data, hCreated, hKeeps.1.trans hTime,
          hKeeps.2.2.trans hWindow, ?_⟩
        rw [hKeeps.2.1]
        exact hActivity
      · refine ⟨data, hCreated, hTime, hWindow, Or.inr ?_⟩
        exact ⟨active, sessionId, hRequest, hKey.symm,
          hOlder.subset (mem_own_iff.mp hNow)⟩
  · intro before history tick hGenuine key record hRecord
    cases tick <;> exact hGenuine key record hRecord

/- An operation takes at most the next random id. -/
theorem nextId_exec (op : StoreOp) :
    stores'.nextId ≤
      (Stores.exec expiry op stores').2.nextId := by
  cases op with
  | fresh => exact Nat.le_succ _
  | sessionModify =>
      simp only [Stores.exec]
      split <;> exact Nat.le_refl _
  | csrfExtend =>
      simp only [Stores.exec]
      split <;> exact Nat.le_refl _
  | _ => exact Nat.le_refl _

/- A random id is drawn by one thread, in any run. -/
theorem fresh
    {contract : ι → Contract storeOps}
    (hRuns : Trace (stores expiry) contract anyStep start []
      stores' history) :
    (∀ thread id,
      (⟨thread, .fresh, id⟩ : Event ι storeOps) ∈ history →
        id < stores'.nextId) ∧
    ∀ thread thread' id,
      (⟨thread, .fresh, id⟩ : Event ι storeOps) ∈ history →
      (⟨thread', .fresh, id⟩ : Event ι storeOps) ∈ history →
        thread = thread' := by
  apply hRuns.invariant fun stores' history =>
    (∀ thread id,
      (⟨thread, .fresh, id⟩ : Event ι storeOps) ∈ history →
        id < stores'.nextId) ∧
    ∀ thread thread' id,
      (⟨thread, .fresh, id⟩ : Event ι storeOps) ∈ history →
      (⟨thread', .fresh, id⟩ : Event ι storeOps) ∈ history →
        thread = thread'
  · constructor
    · intro thread id hFresh
      cases hFresh
    · intro thread thread' id hFresh
      cases hFresh
  · intro before history active op _ _ _ hBefore
    rcases hBefore with ⟨hBelow, hOne⟩
    constructor
    · intro thread id hFresh
      rcases List.mem_cons.mp hFresh with hNew | hOld
      · cases hNew
        exact Nat.lt_succ_self _
      · exact Nat.lt_of_lt_of_le (hBelow thread id hOld)
          (nextId_exec op)
    · intro thread thread' id hFresh hFresh'
      rcases List.mem_cons.mp hFresh with hNew | hOld
      · cases hNew
        rcases List.mem_cons.mp hFresh' with hNew' | hOld'
        · cases hNew'
          rfl
        · exact absurd (hBelow thread' _ hOld')
            (Nat.lt_irrefl _)
      · rcases List.mem_cons.mp hFresh' with hNew' | hOld'
        · cases hNew'
          exact absurd (hBelow thread _ hOld)
            (Nat.lt_irrefl _)
        · exact hOne thread thread' id hOld hOld'
  · intro before history tick hBefore
    cases tick <;> exact hBefore

/- Under one key, one session is ever created. -/
theorem created_unique
    {data data' : SessionData}
    (hRuns : Runs manager expiry requests start stores'
      history)
    (hKey : Function.Injective manager.key)
    (hCreated : Created requests history key data)
    (hCreated' : Created requests history key data') :
    data = data' := by
  rcases hCreated with ⟨thread, new, ttl, -, hStored, -⟩
  rcases hCreated' with ⟨thread', new', ttl', -, hStored', -⟩
  rcases List.mem_iff_append.mp hStored with
    ⟨later, earlier, hSplit⟩
  rcases List.mem_iff_append.mp hStored' with
    ⟨later', earlier', hSplit'⟩
  have hFirst := hRuns
  have hSecond := hRuns
  rw [hSplit] at hFirst
  rw [hSplit'] at hSecond
  rcases hFirst.at_event with ⟨-, -, hRule, -⟩
  rcases hSecond.at_event with ⟨-, -, hRule', -⟩
  rcases hRule with
    ⟨-, sessionId, -, hSame, hFresh, -, -, hOnce⟩
  rcases hRule' with
    ⟨-, sessionId', -, hSame', hFresh', -, -, hOnce'⟩
  obtain rfl : sessionId = sessionId' :=
    hKey (hSame.symm.trans hSame')
  obtain rfl : thread = thread' := by
    apply (fresh hRuns).2 thread thread' sessionId
    · rw [hSplit]
      exact (suffix_of_split _ _ _).subset
        (mem_own_iff.mp hFresh)
    · rw [hSplit']
      exact (suffix_of_split _ _ _).subset
        (mem_own_iff.mp hFresh')
  -- Neither of two creations by a thread can be the older.
  have hNone
      {past : History ι}
      (stored : SessionData)
      (lifetime : Nat)
      (hNone : (own thread past).any creates = false)
      (hThere :
        (⟨thread, .sessionCreate key stored lifetime, ()⟩ :
          Event ι storeOps) ∈ past) :
      False := by
    rw [List.any_eq_false] at hNone
    let stores : Action storeOps :=
      ⟨.sessionCreate key stored lifetime, ()⟩
    have hStores : stores ∈ own thread past :=
      mem_own_iff.mpr hThere
    exact hNone stores hStores rfl
  rcases order_of_splits (hSplit.symm.trans hSplit') with
    ⟨between, hOlder, -⟩ | ⟨between, hOlder, -⟩ | ⟨hSame, -⟩
  · refine (hNone data' ttl' hOnce ?_).elim
    rw [hOlder]
    exact List.mem_append_right _ List.mem_cons_self
  · refine (hNone data ttl hOnce' ?_).elim
    rw [hOlder]
    exact List.mem_append_right _ List.mem_cons_self
  · cases hSame
    rfl

------------------------------------------------------------
-- Validated Sessions
------------------------------------------------------------

omit [DecidableEq ι] in
/- The times of a session are readings of the clock. -/
theorem Genuine.read
    {session : SessionData}
    (hGenuine :
      Genuine manager requests history key session) :
    (∃ thread,
      (⟨thread, .now, session.createdAt⟩ :
        Event ι storeOps) ∈ history) ∧
    ∃ thread,
      (⟨thread, .now, session.lastActivity⟩ :
        Event ι storeOps) ∈ history := by
  rcases hGenuine with
    ⟨data, hCreated, hTime, -, hActivity⟩
  rcases hCreated with ⟨creator, -, -, -, -, hAt, hActive⟩
  rw [hTime]
  refine ⟨⟨creator, hAt⟩, ?_⟩
  rcases hActivity with hSame | ⟨toucher, -, -, -, hTouched⟩
  · rw [hSame]
    exact ⟨creator, hActive⟩
  · exact ⟨toucher, hTouched⟩

/- A session that is read is genuine. -/
theorem genuine_of_get
    {later : History ι}
    {thread : ι}
    {session : SessionData}
    (hRuns : Runs manager expiry requests start stores'
      (later ++
        ⟨thread, .sessionGet key, some session⟩ :: earlier))
    (hStart : start.sessions = ∅) :
    Genuine manager requests earlier key session := by
  rcases hRuns.at_event with
    ⟨before, hBefore, -, -, hGet, -⟩
  rcases stored_of_get hGet with ⟨record, hRecord, rfl⟩
  exact genuine hBefore hStart key record hRecord

/- A session that is touched keeps its window. -/
theorem window_of_touch
    {data session : SessionData}
    {thread : ι}
    {now : Nat}
    {ttl : Option Nat}
    {runs : List SessionData}
    (hRuns : Runs manager expiry requests start stores'
      history)
    (hStart : start.sessions = ∅)
    (hKey : Function.Injective manager.key)
    (hCreated : Created requests history key data)
    (hTouched :
      (⟨thread, .sessionModify key (Manager.touch now) ttl,
        some (runs, session)⟩ : Event ι storeOps) ∈
          history) :
    data.rememberMe = session.rememberMe := by
  rcases hRuns.at_member hTouched with
    ⟨before, earlier, hEarlier, hBefore, -, -, hModify⟩
  rcases stored_of_modify hModify with
    ⟨record, hRecord, rfl⟩
  rcases genuine hBefore hStart key record hRecord with
    ⟨data', hCreated', -, hWindow, -⟩
  have hSame : data = data' :=
    created_unique hRuns hKey hCreated
      (hCreated'.mono hEarlier)
  rw [hSame]
  exact hWindow.symm

/-
  In every run, a session that `validate_session` returns
  was in time when it read the clock.
-/
theorem inTime_of_validated
    {clock nextId sessionId : Nat}
    {updateActivity : Bool}
    {thread : ι}
    {session : SessionData}
    {after : Config ι storeOps Stores HttpError Outcome}
    (hKey : Function.Injective manager.key)
    (hReaches : Reaches (stores expiry) anyStep
      (opening manager clock nextId requests) after)
    (hRequest :
      requests thread =
        .validateSession sessionId updateActivity)
    (hReturned :
      after.pool thread =
        .done (.validated (some session))) :
    InTime manager requests after.history thread
      (manager.key sessionId) session := by
  have hObeys : ∀ thread,
      ((requests thread).perform manager).Obeys
        ((requests thread).contract manager) []
        (Returns fun past =>
          (requests thread).Returned manager past) :=
    fun thread => (requests thread).perform_obeys
  have hRuns : Runs manager expiry requests
      (opening manager clock nextId requests).state
      after.state after.history :=
    hReaches.trace hObeys fun _ _ _ => trivial
  have hEnd :=
    hReaches.obeys hObeys (fun _ _ _ => trivial) thread
  rw [hReturned, obeys_done, returns_ok, hRequest] at hEnd
  rcases hEnd with
    ⟨newer, got, now, hPast, hIdle, hAge, hSame⟩
  have hNow :
      ⟨.now, now⟩ ::
        [⟨.sessionGet (manager.key sessionId), some got⟩] <:+
          own thread after.history := by
    rw [hPast]
    exact List.suffix_append newer _
  rcases own_split hNow with
    ⟨later, earlier, hSplit, hEarlier⟩
  have hGet :
      [⟨.sessionGet (manager.key sessionId), some got⟩] <:+
        own thread earlier := by
    rw [hEarlier]
  rcases own_split hGet with
    ⟨between, oldest, rfl, -⟩
  have hTimed := hRuns
  rw [hSplit] at hTimed
  rcases hTimed.at_event with
    ⟨before, hBefore, -, -, hClock, -⟩
  have hGenuine :
      Genuine manager requests
        (between ++
          ⟨thread, .sessionGet (manager.key sessionId),
            some got⟩ :: oldest)
        (manager.key sessionId) got :=
    (genuine_of_get hBefore rfl).mono (suffix_of_split _ _ _)
  have hRead := hGenuine.read
  rcases hRead with
    ⟨⟨creator, hCreatedAt⟩, ⟨toucher, hActiveAt⟩⟩
  change now = before.clock at hClock
  have hOld : got.createdAt ≤ now := by
    rw [hClock]
    exact time_le hBefore creator _ hCreatedAt
  have hActive : got.lastActivity ≤ now := by
    rw [hClock]
    exact time_le hBefore toucher _ hActiveAt
  rcases hGenuine with
    ⟨data, hCreated, hTime, hWindow, hActivity⟩
  have hKeeps : data.rememberMe = session.rememberMe := by
    rcases hSame with rfl | ⟨-, ttl, runs, hTouched⟩
    · exact hWindow.symm
    · apply window_of_touch hRuns rfl hKey
      · apply hCreated.mono
        rw [hSplit]
        exact suffix_of_split _ _ _
      · exact mem_own_iff.mp hTouched
  refine ⟨later, now, _, data, got.lastActivity, hSplit,
    hCreated, hKeeps, hActivity, hActive, ?_, ?_, ?_⟩
  · rw [← hKeeps, ← hWindow]
    exact Nat.le_of_not_lt (of_decide_eq_false hIdle)
  · rw [← hTime]
    exact hOld
  · intro limit hLimit
    rw [← hTime]
    simpa [Manager.isOverAge, Option.mem_def.mp hLimit]
      using hAge

end Runs

namespace Visit

/- Half an hour idle, a day in all. -/
def manager : Manager where
  config := ⟨5, 1800, 604800, some 86400⟩
  hasCsrfStorage := true
  key := id
  csrfKey := id

/- Expiry is exact. -/
def expiry : Expiry := .strict

/- One who signs in, and one who visits. -/
inductive Client where
  | login
  | visit
deriving DecidableEq

/- A login, and a visit of the session. -/
def requests : Client → Request
  | .login => .createSession ⟨none, 7, false, none, some 0⟩
  | .visit => .validateSession 0 true

/- The visit comes ten minutes after the login. -/
def schedule : List (Choice Client (stores expiry).Tick) :=
  List.replicate 8 (.thread .login) ++
    .tick (.pass 600) :: List.replicate 4 (.thread .visit)

/- The run, if its schedule can be followed. -/
def visited? :=
  (opening manager 0 0 requests).run (stores expiry) anyStep
    schedule

/- The session that the visit returns. -/
def session : SessionData :=
  ⟨7, 0, 600, false, some 1, none, some 0⟩

/- The visit was in time. -/
theorem inTime_of_visit :
    ∃ run : visited?.isSome,
      InTime manager requests (visited?.get run).history
        .visit 0 session := by
  have hRuns : visited?.isSome := by decide
  refine ⟨hRuns, ?_⟩
  have hRequest :
      requests .visit = .validateSession 0 true :=
    rfl
  apply inTime_of_validated Function.injective_id
    (Reaches.of_run (Option.some_get hRuns).symm) hRequest
  rfl

end Visit

end SessionStore

end CrudAuth
