import CrudAuth.SessionStore.Devices
import CrudAuth.SessionStore.SessionCap
import CrudAuth.SessionStore.Timeouts

/-
  Signing out: what a call has dropped stays gone whatever
  other calls do meanwhile, and a call made for a user drops
  that user's sessions only.

  A key is stored under at most once, and its record keeps
  the user it was stored for.  So a session that was found
  gone or was deleted cannot come back, and one that was
  listed for a user is that user's when it is deleted.

  Main declarations:
    * `Stored`
    * `gone_of_trace`
    * `SignedOut`
    * `signedOut_of_reaches`
    * `OwnSessions`
    * `ownSessions_of_reaches`
-/

------------------------------------------------------------
-- Runs Of Calls
------------------------------------------------------------

namespace CrudAuth

namespace SessionStore

open Concurrency
open Concurrency.Program

section Runs

variable {ι : Type} [DecidableEq ι]
variable (devices : Devices)
variable (expiry : Expiry)

/- Empty stores, and the calls of the clients. -/
def unopened
    (clock nextId : Nat)
    (calls : ι → DeviceCall) :
    Config ι storeOps Stores HttpError DeviceOutcome where
  state := ⟨clock, nextId, ∅, ∅, []⟩
  history := []
  pool := fun thread => (calls thread).perform devices

/- A session was stored under the key, for the user. -/
def Stored
    (history : History ι)
    (key : Nat)
    (userId : UserId) : Prop :=
  ∃ thread data ttl,
    (⟨thread, .sessionCreate key data ttl, ()⟩ :
      Event ι storeOps) ∈ history ∧
    data.userId = userId

/-
  What device calls and managers have done to the stores.
-/
abbrev DeviceRuns
    (calls : ι → DeviceCall)
    (start stores' : Stores)
    (history : History ι) : Prop :=
  Trace (stores expiry)
    (fun thread => (calls thread).contract devices.toManager)
    anyStep start [] stores' history

variable {devices} {expiry}
variable {calls : ι → DeviceCall}
variable {start stores' middle : Stores}
variable {history earlier later : History ι}
variable {key : Nat}
variable {userId : UserId}

/- What was stored stays so in the history. -/
omit [DecidableEq ι] in
theorem Stored.mono
    (hStored : Stored earlier key userId)
    (hSubset : earlier ⊆ history) :
    Stored history key userId := by
  obtain ⟨thread, data, ttl, hCreated, hUser⟩ := hStored
  exact ⟨thread, data, ttl, hSubset hCreated, hUser⟩

/- A record was stored for the user it has. -/
theorem stored_of_lookup
    (hRuns : DeviceRuns devices expiry calls start stores'
      history)
    (hStart : start.sessions = ∅) :
    ∀ key record,
      stores'.sessions.lookup key = some record →
        Stored history key record.value.userId := by
  apply hRuns.invariant fun stores' history =>
    ∀ key record,
      stores'.sessions.lookup key = some record →
        Stored history key record.value.userId
  · intro key record hRecord
    rw [hStart] at hRecord
    cases hRecord
  · intro before history active op _ hRule _ hStored key
      record hRecord
    rcases lookup_exec hRecord with
      hOld | ⟨data, ttl, rfl, rfl⟩ |
        ⟨change, ttl, old, rfl, hOld, hValue⟩
    · exact (hStored key record hOld).mono
        (List.subset_cons_self _ _)
    · exact ⟨active, _, ttl, List.mem_cons_self, rfl⟩
    · rw [hValue, hRule.2 old.value]
      exact (hStored key old hOld).mono
        (List.subset_cons_self _ _)
  · intro before history tick hStored key record hRecord
    cases tick <;> exact hStored key record hRecord

/- No session is stored under the same key again. -/
theorem not_stored_again
    {thread : ι}
    {data : SessionData}
    {ttl : Nat}
    (hRuns : DeviceRuns devices expiry calls start stores'
      history)
    (hKey : Function.Injective devices.key)
    (hStored : Stored history key userId)
    (hRule : (storing devices.toManager).rule
      (own thread history) (.sessionCreate key data ttl)) :
    False := by
  obtain ⟨creator, data', ttl', hCreated, -⟩ := hStored
  obtain ⟨before, earlier, hSuffix, -, ⟨hStoring, -⟩, -⟩ :=
    hRuns.at_member hCreated
  obtain ⟨sessionId', hSame', hFresh', -⟩ := hStoring
  obtain ⟨sessionId, hSame, hFresh, hOnce⟩ := hRule
  obtain rfl : sessionId = sessionId' :=
    hKey (hSame.symm.trans hSame')
  obtain rfl : thread = creator :=
    (fresh hRuns).2 thread creator sessionId
      (mem_own_iff.mp hFresh)
      (hSuffix.subset (mem_own_iff.mp hFresh'))
  rw [List.any_eq_false] at hOnce
  let stores : Action storeOps :=
    ⟨.sessionCreate key data' ttl', ()⟩
  have hStores : stores ∈ own thread history :=
    mem_own_iff.mpr hCreated
  exact hOnce stores hStores rfl

/- A key has one user. -/
theorem user_unique
    {other : UserId}
    (hRuns : DeviceRuns devices expiry calls start stores'
      history)
    (hKey : Function.Injective devices.key)
    (hStored : Stored history key userId)
    (hOther : Stored history key other) :
    userId = other := by
  obtain ⟨thread, data, ttl, hCreated, rfl⟩ := hStored
  obtain ⟨thread', data', ttl', hCreated', rfl⟩ := hOther
  rcases order_of_members hCreated hCreated' with
    ⟨later, between, earlier, hSplit⟩ |
      ⟨later, between, earlier, hSplit⟩ | hSame
  · rw [hSplit] at hRuns
    obtain ⟨before, hBefore, ⟨hStoring, -⟩, -⟩ :=
      hRuns.at_event
    refine (not_stored_again hBefore hKey
      ⟨thread', data', ttl', ?_, rfl⟩ hStoring).elim
    exact List.mem_append_right _ List.mem_cons_self
  · rw [hSplit] at hRuns
    obtain ⟨before, hBefore, ⟨hStoring, -⟩, -⟩ :=
      hRuns.at_event
    refine (not_stored_again hBefore hKey
      ⟨thread, data, ttl, ?_, rfl⟩ hStoring).elim
    exact List.mem_append_right _ List.mem_cons_self
  · cases hSame
    rfl

------------------------------------------------------------
-- Gone For Good
------------------------------------------------------------

/- A session is absent once its record expired. -/
theorem session?_eq_none :
    stores'.session? expiry key = none ↔
      ∀ record,
        stores'.sessions.lookup key = some record →
          expiry.alive stores'.clock record.expiry =
            false := by
  unfold Stores.session?
  rw [Option.filter_eq_none_iff]
  constructor
  · intro hNone record hRecord
    exact Bool.not_eq_true _ ▸ hNone record hRecord
  · intro hNone record hRecord hAlive
    rw [Stores.isAlive, hNone record hRecord] at hAlive
    cases hAlive

/- Writing under another key. -/
theorem gone_setSession
    {other : Nat}
    {record : Timed SessionData}
    (hGone : stores'.session? expiry key = none)
    (hOther : other ≠ key) :
    (stores'.setSession other record).session? expiry key =
      none := by
  rw [session?_eq_none] at hGone ⊢
  intro old hOld
  rw [Stores.setSession, Storage.Table.lookup_insert',
    if_neg hOther] at hOld
  exact hGone old hOld

/- One operation brings back only what it stores anew. -/
theorem gone_exec
    {op : StoreOp}
    (hGone : stores'.session? expiry key = none)
    (hOther : ∀ data ttl, op ≠ .sessionCreate key data ttl) :
    (Stores.exec expiry op stores').2.session? expiry key =
      none := by
  cases op with
  | sessionCreate other data ttl =>
      apply gone_setSession hGone
      rintro rfl
      exact hOther data ttl rfl
  | sessionModify other change ttl =>
      simp only [Stores.exec]
      split
      · exact hGone
      · rename_i record hRecord
        apply gone_setSession hGone
        rintro rfl
        rw [hGone] at hRecord
        cases hRecord
  | sessionDelete other =>
      rw [session?_eq_none] at hGone ⊢
      intro record hRecord
      simp only [Stores.exec, Storage.Table.lookup_erase']
        at hRecord
      split at hRecord
      · cases hRecord
      · exact hGone record hRecord
  | csrfExtend other ttl =>
      simp only [Stores.exec]
      split <;> exact hGone
  | _ => exact hGone

/- Nor does time bring a session back. -/
theorem gone_tick
    {tick : Stores.Tick}
    (hGone : stores'.session? expiry key = none) :
    (Stores.tick tick stores').session? expiry key =
      none := by
  cases tick with
  | lose reruns => exact hGone
  | pass time =>
      rw [session?_eq_none] at hGone ⊢
      intro record hRecord
      have hDead := hGone record hRecord
      have hPast : record.expiry ≤ stores'.clock := by
        by_contra hBefore
        rw [expiry.alive_of_lt _ _ (not_le.mp hBefore)]
          at hDead
        cases hDead
      change expiry.alive (stores'.clock + time) _ = false
      by_contra hAlive
      rw [Bool.not_eq_false] at hAlive
      have hLast := expiry.le_of_alive _ _ hAlive
      obtain rfl : time = 0 := by omega
      rw [Nat.add_zero, hDead] at hAlive
      cases hAlive

/- A session that is gone once it was stored stays gone. -/
theorem gone_of_trace
    (hRuns : DeviceRuns devices expiry calls start middle
      earlier)
    (hSince : Trace (stores expiry)
      (fun thread =>
        (calls thread).contract devices.toManager)
      anyStep middle earlier stores' history)
    (hKey : Function.Injective devices.key)
    (hStored : Stored earlier key userId)
    (hGone : middle.session? expiry key = none) :
    stores'.session? expiry key = none := by
  apply hSince.invariant fun stores' _ =>
    stores'.session? expiry key = none
  · exact hGone
  · intro before history active op hBefore hRule _ hGone
    apply gone_exec hGone
    rintro data ttl rfl
    exact not_stored_again (hRuns.trans hBefore) hKey
      (hStored.mono hBefore.suffix.subset) hRule.1
  · intro before history tick hGone
    exact gone_tick hGone

/- What was dropped after it was stored is gone. -/
theorem gone_of_dropped
    {thread : ι}
    {action : Action storeOps}
    (hRuns : DeviceRuns devices expiry calls start stores'
      (later ++ ⟨thread, action.op, action.ret⟩ :: earlier))
    (hKey : Function.Injective devices.key)
    (hStored : Stored earlier key userId)
    (hDropped : Dropped [action] key) :
    stores'.session? expiry key = none := by
  obtain ⟨before, hBefore, hRule, -, hAnswer, hAt, hSince⟩ :=
    hRuns.at_event
  apply gone_of_trace hAt hSince hKey
    (hStored.mono (List.subset_cons_self _ _))
  rcases hDropped with hGet | ⟨deleted, hDelete⟩
  · obtain rfl := List.mem_singleton.mp hGet
    have hNone : before.session? expiry key = none :=
      Option.map_eq_none_iff.mp hAnswer.symm
    exact hNone
  · obtain rfl := List.mem_singleton.mp hDelete
    rw [session?_eq_none]
    intro record hRecord
    simp only [Stores.exec, Storage.Table.lookup_erase',
      if_pos] at hRecord
    cases hRecord

/- What was read was stored before. -/
theorem stored_of_read
    {thread : ι}
    {session : SessionData}
    (hRuns : DeviceRuns devices expiry calls start stores'
      history)
    (hStart : start.sessions = ∅)
    (hGet : (⟨thread, .sessionGet key, some session⟩ :
      Event ι storeOps) ∈ history) :
    Stored history key session.userId := by
  obtain ⟨before, earlier, hSuffix, hBefore, -, -,
    hAnswer⟩ :=
    hRuns.at_member hGet
  obtain ⟨record, hRecord, rfl⟩ := stored_of_get hAnswer
  exact (stored_of_lookup hBefore hStart key record
    hRecord).mono hSuffix.subset

/- So was what was listed, for the user it was listed for. -/
theorem stored_of_readAs
    {thread : ι}
    (hRuns : DeviceRuns devices expiry calls start stores'
      history)
    (hStart : start.sessions = ∅)
    (hRead : ReadAs (own thread history) userId key) :
    Stored history key userId := by
  rcases hRead with
    ⟨keys, hListed, hMem⟩ | ⟨session, hGet, rfl⟩
  · obtain ⟨before, earlier, hSuffix, hBefore, -, -,
      hAnswer⟩ := hRuns.at_member (mem_own_iff.mp hListed)
    obtain ⟨record, hRecord, hUser⟩ :
        ∃ record,
          before.sessions.lookup key = some record ∧
            record.value.userId = userId := by
      have hKeys : keys = userKeys expiry before userId :=
        hAnswer
      rw [hKeys] at hMem
      obtain ⟨record, hRecord, hUser⟩ :=
        mem_userKeys.mp hMem
      exact ⟨record,
        (Option.filter_eq_some_iff.mp hRecord).1, hUser⟩
    rw [← hUser]
    exact (stored_of_lookup hBefore hStart key record
      hRecord).mono hSuffix.subset
  · exact stored_of_read hRuns hStart (mem_own_iff.mp hGet)

/- What a thread has read and then deleted is gone. -/
theorem gone_of_revoked
    {thread : ι}
    (hRuns : DeviceRuns devices expiry calls start stores'
      history)
    (hStart : start.sessions = ∅)
    (hKey : Function.Injective devices.key)
    (hRevoked : Revoked (own thread history) key) :
    stores'.session? expiry key = none := by
  obtain ⟨newer, older, session, deleted, hPast, hGet,
    hDelete⟩ := hRevoked
  obtain ⟨newest, between, rfl⟩ := List.append_of_mem hDelete
  have hSuffix :
      (⟨.sessionDelete key, deleted⟩ : Action storeOps) ::
        (between ++ older) <:+ own thread history := by
    rw [hPast, List.append_assoc, List.cons_append]
    exact List.suffix_append newest _
  obtain ⟨later, earlier, rfl, hEarlier⟩ := own_split hSuffix
  obtain ⟨before, hBefore, -⟩ := hRuns.at_event
  have hOwn : (⟨.sessionGet key, some session⟩ :
      Action storeOps) ∈ own thread earlier := by
    rw [hEarlier]
    exact List.mem_append_right _ hGet
  have hRead := mem_own_iff.mp hOwn
  exact @gone_of_dropped _ _ _ _ _ _ _ _ _ _ _ _
    ⟨.sessionDelete key, deleted⟩ hRuns hKey
    (stored_of_read hBefore hStart hRead)
    (Or.inr ⟨deleted, List.mem_cons_self⟩)

end Runs

------------------------------------------------------------
-- Signed Out
------------------------------------------------------------

section Properties

variable {ι : Type} [DecidableEq ι]
variable (devices : Devices)
variable (expiry : Expiry)
variable (calls : ι → DeviceCall)

/-
  When a call that signs a user out has returned, no session
  can be read that was stored for the user before the call
  began, but the one it was to keep.
-/
def SignedOut
    (config :
      Config ι storeOps Stores HttpError DeviceOutcome) :
    Prop :=
  ∀ thread userId exclude outcome key,
    ∀ later earlier : History ι,
    (calls thread).sweeps = some (userId, exclude) →
    config.pool thread = .done outcome →
    config.history = later ++ earlier →
    own thread earlier = [] →
    Stored earlier key userId →
    some key ≠ exclude.map devices.key →
      config.state.session? expiry key = none

/-
  A call made for a user deletes and lists that user's
  sessions only, and what a call says it has revoked cannot
  be read any more.
-/
structure OwnSessions
    (config :
      Config ι storeOps Stores HttpError DeviceOutcome) :
    Prop where
  deletes : ∀ thread userId key deleted,
    (calls thread).owner = some userId →
    (⟨thread, .sessionDelete key, deleted⟩ :
      Event ι storeOps) ∈ config.history →
    Stored config.history key userId ∧
      ∀ other, Stored config.history key other →
        other = userId
  lists : ∀ thread userId current entries,
    calls thread = .listForUser userId current →
    config.pool thread = .done (.listed entries) →
      ∀ entry ∈ entries, ∃ key,
        entry.id = devices.handleOf key ∧
        Stored config.history key userId
  revokes : ∀ thread sessionId ownerId,
    calls thread = .revoke sessionId ownerId →
    config.pool thread = .done (.revoked true) →
      config.state.session? expiry (devices.key sessionId) =
        none
  revokesHandle : ∀ thread handle ownerId,
    calls thread = .revokeByHandle handle ownerId →
    config.pool thread = .done (.revoked true) →
      ∃ key, devices.handleOf key = handle ∧
        Stored config.history key ownerId ∧
        config.state.session? expiry key = none

variable {devices expiry calls}
variable {clock nextId : Nat}
variable {config :
  Config ι storeOps Stores HttpError DeviceOutcome}

/- A configuration reached is a run of devices. -/
theorem deviceRuns_of_reaches
    (hReaches : Reaches (stores expiry) anyStep
      (unopened devices clock nextId calls) config) :
    DeviceRuns devices expiry calls
      ⟨clock, nextId, ∅, ∅, []⟩ config.state
      config.history := by
  refine hReaches.trace
    (fun thread => (calls thread).perform_obeys) ?_
  intro thread op state
  exact ⟨trivial, trivial⟩

/- What a call that has returned has done. -/
theorem returned_of_reaches
    {thread : ι}
    {outcome : DeviceOutcome}
    (hReaches : Reaches (stores expiry) anyStep
      (unopened devices clock nextId calls) config)
    (hDone : config.pool thread = .done outcome) :
    (calls thread).Returned devices
      (own thread config.history) outcome := by
  have hEnd := hReaches.obeys
    (fun thread => (calls thread).perform_obeys)
    (fun thread op state => And.intro trivial trivial) thread
  rw [hDone, obeys_done, returns_ok] at hEnd
  exact hEnd

/- A sign-out has swept when it returns. -/
theorem swept_of_returned
    {devCall : DeviceCall}
    {past : Past}
    {userId : UserId}
    {exclude : Option Nat}
    {outcome : DeviceOutcome}
    (hSweeps : devCall.sweeps = some (userId, exclude))
    (hReturned : devCall.Returned devices past outcome) :
    Swept past userId (exclude.map devices.key) := by
  cases devCall with
  | managed request =>
      exact hReturned userId exclude hSweeps
  | revokeAll userId' exclude' =>
      exact hReturned userId exclude hSweeps
  | listForUser userId' current => cases hSweeps
  | revoke sessionId ownerId => cases hSweeps
  | revokeByHandle handle ownerId => cases hSweeps

/- Signing out everywhere reaches every session. -/
theorem signedOut_of_reaches
    (hKey : Function.Injective devices.key)
    (hReaches : Reaches (stores expiry) anyStep
      (unopened devices clock nextId calls) config) :
    SignedOut devices expiry calls config := by
  intro thread userId exclude outcome key later earlier
    hSweeps hDone hHistory hFirst hStored hNot
  have hRuns := deviceRuns_of_reaches hReaches
  obtain ⟨keys, hListed, hDrops⟩ := swept_of_returned hSweeps
    (returned_of_reaches hReaches hDone)
  rw [hHistory] at hRuns hListed hDrops
  -- all that the call did came after the session was stored
  have hLater : ∀ action : Action storeOps,
      action ∈ own thread (later ++ earlier) →
      ∃ newer older,
        later ++ earlier =
          newer ++ ⟨thread, action.op, action.ret⟩ ::
            (older ++ earlier) := by
    intro action hAction
    have hMem := mem_own_iff.mp hAction
    rcases List.mem_append.mp hMem with hNew | hOld
    · obtain ⟨newer, older, rfl⟩ := List.append_of_mem hNew
      exact ⟨newer, older, by simp⟩
    · have hNone := mem_own_iff.mpr hOld
      rw [hFirst] at hNone
      cases hNone
  have hMore : ∀ older : History ι,
      Stored (older ++ earlier) key userId := fun older =>
    hStored.mono (List.subset_append_right _ _)
  have hDropped : ∀ action : Action storeOps,
      action ∈ own thread (later ++ earlier) →
      Dropped [action] key →
        config.state.session? expiry key = none := by
    intro action hAction hDrop
    obtain ⟨newer, older, hSplit⟩ := hLater action hAction
    rw [hSplit] at hRuns
    exact gone_of_dropped hRuns hKey (hMore older) hDrop
  obtain ⟨newer, older, hSplit⟩ := hLater _ hListed
  have hMoment := hRuns
  rw [hSplit] at hMoment
  obtain ⟨before, hBefore, -, -, hAnswer, hAt, hSince⟩ :=
    hMoment.at_event
  have hKeys : keys = userKeys expiry before userId :=
    hAnswer
  cases hLive : before.session? expiry key with
  | none =>
      exact gone_of_trace hAt hSince hKey
        ((hMore older).mono (List.subset_cons_self _ _))
        hLive
  | some record =>
      have hRecord :=
        (Option.filter_eq_some_iff.mp hLive).1
      have hUser : record.value.userId = userId :=
        user_unique hBefore hKey
          (stored_of_lookup hBefore rfl key record hRecord)
          (hMore older)
      have hMem : key ∈ keys := by
        rw [hKeys]
        exact mem_userKeys.mpr ⟨record, hLive, hUser⟩
      rcases hDrops key hMem hNot with
        hGet | ⟨deleted, hDelete⟩
      · exact hDropped _ hGet (Or.inl List.mem_cons_self)
      · exact hDropped _ hDelete
          (Or.inr ⟨deleted, List.mem_cons_self⟩)

/- A call for a user is about that user's sessions only. -/
theorem ownSessions_of_reaches
    (hKey : Function.Injective devices.key)
    (hReaches : Reaches (stores expiry) anyStep
      (unopened devices clock nextId calls) config) :
    OwnSessions devices expiry calls config := by
  have hRuns := deviceRuns_of_reaches hReaches
  constructor
  · intro thread userId key deleted hOwner hDelete
    obtain ⟨before, earlier, hSuffix, hBefore, ⟨-, hRule⟩,
      -⟩ := hRuns.at_member hDelete
    have hStored : Stored config.history key userId :=
      (stored_of_readAs hBefore rfl
        (hRule userId hOwner)).mono hSuffix.subset
    exact ⟨hStored, fun other hOther =>
      user_unique hRuns hKey hOther hStored⟩
  · intro thread userId current entries hCall hDone entry
      hEntry
    have hReturned := returned_of_reaches hReaches hDone
    rw [hCall] at hReturned
    obtain ⟨key, session, hRead, -, rfl⟩ :=
      hReturned entry hEntry
    exact ⟨key, rfl, stored_of_readAs hRuns rfl hRead⟩
  · intro thread sessionId ownerId hCall hDone
    have hReturned := returned_of_reaches hReaches hDone
    rw [hCall] at hReturned
    exact gone_of_revoked hRuns rfl hKey hReturned
  · intro thread handle ownerId hCall hDone
    have hReturned := returned_of_reaches hReaches hDone
    rw [hCall] at hReturned
    obtain ⟨key, hHandle, hRead, hRevoked⟩ := hReturned
    exact ⟨key, hHandle, stored_of_readAs hRuns rfl hRead,
      gone_of_revoked hRuns rfl hKey hRevoked⟩

end Properties

------------------------------------------------------------
-- Leaving During A Request
------------------------------------------------------------

namespace Leaving

/- Sessions of half an hour, listed under their keys. -/
def devices : Devices where
  config := ⟨5, 1800, 604800, none⟩
  hasCsrfStorage := true
  key := id
  csrfKey := id
  handleOf := id

/- A login, a sign-out, a visit, and a device call. -/
inductive Client where
  | login
  | leave
  | visit
  | devices
deriving DecidableEq

/- What each of them calls, for user 7. -/
def calls : Client → DeviceCall
  | .login =>
      .managed (.createSession ⟨none, 7, false, none, none⟩)
  | .leave => .revokeAll 7 none
  | .visit => .managed (.validateSession 0 true)
  | .devices => .revokeByHandle 0 7

/- The session is listed twice, read, deleted and touched. -/
def schedule :
    List (Choice Client (stores Expiry.strict).Tick) :=
  List.replicate 8 (.thread .login) ++
    [.thread .visit, .thread .devices, .thread .leave,
      .thread .devices, .thread .leave, .thread .devices,
      .thread .devices, .thread .leave, .thread .leave,
      .thread .visit, .thread .visit]

/- The run, if its schedule can be followed. -/
def left? :=
  Config.run (stores Expiry.strict) anyStep
    (unopened devices 0 0 calls) schedule

theorem left_ends : left?.isSome = true := by
  decide

/- The sessions of the sample run are gone. -/
theorem left_signedOut :
    SignedOut devices Expiry.strict calls
      (left?.get left_ends) :=
  signedOut_of_reaches Function.injective_id
    (Reaches.of_run (Option.some_get left_ends).symm)

theorem left_ownSessions :
    OwnSessions devices Expiry.strict calls
      (left?.get left_ends) :=
  ownSessions_of_reaches Function.injective_id
    (Reaches.of_run (Option.some_get left_ends).symm)

end Leaving

end SessionStore

end CrudAuth
