import Mathlib.Data.List.Perm.Subperm
import CrudAuth.SessionStore.Coherence

/-
  The cap on the sessions of a user: `create_session` ends
  the session that is presented, and then as many of the
  least active ones as make room for the new one.

  A backend that indexes by user lists every live session of
  the user; the entries it may list besides have no live
  record.  Calls come one after another, each at one moment,
  with any time in between.

  Main declarations:
    * `UserIndex`
    * `Drawn`
    * `Ran`
    * `Capped`
    * `capped_of_ran`
-/

------------------------------------------------------------
-- The User Index
------------------------------------------------------------

namespace CrudAuth

namespace SessionStore

open Concurrency
open Concurrency.Program

variable {expiry : Expiry}

/- The keys of the live sessions of a user. -/
def userKeys
    (expiry : Expiry)
    (stores' : Stores)
    (userId : UserId) : List Nat :=
  stores'.sessions.keysWhere fun record =>
    Stores.isAlive expiry stores'.clock record &&
      record.value.userId == userId

/- What a backend lists for a user: a set of keys. -/
structure UserIndex (expiry : Expiry) where
  keys : Stores → UserId → List Nat
  nodup : ∀ stores' userId, (keys stores' userId).Nodup
  complete : ∀ stores' userId, ∀ key,
    key ∈ userKeys expiry stores' userId →
      key ∈ keys stores' userId
  sound : ∀ stores' userId, ∀ key ∈ keys stores' userId,
    ∀ record, stores'.session? expiry key = some record →
      record.value.userId = userId

/- The stores, with what the index lists. -/
def indexed
    (index : UserIndex expiry) :
    (op : StoreOp) → Stores → op.Ret × Stores
  | .userSessions userId, stores' =>
      (index.keys stores' userId, stores')
  | op, stores' => Stores.exec expiry op stores'

/- Each key is found once. -/
theorem nodup_keysWhere
    {ρ : Type}
    (table : Storage.Table Nat ρ)
    (condition : ρ → Bool) :
    (table.keysWhere condition).Nodup := by
  have hKeys : (table.entries.map Sigma.fst).Nodup :=
    table.nodupKeys
  exact hKeys.sublist (List.filter_sublist.map Sigma.fst)

/- An account's keys are those of its sessions. -/
theorem mem_userKeys
    {stores' : Stores}
    {userId : UserId}
    {key : Nat} :
    key ∈ userKeys expiry stores' userId ↔
      ∃ record, stores'.session? expiry key = some record ∧
        record.value.userId = userId := by
  unfold userKeys
  rw [Storage.Table.mem_keysWhere]
  constructor
  · rintro ⟨record, hRecord, hMeets⟩
    rw [Bool.and_eq_true, beq_iff_eq] at hMeets
    refine ⟨record, ?_, hMeets.2⟩
    unfold Stores.session?
    rw [hRecord, Option.filter_some, if_pos hMeets.1]
  · rintro ⟨record, hRecord, hUser⟩
    have hFound := Option.filter_eq_some_iff.mp hRecord
    refine ⟨record, hFound.1, ?_⟩
    rw [Bool.and_eq_true, beq_iff_eq]
    exact ⟨hFound.2, hUser⟩

/- The records themselves are searched. -/
def UserIndex.scan (expiry : Expiry) : UserIndex expiry where
  keys := userKeys expiry
  nodup _ _ := nodup_keysWhere _ _
  complete _ _ _ hKey := hKey
  sound stores' userId key hKey record hRecord := by
    rcases mem_userKeys.mp hKey with ⟨other, hOther, hUser⟩
    rw [hRecord] at hOther
    cases hOther
    exact hUser

/- It is what the stores answer. -/
theorem indexed_scan (op : StoreOp) (stores' : Stores) :
    indexed (UserIndex.scan expiry) op stores' =
      (stores expiry).exec op stores' := by
  cases op <;> rfl

------------------------------------------------------------
-- Runs
------------------------------------------------------------

/- Every key comes from an id that was drawn. -/
def Drawn (manager : Manager) (stores' : Stores) : Prop :=
  ∀ key record,
    stores'.sessions.lookup key = some record →
      ∃ sessionId, sessionId < stores'.nextId ∧
        key = manager.key sessionId

/-
  What sequences of calls lead to.  The index may hold other
  entries at each of them.
-/
inductive Ran
    (manager : Manager)
    (expiry : Expiry) : Stores → Prop
  | start (clock nextId : Nat) :
      Ran manager expiry ⟨clock, nextId, ∅, ∅, []⟩
  | call
      {before : Stores}
      (hRan : Ran manager expiry before)
      (index : UserIndex expiry)
      (request : Request) :
      Ran manager expiry
        ((request.perform manager).run (indexed index)
          before).2
  | tick
      {before : Stores}
      (hRan : Ran manager expiry before)
      (tick : Stores.Tick) :
      Ran manager expiry (Stores.tick tick before)

/- One operation, and what follows it. -/
theorem ends_call
    {α : Type}
    {index : UserIndex expiry}
    {op : StoreOp}
    {rest : op.Ret → Managed α}
    {stores' : Stores}
    {goal : Except HttpError α → Stores → Prop}
    (hRest : Ends (indexed index)
      (rest (indexed index op stores').1)
      (indexed index op stores').2 goal) :
    Ends (indexed index) ((call op).bind rest) stores'
      goal :=
  hRest

section Draws

variable {manager : Manager}
variable {index : UserIndex expiry}
variable {stores' : Stores}
variable {past : Past}

/- The ids that a call has drawn. -/
def Fresh (past : Past) (stores' : Stores) : Prop :=
  ∀ sessionId,
    (⟨.fresh, sessionId⟩ : Action storeOps) ∈ past →
      sessionId < stores'.nextId

/- A session under a drawn key may be stored. -/
theorem Drawn.setSession
    {key : Nat}
    {record : Timed SessionData}
    (hDrawn : Drawn manager stores')
    (hKey : ∃ sessionId, sessionId < stores'.nextId ∧
      key = manager.key sessionId) :
    Drawn manager (stores'.setSession key record) := by
  intro other found hFound
  unfold Stores.setSession at hFound
  dsimp only at hFound
  rw [Storage.Table.lookup_insert'] at hFound
  split at hFound
  case isTrue hSame =>
    rw [← hSame]
    exact hKey
  case isFalse => exact hDrawn other found hFound

/- One operation of a call that keeps to its contract. -/
theorem drawn_exec
    {request : Request}
    {op : StoreOp}
    (hRule : (request.contract manager).rule past op)
    (hFresh : Fresh past stores')
    (hDrawn : Drawn manager stores') :
    Drawn manager (indexed index op stores').2 ∧
      Fresh (⟨op, (indexed index op stores').1⟩ :: past)
        (indexed index op stores').2 := by
  have hSame : ∀ {ret : op.Ret} {after : Stores},
      after.nextId = stores'.nextId →
      (∀ sessionId,
        (⟨.fresh, sessionId⟩ : Action storeOps) ≠
          ⟨op, ret⟩) →
      Fresh (⟨op, ret⟩ :: past) after := by
    intro ret after hNext hOther sessionId hMem
    rcases List.mem_cons.mp hMem with hFirst | hRest
    · exact absurd hFirst (hOther sessionId)
    · rw [hNext]
      exact hFresh sessionId hRest
  cases op with
  | now => exact ⟨hDrawn, hSame rfl (by simp)⟩
  | fresh =>
      constructor
      · intro key record hRecord
        rcases hDrawn key record hRecord with
          ⟨sessionId, hLess, hKey⟩
        exact ⟨sessionId, Nat.lt_succ_of_lt hLess, hKey⟩
      · intro sessionId hMem
        rcases List.mem_cons.mp hMem with hFirst | hRest
        · cases hFirst
          exact Nat.lt_succ_self _
        · exact Nat.lt_succ_of_lt (hFresh sessionId hRest)
  | sessionCreate key data ttl =>
      rcases hRule with
        ⟨_, sessionId, _, hKey, hMem, _⟩
      exact ⟨hDrawn.setSession
        ⟨sessionId, hFresh sessionId hMem, hKey⟩,
        hSame rfl (by simp)⟩
  | sessionGet key => exact ⟨hDrawn, hSame rfl (by simp)⟩
  | sessionModify key change ttl =>
      cases hFound : stores'.session? expiry key with
      | none =>
          have hExec : indexed index
              (.sessionModify key change ttl) stores' =
                (none, stores') :=
            exec_modify_none hFound
          rw [hExec]
          exact ⟨hDrawn, hSame rfl (by simp)⟩
      | some record =>
          have hStored := (Option.filter_eq_some_iff.mp
            hFound).1
          have hExec : indexed index
              (.sessionModify key change ttl) stores' =
              (some (stores'.reruns ++ [record.value],
                  change record.value),
                stores'.setSession key
                  ⟨change record.value,
                    (ttl.map (stores'.clock + ·)).getD
                      record.expiry⟩) :=
            exec_modify hFound
          rw [hExec]
          exact ⟨hDrawn.setSession
            (hDrawn key record hStored),
            hSame rfl (by simp)⟩
  | sessionDelete key =>
      constructor
      · intro other record hRecord
        change (AList.erase key stores'.sessions).lookup
          other = some record at hRecord
        rw [Storage.Table.lookup_erase'] at hRecord
        split at hRecord
        · cases hRecord
        · exact hDrawn other record hRecord
      · exact hSame rfl (by simp)
  | userSessions userId =>
      exact ⟨hDrawn, hSame rfl (by simp)⟩
  | scanKeys => exact ⟨hDrawn, hSame rfl (by simp)⟩
  | csrfCreate key data ttl =>
      exact ⟨hDrawn, hSame rfl (by simp)⟩
  | csrfGet key => exact ⟨hDrawn, hSame rfl (by simp)⟩
  | csrfDelete key => exact ⟨hDrawn, hSame rfl (by simp)⟩
  | csrfExtend key ttl =>
      cases hFound : stores'.token? expiry key with
      | none =>
          have hExec : indexed index
              (.csrfExtend key ttl) stores' =
                (false, stores') := by
            have hSameExec : indexed index
                (.csrfExtend key ttl) stores' =
                  Stores.exec expiry (.csrfExtend key ttl)
                    stores' :=
              rfl
            rw [hSameExec]
            simp only [Stores.exec, hFound]
          rw [hExec]
          exact ⟨hDrawn, hSame rfl (by simp)⟩
      | some record =>
          have hExec : indexed index
              (.csrfExtend key ttl) stores' =
              (true, stores'.setToken key
                ⟨record.value, stores'.clock + ttl⟩) :=
            exec_extend hFound
          rw [hExec]
          exact ⟨hDrawn, hSame rfl (by simp)⟩

/- A program of the manager keeps keys drawn. -/
theorem drawn_run
    {α : Type}
    {request : Request}
    {program : Managed α}
    {post : Past → Except HttpError α → Prop}
    (hObeys : Obeys (request.contract manager) past program
      post)
    (hFresh : Fresh past stores')
    (hDrawn : Drawn manager stores') :
    Drawn manager
      (program.run (indexed index) stores').2 := by
  induction program generalizing past stores' with
  | done value => exact hDrawn
  | raise error => exact hDrawn
  | perform op next ih =>
      have hStep :
          Drawn manager (indexed index op stores').2 ∧
            Fresh
              (⟨op, (indexed index op stores').1⟩ :: past)
              (indexed index op stores').2 :=
        drawn_exec hObeys.1 hFresh hDrawn
      exact ih _ (hObeys.2 _ trivial) hStep.2 hStep.1

/- Every run keeps keys drawn. -/
theorem drawn_of_ran
    (hRan : Ran manager expiry stores') :
    Drawn manager stores' := by
  induction hRan with
  | start clock nextId =>
      intro key record hRecord
      cases hRecord
  | call hRan index request ih =>
      apply drawn_run (Request.perform_obeys request)
      · intro sessionId hMem
        cases hMem
      · exact ih
  | tick hRan tick ih =>
      cases tick with
      | pass time => exact ih
      | lose reruns => exact ih

end Draws

------------------------------------------------------------
-- Sessions That End
------------------------------------------------------------

/- These sessions are gone; the others are as they were. -/
structure Removes
    (gone : List Nat)
    (before after : Stores) : Prop where
  clock : after.clock = before.clock
  nextId : after.nextId = before.nextId
  sessions : ∀ key, after.sessions.lookup key =
    if key ∈ gone then none else before.sessions.lookup key

section Ending

variable {manager : Manager}
variable {index : UserIndex expiry}
variable {before after last : Stores}
variable {key : Nat}

theorem Removes.refl (stores' : Stores) :
    Removes [] stores' stores' where
  clock := rfl
  nextId := rfl
  sessions key := by
    rw [if_neg List.not_mem_nil]

/- One removal after another. -/
theorem Removes.trans
    {gone gone' : List Nat}
    (hFirst : Removes gone before after)
    (hSecond : Removes gone' after last) :
    Removes (gone ++ gone') before last where
  clock := hSecond.clock.trans hFirst.clock
  nextId := hSecond.nextId.trans hFirst.nextId
  sessions key := by
    rw [hSecond.sessions, hFirst.sessions]
    by_cases hGone : key ∈ gone
    · simp [hGone]
    · simp [hGone]

/- What is left after a removal. -/
theorem Removes.live
    {gone : List Nat}
    (hRemoves : Removes gone before after)
    (key : Nat) :
    after.session? expiry key =
      if key ∈ gone then none
      else before.session? expiry key := by
  unfold Stores.session?
  rw [hRemoves.sessions, hRemoves.clock]
  split <;> rfl

/- A program that ends well, and removes these sessions. -/
def EndsRemoving
    {α : Type}
    (index : UserIndex expiry)
    (gone : List Nat)
    (program : Managed α)
    (before : Stores) : Prop :=
  Ends (indexed index) program before fun result after =>
    (∃ value, result = .ok value) ∧ Removes gone before after

/- A removal, and what follows it. -/
theorem EndsRemoving.bind
    {α β : Type}
    {gone : List Nat}
    {program : Managed α}
    {rest : α → Managed β}
    {goal : Except HttpError β → Stores → Prop}
    (hEnds : EndsRemoving index gone program before)
    (hRest : ∀ value after, Removes gone before after →
      Ends (indexed index) (rest value) after goal) :
    Ends (indexed index) (program.bind rest) before
      goal := by
  apply Ends.bind hEnds
  · intro value after hAfter
    exact hRest value after hAfter.2
  · rintro error after ⟨⟨value, hValue⟩, _⟩
    cases hValue

/- A session is deleted, and maybe its token. -/
theorem terminate_removes
    {session : SessionData} :
    EndsRemoving index [key] (manager.terminate key session)
      before := by
  have hDeleted : Removes [key] before
      (indexed index (.sessionDelete key) before).2 := by
    constructor
    · rfl
    · rfl
    · intro other
      change (AList.erase key before.sessions).lookup other =
        _
      rw [Storage.Table.lookup_erase']
      by_cases hKey : key = other
      · rw [if_pos hKey,
          if_pos (List.mem_singleton.mpr hKey.symm)]
      · rw [if_neg hKey, if_neg]
        intro hMem
        exact hKey (List.mem_singleton.mp hMem).symm
  unfold Manager.terminate EndsRemoving
  simp only [bind_eq]
  apply ends_call
  split
  · apply ends_call
    exact ⟨⟨_, rfl⟩, hDeleted.clock, hDeleted.nextId,
      hDeleted.sessions⟩
  · exact ⟨⟨_, rfl⟩, hDeleted⟩

/- A list of sessions is removed. -/
theorem terminateEach_removes
    (sessions : List (Nat × SessionData)) :
    EndsRemoving index (sessions.map Prod.fst)
      (manager.terminateEach none sessions) before := by
  induction sessions generalizing before with
  | nil => exact ⟨⟨(), rfl⟩, .refl before⟩
  | cons first rest ih =>
      unfold EndsRemoving Manager.terminateEach
      rw [if_neg (by simp)]
      simp only [bind_eq]
      apply terminate_removes.bind
      intro _ after hFirst
      apply Ends.mono ih
      rintro _ last ⟨hResult, hRest⟩
      exact ⟨hResult, hFirst.trans hRest⟩

/- The session that is presented, if it is live. -/
def presentedKeys
    (manager : Manager)
    (expiry : Expiry)
    (presented : Option Nat)
    (stores' : Stores) : List Nat :=
  (presented.map manager.key).toList.filter fun key =>
    (stores'.session? expiry key).isSome

theorem terminateSession_removes
    (sessionId : Nat) :
    EndsRemoving index
      (presentedKeys manager expiry (some sessionId) before)
      (manager.terminateSession sessionId) before := by
  have hKeys :
      presentedKeys manager expiry (some sessionId) before =
        if (before.session? expiry
            (manager.key sessionId)).isSome then
          [manager.key sessionId]
        else
          [] := by
    simp only [presentedKeys, Option.map_some,
      Option.toList_some, List.filter_cons, List.filter_nil]
  have hGet : (indexed index
      (.sessionGet (manager.key sessionId)) before).1 =
      (before.session? expiry (manager.key sessionId)).map
        Timed.value :=
    rfl
  unfold EndsRemoving Manager.terminateSession
  simp only [bind_eq]
  apply ends_call
  rw [hKeys, hGet]
  cases before.session? expiry (manager.key sessionId) with
  | none => exact ⟨⟨_, rfl⟩, .refl before⟩
  | some record => exact terminate_removes

theorem replacePresented_removes
    (presented : Option Nat) :
    EndsRemoving index
      (presentedKeys manager expiry presented before)
      (manager.replacePresented presented) before := by
  cases presented with
  | none => exact ⟨⟨(), rfl⟩, .refl before⟩
  | some old =>
      unfold EndsRemoving Manager.replacePresented
      simp only [bind_eq]
      apply (terminateSession_removes old).bind
      intro _ after hAfter
      exact ⟨⟨(), rfl⟩, hAfter⟩

------------------------------------------------------------
-- The Limit
------------------------------------------------------------

/- The live sessions under some keys. -/
def liveOf
    (expiry : Expiry)
    (stores' : Stores)
    (keys : List Nat) : List (Nat × SessionData) :=
  keys.filterMap fun key =>
    (stores'.session? expiry key).map fun record =>
      (key, record.value)

/- The live sessions of a list are loaded. -/
theorem loadSessions_ends (keys : List Nat) :
    Ends (indexed index) (Manager.loadSessions keys) before
      fun result after => after = before ∧
        result = .ok (liveOf expiry before keys) := by
  induction keys with
  | nil => exact ⟨rfl, rfl⟩
  | cons key keys ih =>
      have hGet :
          (indexed index (.sessionGet key) before).1 =
          (before.session? expiry key).map Timed.value :=
        rfl
      unfold Manager.loadSessions liveOf
      simp only [bind_eq]
      apply ends_call
      rw [hGet, List.filterMap_cons]
      cases before.session? expiry key with
      | none => exact ih
      | some record =>
          apply Ends.bind ih
          · rintro rest after ⟨rfl, hRest⟩
            cases hRest
            exact ⟨rfl, rfl⟩
          · rintro error after ⟨_, hError⟩
            cases hError

/- The sessions to make room for a new one. -/
def evictions
    (manager : Manager)
    (active : List (Nat × SessionData)) :
    List (Nat × SessionData) :=
  if manager.config.maxSessions ≤ active.length then
    (active.mergeSort fun left right =>
      left.2.lastActivity ≤ right.2.lastActivity).take
        (active.length - manager.config.maxSessions + 1)
  else
    []

/- What the index lists that is live. -/
def activeOf
    (index : UserIndex expiry)
    (stores' : Stores)
    (userId : UserId) : List (Nat × SessionData) :=
  liveOf expiry stores' (index.keys stores' userId)

/- The evicted sessions are removed. -/
theorem enforceSessionLimit_removes
    (userId : UserId) :
    EndsRemoving index
      ((evictions manager
        (activeOf index before userId)).map Prod.fst)
      (manager.enforceSessionLimit userId) before := by
  unfold EndsRemoving Manager.enforceSessionLimit
    Manager.userSessions
  simp only [bind_eq]
  have hListed : Ends (indexed index)
      ((call (.userSessions userId)).bind
        Manager.loadSessions) before
      fun result after => after = before ∧
        result = .ok (activeOf index before userId) :=
    ends_call (loadSessions_ends _)
  apply Ends.bind hListed
  · rintro active after ⟨rfl, hActive⟩
    cases hActive
    unfold evictions
    split
    · exact terminateEach_removes _
    · exact ⟨⟨(), rfl⟩, .refl _⟩
  · rintro error after ⟨_, hError⟩
    cases hError

/- A new session, under the key of the next id. -/
structure Adds
    (manager : Manager)
    (request : Manager.NewSession)
    (before after : Stores) : Prop where
  clock : after.clock = before.clock
  sessions : ∃ record : Timed SessionData,
    record.value.userId = request.userId ∧
    record.expiry = before.clock +
      request.expirationSeconds.getD
        (manager.config.timeoutSecondsFor
          request.rememberMe) ∧
    after.sessions = AList.insert
      (manager.key before.nextId) record before.sessions

/- A new session is stored under a new key. -/
theorem storeNew_adds
    (request : Manager.NewSession) :
    Ends (indexed index)
      ((call .fresh).bind fun sessionId =>
        (call .now).bind fun createdAt =>
          (call .now).bind fun lastActivity =>
            manager.storeSession request sessionId createdAt
              lastActivity) before
      fun result after =>
        (∃ token, result = .ok (before.nextId, token)) ∧
          Adds manager request before after := by
  apply ends_call
  apply ends_call
  apply ends_call
  unfold Manager.storeSession Manager.generateCsrfToken
  simp only [bind_eq]
  split
  · exact ⟨⟨_, rfl⟩, rfl, _, rfl, rfl, rfl⟩
  · exact ⟨⟨_, rfl⟩, rfl, _, rfl, rfl, rfl⟩

end Ending

------------------------------------------------------------
-- Victims
------------------------------------------------------------

section Victims

variable {manager : Manager}
variable {active : List (Nat × SessionData)}

/- The order that the sessions are sorted by. -/
def lessActive (left right : Nat × SessionData) : Bool :=
  left.2.lastActivity ≤ right.2.lastActivity

/- The least active come first. -/
theorem pairwise_lessActive :
    (active.mergeSort lessActive).Pairwise
      fun left right => lessActive left right = true := by
  apply List.pairwise_mergeSort
  · intro first second third hFirst hSecond
    unfold lessActive at hFirst hSecond ⊢
    simp only [decide_eq_true_eq] at hFirst hSecond ⊢
    omega
  · intro left right
    unfold lessActive
    simp only [Bool.or_eq_true, decide_eq_true_eq]
    omega

/- As many go as leave room for one more. -/
theorem evictions_eq :
    evictions manager active =
      (active.mergeSort lessActive).take
        (active.length + 1 - manager.config.maxSessions) ∨
    manager.config.maxSessions = 0 := by
  unfold evictions
  split
  case isTrue hFull =>
    by_cases hMax : manager.config.maxSessions = 0
    · exact Or.inr hMax
    · left
      have hCount :
          active.length - manager.config.maxSessions + 1 =
            active.length + 1 -
              manager.config.maxSessions := by
        omega
      rw [hCount]
      rfl
  case isFalse hRoom =>
    left
    have hCount :
        active.length + 1 - manager.config.maxSessions =
          0 := by
      omega
    rw [hCount, List.take_zero]

/- As many as it takes to make room. -/
theorem length_evictions
    (hMax : 0 < manager.config.maxSessions) :
    (evictions manager active).length =
      active.length + 1 - manager.config.maxSessions := by
  rcases @evictions_eq manager active with hTaken | hZero
  · rw [hTaken, List.length_take, List.length_mergeSort]
    omega
  · omega

/- Only active sessions are evicted. -/
theorem mem_of_mem_evictions
    {pair : Nat × SessionData}
    (hPair : pair ∈ evictions manager active) :
    pair ∈ active := by
  unfold evictions at hPair
  split at hPair
  · exact List.mem_mergeSort.mp (List.mem_of_mem_take hPair)
  · cases hPair

theorem nodup_evictions
    (hNodup : (active.map Prod.fst).Nodup) :
    ((evictions manager active).map Prod.fst).Nodup := by
  unfold evictions
  split
  · have hSorted : ((active.mergeSort fun left right =>
        left.2.lastActivity ≤ right.2.lastActivity).map
          Prod.fst).Nodup :=
      ((List.mergeSort_perm _ _).map _).nodup_iff.mpr hNodup
    exact hSorted.sublist ((List.take_sublist _ _).map _)
  · exact List.nodup_nil

/- None that stays was less active. -/
theorem lastActivity_le_of_evicted
    (hMax : 0 < manager.config.maxSessions)
    {gone kept : Nat × SessionData}
    (hGone : gone ∈ evictions manager active)
    (hKept : kept ∈ active)
    (hStays : kept.1 ∉
      (evictions manager active).map Prod.fst) :
    gone.2.lastActivity ≤ kept.2.lastActivity := by
  rcases @evictions_eq manager active with hTaken | hZero
  · rw [hTaken] at hGone hStays
    have hSorted := @pairwise_lessActive active
    have hMem : kept ∈ active.mergeSort lessActive :=
      List.mem_mergeSort.mpr hKept
    rw [← List.take_append_drop
      (active.length + 1 - manager.config.maxSessions)
      (active.mergeSort lessActive)] at hSorted hMem
    rcases List.mem_append.mp hMem with hTake | hDrop
    · exact absurd (List.mem_map_of_mem hTake) hStays
    · have hOrder := (List.pairwise_append.mp hSorted).2.2
        gone hGone kept hDrop
      unfold lessActive at hOrder
      exact of_decide_eq_true hOrder
  · omega

end Victims

------------------------------------------------------------
-- What The Index Lists
------------------------------------------------------------

section Listed

variable {manager : Manager}
variable {index : UserIndex expiry}
variable {stores' : Stores}
variable {userId : UserId}

/- The live ones are those that can be read. -/
theorem mem_liveOf
    {keys : List Nat}
    {key : Nat}
    {session : SessionData} :
    (key, session) ∈ liveOf expiry stores' keys ↔
      key ∈ keys ∧ ∃ record,
        stores'.session? expiry key = some record ∧
        record.value = session := by
  unfold liveOf
  rw [List.mem_filterMap]
  constructor
  · rintro ⟨listed, hListed, hPair⟩
    rcases Option.map_eq_some_iff.mp hPair with
      ⟨record, hRecord, hSame⟩
    cases hSame
    exact ⟨hListed, record, hRecord, rfl⟩
  · rintro ⟨hListed, record, hRecord, hSession⟩
    refine ⟨key, hListed, ?_⟩
    rw [hRecord, Option.map_some, hSession]

/- Their keys, in the order of the list. -/
theorem fst_liveOf (keys : List Nat) :
    (liveOf expiry stores' keys).map Prod.fst =
      keys.filter fun key =>
        (stores'.session? expiry key).isSome := by
  induction keys with
  | nil => rfl
  | cons key keys ih =>
      unfold liveOf at ih ⊢
      rw [List.filterMap_cons, List.filter_cons, ← ih]
      cases stores'.session? expiry key with
      | none => rfl
      | some record => rfl

/- No active session is listed twice. -/
theorem nodup_activeOf :
    ((activeOf index stores' userId).map
      Prod.fst).Nodup := by
  unfold activeOf
  rw [fst_liveOf]
  exact (index.nodup stores' userId).filter _

/- The live entries of the index are those of the user. -/
theorem mem_activeOf
    {key : Nat}
    {session : SessionData} :
    (key, session) ∈ activeOf index stores' userId ↔
      key ∈ userKeys expiry stores' userId ∧ ∃ record,
        stores'.session? expiry key = some record ∧
        record.value = session := by
  unfold activeOf
  rw [mem_liveOf]
  constructor
  · rintro ⟨hListed, record, hRecord, hSession⟩
    have hUser := index.sound stores' userId key hListed
      record hRecord
    exact ⟨mem_userKeys.mpr ⟨record, hRecord, hUser⟩,
      record, hRecord, hSession⟩
  · rintro ⟨hKey, hRecord⟩
    exact ⟨index.complete stores' userId key hKey, hRecord⟩

/- An index lists an account's live sessions. -/
theorem mem_fst_activeOf {key : Nat} :
    key ∈ (activeOf index stores' userId).map Prod.fst ↔
      key ∈ userKeys expiry stores' userId := by
  rw [List.mem_map]
  constructor
  · rintro ⟨⟨listed, session⟩, hPair, hKey⟩
    rw [← hKey]
    exact (mem_activeOf.mp hPair).1
  · intro hKey
    rcases mem_userKeys.mp hKey with ⟨record, hRecord, _⟩
    have hPair := (@mem_activeOf expiry index stores' userId
      key record.value).mpr ⟨hKey, record, hRecord, rfl⟩
    exact ⟨_, hPair, rfl⟩

theorem length_activeOf :
    (activeOf index stores' userId).length =
      (userKeys expiry stores' userId).length := by
  have hPerm :
      ((activeOf index stores' userId).map Prod.fst).Perm
        (userKeys expiry stores' userId) :=
    (List.perm_ext_iff_of_nodup nodup_activeOf
      (nodup_keysWhere _ _)).mpr fun _ => mem_fst_activeOf
  rw [← hPerm.length_eq, List.length_map]

end Listed

------------------------------------------------------------
-- The Cap
------------------------------------------------------------

/-
  The live sessions of the user, without the one that is
  presented.
-/
def openKeys
    (manager : Manager)
    (expiry : Expiry)
    (request : Manager.NewSession)
    (stores' : Stores) : List Nat :=
  (userKeys expiry stores' request.userId).filter fun key =>
    key ∉ presentedKeys manager expiry request.presented
      stores'

/- The sessions that make room: no more than it takes. -/
structure Evicts
    (manager : Manager)
    (expiry : Expiry)
    (request : Manager.NewSession)
    (gone : List Nat)
    (before : Stores) : Prop where
  nodup : gone.Nodup
  isOpen : ∀ key ∈ gone,
    key ∈ openKeys manager expiry request before
  count : gone.length =
    (openKeys manager expiry request before).length + 1 -
      manager.config.maxSessions
  leastActive : ∀ key ∈ gone,
    ∀ kept ∈ openKeys manager expiry request before,
      kept ∉ gone →
      ∀ record, before.session? expiry key = some record →
      ∀ other, before.session? expiry kept = some other →
        record.value.lastActivity ≤ other.value.lastActivity

/-
  The presented session and the evicted ones are gone, the
  new one is stored, and the table is as it was elsewhere.
-/
structure Exchanges
    (manager : Manager)
    (request : Manager.NewSession)
    (gone : List Nat)
    (before after : Stores) : Prop where
  clock : after.clock = before.clock
  stored : ∃ record : Timed SessionData,
    after.sessions.lookup (manager.key before.nextId) =
      some record ∧
    record.value.userId = request.userId ∧
    record.expiry = before.clock +
      request.expirationSeconds.getD
        (manager.config.timeoutSecondsFor request.rememberMe)
  wasAbsent :
    before.sessions.lookup (manager.key before.nextId) = none
  sessions : ∀ key, key ≠ manager.key before.nextId →
    after.sessions.lookup key =
      if key ∈ gone then none
      else before.sessions.lookup key

/-
  What a `create_session` has done.  A session with no time
  to live is stored, and a store need not serve it.
-/
structure Capped
    (manager : Manager)
    (expiry : Expiry)
    (request : Manager.NewSession)
    (gone : List Nat)
    (before after : Stores) : Prop where
  evicts : Evicts manager expiry request gone before
  evicted : ∀ key ∈ gone, after.session? expiry key = none
  kept : ∀ key ∈ openKeys manager expiry request before,
    key ∉ gone →
      after.session? expiry key = before.session? expiry key
  others : ∀ key record,
    before.session? expiry key = some record →
    record.value.userId ≠ request.userId →
    key ∉ presentedKeys manager expiry request.presented
      before →
    after.session? expiry key = some record
  withinCap : (userKeys expiry after request.userId).length ≤
    manager.config.maxSessions
  stored : ∃ record,
    after.sessions.lookup (manager.key before.nextId) =
      some record ∧
    record.value.userId = request.userId
  listed :
    manager.key before.nextId ∈
        userKeys expiry after request.userId ↔
      expiry.alive before.clock (before.clock +
        request.expirationSeconds.getD
          (manager.config.timeoutSecondsFor
            request.rememberMe)) = true

section Cap

variable {manager : Manager}
variable {index : UserIndex expiry}
variable {request : Manager.NewSession}
variable {gone : List Nat}
variable {before middle after : Stores}

/- A live session under a key is not the new one. -/
theorem Exchanges.live
    (hExchanges :
      Exchanges manager request gone before after)
    {key : Nat}
    {record : Timed SessionData}
    (hLive : before.session? expiry key = some record) :
    after.session? expiry key =
      if key ∈ gone then none else some record := by
  have hFound := Option.filter_eq_some_iff.mp hLive
  have hNew : key ≠ manager.key before.nextId := by
    intro hKey
    rw [hKey, hExchanges.wasAbsent] at hFound
    cases hFound.1
  unfold Stores.session?
  rw [hExchanges.sessions key hNew, hExchanges.clock]
  split
  · rfl
  · exact hLive

/- A session that stays open is live. -/
theorem live_of_open
    {key : Nat}
    (hOpen : key ∈ openKeys manager expiry request before) :
    ∃ record, before.session? expiry key = some record ∧
      record.value.userId = request.userId ∧
      key ∉ presentedKeys manager expiry request.presented
        before := by
  unfold openKeys at hOpen
  rw [List.mem_filter, decide_eq_true_eq] at hOpen
  rcases mem_userKeys.mp hOpen.1 with
    ⟨record, hRecord, hUser⟩
  exact ⟨record, hRecord, hUser, hOpen.2⟩

/- The new session is served as long as it lives. -/
theorem Exchanges.listed
    (hExchanges :
      Exchanges manager request gone before after) :
    manager.key before.nextId ∈
        userKeys expiry after request.userId ↔
      expiry.alive before.clock (before.clock +
        request.expirationSeconds.getD
          (manager.config.timeoutSecondsFor
            request.rememberMe)) = true := by
  rcases hExchanges.stored with
    ⟨record, hRecord, hUser, hExpiry⟩
  rw [mem_userKeys]
  unfold Stores.session? Stores.isAlive
  rw [hRecord, hExchanges.clock, ← hExpiry,
    Option.filter_some]
  constructor
  · rintro ⟨found, hFound, _⟩
    split at hFound
    · next hAlive => exact hAlive
    · cases hFound
  · intro hAlive
    exact ⟨record, if_pos hAlive, hUser⟩

/- What is live then and is not new was open. -/
theorem Exchanges.wasOpen
    (hExchanges : Exchanges manager request
      (presentedKeys manager expiry request.presented
        before ++
        gone) before after)
    {key : Nat}
    (hKey : key ∈ userKeys expiry after request.userId)
    (hNew : key ≠ manager.key before.nextId) :
    key ∈ openKeys manager expiry request before ∧
      key ∉ gone := by
  rcases mem_userKeys.mp hKey with ⟨record, hRecord, hUser⟩
  have hFound := Option.filter_eq_some_iff.mp hRecord
  rw [hExchanges.sessions key hNew, hExchanges.clock]
    at hFound
  split at hFound
  · cases hFound.1
  · next hKept =>
      rw [List.mem_append, not_or] at hKept
      have hBefore :
          before.session? expiry key = some record :=
        Option.filter_eq_some_iff.mpr hFound
      constructor
      · unfold openKeys
        rw [List.mem_filter]
        constructor
        · exact mem_userKeys.mpr ⟨record, hBefore, hUser⟩
        · exact decide_eq_true hKept.1
      · exact hKept.2

/- What stays and what is new fit under the cap. -/
theorem Exchanges.withinCap
    (hExchanges : Exchanges manager request
      (presentedKeys manager expiry request.presented
        before ++
        gone) before after)
    (hEvicts : Evicts manager expiry request gone before) :
    (userKeys expiry after request.userId).length ≤
      manager.config.maxSessions := by
  let kept :=
    (userKeys expiry after request.userId).filter
      fun key => key ≠ manager.key before.nextId
  have hNodup :
      (userKeys expiry after request.userId).Nodup :=
    nodup_keysWhere _ _
  have hKept : ∀ key ∈ kept,
      key ∈ openKeys manager expiry request before ∧
        key ∉ gone := by
    intro key hKey
    have hMem := List.mem_filter.mp hKey
    exact hExchanges.wasOpen hMem.1
      (of_decide_eq_true hMem.2)
  have hRoom : (gone ++ kept).length ≤
      (openKeys manager expiry request before).length := by
    apply List.Subperm.length_le
    apply List.subperm_of_subset
    · apply List.Nodup.append hEvicts.nodup
        (hNodup.filter _)
      intro key hGone hMem
      exact (hKept key hMem).2 hGone
    · intro key hKey
      rcases List.mem_append.mp hKey with hGone | hMem
      · exact hEvicts.isOpen key hGone
      · exact (hKept key hMem).1
  have hTotal :
      (userKeys expiry after request.userId).length ≤
        (manager.key before.nextId :: kept).length := by
    apply List.Subperm.length_le
    apply List.subperm_of_subset hNodup
    intro key hKey
    by_cases hNew : key = manager.key before.nextId
    · exact List.mem_cons.mpr (Or.inl hNew)
    · apply List.mem_cons_of_mem
      exact List.mem_filter.mpr
        ⟨hKey, decide_eq_true hNew⟩
  have hCount := hEvicts.count
  rw [List.length_append] at hRoom
  rw [List.length_cons] at hTotal
  omega

/- Such an exchange keeps the cap. -/
theorem Exchanges.capped
    (hExchanges : Exchanges manager request
      (presentedKeys manager expiry request.presented
        before ++
        gone) before after)
    (hEvicts : Evicts manager expiry request gone before) :
    Capped manager expiry request gone before after := by
  constructor
  · exact hEvicts
  · intro key hGone
    rcases live_of_open (hEvicts.isOpen key hGone) with
      ⟨record, hRecord, _⟩
    rw [hExchanges.live hRecord,
      if_pos (List.mem_append_right _ hGone)]
  · intro key hOpen hStays
    rcases live_of_open hOpen with
      ⟨record, hRecord, _, hPresented⟩
    rw [hExchanges.live hRecord, hRecord, if_neg]
    rw [List.mem_append, not_or]
    exact ⟨hPresented, hStays⟩
  · intro key record hRecord hOther hPresented
    rw [hExchanges.live hRecord, if_neg]
    intro hMem
    rcases List.mem_append.mp hMem with hIs | hGone
    · exact hPresented hIs
    · rcases live_of_open (hEvicts.isOpen key hGone) with
        ⟨found, hFound, hUser, _⟩
      rw [hRecord] at hFound
      cases hFound
      exact hOther hUser
  · exact hExchanges.withinCap hEvicts
  · rcases hExchanges.stored with ⟨record, hRecord, hUser, _⟩
    exact ⟨record, hRecord, hUser⟩
  · exact hExchanges.listed

/- The user's live sessions once one was replaced. -/
theorem mem_userKeys_of_replaced
    (hReplaced : Removes (presentedKeys manager expiry
      request.presented before) before middle)
    {key : Nat} :
    key ∈ userKeys expiry middle request.userId ↔
      key ∈ openKeys manager expiry request before := by
  unfold openKeys
  rw [List.mem_filter, mem_userKeys, mem_userKeys,
    hReplaced.live, decide_eq_true_eq]
  split
  · next hGone =>
      constructor
      · rintro ⟨record, hRecord, _⟩
        cases hRecord
      · rintro ⟨_, hKept⟩
        exact absurd hGone hKept
  · next hKept =>
      constructor
      · intro hLive
        exact ⟨hLive, hKept⟩
      · rintro ⟨hLive, _⟩
        exact hLive

/- The evictions, once one has been replaced. -/
theorem evicts_of_replaced
    (hMax : 0 < manager.config.maxSessions)
    (hReplaced : Removes (presentedKeys manager expiry
      request.presented before) before middle) :
    Evicts manager expiry request
      ((evictions manager
        (activeOf index middle request.userId)).map Prod.fst)
      before := by
  have hOpen : ∀ key,
      key ∈ (activeOf index middle request.userId).map
        Prod.fst ↔
      key ∈ openKeys manager expiry request before :=
    fun _ => mem_fst_activeOf.trans
      (mem_userKeys_of_replaced hReplaced)
  have hLength :
      (activeOf index middle request.userId).length =
        (openKeys manager expiry request before).length := by
    rw [length_activeOf]
    apply List.Perm.length_eq
    have hNodup : (openKeys manager expiry request
        before).Nodup :=
      (nodup_keysWhere _ _).filter _
    exact (List.perm_ext_iff_of_nodup (nodup_keysWhere _ _)
      hNodup).mpr
        fun _ => mem_userKeys_of_replaced hReplaced
  have hLive : ∀ key session,
      (key, session) ∈ activeOf index middle request.userId →
      ∀ record, before.session? expiry key = some record →
        record.value = session := by
    intro key session hPair record hRecord
    rcases (mem_activeOf.mp hPair).2 with
      ⟨found, hFound, hSession⟩
    rw [hReplaced.live] at hFound
    split at hFound
    · cases hFound
    · rw [hRecord] at hFound
      cases hFound
      exact hSession
  constructor
  · exact nodup_evictions nodup_activeOf
  · intro key hGone
    rcases List.mem_map.mp hGone with ⟨pair, hPair, hKey⟩
    rw [← hOpen, ← hKey]
    exact List.mem_map_of_mem (mem_of_mem_evictions hPair)
  · rw [List.length_map, length_evictions hMax, hLength]
  · intro key hGone kept hKept hStays record hRecord other
      hOther
    rcases List.mem_map.mp hGone with
      ⟨⟨_, session⟩, hPair, hKey⟩
    cases hKey
    rcases List.mem_map.mp ((hOpen kept).mpr hKept) with
      ⟨⟨_, another⟩, hActive, hKey⟩
    cases hKey
    rw [hLive _ _ (mem_of_mem_evictions hPair) record
      hRecord,
      hLive _ _ hActive other hOther]
    exact lastActivity_le_of_evicted hMax hPair hActive
      hStays

/- The key of the next id is new. -/
theorem Drawn.absent
    (hKeys : Function.Injective manager.key)
    (hDrawn : Drawn manager before) :
    before.sessions.lookup (manager.key before.nextId) =
      none := by
  cases hLookup : before.sessions.lookup
      (manager.key before.nextId) with
  | none => rfl
  | some record =>
      rcases hDrawn _ record hLookup with
        ⟨sessionId, hLess, hKey⟩
      have hSame := hKeys hKey
      omega

/- `create_session`, from stores that calls have led to. -/
theorem createSession_capped
    (hMax : 0 < manager.config.maxSessions)
    (hKeys : Function.Injective manager.key)
    (hDrawn : Drawn manager before) :
    Ends (indexed index) (manager.createSession request)
      before
      fun result after =>
        (∃ token, result = .ok (before.nextId, token)) ∧
          ∃ gone, Capped manager expiry request gone before
            after := by
  unfold Manager.createSession
  simp only [bind_eq]
  apply (replacePresented_removes request.presented).bind
  intro _ middle hReplaced
  apply (enforceSessionLimit_removes request.userId).bind
  intro _ trimmed hTrimmed
  have hGone := hReplaced.trans hTrimmed
  have hEvicts := @evicts_of_replaced _ _ index _ _ _ hMax
    hReplaced
  apply Ends.mono (storeNew_adds request)
  rintro result after ⟨⟨token, hResult⟩, hAdds⟩
  rcases hAdds.sessions with
    ⟨record, hUser, hExpiry, hSessions⟩
  rw [hGone.nextId] at hResult hSessions
  rw [hGone.clock] at hExpiry
  have hExchanges : Exchanges manager request
      (presentedKeys manager expiry request.presented
        before ++
        (evictions manager
          (activeOf index middle request.userId)).map
            Prod.fst)
      before after := by
    constructor
    · exact hAdds.clock.trans hGone.clock
    · refine ⟨record, ?_, hUser, hExpiry⟩
      rw [hSessions, Storage.Table.lookup_insert',
        if_pos rfl]
    · exact hDrawn.absent hKeys
    · intro key hNew
      rw [hSessions, Storage.Table.lookup_insert',
        if_neg hNew.symm, hGone.sessions]
  exact ⟨⟨token, hResult⟩, _, hExchanges.capped hEvicts⟩

/-
  After any calls, a new session keeps to the cap of its
  user, whatever else the index lists.
-/
theorem capped_of_ran
    (hMax : 0 < manager.config.maxSessions)
    (hKeys : Function.Injective manager.key)
    (hRan : Ran manager expiry before)
    (index : UserIndex expiry)
    (request : Manager.NewSession) :
    ∃ token gone,
      ((manager.createSession request).run (indexed index)
        before).1 = .ok (before.nextId, token) ∧
      Capped manager expiry request gone before
        ((manager.createSession request).run (indexed index)
          before).2 := by
  have hEnds := @createSession_capped _ _ index request _
    hMax hKeys (drawn_of_ran hRan)
  rcases hEnds with ⟨⟨token, hToken⟩, gone, hCapped⟩
  exact ⟨token, gone, hToken, hCapped⟩

end Cap

namespace SingleSession

/- One session a user. -/
def manager : Manager :=
  { Race.manager with config := ⟨1, 1800, 604800, none⟩ }

/- A user index that is a scan. -/
def index : UserIndex Race.expiry := .scan Race.expiry

/- A login of user 7. -/
def login : Manager.NewSession :=
  ⟨none, 7, false, none, none⟩

/- The stores after one login. -/
def opened : Stores :=
  (((Request.createSession login).perform manager).run
    (indexed index) ⟨0, 0, ∅, ∅, []⟩).2

/- A minute after the first login. -/
def waiting : Stores := Stores.tick (.pass 60) opened

/- The sample run. -/
theorem ran : Ran manager Race.expiry waiting :=
  .tick (.call (.start 0 0) index (.createSession login))
    (.pass 60)

/- The second login ends the first session. -/
theorem capped_second :
    ∃ token gone,
      ((manager.createSession login).run (indexed index)
        waiting).1 = .ok (2, token) ∧
      Capped manager Race.expiry login gone waiting
        ((manager.createSession login).run (indexed index)
          waiting).2 ∧
      gone.length = 1 := by
  rcases capped_of_ran Nat.one_pos Function.injective_id ran
      index login with ⟨token, gone, hToken, hCapped⟩
  exact ⟨token, gone, hToken, hCapped, hCapped.evicts.count⟩

end SingleSession

end SessionStore

end CrudAuth
