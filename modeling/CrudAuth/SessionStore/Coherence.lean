import CrudAuth.SessionStore.Rotation

/-
  Sessions and their CSRF tokens over sequences of calls:
  every stored session has the one token that it names, and
  both records expire together.

  Main declarations:
    * `Coherent`
    * `Trimmed`
    * `Called`
    * `coherent_of_called`
    * `coherent_of_validated`
-/

------------------------------------------------------------
-- Coherent Stores
------------------------------------------------------------

namespace CrudAuth

namespace SessionStore

open Concurrency
open Concurrency.Program

/- Which token was issued for which session. -/
abbrev Issued := List (Nat × Nat)

/-
  Sessions and tokens name each other, a session outlasts
  its window, its token expires with it, and every token was
  issued for its session.
-/
structure Coherent
    (manager : Manager)
    (issued : Issued)
    (stores' : Stores) : Prop where
  names : ∀ key record,
    stores'.sessions.lookup key = some record →
    ∃ csrfId token,
      record.value.csrfTokenId = some csrfId ∧
      stores'.tokens.lookup csrfId = some token ∧
      token.value.sessionId = key ∧
      token.expiry = record.expiry
  window : ∀ key record,
    stores'.sessions.lookup key = some record →
      record.value.lastActivity ≤ stores'.clock ∧
      record.value.lastActivity +
        manager.timeoutSecondsFor record.value ≤
          record.expiry
  named : ∀ csrfId token,
    stores'.tokens.lookup csrfId = some token →
    ∃ record,
      stores'.sessions.lookup token.value.sessionId =
        some record ∧
      record.value.csrfTokenId = some csrfId
  bound : ∀ csrfId token,
    stores'.tokens.lookup csrfId = some token →
    ∃ sessionId raw,
      csrfId = manager.csrfKey raw ∧
      token.value.sessionId = manager.key sessionId ∧
      (sessionId, raw) ∈ issued
  drawn : ∀ sessionId raw,
    (sessionId, raw) ∈ issued →
      sessionId < stores'.nextId ∧ raw < stores'.nextId
  once : ∀ sessionId sessionId' raw,
    (sessionId, raw) ∈ issued →
    (sessionId', raw) ∈ issued →
      sessionId = sessionId'

section Coherence

variable {manager : Manager} {expiry : Expiry}
variable {issued : Issued}
variable {stores' before after : Stores}
variable {key : Nat}

/- The token of a session is the one that it names. -/
theorem Coherent.only
    {record : Timed SessionData}
    {token : Timed CSRFToken}
    {csrfId other : Nat}
    (hCoherent : Coherent manager issued stores')
    (hRecord :
      stores'.sessions.lookup key = some record)
    (hNamed : record.value.csrfTokenId = some csrfId)
    (hToken : stores'.tokens.lookup other = some token) :
    csrfId = other ↔ token.value.sessionId = key := by
  constructor
  · rintro rfl
    rcases hCoherent.names key record hRecord with
      ⟨named, bound, hName, hBound, hKey, -⟩
    obtain rfl := Option.some.inj (hName.symm.trans hNamed)
    obtain rfl := Option.some.inj (hBound.symm.trans hToken)
    exact hKey
  · intro hSession
    rcases hCoherent.named other token hToken with
      ⟨record', hRecord', hName'⟩
    rw [hSession, hRecord] at hRecord'
    obtain rfl := Option.some.inj hRecord'
    exact Option.some.inj (hNamed.symm.trans hName')

/-
  Some sessions are gone, their tokens with them, and
  nothing else has changed.
-/
structure Trimmed (before after : Stores) : Prop where
  clock : after.clock = before.clock
  nextId : after.nextId = before.nextId
  gone : ∃ gone : Set Nat,
    (∀ key ∈ gone, after.sessions.lookup key = none) ∧
    (∀ key, key ∉ gone →
      after.sessions.lookup key =
        before.sessions.lookup key) ∧
    ∀ csrfId token,
      after.tokens.lookup csrfId = some token ↔
        before.tokens.lookup csrfId = some token ∧
          token.value.sessionId ∉ gone

theorem Trimmed.refl (stores' : Stores) :
    Trimmed stores' stores' where
  clock := rfl
  nextId := rfl
  gone := ⟨∅, by simp, fun _ _ => rfl, by simp⟩

/- What is left has been there. -/
theorem Trimmed.lookup
    {record : Timed SessionData}
    (hTrimmed : Trimmed before after)
    (hRecord : after.sessions.lookup key = some record) :
    before.sessions.lookup key = some record := by
  rcases hTrimmed.gone with ⟨gone, hGone, hKept, -⟩
  by_cases hKey : key ∈ gone
  · rw [hGone key hKey] at hRecord
    cases hRecord
  · rw [← hKept key hKey]
    exact hRecord

/- What is trimmed stays coherent. -/
theorem Coherent.trim
    (hCoherent : Coherent manager issued before)
    (hTrimmed : Trimmed before after) :
    Coherent manager issued after := by
  rcases hTrimmed.gone with ⟨gone, hGone, hKept, hTokens⟩
  exact {
    names := by
      intro key record hRecord
      have hOld := hTrimmed.lookup hRecord
      rcases hCoherent.names key record hOld with
        ⟨csrfId, token, hNamed, hToken, hKey, hExpiry⟩
      refine ⟨csrfId, token, hNamed, ?_, hKey, hExpiry⟩
      rw [hTokens, hKey]
      refine ⟨hToken, fun hIn => ?_⟩
      rw [hGone key hIn] at hRecord
      cases hRecord
    window := by
      intro key record hRecord
      rw [hTrimmed.clock]
      exact hCoherent.window key record
        (hTrimmed.lookup hRecord)
    named := by
      intro csrfId token hToken
      rcases (hTokens csrfId token).mp hToken with
        ⟨hOld, hIn⟩
      rw [hKept _ hIn]
      exact hCoherent.named csrfId token hOld
    bound := by
      intro csrfId token hToken
      exact hCoherent.bound csrfId token
        ((hTokens csrfId token).mp hToken).1
    drawn := by
      rw [hTrimmed.nextId]
      exact hCoherent.drawn
    once := hCoherent.once }

------------------------------------------------------------
-- Terminations
------------------------------------------------------------

/- A session that was stored before, with its value. -/
def Was
    (before : Stores)
    (pair : Nat × SessionData) : Prop :=
  ∃ record,
    before.sessions.lookup pair.1 = some record ∧
      record.value = pair.2

/- A call ends, and has only trimmed the stores. -/
abbrev Trims
    {α : Type}
    (expiry : Expiry)
    (before : Stores)
    (program : Managed α)
    (stores' : Stores) : Prop :=
  Ends (stores expiry).exec program stores'
    fun _ after => Trimmed before after

/- The end of a session is the end of its token. -/
theorem Trimmed.erase
    {session : SessionData}
    {csrfId : Nat}
    (hTrimmed : Trimmed before after)
    (hCoherent : Coherent manager issued before)
    (hWas : Was before (key, session))
    (hNamed : session.csrfTokenId = some csrfId) :
    Trimmed before
      { after with
        sessions := AList.erase key after.sessions
        tokens := AList.erase csrfId after.tokens } := by
  rcases hTrimmed.gone with ⟨gone, hGone, hKept, hTokens⟩
  rcases hWas with ⟨record, hRecord, rfl⟩
  refine ⟨hTrimmed.clock, hTrimmed.nextId,
    insert key gone, ?_, ?_, ?_⟩
  · intro other hOther
    rw [Storage.Table.lookup_erase']
    split
    · rfl
    · rename_i hKey
      rcases hOther with rfl | hOther
      · exact absurd rfl hKey
      · exact hGone other hOther
  · intro other hOther
    rw [Set.mem_insert_iff, not_or] at hOther
    rw [Storage.Table.lookup_erase',
      if_neg (Ne.symm hOther.1)]
    exact hKept other hOther.2
  · intro other token
    rw [Storage.Table.lookup_erase']
    rw [Set.mem_insert_iff, not_or]
    split
    · rename_i hSame
      constructor
      · intro hToken
        cases hToken
      · rintro ⟨hToken, hOther, -⟩
        exact absurd
          ((hCoherent.only hRecord hNamed hToken).mp
          hSame) hOther
    · rename_i hOther
      rw [hTokens]
      constructor
      · rintro ⟨hToken, hIn⟩
        refine ⟨hToken, fun hKey => hOther ?_, hIn⟩
        exact (hCoherent.only hRecord hNamed hToken).mpr hKey
      · rintro ⟨hToken, -, hIn⟩
        exact ⟨hToken, hIn⟩

/- A deletion takes a session and its token. -/
theorem terminate_trims
    {session : SessionData}
    (hStorage : manager.hasCsrfStorage = true)
    (hCoherent : Coherent manager issued before)
    (hTrimmed : Trimmed before stores')
    (hWas : Was before (key, session)) :
    Trims expiry before (manager.terminate key session)
      stores' := by
  have hNamed :
      ∃ csrfId, session.csrfTokenId = some csrfId := by
    rcases hWas with ⟨record, hRecord, rfl⟩
    rcases hCoherent.names key record hRecord with
      ⟨csrfId, -, hNamed, -⟩
    exact ⟨csrfId, hNamed⟩
  rcases hNamed with ⟨csrfId, hNamed⟩
  simp only [Manager.terminate, hNamed, hStorage]
  exact hTrimmed.erase hCoherent hWas hNamed

/- A session that is read is stored. -/
theorem was_of_get
    {session : SessionData}
    (hGet :
      ((stores expiry).exec (.sessionGet key) stores').1 =
        some session) :
    Was stores' (key, session) := by
  rcases Option.map_eq_some_iff.mp hGet with
    ⟨record, hRecord, hValue⟩
  exact ⟨record, (Option.filter_eq_some_iff.mp hRecord).1,
    hValue⟩

/- A session that was left was there. -/
theorem Was.of_trimmed
    {pair : Nat × SessionData}
    (hWas : Was after pair)
    (hTrimmed : Trimmed before after) :
    Was before pair := by
  rcases hWas with ⟨record, hRecord, hValue⟩
  exact ⟨record, hTrimmed.lookup hRecord, hValue⟩

/- So does a deletion by id. -/
theorem terminateSession_trims
    {sessionId : Nat}
    (hStorage : manager.hasCsrfStorage = true)
    (hCoherent : Coherent manager issued stores') :
    Trims expiry stores' (manager.terminateSession sessionId)
      stores' := by
  unfold Manager.terminateSession
  rw [bind_eq]
  apply (ends_perform _ _).mpr
  generalize hGet : ((stores expiry).exec
    (.sessionGet (manager.key sessionId)) stores').1 = found
  cases found with
  | none => exact Trimmed.refl stores'
  | some session =>
      exact terminate_trims hStorage hCoherent
        (Trimmed.refl stores') (was_of_get hGet)

/- Loading reads what is stored. -/
theorem loadSessions_was (keys : List Nat) :
    Ends (stores expiry).exec (Manager.loadSessions keys)
      stores'
      fun result after => after = stores' ∧
        ∀ pairs, result = .ok pairs →
          ∀ pair ∈ pairs, Was stores' pair := by
  induction keys with
  | nil =>
      refine ⟨rfl, ?_⟩
      rintro pairs ⟨rfl⟩ pair hPair
      cases hPair
  | cons key keys ih =>
      unfold Manager.loadSessions
      rw [bind_eq]
      apply (ends_perform _ _).mpr
      generalize hGet : ((stores expiry).exec
        (.sessionGet key) stores').1 = found
      cases found with
      | none => exact ih
      | some session =>
          apply ih.bind
          · rintro rest after ⟨rfl, hRest⟩
            refine ⟨rfl, ?_⟩
            rintro pairs ⟨rfl⟩ pair hPair
            rcases List.mem_cons.mp hPair with rfl | hOlder
            · exact was_of_get hGet
            · exact hRest rest rfl pair hOlder
          · rintro error after ⟨rfl, -⟩
            exact ⟨rfl, fun pairs hPairs => by cases hPairs⟩

/- A list of sessions is deleted. -/
theorem terminateEach_trims
    {excluded : Option Nat}
    {pairs : List (Nat × SessionData)}
    (hStorage : manager.hasCsrfStorage = true)
    (hCoherent : Coherent manager issued before)
    (hTrimmed : Trimmed before stores')
    (hWas : ∀ pair ∈ pairs, Was before pair) :
    Trims expiry before
      (manager.terminateEach excluded pairs)
      stores' := by
  induction pairs generalizing stores' with
  | nil => exact hTrimmed
  | cons pair pairs ih =>
      rcases pair with ⟨key, session⟩
      have hRest : ∀ pair ∈ pairs, Was before pair :=
        fun pair hPair =>
          hWas pair (List.mem_cons_of_mem _ hPair)
      unfold Manager.terminateEach
      split
      · exact ih hTrimmed hRest
      · apply (terminate_trims hStorage hCoherent hTrimmed
          (hWas _ List.mem_cons_self)).bind
        · intro deleted after hAfter
          exact ih hAfter hRest
        · intro error after hAfter
          exact hAfter

/- The sessions of a user, and what is done with them. -/
theorem userSessions_trims
    {userId : UserId}
    {rest : List (Nat × SessionData) → Managed Unit}
    (hRest : ∀ pairs,
      (∀ pair ∈ pairs, Was stores' pair) →
        Trims expiry stores' (rest pairs) stores') :
    Trims expiry stores'
      ((Manager.userSessions userId).bind rest) stores' := by
  have hLoads :
      Ends (stores expiry).exec (Manager.userSessions userId)
        stores'
        fun result after => after = stores' ∧
          ∀ pairs, result = .ok pairs →
            ∀ pair ∈ pairs, Was stores' pair := by
    unfold Manager.userSessions
    rw [bind_eq]
    apply (ends_perform _ _).mpr
    exact loadSessions_was _
  apply hLoads.bind
  · rintro pairs after ⟨rfl, hPairs⟩
    exact hRest pairs (hPairs pairs rfl)
  · rintro error after ⟨rfl, -⟩
    exact Trimmed.refl after

theorem terminateAllUserSessions_trims
    {userId : UserId}
    {exclude : Option Nat}
    (hStorage : manager.hasCsrfStorage = true)
    (hCoherent : Coherent manager issued stores') :
    Trims expiry stores'
      (manager.terminateAllUserSessions userId exclude)
      stores' :=
  userSessions_trims fun _ hWas =>
    terminateEach_trims hStorage hCoherent
      (Trimmed.refl stores') hWas

theorem enforceSessionLimit_trims
    {userId : UserId}
    (hStorage : manager.hasCsrfStorage = true)
    (hCoherent : Coherent manager issued stores') :
    Trims expiry stores'
      (manager.enforceSessionLimit userId) stores' := by
  apply userSessions_trims
  intro active hWas
  split
  · apply terminateEach_trims hStorage hCoherent
      (Trimmed.refl stores')
    intro pair hPair
    apply hWas pair
    exact List.mem_mergeSort.mp (List.mem_of_mem_take hPair)
  · exact Trimmed.refl stores'

theorem replacePresented_trims
    {presented : Option Nat}
    (hStorage : manager.hasCsrfStorage = true)
    (hCoherent : Coherent manager issued stores') :
    Trims expiry stores' (manager.replacePresented presented)
      stores' := by
  cases presented with
  | none => exact Trimmed.refl stores'
  | some old =>
      apply (terminateSession_trims hStorage hCoherent).bind
      · intro deleted after hAfter
        exact hAfter
      · intro error after hAfter
        exact hAfter

theorem sweepSessions_trims
    {now : Nat}
    {keys : List Nat}
    (hStorage : manager.hasCsrfStorage = true)
    (hCoherent : Coherent manager issued before)
    (hTrimmed : Trimmed before stores') :
    Trims expiry before (manager.sweepSessions now keys)
      stores' := by
  induction keys generalizing stores' with
  | nil => exact hTrimmed
  | cons key keys ih =>
      unfold Manager.sweepSessions
      rw [bind_eq]
      apply (ends_perform _ _).mpr
      generalize hGet : ((stores expiry).exec
        (.sessionGet key) stores').1 = found
      cases found with
      | none => exact ih hTrimmed
      | some session =>
          change Trims expiry before
            (if manager.isIdleExpired session now then _
              else _) stores'
          split
          · have hWas :=
              (was_of_get hGet).of_trimmed hTrimmed
            apply (terminate_trims hStorage hCoherent
              hTrimmed
              hWas).bind
            · intro deleted after hAfter
              exact ih hAfter
            · intro error after hAfter
              exact hAfter
          · exact ih hTrimmed

------------------------------------------------------------
-- Writes
------------------------------------------------------------

/- No token is bound to a session id that was not drawn. -/
theorem Coherent.unbound
    {sessionId csrfId : Nat}
    {token : Timed CSRFToken}
    (hCoherent : Coherent manager issued stores')
    (hKeys : Function.Injective manager.key)
    (hFresh : stores'.nextId ≤ sessionId)
    (hToken : stores'.tokens.lookup csrfId = some token) :
    token.value.sessionId ≠ manager.key sessionId := by
  intro hKey
  rcases hCoherent.bound csrfId token hToken with
    ⟨owner, raw, -, hOwner, hIssued⟩
  have hSame : owner = sessionId :=
    hKeys (hOwner.symm.trans hKey)
  have hDrawn := (hCoherent.drawn owner raw hIssued).1
  omega

/- No token is stored under an id that was not drawn. -/
theorem Coherent.unstored
    {raw : Nat}
    (hCoherent : Coherent manager issued stores')
    (hTokens : Function.Injective manager.csrfKey)
    (hFresh : stores'.nextId ≤ raw) :
    stores'.tokens.lookup (manager.csrfKey raw) = none := by
  rw [Option.eq_none_iff_forall_not_mem]
  intro token hToken
  rcases hCoherent.bound _ token hToken with
    ⟨owner, stored, hStored, -, hIssued⟩
  have hSame : raw = stored := hTokens hStored
  have hDrawn := (hCoherent.drawn owner stored hIssued).2
  omega

/- A token is issued once. -/
theorem Coherent.once_cons
    {sessionId raw : Nat}
    (hCoherent : Coherent manager issued stores')
    (hFresh : stores'.nextId ≤ raw) :
    ∀ first second other,
      (first, other) ∈ (sessionId, raw) :: issued →
      (second, other) ∈ (sessionId, raw) :: issued →
        first = second := by
  have hNew (owner : Nat) : (owner, raw) ∉ issued := by
    intro hIssued
    have hDrawn := (hCoherent.drawn owner raw hIssued).2
    omega
  intro first second other hFirst hSecond
  rcases List.mem_cons.mp hFirst with hHead | hOld
  · cases hHead
    rcases List.mem_cons.mp hSecond with hHead' | hOld'
    · cases hHead'
      rfl
    · exact absurd hOld' (hNew second)
  · rcases List.mem_cons.mp hSecond with hHead' | hOld'
    · cases hHead'
      exact absurd hOld (hNew first)
    · exact hCoherent.once first second other hOld hOld'

/-
  A session is written with the one token that is bound to
  it from then on, and that expires with it.
-/
theorem Coherent.put
    {issued' : Issued}
    {sessionId raw : Nat}
    {record : Timed SessionData}
    (hCoherent : Coherent manager issued before)
    (token : Timed CSRFToken)
    (hSession : ∀ key,
      after.sessions.lookup key =
        if manager.key sessionId = key then
          some record
        else
          before.sessions.lookup key)
    (hTokens : ∀ csrfId bound,
      after.tokens.lookup csrfId = some bound ↔
        (csrfId = manager.csrfKey raw ∧ bound = token) ∨
        (before.tokens.lookup csrfId = some bound ∧
          bound.value.sessionId ≠ manager.key sessionId))
    (hNamed :
      record.value.csrfTokenId = some (manager.csrfKey raw))
    (hBound :
      token.value.sessionId = manager.key sessionId)
    (hExpiry : token.expiry = record.expiry)
    (hActive : record.value.lastActivity ≤ after.clock)
    (hWindow :
      record.value.lastActivity +
        manager.timeoutSecondsFor record.value ≤
          record.expiry)
    (hClock : after.clock = before.clock)
    (hIssued : (sessionId, raw) ∈ issued')
    (hOld : issued ⊆ issued')
    (hDrawn : ∀ owner other,
      (owner, other) ∈ issued' →
        owner < after.nextId ∧ other < after.nextId)
    (hOnce : ∀ first second other,
      (first, other) ∈ issued' →
      (second, other) ∈ issued' →
        first = second) :
    Coherent manager issued' after where
  names key stored hStored := by
    rw [hSession] at hStored
    split at hStored
    · rename_i hKey
      obtain rfl := Option.some.inj hStored
      refine ⟨manager.csrfKey raw, token, hNamed, ?_,
        hBound.trans hKey, hExpiry⟩
      rw [hTokens]
      exact Or.inl ⟨rfl, rfl⟩
    · rename_i hKey
      rcases hCoherent.names key stored hStored with
        ⟨csrfId, bound, hName, hThere, hOwner, hSame⟩
      refine ⟨csrfId, bound, hName, ?_, hOwner, hSame⟩
      rw [hTokens, hOwner]
      exact Or.inr ⟨hThere, Ne.symm hKey⟩
  window key stored hStored := by
    rw [hSession] at hStored
    split at hStored
    · obtain rfl := Option.some.inj hStored
      exact ⟨hActive, hWindow⟩
    · rw [hClock]
      exact hCoherent.window key stored hStored
  named csrfId bound hThere := by
    rw [hSession]
    rcases (hTokens csrfId bound).mp hThere with
      ⟨rfl, rfl⟩ | ⟨hOlder, hOther⟩
    · rw [if_pos hBound.symm]
      exact ⟨record, rfl, hNamed⟩
    · rw [if_neg (Ne.symm hOther)]
      exact hCoherent.named csrfId bound hOlder
  bound csrfId bound hThere := by
    rcases (hTokens csrfId bound).mp hThere with
      ⟨rfl, rfl⟩ | ⟨hOlder, -⟩
    · exact ⟨sessionId, raw, rfl, hBound, hIssued⟩
    · rcases hCoherent.bound csrfId bound hOlder with
        ⟨owner, other, hRaw, hOwner, hIn⟩
      exact ⟨owner, other, hRaw, hOwner, hOld hIn⟩
  drawn := hDrawn
  once := hOnce

/- A live session that is read. -/
theorem exec_get :
    ((stores expiry).exec (.sessionGet key) stores').1 =
      (stores'.session? expiry key).map Timed.value :=
  rfl

/- The answer and the effect of a `modify`. -/
theorem exec_modify
    {record : Timed SessionData}
    {change : SessionData → SessionData}
    {ttl : Option Nat}
    (hRecord : stores'.session? expiry key = some record) :
    (stores expiry).exec (.sessionModify key change ttl)
        stores' =
      (some (stores'.reruns ++ [record.value],
          change record.value),
        stores'.setSession key
          ⟨change record.value,
            (ttl.map (stores'.clock + ·)).getD
              record.expiry⟩) := by
  simp only [Stores.exec, hRecord]

/- Nothing is modified where nothing is. -/
theorem exec_modify_none
    {change : SessionData → SessionData}
    {ttl : Option Nat}
    (hRecord : stores'.session? expiry key = none) :
    (stores expiry).exec (.sessionModify key change ttl)
        stores' =
      (none, stores') := by
  simp only [Stores.exec, hRecord]

/- A token that is there is extended. -/
theorem exec_extend
    {csrfId ttl : Nat}
    {token : Timed CSRFToken}
    (hToken : stores'.token? expiry csrfId = some token) :
    (stores expiry).exec (.csrfExtend csrfId ttl) stores' =
      (true,
        stores'.setToken csrfId
          ⟨token.value, stores'.clock + ttl⟩) := by
  simp only [Stores.exec, hToken]

/- A readable session is stored. -/
theorem lookup_of_session?
    {record : Timed SessionData}
    (hRecord : stores'.session? expiry key = some record) :
    stores'.sessions.lookup key = some record :=
  (Option.filter_eq_some_iff.mp hRecord).1

/-
  A live session, with its id, and the token that lives as
  long as it does.
-/
theorem Coherent.live
    {record : Timed SessionData}
    (hCoherent : Coherent manager issued stores')
    (hRecord : stores'.session? expiry key = some record) :
    ∃ sessionId raw token,
      key = manager.key sessionId ∧
      record.value.csrfTokenId =
        some (manager.csrfKey raw) ∧
      stores'.token? expiry (manager.csrfKey raw) =
        some token ∧
      token.value.sessionId = key ∧
      token.expiry = record.expiry ∧
      (sessionId, raw) ∈ issued := by
  rcases hCoherent.names key record
    (lookup_of_session? hRecord) with
    ⟨csrfId, token, hNamed, hToken, hKey, hExpiry⟩
  rcases hCoherent.bound csrfId token hToken with
    ⟨sessionId, raw, rfl, hOwner, hIssued⟩
  refine ⟨sessionId, raw, token, hKey.symm.trans hOwner,
    hNamed, ?_, hKey, hExpiry, hIssued⟩
  apply Option.filter_eq_some_iff.mpr
  refine ⟨hToken, ?_⟩
  have hAlive := (Option.filter_eq_some_iff.mp hRecord).2
  simp only [Stores.isAlive] at hAlive ⊢
  rw [hExpiry]
  exact hAlive

/- The id of a session is issued with its token. -/
theorem Coherent.live_key
    {sessionId : Nat}
    {record : Timed SessionData}
    (hCoherent : Coherent manager issued stores')
    (hKeys : Function.Injective manager.key)
    (hRecord :
      stores'.session? expiry (manager.key sessionId) =
        some record) :
    ∃ raw token,
      record.value.csrfTokenId =
        some (manager.csrfKey raw) ∧
      stores'.token? expiry (manager.csrfKey raw) =
        some token ∧
      token.value.sessionId = manager.key sessionId ∧
      token.expiry = record.expiry ∧
      (sessionId, raw) ∈ issued := by
  rcases hCoherent.live hRecord with
    ⟨owner, raw, token, hKey, hRest⟩
  obtain rfl : sessionId = owner := hKeys hKey
  exact ⟨raw, token, hRest⟩

/- A change that leaves a session its token and its times. -/
theorem stamp_coherent
    {record : Timed SessionData}
    {change : SessionData → SessionData}
    (hCoherent : Coherent manager issued stores')
    (hRecord : stores'.session? expiry key = some record)
    (hToken : KeepsToken change)
    (hSteady : Steady change) :
    Coherent manager issued
      (stores'.setSession key
        ⟨change record.value, record.expiry⟩) := by
  have hLookup := lookup_of_session? hRecord
  rcases hCoherent.live hRecord with
    ⟨sessionId, raw, token, rfl, hNamed, hLive, hBound,
      hExpiry, hIssued⟩
  have hThere := (Option.filter_eq_some_iff.mp hLive).1
  have hTimes := hCoherent.window _ record hLookup
  rcases hSteady record.value with ⟨-, hActive, hRemember⟩
  apply hCoherent.put token
  · intro other
    exact Storage.Table.lookup_insert' _ _ _ _
  · intro csrfId bound
    change stores'.tokens.lookup csrfId = _ ↔ _
    constructor
    · intro hSome
      have hOnly := hCoherent.only hLookup hNamed hSome
      by_cases hOwner :
          bound.value.sessionId = manager.key sessionId
      · left
        have hSame := hOnly.mpr hOwner
        subst hSame
        exact ⟨rfl, Option.some.inj
          (hSome.symm.trans hThere)⟩
      · exact Or.inr ⟨hSome, hOwner⟩
    · rintro (⟨rfl, rfl⟩ | ⟨hSome, -⟩)
      · exact hThere
      · exact hSome
  · exact (hToken record.value).trans hNamed
  · exact hBound
  · exact hExpiry
  · rw [hActive]
    exact hTimes.1
  · rw [hActive]
    simp only [Manager.timeoutSecondsFor, hRemember]
    exact hTimes.2
  · rfl
  · exact hIssued
  · exact List.Subset.refl issued
  · exact hCoherent.drawn
  · exact hCoherent.once

/- A touch moves a session and its token together. -/
theorem touch_coherent
    {record : Timed SessionData}
    {token : Timed CSRFToken}
    {sessionId raw : Nat}
    (hCoherent : Coherent manager issued stores')
    (hRecord :
      stores'.session? expiry (manager.key sessionId) =
        some record)
    (hNamed :
      record.value.csrfTokenId = some (manager.csrfKey raw))
    (hBound :
      token.value.sessionId = manager.key sessionId)
    (hIssued : (sessionId, raw) ∈ issued) :
    Coherent manager issued
      ((stores'.setSession (manager.key sessionId)
          ⟨Manager.touch stores'.clock record.value,
            stores'.clock +
              manager.timeoutSecondsFor
                record.value⟩).setToken
        (manager.csrfKey raw)
        ⟨token.value,
          stores'.clock +
            manager.timeoutSecondsFor record.value⟩) := by
  have hLookup := lookup_of_session? hRecord
  apply hCoherent.put ⟨token.value,
    stores'.clock + manager.timeoutSecondsFor record.value⟩
  · intro other
    exact Storage.Table.lookup_insert' _ _ _ _
  · intro csrfId bound
    simp only [Stores.setToken, Stores.setSession]
    rw [Storage.Table.lookup_insert']
    split
    · rename_i hSame
      subst hSame
      constructor
      · intro hSome
        exact Or.inl ⟨rfl, (Option.some.inj hSome).symm⟩
      · rintro (⟨-, rfl⟩ | ⟨hSome, hOther⟩)
        · rfl
        · exact absurd
            ((hCoherent.only hLookup hNamed hSome).mp rfl)
            hOther
    · rename_i hOther
      constructor
      · intro hSome
        refine Or.inr ⟨hSome, fun hOwner => hOther ?_⟩
        exact (hCoherent.only hLookup hNamed hSome).mpr
          hOwner
      · rintro (⟨rfl, -⟩ | ⟨hSome, -⟩)
        · exact absurd rfl hOther
        · exact hSome
  · exact hNamed
  · exact hBound
  · rfl
  · exact Nat.le_refl _
  · exact Nat.le_refl _
  · rfl
  · exact hIssued
  · exact List.Subset.refl issued
  · exact hCoherent.drawn
  · exact hCoherent.once

/- A new session comes with its token. -/
theorem create_coherent
    {sessionId raw ttl : Nat}
    {data : SessionData}
    {token : CSRFToken}
    (hCoherent : Coherent manager issued stores')
    (hKeys : Function.Injective manager.key)
    (hTokens : Function.Injective manager.csrfKey)
    (hSession : stores'.nextId = sessionId)
    (hRaw : stores'.nextId < raw)
    (hNamed : data.csrfTokenId = some (manager.csrfKey raw))
    (hActive : data.lastActivity = stores'.clock)
    (hTtl : manager.timeoutSecondsFor data ≤ ttl)
    (hBound : token.sessionId = manager.key sessionId) :
    Coherent manager ((sessionId, raw) :: issued)
      ({ stores' with nextId := raw + 1 }.setToken
        (manager.csrfKey raw)
        ⟨token, stores'.clock + ttl⟩ |>.setSession
          (manager.key sessionId)
          ⟨data, stores'.clock + ttl⟩) := by
  have hNone :=
    hCoherent.unstored hTokens (Nat.le_of_lt hRaw)
  apply hCoherent.put ⟨token, stores'.clock + ttl⟩
  · intro other
    exact Storage.Table.lookup_insert' _ _ _ _
  · intro csrfId bound
    simp only [Stores.setToken, Stores.setSession]
    rw [Storage.Table.lookup_insert']
    split
    · rename_i hSame
      subst hSame
      rw [hNone]
      constructor
      · intro hSome
        exact Or.inl ⟨rfl, (Option.some.inj hSome).symm⟩
      · rintro (⟨-, rfl⟩ | ⟨hSome, -⟩)
        · rfl
        · cases hSome
    · rename_i hOther
      constructor
      · intro hSome
        exact Or.inr ⟨hSome,
          hCoherent.unbound hKeys (Nat.le_of_eq hSession)
            hSome⟩
      · rintro (⟨rfl, -⟩ | ⟨hSome, -⟩)
        · exact absurd rfl hOther
        · exact hSome
  · exact hNamed
  · exact hBound
  · rfl
  · exact Nat.le_of_eq hActive
  · simp only [hActive]
    exact Nat.add_le_add_left hTtl _
  · rfl
  · exact List.mem_cons_self
  · exact List.subset_cons_self _ _
  · intro owner other hIn
    simp only [Stores.setToken, Stores.setSession]
    rcases List.mem_cons.mp hIn with hNew | hOld
    · cases hNew
      omega
    · have hDrawn := hCoherent.drawn owner other hOld
      omega
  · exact hCoherent.once_cons (Nat.le_of_lt hRaw)

/- A rotation replaces the token of a session. -/
theorem rotate_coherent
    {record : Timed SessionData}
    {token : CSRFToken}
    {sessionId raw old : Nat}
    (hCoherent : Coherent manager issued stores')
    (hTokens : Function.Injective manager.csrfKey)
    (hRecord :
      stores'.session? expiry (manager.key sessionId) =
        some record)
    (hRaw : stores'.nextId = raw)
    (hOld : record.value.csrfTokenId = some old)
    (hIssued : ∃ raw', (sessionId, raw') ∈ issued)
    (hBound : token.sessionId = manager.key sessionId) :
    Coherent manager ((sessionId, raw) :: issued)
      { stores' with
        nextId := raw + 1
        sessions := AList.insert (manager.key sessionId)
          ⟨Manager.rotate (manager.csrfKey raw) record.value,
            stores'.clock +
              manager.timeoutSecondsFor record.value⟩
          stores'.sessions
        tokens := AList.erase old
          (AList.insert (manager.csrfKey raw)
            ⟨token, stores'.clock +
              manager.timeoutSecondsFor record.value⟩
            stores'.tokens) } := by
  have hLookup := lookup_of_session? hRecord
  have hTimes := hCoherent.window _ record hLookup
  have hNone :=
    hCoherent.unstored hTokens (Nat.le_of_eq hRaw)
  have hOther : old ≠ manager.csrfKey raw := by
    rintro rfl
    rcases hCoherent.names _ record hLookup with
      ⟨csrfId, bound, hName, hThere, -⟩
    obtain rfl := Option.some.inj (hOld.symm.trans hName)
    rw [hNone] at hThere
    cases hThere
  apply hCoherent.put ⟨token, stores'.clock +
    manager.timeoutSecondsFor record.value⟩
  · intro other
    exact Storage.Table.lookup_insert' _ _ _ _
  · intro csrfId bound
    simp only
    rw [Storage.Table.lookup_erase',
      Storage.Table.lookup_insert']
    by_cases hGone : old = csrfId
    · subst hGone
      rw [if_pos rfl]
      constructor
      · intro hSome
        cases hSome
      · rintro (⟨hSame, -⟩ | ⟨hSome, hOwner⟩)
        · exact absurd hSame hOther
        · exact absurd
            ((hCoherent.only hLookup hOld hSome).mp rfl)
            hOwner
    · rw [if_neg hGone]
      split
      · rename_i hSame
        subst hSame
        rw [hNone]
        constructor
        · intro hSome
          exact Or.inl ⟨rfl, (Option.some.inj hSome).symm⟩
        · rintro (⟨-, rfl⟩ | ⟨hSome, -⟩)
          · rfl
          · cases hSome
      · rename_i hNew
        constructor
        · intro hSome
          refine Or.inr ⟨hSome, fun hOwner => hGone ?_⟩
          exact (hCoherent.only hLookup hOld hSome).mpr
            hOwner
        · rintro (⟨rfl, -⟩ | ⟨hSome, -⟩)
          · exact absurd rfl hNew
          · exact hSome
  · rfl
  · exact hBound
  · rfl
  · exact hTimes.1
  · exact Nat.add_le_add_right hTimes.1 _
  · rfl
  · exact List.mem_cons_self
  · exact List.subset_cons_self _ _
  · rcases hIssued with ⟨raw', hIssued⟩
    have hDrawn := (hCoherent.drawn sessionId raw' hIssued).1
    intro owner other hIn
    rcases List.mem_cons.mp hIn with hNew | hOlder
    · cases hNew
      simp only
      omega
    · have hBelow := hCoherent.drawn owner other hOlder
      simp only
      omega
  · exact hCoherent.once_cons (Nat.le_of_eq hRaw)

------------------------------------------------------------
-- Calls
------------------------------------------------------------

/- A `modify` of a live session, with the rest of a call. -/
theorem ends_modify
    {α : Type}
    {record : Timed SessionData}
    {change : SessionData → SessionData}
    {ttl : Option Nat}
    {next :
      Option (List SessionData × SessionData) → Managed α}
    {goal : Except HttpError α → Stores → Prop}
    (hRecord : stores'.session? expiry key = some record)
    (hNext :
      Ends (stores expiry).exec
        (next (some (stores'.reruns ++ [record.value],
          change record.value)))
        (stores'.setSession key
          ⟨change record.value,
            (ttl.map (stores'.clock + ·)).getD
              record.expiry⟩) goal) :
    Ends (stores expiry).exec
      ((call (.sessionModify key change ttl)).bind next)
      stores' goal := by
  apply (ends_perform _ _).mpr
  rw [exec_modify hRecord]
  exact hNext

/- A program that modifies nothing goes on. -/
theorem ends_modify_none
    {α : Type}
    {change : SessionData → SessionData}
    {ttl : Option Nat}
    {next :
      Option (List SessionData × SessionData) → Managed α}
    {goal : Except HttpError α → Stores → Prop}
    (hRecord : stores'.session? expiry key = none)
    (hNext :
      Ends (stores expiry).exec (next none) stores' goal) :
    Ends (stores expiry).exec
      ((call (.sessionModify key change ttl)).bind next)
      stores' goal := by
  apply (ends_perform _ _).mpr
  rw [exec_modify_none hRecord]
  exact hNext

/- The extension of a live token, with the rest of a call. -/
theorem ends_extend
    {α : Type}
    {csrfId ttl : Nat}
    {token : Timed CSRFToken}
    {next : Bool → Managed α}
    {goal : Except HttpError α → Stores → Prop}
    (hToken : stores'.token? expiry csrfId = some token)
    (hNext :
      Ends (stores expiry).exec (next true)
        (stores'.setToken csrfId
          ⟨token.value, stores'.clock + ttl⟩) goal) :
    Ends (stores expiry).exec
      ((call (.csrfExtend csrfId ttl)).bind next) stores'
      goal := by
  apply (ends_perform _ _).mpr
  rw [exec_extend hToken]
  exact hNext

/- A login keeps the stores coherent. -/
theorem createSession_ends
    {new : Manager.NewSession}
    (hStorage : manager.hasCsrfStorage = true)
    (hKeys : Function.Injective manager.key)
    (hTokens : Function.Injective manager.csrfKey)
    (hCoherent : Coherent manager issued stores')
    (hTtl : new.expirationSeconds = none) :
    Ends (stores expiry).exec (manager.createSession new)
      stores' fun result after =>
        ∀ sessionId token,
          result = .ok (sessionId, token) →
          ∃ raw, token = some raw ∧
            Coherent manager ((sessionId, raw) :: issued)
              after := by
  unfold Manager.createSession
  apply (replacePresented_trims hStorage hCoherent).bind
  · intro replaced first hFirst
    have hCoherent := hCoherent.trim hFirst
    apply (enforceSessionLimit_trims hStorage hCoherent).bind
    · intro enforced second hSecond
      have hCoherent := hCoherent.trim hSecond
      simp only [Manager.storeSession,
        Manager.generateCsrfToken, hStorage, if_true]
      intro sessionId token hReturned
      have hPair := Except.ok.inj hReturned
      obtain ⟨rfl, rfl⟩ := Prod.mk.inj hPair
      refine ⟨_, rfl, ?_⟩
      apply @create_coherent manager issued second _ _ _ _ _
        hCoherent hKeys hTokens rfl (Nat.lt_succ_self _) rfl
        rfl
      · rw [hTtl]
        exact Nat.le_refl _
      · rfl
    · intro error second _ sessionId token hReturned
      cases hReturned
  · intro error first _ sessionId token hReturned
    cases hReturned

theorem regenerateCsrfToken_ends
    {sessionId : Nat}
    (hStorage : manager.hasCsrfStorage = true)
    (hKeys : Function.Injective manager.key)
    (hTokens : Function.Injective manager.csrfKey)
    (hCoherent : Coherent manager issued stores') :
    Ends (stores expiry).exec
      (manager.regenerateCsrfToken sessionId none) stores'
      fun result after =>
        ∀ token, result = .ok token →
          Coherent manager
            (token.toList.map (sessionId, ·) ++ issued)
            after := by
  unfold Manager.regenerateCsrfToken
  rw [if_pos hStorage, bind_eq]
  apply (ends_perform _ _).mpr
  rw [exec_get]
  cases hRecord :
    stores'.session? expiry (manager.key sessionId) with
  | none =>
      intro token hReturned
      obtain rfl := Except.ok.inj hReturned
      exact hCoherent
  | some record =>
      rcases hCoherent.live_key hKeys hRecord with
        ⟨old, bound, hNamed, -, -, -, hIssued⟩
      let ttl := manager.timeoutSecondsFor record.value
      let key := manager.key sessionId
      let csrfId := manager.csrfKey stores'.nextId
      let drawn : Stores :=
        { stores' with
          nextId := stores'.nextId + 1 }.setToken csrfId
            ⟨⟨csrfId, key, stores'.clock + ttl⟩,
              stores'.clock + ttl⟩
      have hDrawn :
          drawn.session? expiry key = some record :=
        hRecord
      change Ends _ (manager.rotateToken key ttl) stores' _
      unfold Manager.rotateToken Manager.generateCsrfToken
        Manager.swapToken
      rw [if_pos hStorage]
      apply (ends_perform _ _).mpr
      apply (ends_perform _ _).mpr
      apply (ends_perform _ _).mpr
      simp only [done_bind, pure_eq_done, bind_eq]
      apply ends_modify hDrawn
      simp only [replaced_append, hNamed]
      intro token hReturned
      obtain rfl := Except.ok.inj hReturned
      exact rotate_coherent hCoherent hTokens hRecord rfl
        hNamed ⟨old, hIssued⟩ rfl

theorem modifySession_ends
    {sessionId : Nat}
    {stamp : Manager.Stamp}
    (hCoherent : Coherent manager issued stores') :
    Ends (stores expiry).exec
      (manager.modifySession sessionId stamp) stores'
      fun _ after => Coherent manager issued after := by
  unfold Manager.modifySession
  rw [bind_eq]
  cases hRecord :
    stores'.session? expiry (manager.key sessionId) with
  | none =>
      apply ends_modify_none hRecord
      exact hCoherent
  | some record =>
      apply ends_modify hRecord
      have hToken : KeepsToken (stamp.apply ·) := by
        intro session
        cases stamp <;> rfl
      exact stamp_coherent hCoherent hRecord hToken
        (steady_stamp stamp)

/-
  A session was read alive, and what is returned is what is
  stored, with the same token.
-/
def Accepts
    (expiry : Expiry)
    (key : Nat)
    (before after : Stores)
    (session : SessionData) : Prop :=
  (∃ record,
    before.session? expiry key = some record ∧
      record.value.csrfTokenId = session.csrfTokenId) ∧
  ∃ record,
    after.sessions.lookup key = some record ∧
      record.value = session

/- A request keeps the stores coherent. -/
theorem validateSession_ends
    {sessionId : Nat}
    {updateActivity : Bool}
    (hStorage : manager.hasCsrfStorage = true)
    (hKeys : Function.Injective manager.key)
    (hCoherent : Coherent manager issued stores') :
    Ends (stores expiry).exec
      (manager.validateSession sessionId updateActivity)
      stores' fun result after =>
        Coherent manager issued after ∧
        ∀ session, result = .ok (some session) →
          Accepts expiry (manager.key sessionId)
            stores' after
            session := by
  unfold Manager.validateSession
  rw [bind_eq]
  apply (ends_perform _ _).mpr
  rw [exec_get]
  cases hRecord :
    stores'.session? expiry (manager.key sessionId) with
  | none =>
      refine ⟨hCoherent, ?_⟩
      intro session hReturned
      cases hReturned
  | some record =>
      have hLookup := lookup_of_session? hRecord
      rcases hCoherent.live_key hKeys hRecord with
        ⟨raw, token, hNamed, hLive, hBound, -, hIssued⟩
      change Ends _ ((call .now).bind fun now =>
        manager.acceptSession _ updateActivity record.value
          now) stores' _
      apply (ends_perform _ _).mpr
      change Ends _ (manager.acceptSession _ updateActivity
        record.value stores'.clock) stores' _
      unfold Manager.acceptSession
      split
      · apply (terminate_trims hStorage hCoherent
          (Trimmed.refl stores')
          ⟨record, hLookup, rfl⟩).bind
        · intro deleted after hAfter
          refine ⟨hCoherent.trim hAfter, ?_⟩
          intro session hReturned
          cases hReturned
        · intro error after hAfter
          refine ⟨hCoherent.trim hAfter, ?_⟩
          intro session hReturned
          cases hReturned
      · split
        · unfold Manager.touchSession
          apply ends_modify hRecord
          let ttl := manager.timeoutSecondsFor record.value
          let touched : Stores :=
            stores'.setSession (manager.key sessionId)
              ⟨Manager.touch stores'.clock record.value,
                stores'.clock + ttl⟩
          have hThere :
              touched.token? expiry (manager.csrfKey raw) =
                some token :=
            hLive
          have hTouched :
              (Manager.touch stores'.clock
                record.value).csrfTokenId =
                some (manager.csrfKey raw) :=
            hNamed
          simp only [hTouched, hStorage]
          apply ends_extend hThere
          constructor
          · exact touch_coherent hCoherent hRecord hNamed
              hBound hIssued
          · intro session hReturned
            have hSame := Except.ok.inj hReturned
            obtain rfl := Option.some.inj hSame
            refine ⟨⟨record, hRecord, rfl⟩, ?_⟩
            refine ⟨⟨Manager.touch stores'.clock
              record.value,
              stores'.clock +
                manager.timeoutSecondsFor record.value⟩,
              ?_, rfl⟩
            exact (Storage.Table.lookup_insert' _ _ _
              _).trans
              (if_pos rfl)
        · refine ⟨hCoherent, ?_⟩
          intro session hReturned
          have hSame := Except.ok.inj hReturned
          obtain rfl := Option.some.inj hSame
          exact ⟨⟨record, hRecord, rfl⟩,
            ⟨record, hLookup, rfl⟩⟩

------------------------------------------------------------
-- Sequences Of Calls
------------------------------------------------------------

/- No lifetime is given where a session or token starts. -/
def Request.NoOverride : Request → Prop
  | .createSession new => new.expirationSeconds = none
  | .regenerateCsrfToken _ expirationSeconds =>
      expirationSeconds = none
  | _ => True

/- The token a call has returned, and its session. -/
def Request.issues : Request → Outcome → Issued
  | .createSession _, .created sessionId token =>
      token.toList.map (sessionId, ·)
  | .regenerateCsrfToken sessionId _, .rotated token =>
      token.toList.map (sessionId, ·)
  | _, _ => []

/- Time passes. -/
def Stores.passed
    (stores' : Stores)
    (time : Nat) : Stores :=
  { stores' with clock := stores'.clock + time }

/-
  What sequences of calls lead to, each at one instant, with
  time between them, and the tokens they have issued.
-/
inductive Called
    (manager : Manager)
    (expiry : Expiry) : Issued → Stores → Prop
  | start (clock nextId : Nat) :
      Called manager expiry [] ⟨clock, nextId, ∅, ∅, []⟩
  | call
      {issued : Issued}
      {before after : Stores}
      {request : Request}
      {outcome : Outcome}
      (hCalled : Called manager expiry issued before)
      (hOverride : request.NoOverride)
      (hRun :
        (request.perform manager).run (stores expiry).exec
          before = (.ok outcome, after)) :
      Called manager expiry
        (request.issues outcome ++ issued) after
  | pass
      {issued : Issued}
      {before : Stores}
      (hCalled : Called manager expiry issued before)
      (time : Nat) :
      Called manager expiry issued (before.passed time)

/- A call keeps the stores coherent. -/
theorem Request.perform_ends
    {request : Request}
    (hStorage : manager.hasCsrfStorage = true)
    (hKeys : Function.Injective manager.key)
    (hTokens : Function.Injective manager.csrfKey)
    (hCoherent : Coherent manager issued stores')
    (hOverride : request.NoOverride) :
    Ends (stores expiry).exec (request.perform manager)
      stores' fun result after =>
        ∀ outcome, result = .ok outcome →
          Coherent manager
            (request.issues outcome ++ issued) after := by
  -- A call that issues nothing, and then tells its outcome.
  have hPlain
      {α : Type}
      {program : Managed α}
      {tells : α → Outcome}
      (hProgram :
        Ends (stores expiry).exec program stores'
          fun _ after => Coherent manager issued after)
      (hNothing : ∀ value,
        request.issues (tells value) = []) :
      Ends (stores expiry).exec
        (program.bind fun value => .done (tells value))
        stores' fun result after =>
          ∀ outcome, result = .ok outcome →
            Coherent manager
              (request.issues outcome ++ issued) after := by
    apply hProgram.bind
    · intro value after hAfter outcome hReturned
      obtain rfl := Except.ok.inj hReturned
      rw [hNothing value]
      exact hAfter
    · intro error after _ outcome hReturned
      cases hReturned
  have hTrims
      {α : Type}
      {program : Managed α}
      {tells : α → Outcome}
      (hProgram : Trims expiry stores' program stores')
      (hNothing : ∀ value,
        request.issues (tells value) = []) :
      Ends (stores expiry).exec
        (program.bind fun value => .done (tells value))
        stores' fun result after =>
          ∀ outcome, result = .ok outcome →
            Coherent manager
              (request.issues outcome ++ issued) after :=
    hPlain (hProgram.mono fun _ _ hAfter =>
      hCoherent.trim hAfter) hNothing
  cases request with
  | createSession new =>
      apply (createSession_ends hStorage hKeys hTokens
        hCoherent hOverride).bind
      · rintro ⟨sessionId, token⟩ after hAfter outcome
          hReturned
        obtain rfl := Except.ok.inj hReturned
        rcases hAfter sessionId token rfl with
          ⟨raw, rfl, hIssued⟩
        exact hIssued
      · intro error after _ outcome hReturned
        cases hReturned
  | validateSession sessionId updateActivity =>
      apply hPlain _ fun _ => rfl
      exact (validateSession_ends hStorage hKeys
        hCoherent).mono fun _ _ hAfter => hAfter.1
  | setTokenVersion sessionId tokenVersion =>
      apply hPlain _ fun _ => rfl
      apply (modifySession_ends hCoherent).bind
      · intro _ _ hAfter
        exact hAfter
      · intro _ _ hAfter
        exact hAfter
  | modifySession sessionId stamp =>
      exact hPlain (modifySession_ends hCoherent)
        fun _ => rfl
  | regenerateCsrfToken sessionId expirationSeconds =>
      obtain rfl : expirationSeconds = none := hOverride
      apply (regenerateCsrfToken_ends hStorage hKeys hTokens
        hCoherent).bind
      · intro token after hAfter outcome hReturned
        obtain rfl := Except.ok.inj hReturned
        exact hAfter token rfl
      · intro error after _ outcome hReturned
        cases hReturned
  | validateCsrfToken sessionId token =>
      apply hPlain _ fun _ => rfl
      unfold Manager.validateCsrfToken
      rw [if_pos hStorage, bind_eq]
      apply (ends_perform _ _).mpr
      generalize ((stores expiry).exec
        (.csrfGet (manager.csrfKey token)) stores').1 = found
      cases found with
      | none => exact hCoherent
      | some data => exact hCoherent
  | terminateSession sessionId =>
      exact hTrims
        (terminateSession_trims hStorage hCoherent)
        fun _ => rfl
  | terminateAllUserSessions userId exclude =>
      exact hTrims
        (terminateAllUserSessions_trims hStorage hCoherent)
        fun _ => rfl
  | cleanupExpiredSessions =>
      apply hTrims _ fun _ => rfl
      exact sweepSessions_trims hStorage hCoherent
        (Trimmed.refl stores')

/- Passing time changes what is alive, and nothing else. -/
theorem Coherent.passed
    (hCoherent : Coherent manager issued stores')
    (time : Nat) :
    Coherent manager issued (stores'.passed time) where
  names := hCoherent.names
  window := by
    intro key record hRecord
    have hTimes := hCoherent.window key record hRecord
    exact ⟨Nat.le_add_right_of_le hTimes.1, hTimes.2⟩
  named := hCoherent.named
  bound := hCoherent.bound
  drawn := hCoherent.drawn
  once := hCoherent.once

/- Every sequence of calls leaves coherent stores. -/
theorem coherent_of_called
    (hStorage : manager.hasCsrfStorage = true)
    (hKeys : Function.Injective manager.key)
    (hTokens : Function.Injective manager.csrfKey)
    (hCalled : Called manager expiry issued stores') :
    Coherent manager issued stores' := by
  induction hCalled with
  | start clock nextId =>
      exact {
        names := by
          intro key record hRecord
          cases hRecord
        window := by
          intro key record hRecord
          cases hRecord
        named := by
          intro csrfId token hToken
          cases hToken
        bound := by
          intro csrfId token hToken
          cases hToken
        drawn := by simp
        once := by simp }
  | @call issued before after request outcome _ hOverride
      hRun ih =>
      have hEnds :
          Ends (stores expiry).exec (request.perform manager)
            before _ :=
        request.perform_ends hStorage hKeys hTokens ih
          hOverride
      unfold Ends at hEnds
      rw [hRun] at hEnds
      exact hEnds outcome rfl
  | pass _ time ih =>
      exact ih.passed time

------------------------------------------------------------
-- Accepted Sessions
------------------------------------------------------------

/- `validate_session` accepts the session. -/
def AcceptsSession
    (manager : Manager)
    (expiry : Expiry)
    (stores' : Stores)
    (sessionId : Nat) : Prop :=
  ∃ session after,
    (manager.validateSession sessionId false).run
      (stores expiry).exec stores' =
        (.ok (some session), after)

/-
  A session that was accepted names the one token that is
  accepted with it.  As time passes no other token is
  accepted, and this one is for as long as the session has
  not been idle for its window, or is still accepted.
-/
structure HasOneToken
    (manager : Manager)
    (expiry : Expiry)
    (sessionId : Nat)
    (before after : Stores)
    (session : SessionData)
    (token : Nat) : Prop where
  named : session.csrfTokenId = some (manager.csrfKey token)
  now : ∀ other,
    ValidatesToken manager expiry before sessionId other ↔
      other = token
  alone : ∀ time other,
    ValidatesToken manager expiry (after.passed time)
      sessionId other → other = token
  idle : ∀ time,
    after.clock + time <
      session.lastActivity +
        manager.timeoutSecondsFor session →
    ValidatesToken manager expiry (after.passed time)
      sessionId token
  accepted : ∀ time,
    AcceptsSession manager expiry (after.passed time)
      sessionId →
    ValidatesToken manager expiry (after.passed time)
      sessionId token

/- A token was issued for the session, and for no other. -/
def IssuedFor
    (issued : Issued)
    (sessionId token : Nat) : Prop :=
  (sessionId, token) ∈ issued ∧
  ∀ other, (other, token) ∈ issued → other = sessionId

/- A token validates for the session it was issued for. -/
theorem Coherent.issuedFor
    {sessionId token : Nat}
    (hStorage : manager.hasCsrfStorage = true)
    (hKeys : Function.Injective manager.key)
    (hTokens : Function.Injective manager.csrfKey)
    (hCoherent : Coherent manager issued stores')
    (hValid :
      ValidatesToken manager expiry stores' sessionId
        token) :
    IssuedFor issued sessionId token := by
  rcases (validatesToken_iff hStorage).mp hValid with
    ⟨record, hRecord, hBound⟩
  have hLookup := (Option.filter_eq_some_iff.mp hRecord).1
  rcases hCoherent.bound _ record hLookup with
    ⟨owner, raw, hRaw, hOwner, hIssued⟩
  obtain rfl : token = raw := hTokens hRaw
  obtain rfl : sessionId = owner :=
    hKeys (hBound.symm.trans hOwner)
  refine ⟨hIssued, fun other hOther => ?_⟩
  exact hCoherent.once other sessionId token hOther hIssued

/- The only token that can validate is the named one. -/
theorem Coherent.named_of_validates
    {sessionId token other : Nat}
    {record : Timed SessionData}
    (hStorage : manager.hasCsrfStorage = true)
    (hTokens : Function.Injective manager.csrfKey)
    (hCoherent : Coherent manager issued stores')
    (hRecord :
      stores'.sessions.lookup (manager.key sessionId) =
        some record)
    (hNamed :
      record.value.csrfTokenId =
        some (manager.csrfKey token))
    (hValid :
      ValidatesToken manager expiry stores' sessionId
        other) :
    other = token := by
  rcases (validatesToken_iff hStorage).mp hValid with
    ⟨bound, hBound, hOwner⟩
  have hLookup := (Option.filter_eq_some_iff.mp hBound).1
  have hSame :=
    (hCoherent.only hRecord hNamed hLookup).mpr hOwner
  exact (hTokens hSame).symm

/- While the session lives, its token validates. -/
theorem Coherent.validates
    {sessionId token : Nat}
    {record : Timed SessionData}
    (hStorage : manager.hasCsrfStorage = true)
    (hKeys : Function.Injective manager.key)
    (hCoherent : Coherent manager issued stores')
    (hRecord :
      stores'.session? expiry (manager.key sessionId) =
        some record)
    (hNamed :
      record.value.csrfTokenId =
        some (manager.csrfKey token)) :
    ValidatesToken manager expiry stores' sessionId
      token := by
  rcases hCoherent.live_key hKeys hRecord with
    ⟨raw, bound, hName, hLive, hOwner, -⟩
  rw [hNamed] at hName
  rw [validatesToken_iff hStorage, Option.some.inj hName]
  exact ⟨bound, hLive, hOwner⟩

/-
  After every sequence of calls, an accepted session has one
  token, and a token validates for no session but its own.
-/
theorem one_token_of_called
    (hStorage : manager.hasCsrfStorage = true)
    (hKeys : Function.Injective manager.key)
    (hTokens : Function.Injective manager.csrfKey)
    (hCalled : Called manager expiry issued stores') :
    (∀ sessionId updateActivity session after,
      (manager.validateSession sessionId updateActivity).run
        (stores expiry).exec stores' =
          (.ok (some session), after) →
      ∃ token,
        HasOneToken manager expiry sessionId stores' after
          session token) ∧
    ∀ sessionId token,
      ValidatesToken manager expiry stores' sessionId token →
        IssuedFor issued sessionId token := by
  have hCoherent :=
    coherent_of_called hStorage hKeys hTokens hCalled
  constructor
  · intro sessionId updateActivity session after hRun
    have hEnds :
        Ends (stores expiry).exec
          (manager.validateSession sessionId updateActivity)
          stores' _ :=
      validateSession_ends hStorage hKeys hCoherent
    unfold Ends at hEnds
    rw [hRun] at hEnds
    rcases hEnds with ⟨hAfter, hAccepts⟩
    rcases hAccepts session rfl with
      ⟨⟨record, hRecord, hToken⟩, ⟨stored, hStored, rfl⟩⟩
    rcases hCoherent.live_key hKeys hRecord with
      ⟨token, -, hNamed, -⟩
    have hNamed' :
        stored.value.csrfTokenId =
          some (manager.csrfKey token) :=
      hToken.symm.trans hNamed
    refine ⟨token, hNamed', ?_, ?_, ?_, ?_⟩
    · intro other
      constructor
      · intro hValid
        exact hCoherent.named_of_validates hStorage hTokens
          (lookup_of_session? hRecord) hNamed hValid
      · rintro rfl
        exact hCoherent.validates hStorage hKeys hRecord
          hNamed
    · intro time other hValid
      exact (hAfter.passed time).named_of_validates hStorage
        hTokens hStored hNamed' hValid
    · intro time hIdle
      have hWindow := (hAfter.window _ stored hStored).2
      have hAlive :
          (after.passed time).session? expiry
            (manager.key sessionId) = some stored := by
        apply Option.filter_eq_some_iff.mpr
        refine ⟨hStored, expiry.alive_of_lt _ _ ?_⟩
        exact Nat.lt_of_lt_of_le hIdle hWindow
      exact (hAfter.passed time).validates hStorage hKeys
        hAlive hNamed'
    · rintro time ⟨again, last, hAgain⟩
      have hLater :
          Ends (stores expiry).exec
            (manager.validateSession sessionId false)
            (after.passed time) _ :=
        validateSession_ends hStorage hKeys
          (hAfter.passed time)
      unfold Ends at hLater
      rw [hAgain] at hLater
      rcases hLater.2 again rfl with ⟨⟨live, hLive, -⟩, -⟩
      have hSame : live = stored :=
        Option.some.inj
          ((lookup_of_session? hLive).symm.trans hStored)
      subst hSame
      exact (hAfter.passed time).validates hStorage hKeys
        hLive hNamed'
  · intro sessionId token hValid
    exact hCoherent.issuedFor hStorage hKeys hTokens hValid

end Coherence

namespace SignedIn

open Race

/- User 7 signs in. -/
def login : Request :=
  .createSession ⟨none, 7, false, none, none⟩

/- Their CSRF token is renewed. -/
def rotate : Request := .regenerateCsrfToken 0 none

/- A login on empty stores. -/
def opened : Except HttpError Outcome × Stores :=
  (login.perform manager).run (stores expiry).exec
    ⟨0, 0, ∅, ∅, []⟩

/- Ten minutes later, a rotation. -/
def rotated : Except HttpError Outcome × Stores :=
  (rotate.perform manager).run (stores expiry).exec
    (opened.2.passed 600)

/- The sample calls, one after the other. -/
theorem called :
    Called manager expiry [(0, 2), (0, 1)] rotated.2 := by
  have hOpened :
      Called manager expiry [(0, 1)] opened.2 :=
    @Called.call manager expiry [] _ _ login
      (.created 0 (some 1)) (.start 0 0) rfl rfl
  exact @Called.call manager expiry [(0, 1)] _ _ rotate
    (.rotated (some 2)) (.pass hOpened 600) rfl rfl

/- The session as it is after the rotation. -/
def session : SessionData :=
  ⟨7, 0, 0, false, some 2, none, none⟩

theorem one_token_of_signedIn :
    (∃ token,
      HasOneToken manager expiry 0 rotated.2 rotated.2
        session token) ∧
    ∀ sessionId token,
      ValidatesToken manager expiry rotated.2 sessionId
        token →
      IssuedFor [(0, 2), (0, 1)] sessionId token := by
  have hCoherent :=
    one_token_of_called rfl Function.injective_id
      Function.injective_id called
  exact ⟨hCoherent.1 0 false session rotated.2 rfl,
    hCoherent.2⟩

end SignedIn

end SessionStore

end CrudAuth
