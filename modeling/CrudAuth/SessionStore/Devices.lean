import CrudAuth.SessionStore.Discipline

/-
  The device-management calls of a `SessionManager`, beside
  its other calls, and what each owes: a record keeps its
  user, and a call made for a user deletes nothing but what
  it has read as that user's.

  Main declarations:
    * `Devices`
    * `Devices.revoke`
    * `Devices.revokeByHandle`
    * `DeviceCall`
    * `DeviceCall.contract`
    * `DeviceCall.perform_obeys`
-/

------------------------------------------------------------
-- Device Management
------------------------------------------------------------

namespace CrudAuth

namespace SessionStore

open Concurrency
open Concurrency.Program

/- A manager, and the public handles of storage keys. -/
structure Devices extends Manager where
  handleOf : Nat → Nat

/- An entry of a device list. -/
structure Listed where
  id : Nat
  createdAt : Nat
  lastActivity : Nat
  current : Bool
deriving DecidableEq, Repr

namespace Devices

variable (devices : Devices)

/- The handle that a session is listed under. -/
def sessionHandle (sessionId : Nat) : Nat :=
  devices.handleOf (devices.key sessionId)

/- An entry of the listing. -/
def listed
    (current : Option Nat)
    (entry : Nat × SessionData) : Listed where
  id := devices.handleOf entry.1
  createdAt := entry.2.createdAt
  lastActivity := entry.2.lastActivity
  current := some entry.1 == current.map devices.key

/- `list_for_user` -/
def listForUser
    (userId : UserId)
    (current : Option Nat) : Managed (List Listed) := do
  let sessions ← Manager.userSessions userId
  return sessions.map (devices.listed current)

/- Without an owner, anyone's session is revoked. -/
def revoke
    (sessionId : Nat)
    (ownerId : Option UserId) : Managed Bool := do
  let key := devices.key sessionId
  match ← call (.sessionGet key) with
  | none => return false
  | some session =>
      if ownerId.all (session.userId == ·) then
        devices.terminate key session
      else
        return false

/- The first of some sessions that has the handle. -/
def revokeFirst (handle : Nat) :
    List (Nat × SessionData) → Managed Bool
  | [] => return false
  | (key, session) :: rest =>
      if devices.handleOf key = handle then
        devices.terminate key session
      else
        revokeFirst handle rest

/- `revoke_by_handle` -/
def revokeByHandle
    (handle : Nat)
    (ownerId : UserId) : Managed Bool := do
  devices.revokeFirst handle
    (← Manager.userSessions ownerId)

/- `revoke_all` -/
def revokeAll
    (userId : UserId)
    (exclude : Option Nat) : Managed Unit :=
  devices.terminateAllUserSessions userId exclude

end Devices

------------------------------------------------------------
-- Calls
------------------------------------------------------------

/- The calls of a manager, and those on devices. -/
inductive DeviceCall where
  | managed (request : Request)
  | listForUser (userId : UserId) (current : Option Nat)
  | revoke (sessionId : Nat) (ownerId : Option UserId)
  | revokeByHandle (handle : Nat) (ownerId : UserId)
  | revokeAll (userId : UserId) (exclude : Option Nat)

/- What a device call returns. -/
inductive DeviceOutcome where
  | outcome (outcome : Outcome)
  | listed (entries : List Listed)
  | revoked (removed : Bool)
  | finished
deriving DecidableEq

/- A device call, as a program of the store. -/
def DeviceCall.perform
    (devices : Devices) : DeviceCall → Managed DeviceOutcome
  | .managed request =>
      (request.perform devices.toManager).bind
        fun outcome => .done (.outcome outcome)
  | .listForUser userId current =>
      (devices.listForUser userId current).bind
        fun entries => .done (.listed entries)
  | .revoke sessionId ownerId =>
      (devices.revoke sessionId ownerId).bind
        fun removed => .done (.revoked removed)
  | .revokeByHandle handle ownerId =>
      (devices.revokeByHandle handle ownerId).bind
        fun removed => .done (.revoked removed)
  | .revokeAll userId exclude =>
      (devices.revokeAll userId exclude).bind
        fun _ => .done .finished

/- The user that a call is made for, where it names one. -/
def DeviceCall.owner : DeviceCall → Option UserId
  | .managed (.terminateAllUserSessions userId _) =>
      some userId
  | .managed _ => none
  | .listForUser userId _ => some userId
  | .revoke _ ownerId => ownerId
  | .revokeByHandle _ ownerId => some ownerId
  | .revokeAll userId _ => some userId

/- Whose sessions a call ends, all but the excluded one. -/
def DeviceCall.sweeps :
    DeviceCall → Option (UserId × Option Nat)
  | .managed (.terminateAllUserSessions userId exclude) =>
      some (userId, exclude)
  | .revokeAll userId exclude => some (userId, exclude)
  | _ => none

------------------------------------------------------------
-- What A Call Owes
------------------------------------------------------------

/- The key was listed, or its session read, as the user's. -/
def ReadAs
    (past : Past)
    (userId : UserId)
    (key : Nat) : Prop :=
  (∃ keys,
    (⟨.userSessions userId, keys⟩ : Action storeOps) ∈ past ∧
      key ∈ keys) ∨
  ∃ session,
    (⟨.sessionGet key, some session⟩ : Action storeOps) ∈
        past ∧
      session.userId = userId

/- A session is stored once, under an id of its own. -/
def storing (manager : Manager) : Contract storeOps where
  rule := fun past op =>
    match op with
    | .sessionCreate key _ _ =>
        ∃ sessionId,
          key = manager.key sessionId ∧
          (⟨.fresh, sessionId⟩ : Action storeOps) ∈ past ∧
          past.any creates = false
    | _ => True
  answer := fun _ _ => True

/- A change keeps the user of a session. -/
def KeepsUser (change : SessionData → SessionData) : Prop :=
  ∀ session, (change session).userId = session.userId

/- A record keeps its user, and others keep their records. -/
def DeviceCall.sparing (call : DeviceCall) :
    Contract storeOps where
  rule := fun past op =>
    match op with
    | .sessionModify _ change _ => KeepsUser change
    | .sessionDelete key =>
        ∀ userId, call.owner = some userId →
          ReadAs past userId key
    | _ => True
  answer := fun _ _ => True

/- What a device call may do to the store. -/
def DeviceCall.contract
    (manager : Manager)
    (call : DeviceCall) : Contract storeOps :=
  (storing manager).both call.sparing

/- The session was found gone, or deleted. -/
def Dropped (past : Past) (key : Nat) : Prop :=
  (⟨.sessionGet key, none⟩ : Action storeOps) ∈ past ∨
    ∃ deleted,
      (⟨.sessionDelete key, deleted⟩ : Action storeOps) ∈
        past

/- The session was read, and deleted after that. -/
def Revoked (past : Past) (key : Nat) : Prop :=
  ∃ newer older session deleted,
    past = newer ++ older ∧
    (⟨.sessionGet key, some session⟩ : Action storeOps) ∈
      older ∧
    (⟨.sessionDelete key, deleted⟩ : Action storeOps) ∈
      newer

/- Every session that was listed was dropped. -/
def Swept
    (past : Past)
    (userId : UserId)
    (excluded : Option Nat) : Prop :=
  ∃ keys,
    (⟨.userSessions userId, keys⟩ : Action storeOps) ∈ past ∧
    ∀ key ∈ keys, some key ≠ excluded → Dropped past key

/- What a call has done when it returns. -/
def DeviceCall.Returned
    (devices : Devices)
    (past : Past) : DeviceCall → DeviceOutcome → Prop
  | .listForUser userId current, .listed entries =>
      ∀ entry ∈ entries, ∃ key session,
        ReadAs past userId key ∧
        (⟨.sessionGet key, some session⟩ :
          Action storeOps) ∈ past ∧
        entry = devices.listed current (key, session)
  | .revoke sessionId _, .revoked true =>
      Revoked past (devices.key sessionId)
  | .revokeByHandle handle ownerId, .revoked true =>
      ∃ key, devices.handleOf key = handle ∧
        ReadAs past ownerId key ∧ Revoked past key
  | call, _ =>
      ∀ userId exclude,
        call.sweeps = some (userId, exclude) →
          Swept past userId (exclude.map devices.key)

------------------------------------------------------------
-- Plain Calls
------------------------------------------------------------

section Sparing

variable {devices : Devices}
variable {manager : Manager}
variable {devCall : DeviceCall}
variable {past : Past}
variable {α β : Type}

/- A call for no user may delete any session. -/
theorem sparing_of_plain
    {program : Managed α}
    (hOwner : devCall.owner = none)
    (hPlain : Obeys plain past program fun _ _ => True) :
    Obeys devCall.sparing past program fun _ _ => True := by
  apply hPlain.relax
  · intro past op hOp
    cases op with
    | sessionModify => cases hOp
    | sessionDelete key =>
        intro userId hUser
        rw [hOwner] at hUser
        cases hUser
    | _ => trivial
  · intro op ret _
    trivial

/- A part that spares others, and the rest. -/
theorem sparing_bind
    {program : Managed α}
    {rest : α → Managed β}
    (hProgram :
      Obeys devCall.sparing past program fun _ _ => True)
    (hRest : ∀ value past,
      Obeys devCall.sparing past (rest value)
        fun _ _ => True) :
    Obeys devCall.sparing past (program.bind rest)
      fun _ _ => True := by
  apply hProgram.bind
  · intro past' value _ _
    exact hRest value past'
  · intro _ _ _ _
    trivial

/- A stamp keeps the owner. -/
theorem keepsUser_stamp (stamp : Manager.Stamp) :
    KeepsUser (stamp.apply ·) := by
  intro session
  cases stamp <;> rfl

/- A login deletes no session of another. -/
theorem createSession_sparing
    (new : Manager.NewSession)
    (hOwner : devCall.owner = none) :
    Obeys devCall.sparing past (manager.createSession new)
      fun _ _ => True := by
  apply sparing_bind (sparing_of_plain hOwner
    (replacePresented_plain new.presented past))
  intro _ past
  apply sparing_bind (sparing_of_plain hOwner
    (enforceSessionLimit_plain new.userId past))
  intro _ past
  refine ⟨trivial, fun sessionId _ => ⟨trivial,
    fun createdAt _ => ⟨trivial, fun lastActivity _ => ?_⟩⟩⟩
  apply sparing_bind (sparing_of_plain hOwner
    (generateCsrfToken_plain _ _ _))
  intro token past
  exact ⟨trivial, fun _ _ => trivial⟩

theorem validateSession_sparing
    (sessionId : Nat)
    (updateActivity : Bool)
    (hOwner : devCall.owner = none) :
    Obeys devCall.sparing past
      (manager.validateSession sessionId updateActivity)
      fun _ _ => True := by
  refine ⟨trivial, fun found _ => ?_⟩
  cases found with
  | none => trivial
  | some session =>
      refine ⟨trivial, fun now _ => ?_⟩
      change Obeys _ _
        (manager.acceptSession (manager.key sessionId)
          updateActivity session now) _
      unfold Manager.acceptSession
      split
      · exact sparing_bind
          (sparing_of_plain hOwner (terminate_plain _ _ _))
          fun _ _ => trivial
      · split
        · refine ⟨fun _ => rfl, fun touched _ => ?_⟩
          cases touched with
          | none => trivial
          | some touched =>
              simp only [done_bind]
              split
              · exact ⟨trivial, fun _ _ => trivial⟩
              · trivial
        · trivial

theorem modifySession_sparing
    (sessionId : Nat)
    (stamp : Manager.Stamp) :
    Obeys devCall.sparing past
      (manager.modifySession sessionId stamp)
      fun _ _ => True :=
  ⟨keepsUser_stamp stamp, fun _ _ => trivial⟩

theorem regenerateCsrfToken_sparing
    (sessionId : Nat)
    (expirationSeconds : Option Nat)
    (hOwner : devCall.owner = none) :
    Obeys devCall.sparing past
      (manager.regenerateCsrfToken sessionId
        expirationSeconds) fun _ _ => True := by
  unfold Manager.regenerateCsrfToken
  split
  · refine ⟨trivial, fun found _ => ?_⟩
    cases found with
    | none => trivial
    | some session =>
        apply sparing_bind (sparing_of_plain hOwner
          (generateCsrfToken_plain _ _ _))
        intro token past'
        cases token with
        | none => trivial
        | some token =>
            refine ⟨fun _ => rfl, fun swapped _ => ?_⟩
            cases swapped with
            | none => exact ⟨trivial, fun _ _ => trivial⟩
            | some swapped =>
                simp only [done_bind]
                split
                · trivial
                · exact ⟨trivial, fun _ _ => trivial⟩
  · trivial

end Sparing

------------------------------------------------------------
-- Calls For A User
------------------------------------------------------------

section Owned

variable {devices : Devices}
variable {manager : Manager}
variable {devCall : DeviceCall}
variable {past past' : Past}
variable {userId : UserId}
variable {key : Nat}

/- What was read stays in the past. -/
theorem ReadAs.mono
    (hRead : ReadAs past userId key)
    (hPast : past ⊆ past') :
    ReadAs past' userId key := by
  rcases hRead with
    ⟨keys, hKeys, hKey⟩ | ⟨session, hGet, hUser⟩
  · exact Or.inl ⟨keys, hPast hKeys, hKey⟩
  · exact Or.inr ⟨session, hPast hGet, hUser⟩

/- The key was read for whoever the call is made for. -/
def ReadFor
    (devCall : DeviceCall)
    (past : Past)
    (key : Nat) : Prop :=
  ∀ userId, devCall.owner = some userId →
    ReadAs past userId key

/- A session read as one's own may be deleted. -/
theorem terminate_sparing
    {session : SessionData}
    (hRead : ReadFor devCall past key) :
    Obeys devCall.sparing past
      (manager.terminate key session)
      (Returns fun past' _ => ∃ newer deleted,
        past' = newer ++ past ∧
        (⟨.sessionDelete key, deleted⟩ : Action storeOps) ∈
          newer) := by
  unfold Manager.terminate
  refine ⟨hRead, fun deleted _ => ?_⟩
  simp only [done_bind]
  split
  · refine ⟨trivial, fun ended _ => ?_⟩
    rintro _ -
    exact ⟨[⟨.csrfDelete _, ended⟩,
      ⟨.sessionDelete key, deleted⟩], deleted, rfl,
      List.mem_cons_of_mem _ List.mem_cons_self⟩
  · rintro _ -
    exact ⟨[⟨.sessionDelete key, deleted⟩], deleted, rfl,
      List.mem_cons_self⟩

/- What was read, and that the rest was found gone. -/
def Loaded
    (past : Past)
    (keys : List Nat)
    (sessions : List (Nat × SessionData)) : Prop :=
  (∀ entry ∈ sessions,
    entry.1 ∈ keys ∧
    (⟨.sessionGet entry.1, some entry.2⟩ :
      Action storeOps) ∈ past) ∧
  ∀ key ∈ keys,
    (∃ session, (key, session) ∈ sessions) ∨
      (⟨.sessionGet key, none⟩ : Action storeOps) ∈ past

/- The sessions loaded are those read. -/
theorem loadSessions_sparing
    (keys : List Nat) :
    Obeys devCall.sparing past (Manager.loadSessions keys)
      (Returns fun past' sessions =>
        Loaded past' keys sessions) := by
  induction keys generalizing past with
  | nil =>
      rintro _ ⟨⟩
      exact ⟨nofun, nofun⟩
  | cons key keys ih =>
      refine ⟨trivial, fun found _ => ?_⟩
      cases found with
      | none =>
          apply ih.mono
          intro past' result hSuffix hLoaded sessions hResult
          obtain ⟨hRead, hKeys⟩ := hLoaded sessions hResult
          refine ⟨fun entry hEntry => ?_, ?_⟩
          · exact ⟨List.mem_cons_of_mem _
              (hRead entry hEntry).1,
              (hRead entry hEntry).2⟩
          · rintro other hOther
            rcases List.mem_cons.mp hOther with rfl | hOther
            · exact Or.inr
                (hSuffix.subset List.mem_cons_self)
            · exact hKeys other hOther
      | some session =>
          apply ih.andThen
          intro past' sessions hSuffix ⟨hRead, hKeys⟩
          rintro _ ⟨⟩
          refine ⟨fun entry hEntry => ?_, ?_⟩
          · rcases List.mem_cons.mp hEntry with rfl | hEntry
            · exact ⟨List.mem_cons_self,
                hSuffix.subset List.mem_cons_self⟩
            · exact ⟨List.mem_cons_of_mem _
                (hRead entry hEntry).1,
                (hRead entry hEntry).2⟩
          · intro other hOther
            rcases List.mem_cons.mp hOther with rfl | hOther
            · exact Or.inl ⟨session, List.mem_cons_self⟩
            · rcases hKeys other hOther with
                ⟨found, hFound⟩ | hGone
              · exact Or.inl
                  ⟨found, List.mem_cons_of_mem _ hFound⟩
              · exact Or.inr hGone

/- A list comes from the owner's index. -/
theorem userSessions_sparing
    (userId : UserId) :
    Obeys devCall.sparing past (Manager.userSessions userId)
      (Returns fun past' sessions => ∃ keys,
        (⟨.userSessions userId, keys⟩ : Action storeOps) ∈
            past' ∧
          Loaded past' keys sessions) := by
  refine ⟨trivial, fun keys _ => ?_⟩
  apply (loadSessions_sparing keys).mono
  intro past' result hSuffix hLoaded sessions hResult
  exact ⟨keys, hSuffix.subset List.mem_cons_self,
    hLoaded sessions hResult⟩

/- The sessions of such a list may go. -/
theorem terminateEach_sparing
    {excluded : Option Nat}
    (sessions : List (Nat × SessionData))
    (hRead : ∀ entry ∈ sessions,
      ReadFor devCall past entry.1) :
    Obeys devCall.sparing past
      (manager.terminateEach excluded sessions)
      (Returns fun past' _ =>
        ∀ entry ∈ sessions, some entry.1 ≠ excluded →
          Dropped past' entry.1) := by
  induction sessions generalizing past with
  | nil =>
      rintro _ ⟨⟩
      exact nofun
  | cons entry sessions ih =>
      rcases entry with ⟨key, session⟩
      unfold Manager.terminateEach
      split
      · rename_i hExcluded
        apply (ih fun entry hEntry =>
          hRead entry (List.mem_cons_of_mem _ hEntry)).mono
        intro past' result _ hRest value hResult entry hEntry
          hNot
        rcases List.mem_cons.mp hEntry with rfl | hEntry
        · exact absurd hExcluded hNot
        · exact hRest value hResult entry hEntry hNot
      · apply (terminate_sparing
          (hRead _ List.mem_cons_self)).andThen
        intro past' deleted hSuffix hTerminated
        obtain ⟨newer, answer, hPast, hDeleted⟩ :=
          hTerminated
        apply (ih fun entry hEntry userId hUser =>
          (hRead entry (List.mem_cons_of_mem _ hEntry)
            userId hUser).mono hSuffix.subset).mono
        intro last result hLast hRest value hResult entry
          hEntry hNot
        rcases List.mem_cons.mp hEntry with rfl | hEntry
        · refine Or.inr ⟨answer, hLast.subset ?_⟩
          rw [hPast]
          exact List.mem_append_left _ hDeleted
        · exact hRest value hResult entry hEntry hNot

/- A sweep drops what was listed for its own user. -/
theorem terminateAllUserSessions_sparing
    (exclude : Option Nat)
    (hOwner : devCall.owner = some userId) :
    Obeys devCall.sparing past
      (manager.terminateAllUserSessions userId exclude)
      (Returns fun past' _ =>
        Swept past' userId (exclude.map manager.key)) := by
  apply (userSessions_sparing userId).andThen
  intro past' sessions _ ⟨keys, hListed, hRead, hKeys⟩
  have hReadFor : ∀ entry ∈ sessions,
      ReadFor devCall past' entry.1 := by
    intro entry hEntry other hOther
    obtain rfl := Option.some.inj (hOwner.symm.trans hOther)
    exact Or.inl ⟨keys, hListed, (hRead entry hEntry).1⟩
  apply (terminateEach_sparing sessions hReadFor).mono
  intro last result hLast hRest value hResult
  refine ⟨keys, hLast.subset hListed, ?_⟩
  intro key hKey hNot
  rcases hKeys key hKey with ⟨session, hSession⟩ | hGone
  · exact hRest value hResult (key, session) hSession hNot
  · exact Or.inl (hLast.subset hGone)

/- The first with the handle is revoked. -/
theorem revokeFirst_sparing
    {handle : Nat}
    (sessions : List (Nat × SessionData))
    (hOwner : devCall.owner = some userId)
    (hRead : ∀ entry ∈ sessions,
      ReadAs past userId entry.1 ∧
      (⟨.sessionGet entry.1, some entry.2⟩ :
        Action storeOps) ∈ past) :
    Obeys devCall.sparing past
      (devices.revokeFirst handle sessions)
      (Returns fun past' removed => removed = true →
        ∃ key, devices.handleOf key = handle ∧
          ReadAs past' userId key ∧ Revoked past' key) := by
  induction sessions with
  | nil =>
      rintro _ ⟨⟩
      exact nofun
  | cons entry sessions ih =>
      rcases entry with ⟨key, session⟩
      obtain ⟨hFirst, hGet⟩ := hRead _ List.mem_cons_self
      unfold Devices.revokeFirst
      split
      · rename_i hHandle
        have hReadFor : ReadFor devCall past key := by
          intro other hOther
          obtain rfl :=
            Option.some.inj (hOwner.symm.trans hOther)
          exact hFirst
        apply (terminate_sparing hReadFor).mono
        intro past' result hSuffix hEnded removed hResult _
        obtain ⟨newer, deleted, hPast, hDeleted⟩ :=
          hEnded removed hResult
        exact ⟨key, hHandle, hFirst.mono hSuffix.subset,
          newer, past, session, deleted, hPast, hGet,
          hDeleted⟩
      · exact ih fun entry hEntry =>
          hRead entry (List.mem_cons_of_mem _ hEntry)

theorem revokeByHandle_sparing
    (handle : Nat)
    (hOwner : devCall.owner = some userId) :
    Obeys devCall.sparing past
      (devices.revokeByHandle handle userId)
      (Returns fun past' removed => removed = true →
        ∃ key, devices.handleOf key = handle ∧
          ReadAs past' userId key ∧ Revoked past' key) := by
  apply (userSessions_sparing userId).andThen
  intro past' sessions _ ⟨keys, hListed, hRead, _⟩
  apply revokeFirst_sparing sessions hOwner
  intro entry hEntry
  obtain ⟨hKey, hGet⟩ := hRead entry hEntry
  exact ⟨Or.inl ⟨keys, hListed, hKey⟩, hGet⟩

/- Every entry of a list was read as the user's session. -/
theorem listForUser_sparing
    (userId : UserId)
    (current : Option Nat) :
    Obeys devCall.sparing past
      (devices.listForUser userId current)
      (Returns fun past' entries =>
        ∀ entry ∈ entries, ∃ key session,
          ReadAs past' userId key ∧
          (⟨.sessionGet key, some session⟩ :
            Action storeOps) ∈ past' ∧
          entry =
            devices.listed current (key, session)) := by
  apply (userSessions_sparing userId).andThen
  rintro past' sessions - ⟨keys, hListed, hRead, -⟩ _ ⟨⟩
    entry hEntry
  obtain ⟨⟨key, session⟩, hMem, rfl⟩ :=
    List.mem_map.mp hEntry
  obtain ⟨hKey, hGet⟩ := hRead _ hMem
  exact ⟨key, session, Or.inl ⟨keys, hListed, hKey⟩, hGet,
    rfl⟩

theorem revoke_sparing
    (sessionId : Nat)
    (ownerId : Option UserId)
    (hOwner : devCall.owner = ownerId) :
    Obeys devCall.sparing past
      (devices.revoke sessionId ownerId)
      (Returns fun past' removed => removed = true →
        Revoked past' (devices.key sessionId)) := by
  refine ⟨trivial, fun found _ => ?_⟩
  cases found with
  | none =>
      rintro _ ⟨⟩
      exact nofun
  | some session =>
      change Obeys devCall.sparing _
        (if ownerId.all (session.userId == ·) then
          devices.terminate (devices.key sessionId) session
        else .done false) _
      split
      · rename_i hAll
        have hReadFor : ReadFor devCall
            (⟨.sessionGet (devices.key sessionId),
              some session⟩ :: past)
            (devices.key sessionId) := by
          intro userId hUser
          obtain rfl := hOwner.symm.trans hUser
          exact Or.inr
            ⟨session,
              List.mem_cons_self, by simpa using hAll⟩
        apply (terminate_sparing hReadFor).mono
        intro past' result _ hEnded removed hResult _
        obtain ⟨newer, deleted, hPast, hDeleted⟩ :=
          hEnded removed hResult
        exact ⟨newer, _, session, deleted, hPast,
          List.mem_cons_self, hDeleted⟩
      · rintro _ ⟨⟩
        exact nofun

end Owned

------------------------------------------------------------
-- Every Call
------------------------------------------------------------

section Calls

variable {devices : Devices}
variable {past : Past}
variable {α : Type}

/- A revocation writes no other record. -/
theorem revokeFirst_plain
    (handle : Nat)
    (sessions : List (Nat × SessionData))
    (past : Past) :
    Obeys plain past (devices.revokeFirst handle sessions)
      fun _ _ => True := by
  induction sessions with
  | nil => trivial
  | cons entry sessions ih =>
      rcases entry with ⟨key, session⟩
      unfold Devices.revokeFirst
      split
      · exact terminate_plain key session past
      · exact ih

theorem revoke_plain
    (sessionId : Nat)
    (ownerId : Option UserId) :
    Obeys plain past (devices.revoke sessionId ownerId)
      fun _ _ => True := by
  refine ⟨trivial, fun found _ => ?_⟩
  cases found with
  | none => trivial
  | some session =>
      change Obeys plain _
        (if ownerId.all (session.userId == ·) then
          devices.terminate (devices.key sessionId) session
        else .done false) _
      split
      · exact terminate_plain _ _ _
      · trivial

/- A program that writes no session stores none. -/
theorem storing_of_plain
    {manager : Manager}
    {program : Managed α}
    (hPlain : Obeys plain past program fun _ _ => True) :
    Obeys (storing manager) past program
      fun _ _ => True := by
  apply hPlain.relax
  · intro past op hOp
    cases op with
    | sessionCreate => cases hOp
    | _ => trivial
  · intro op ret _
    trivial

/- A call that stores sessions. -/
theorem storing_call
    {program : Managed α}
    (outcome : α → DeviceOutcome)
    (hProgram : Obeys (storing devices.toManager) [] program
      fun _ _ => True) :
    Obeys (storing devices.toManager) []
      (program.bind fun value => .done (outcome value))
      fun _ _ => True := by
  apply hProgram.bind
  · intro _ _ _ _
    trivial
  · intro _ _ _ _
    trivial

/- Every call stores only its own. -/
theorem DeviceCall.perform_storing
    (devCall : DeviceCall) :
    Obeys (storing devices.toManager) []
      (devCall.perform devices) fun _ _ => True := by
  cases devCall with
  | managed request =>
      apply storing_call
      have hAny : Obeys
          (request.contract devices.toManager) []
          (request.perform devices.toManager)
          fun _ _ => True :=
        request.perform_obeys.mono fun _ _ _ _ => trivial
      apply hAny.relax
      · intro past op hOp
        cases op with
        | sessionCreate key data ttl =>
            obtain ⟨new, sessionId, -, hKey, hFresh, -, -,
              hOnce⟩ := hOp
            exact ⟨sessionId, hKey, hFresh, hOnce⟩
        | _ => trivial
      · intro op ret _
        trivial
  | listForUser userId current =>
      apply storing_call
      apply storing_of_plain
      apply plain_bind (userSessions_plain userId)
      intro _ _
      trivial
  | revoke sessionId ownerId =>
      exact storing_call _
        (storing_of_plain (revoke_plain sessionId ownerId))
  | revokeByHandle handle ownerId =>
      apply storing_call
      apply storing_of_plain
      exact plain_bind (userSessions_plain ownerId)
        (revokeFirst_plain handle) []
  | revokeAll userId exclude =>
      exact storing_call _ (storing_of_plain
        (terminateAllUserSessions_plain userId exclude []))

/-
  A call that sweeps nothing owes nothing when it returns.
-/
theorem sparing_managed
    {request : Request}
    {program : Managed α}
    (outcome : α → Outcome)
    (hSweeps : (DeviceCall.managed request).sweeps = none)
    (hProgram : Obeys (DeviceCall.managed request).sparing []
      program fun _ _ => True) :
    Obeys (DeviceCall.managed request).sparing []
      ((program.bind fun value =>
        .done (outcome value)).bind fun value =>
          .done (.outcome value))
      (Returns fun past =>
        (DeviceCall.managed request).Returned devices
          past) := by
  have hRequest : Obeys (DeviceCall.managed request).sparing
      [] (program.bind fun value => .done (outcome value))
      fun _ _ => True :=
    sparing_bind hProgram fun _ _ => trivial
  apply hRequest.bind
  · rintro past value - - _ ⟨⟩ userId exclude hSweep
    rw [hSweeps] at hSweep
    cases hSweep
  · intro past error _ _
    exact returns_error error

/- A call of the manager spares the others. -/
theorem perform_managed_sparing (request : Request) :
    Obeys (DeviceCall.managed request).sparing []
      ((DeviceCall.managed request).perform devices)
      (Returns fun past =>
        (DeviceCall.managed request).Returned devices
          past) := by
  cases request with
  | createSession new =>
      exact sparing_managed _ rfl
        (createSession_sparing new rfl)
  | validateSession sessionId updateActivity =>
      exact sparing_managed _ rfl
        (validateSession_sparing sessionId updateActivity
          rfl)
  | setTokenVersion sessionId tokenVersion =>
      apply sparing_managed _ rfl
      exact sparing_bind (modifySession_sparing sessionId _)
        fun _ _ => trivial
  | modifySession sessionId stamp =>
      exact sparing_managed _ rfl
        (modifySession_sparing sessionId stamp)
  | regenerateCsrfToken sessionId expirationSeconds =>
      exact sparing_managed _ rfl
        (regenerateCsrfToken_sparing sessionId
          expirationSeconds rfl)
  | validateCsrfToken sessionId token =>
      exact sparing_managed _ rfl (sparing_of_plain rfl
        (validateCsrfToken_plain sessionId token []))
  | terminateSession sessionId =>
      exact sparing_managed _ rfl (sparing_of_plain rfl
        (terminateSession_plain sessionId []))
  | terminateAllUserSessions userId exclude =>
      let devCall := DeviceCall.managed
        (.terminateAllUserSessions userId exclude)
      have hSweep :
          Obeys devCall.sparing []
            (Request.perform devices.toManager
              (.terminateAllUserSessions userId exclude))
            (Returns fun past _ =>
              Swept past userId
                (exclude.map devices.key)) := by
        apply (terminateAllUserSessions_sparing exclude
          rfl).andThen
        rintro past value - hSwept _ ⟨⟩
        exact hSwept
      apply hSweep.andThen
      rintro past outcome - hSwept _ ⟨⟩ user excluded ⟨⟩
      exact hSwept
  | cleanupExpiredSessions =>
      apply sparing_managed _ rfl
      apply sparing_of_plain rfl
      exact ⟨trivial, fun now _ => ⟨trivial, fun keys _ =>
        sweepSessions_plain now keys _⟩⟩

theorem DeviceCall.perform_sparing
    (devCall : DeviceCall) :
    Obeys devCall.sparing [] (devCall.perform devices)
      (Returns fun past =>
        devCall.Returned devices past) := by
  cases devCall with
  | managed request => exact perform_managed_sparing request
  | listForUser userId current =>
      apply (listForUser_sparing userId current).andThen
      rintro past entries - hEntries _ ⟨⟩
      exact hEntries
  | revoke sessionId ownerId =>
      apply (revoke_sparing sessionId ownerId rfl).andThen
      rintro past removed - hRemoved _ ⟨⟩
      cases removed with
      | false => nofun
      | true => exact hRemoved rfl
  | revokeByHandle handle ownerId =>
      apply (revokeByHandle_sparing handle rfl).andThen
      rintro past removed - hRemoved _ ⟨⟩
      cases removed with
      | false => nofun
      | true => exact hRemoved rfl
  | revokeAll userId exclude =>
      apply (terminateAllUserSessions_sparing exclude
        rfl).andThen
      rintro past value - hSwept _ ⟨⟩ user excluded ⟨⟩
      exact hSwept

/- Every call keeps to its contract. -/
theorem DeviceCall.perform_obeys (devCall : DeviceCall) :
    Obeys (devCall.contract devices.toManager) []
      (devCall.perform devices)
      (Returns fun past =>
        devCall.Returned devices past) :=
  (devCall.perform_storing.both devCall.perform_sparing).mono
    fun _ _ _ hPosts => hPosts.2

end Calls

end SessionStore

end CrudAuth
