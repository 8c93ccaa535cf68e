import CrudAuth.SessionStore.Manager

/-
  What the methods of a `SessionManager` do to its session
  store, and what a `validate_session` has seen when it
  returns a session.

  Main declarations:
    * `Request`
    * `Request.contract`
    * `Request.perform_obeys`
-/

------------------------------------------------------------
-- Requests
------------------------------------------------------------

namespace CrudAuth

namespace SessionStore

open Concurrency
open Concurrency.Program

/- The calls of a manager. -/
inductive Request where
  | createSession (request : Manager.NewSession)
  | validateSession (sessionId : Nat) (updateActivity : Bool)
  | setTokenVersion (sessionId tokenVersion : Nat)
  | modifySession (sessionId : Nat) (stamp : Manager.Stamp)
  | regenerateCsrfToken
      (sessionId : Nat)
      (expirationSeconds : Option Nat)
  | validateCsrfToken (sessionId token : Nat)
  | terminateSession (sessionId : Nat)
  | terminateAllUserSessions
      (userId : UserId)
      (exclude : Option Nat)
  | cleanupExpiredSessions

/- What a call of the manager returns. -/
inductive Outcome where
  | created (sessionId : Nat) (token : Option Nat)
  | validated (session : Option SessionData)
  | rotated (token : Option Nat)
  | verdict (passes : Bool)
  | finished
deriving DecidableEq

variable (manager : Manager)

/- A call of the manager, as a program of the store. -/
def Request.perform : Request → Managed Outcome
  | .createSession request =>
      (manager.createSession request).bind fun ret =>
        .done (.created ret.1 ret.2)
  | .validateSession sessionId updateActivity =>
      (manager.validateSession sessionId updateActivity).bind
        fun session => .done (.validated session)
  | .setTokenVersion sessionId tokenVersion =>
      (manager.setTokenVersion sessionId tokenVersion).bind
        fun rebound => .done (.verdict rebound)
  | .modifySession sessionId stamp =>
      (manager.modifySession sessionId stamp).bind
        fun session => .done (.verdict session.isSome)
  | .regenerateCsrfToken sessionId expirationSeconds =>
      (manager.regenerateCsrfToken sessionId
        expirationSeconds).bind fun token =>
          .done (.rotated token)
  | .validateCsrfToken sessionId token =>
      (manager.validateCsrfToken sessionId token).bind
        fun passes => .done (.verdict passes)
  | .terminateSession sessionId =>
      (manager.terminateSession sessionId).bind
        fun deleted => .done (.verdict deleted)
  | .terminateAllUserSessions userId exclude =>
      (manager.terminateAllUserSessions userId exclude).bind
        fun _ => .done .finished
  | .cleanupExpiredSessions =>
      manager.cleanupExpiredSessions.bind
        fun _ => .done .finished

------------------------------------------------------------
-- Obligations
------------------------------------------------------------

/- What a call has done, the last step first. -/
abbrev Past := List (Action storeOps)

/- The operation writes no session. -/
def Plain : StoreOp → Prop
  | .sessionCreate _ _ _ => False
  | .sessionModify _ _ _ => False
  | _ => True

/- The action has stored a new session. -/
def creates : Action storeOps → Bool
  | ⟨.sessionCreate _ _ _, _⟩ => true
  | _ => false

/- The clock was read. -/
def Timed.Read (past : Past) (time : Nat) : Prop :=
  (⟨.now, time⟩ : Action storeOps) ∈ past

/- The change leaves the times of a session alone. -/
def Steady (change : SessionData → SessionData) : Prop :=
  ∀ session,
    (change session).createdAt = session.createdAt ∧
    (change session).lastActivity = session.lastActivity ∧
    (change session).rememberMe = session.rememberMe

/- A session is stored once, under an id of its own. -/
def MayCreate
    (request : Request)
    (past : Past)
    (key : Nat)
    (data : SessionData) : Prop :=
  ∃ new sessionId,
    request = .createSession new ∧
    key = manager.key sessionId ∧
    (⟨.fresh, sessionId⟩ : Action storeOps) ∈ past ∧
    Timed.Read past data.createdAt ∧
    Timed.Read past data.lastActivity ∧
    past.any creates = false

/- Activity is moved by a `validate_session` only. -/
def MayModify
    (request : Request)
    (past : Past)
    (key : Nat)
    (change : SessionData → SessionData) : Prop :=
  Steady change ∨
  ∃ sessionId now,
    request = .validateSession sessionId true ∧
    key = manager.key sessionId ∧
    change = Manager.touch now ∧
    Timed.Read past now

/- What a call of the manager may do to the store. -/
def Request.contract (request : Request) :
    Contract storeOps where
  rule := fun past op =>
    match op with
    | .sessionCreate key data _ =>
        MayCreate manager request past key data
    | .sessionModify key change _ =>
        MayModify manager request past key change
    | _ => True
  answer := fun _ _ => True

/- Any operation that writes no session. -/
def plain : Contract storeOps where
  rule := fun _ op => Plain op
  answer := fun _ _ => True

/-
  A `validate_session` that returns a session has read one
  that was in time when it read the clock, and returns that
  one, or what it has made of the record since.
-/
def Validated
    (sessionId : Nat)
    (updateActivity : Bool)
    (past : Past)
    (returned : SessionData) : Prop :=
  ∃ newer session now,
    past =
      newer ++
        [⟨.now, now⟩,
          ⟨.sessionGet (manager.key sessionId),
            some session⟩] ∧
    manager.isIdleExpired session now = false ∧
    manager.isOverAge session now = false ∧
    (returned = session ∨
      updateActivity = true ∧
      ∃ ttl runs,
        (⟨.sessionModify (manager.key sessionId)
          (Manager.touch now) ttl, some (runs, returned)⟩ :
            Action storeOps) ∈ past)

/- What a request has done when it returns. -/
def Request.Returned
    (past : Past) : Request → Outcome → Prop
  | .validateSession sessionId updateActivity,
      .validated (some session) =>
      Validated manager sessionId updateActivity past session
  | _, _ => True

------------------------------------------------------------
-- Plain Programs
------------------------------------------------------------

section Plain

variable {manager}
variable {α : Type}
variable {past : Past}
variable {request : Request}

/- A plain program obeys every contract of a request. -/
theorem obeys_of_plain
    {program : Managed α}
    (hPlain : ∀ past,
      Obeys plain past program fun _ _ => True)
    (past : Past) :
    Obeys (request.contract manager) past program
      fun _ _ => True := by
  apply (hPlain past).relax
  · intro past op hOp
    cases op with
    | sessionCreate => cases hOp
    | sessionModify => cases hOp
    | _ => trivial
  · intro op ret _
    trivial

/- A plain part, and what follows it. -/
theorem plain_bind
    {β : Type}
    {program : Managed α}
    {rest : α → Managed β}
    (hProgram : ∀ past,
      Obeys plain past program fun _ _ => True)
    (hRest : ∀ value past,
      Obeys plain past (rest value) fun _ _ => True)
    (past : Past) :
    Obeys plain past (program.bind rest)
      fun _ _ => True := by
  apply (hProgram past).bind
  · intro past' value _ _
    exact hRest value past'
  · intro _ _ _ _
    trivial

/- A deletion is plain. -/
theorem terminate_plain
    (key : Nat)
    (session : SessionData)
    (past : Past) :
    Obeys plain past (manager.terminate key session)
      fun _ _ => True := by
  unfold Manager.terminate
  refine ⟨trivial, fun deleted _ => ?_⟩
  simp only [done_bind]
  split
  · exact ⟨trivial, fun _ _ => trivial⟩
  · trivial

/- So is a deletion by id. -/
theorem terminateSession_plain
    (sessionId : Nat)
    (past : Past) :
    Obeys plain past (manager.terminateSession sessionId)
      fun _ _ => True := by
  refine ⟨trivial, fun found _ => ?_⟩
  cases found with
  | none => trivial
  | some session => exact terminate_plain _ session _

theorem loadSessions_plain
    (keys : List Nat)
    (past : Past) :
    Obeys plain past (Manager.loadSessions keys)
      fun _ _ => True := by
  induction keys generalizing past with
  | nil => trivial
  | cons key keys ih =>
      refine ⟨trivial, fun found _ => ?_⟩
      cases found with
      | none => exact ih _
      | some session =>
          refine plain_bind ih ?_ _
          intro _ _
          trivial

theorem userSessions_plain
    (userId : UserId)
    (past : Past) :
    Obeys plain past (Manager.userSessions userId)
      fun _ _ => True :=
  ⟨trivial, fun keys _ => loadSessions_plain keys _⟩

theorem terminateEach_plain
    (excluded : Option Nat)
    (sessions : List (Nat × SessionData))
    (past : Past) :
    Obeys plain past
      (manager.terminateEach excluded sessions)
      fun _ _ => True := by
  induction sessions generalizing past with
  | nil => trivial
  | cons pair sessions ih =>
      rcases pair with ⟨key, session⟩
      unfold Manager.terminateEach
      split
      · exact ih past
      · exact plain_bind (terminate_plain key session)
          (fun _ => ih) past

theorem terminateAllUserSessions_plain
    (userId : UserId)
    (exclude : Option Nat)
    (past : Past) :
    Obeys plain past
      (manager.terminateAllUserSessions userId exclude)
      fun _ _ => True :=
  plain_bind (userSessions_plain userId)
    (terminateEach_plain _) past

theorem enforceSessionLimit_plain
    (userId : UserId)
    (past : Past) :
    Obeys plain past (manager.enforceSessionLimit userId)
      fun _ _ => True := by
  apply plain_bind (userSessions_plain userId)
  intro active past'
  split
  · exact terminateEach_plain none _ past'
  · trivial

theorem replacePresented_plain
    (presented : Option Nat)
    (past : Past) :
    Obeys plain past (manager.replacePresented presented)
      fun _ _ => True := by
  cases presented with
  | none => trivial
  | some old =>
      refine plain_bind (terminateSession_plain old) ?_ past
      intro _ _
      trivial

theorem generateCsrfToken_plain
    (key ttl : Nat)
    (past : Past) :
    Obeys plain past (manager.generateCsrfToken key ttl)
      fun _ _ => True := by
  unfold Manager.generateCsrfToken
  split
  · exact ⟨trivial, fun _ _ => ⟨trivial, fun _ _ =>
      ⟨trivial, fun _ _ => trivial⟩⟩⟩
  · trivial

theorem validateCsrfToken_plain
    (sessionId token : Nat)
    (past : Past) :
    Obeys plain past
      (manager.validateCsrfToken sessionId token)
      fun _ _ => True := by
  unfold Manager.validateCsrfToken
  split
  · refine ⟨trivial, fun found _ => ?_⟩
    cases found <;> trivial
  · trivial

theorem sweepSessions_plain
    (now : Nat)
    (keys : List Nat)
    (past : Past) :
    Obeys plain past (manager.sweepSessions now keys)
      fun _ _ => True := by
  induction keys generalizing past with
  | nil => trivial
  | cons key keys ih =>
      refine ⟨trivial, fun found _ => ?_⟩
      cases found with
      | none => exact ih _
      | some session =>
          change Obeys plain _
            (if manager.isIdleExpired session now then _
              else _) _
          split
          · exact plain_bind (terminate_plain key session)
              (fun _ => ih) _
          · exact ih _

end Plain

------------------------------------------------------------
-- Requests Obey
------------------------------------------------------------

section Requests

variable {manager}
variable {past : Past}
variable {request : Request}

/- A stamp leaves the creation time. -/
theorem steady_stamp (stamp : Manager.Stamp) :
    Steady (stamp.apply ·) := by
  intro session
  cases stamp <;> exact ⟨rfl, rfl, rfl⟩

theorem steady_rotate (newKey : Nat) :
    Steady (Manager.rotate newKey) :=
  fun _ => ⟨rfl, rfl, rfl⟩

/- A rotation rewrites the session, and steadily. -/
theorem rotateToken_obeys
    (key ttl : Nat)
    (past : Past) :
    Obeys (request.contract manager) past
      (manager.rotateToken key ttl) fun _ _ => True := by
  apply (obeys_of_plain
    (generateCsrfToken_plain key ttl) past).bind
  · intro past' token _ _
    cases token with
    | none => trivial
    | some token =>
        refine ⟨Or.inl (steady_rotate _),
          fun swapped _ => ?_⟩
        apply obeys_of_plain
        intro past
        cases swapped with
        | none => exact ⟨trivial, fun _ _ => trivial⟩
        | some swapped =>
            simp only [done_bind]
            split
            · trivial
            · exact ⟨trivial, fun _ _ => trivial⟩
  · intro _ _ _ _
    trivial

/- What is stored is what was just drawn. -/
theorem storeSession_obeys
    {new : Manager.NewSession}
    {sessionId createdAt lastActivity : Nat}
    (hFresh :
      (⟨.fresh, sessionId⟩ : Action storeOps) ∈ past)
    (hCreated : Timed.Read past createdAt)
    (hActivity : Timed.Read past lastActivity)
    (hFirst : past.any creates = false) :
    Obeys ((Request.createSession new).contract manager) past
      (manager.storeSession new sessionId createdAt
        lastActivity) fun _ _ => True := by
  unfold Manager.storeSession Manager.generateCsrfToken
  split
  · refine ⟨trivial, fun token _ => ⟨trivial, fun now _ =>
      ⟨trivial, fun _ _ => ⟨?_, fun _ _ => trivial⟩⟩⟩⟩
    refine ⟨new, sessionId, rfl, rfl, ?_, ?_, ?_, ?_⟩
    · simp [hFresh]
    · simp only [Timed.Read, List.mem_cons] at hCreated ⊢
      simp [hCreated]
    · simp only [Timed.Read, List.mem_cons] at hActivity ⊢
      simp [hActivity]
    · simpa [creates] using hFirst
  · exact ⟨⟨new, sessionId, rfl, rfl, hFresh, hCreated,
      hActivity, hFirst⟩, fun _ _ => trivial⟩

/- A plain program stores no new session. -/
theorem obeys_plain_creates
    {α : Type}
    {program : Managed α}
    (hPlain : Obeys plain past program fun _ _ => True) :
    Obeys (request.contract manager) past program
      fun past' _ =>
        past'.any creates = past.any creates := by
  induction program generalizing past with
  | done value => rfl
  | raise error => rfl
  | perform op next ih =>
      constructor
      · cases op with
        | sessionCreate => cases hPlain.1
        | sessionModify => cases hPlain.1
        | _ => trivial
      · intro ret _
        apply (ih ret (hPlain.2 ret trivial)).mono
        intro past' result _ hCreates
        rw [hCreates, List.any_cons]
        cases op with
        | sessionCreate => cases hPlain.1
        | _ => rfl

/- A login stores one session. -/
theorem createSession_obeys
    (new : Manager.NewSession) :
    Obeys ((Request.createSession new).contract manager) []
      (manager.createSession new) fun _ _ => True := by
  apply (obeys_plain_creates
    (replacePresented_plain new.presented [])).bind
  · intro past _ _ hPast
    apply (obeys_plain_creates
      (enforceSessionLimit_plain new.userId past)).bind
    · intro past' _ _ hPast'
      have hNone : past'.any creates = false :=
        hPast'.trans hPast
      refine ⟨trivial, fun sessionId _ => ⟨trivial,
        fun createdAt _ => ⟨trivial,
          fun lastActivity _ => ?_⟩⟩⟩
      apply storeSession_obeys
      · simp
      · simp [Timed.Read]
      · simp [Timed.Read]
      · simpa [creates] using hNone
    · intro _ _ _ _
      trivial
  · intro _ _ _ _
    trivial

/- A session is returned as it was read, or touched. -/
theorem acceptSession_obeys
    {sessionId : Nat}
    {updateActivity : Bool}
    {session : SessionData}
    {now : Nat} :
    Obeys
      ((Request.validateSession sessionId
        updateActivity).contract manager)
      [⟨.now, now⟩,
        ⟨.sessionGet (manager.key sessionId), some session⟩]
      (manager.acceptSession (manager.key sessionId)
        updateActivity session now)
      (Returns fun past returned =>
        ∀ session, returned = some session →
          Validated manager sessionId updateActivity past
            session) := by
  unfold Manager.acceptSession
  split
  · refine (obeys_of_plain
      (terminate_plain (manager.key sessionId) session)
        _).bind ?_ ?_
    · intro past' _ _ _
      rw [obeys_done, returns_ok]
      rintro _ ⟨⟩
    · intro past' error _ _
      exact returns_error error
  · rename_i hInTime
    rw [Bool.or_eq_true, not_or, Bool.not_eq_true,
      Bool.not_eq_true] at hInTime
    split
    · rename_i hUpdate
      refine ⟨Or.inr ⟨sessionId, now, by rw [hUpdate], rfl,
        rfl, List.mem_cons_self⟩, fun touched _ => ?_⟩
      cases touched with
      | none =>
          change Returns _ _ (Except.ok none)
          rw [returns_ok]
          rintro _ ⟨⟩
      | some touched =>
          rcases touched with ⟨runs, touched⟩
          let ttl := manager.timeoutSecondsFor session
          let modified : Action storeOps :=
            ⟨.sessionModify (manager.key sessionId)
              (Manager.touch now) (some ttl),
              some (runs, touched)⟩
          have hReturned
              (newer : Past)
              (hModified : modified ∈ newer) :
              Validated manager sessionId updateActivity
                (newer ++
                  [⟨.now, now⟩,
                    ⟨.sessionGet (manager.key sessionId),
                      some session⟩]) touched :=
            ⟨newer, session, now, rfl, hInTime.1, hInTime.2,
              Or.inr ⟨hUpdate, some ttl, runs,
                List.mem_append_left _ hModified⟩⟩
          simp only [done_bind]
          split
          · refine ⟨trivial, fun extended _ => ?_⟩
            change Returns _ _ (Except.ok (some touched))
            rw [returns_ok]
            rintro _ ⟨⟩
            exact hReturned [⟨.csrfExtend _ ttl, extended⟩,
              modified] (by simp)
          · change Returns _ _ (Except.ok (some touched))
            rw [returns_ok]
            rintro _ ⟨⟩
            exact hReturned [modified] (by simp)
    · rw [obeys_done, returns_ok]
      rintro _ ⟨⟩
      exact ⟨[], session, now, rfl, hInTime.1, hInTime.2,
        Or.inl rfl⟩

/- A request touches what it has read. -/
theorem validateSession_obeys
    (sessionId : Nat)
    (updateActivity : Bool) :
    Obeys
      ((Request.validateSession sessionId
        updateActivity).contract manager) []
      (manager.validateSession sessionId updateActivity)
      (Returns fun past returned =>
        ∀ session, returned = some session →
          Validated manager sessionId updateActivity past
            session) := by
  refine ⟨trivial, fun found _ => ?_⟩
  cases found with
  | none =>
      change Returns _ _ (Except.ok none)
      rw [returns_ok]
      rintro _ ⟨⟩
  | some session =>
      exact ⟨trivial, fun now _ => acceptSession_obeys⟩

/- A stamp rewrites the session, and steadily. -/
theorem modifySession_obeys
    (sessionId : Nat)
    (stamp : Manager.Stamp) :
    Obeys (request.contract manager) past
      (manager.modifySession sessionId stamp)
      fun _ _ => True :=
  ⟨Or.inl (steady_stamp stamp), fun _ _ => trivial⟩

/- A rotation binds the token it has drawn. -/
theorem regenerateCsrfToken_obeys
    (sessionId : Nat)
    (expirationSeconds : Option Nat) :
    Obeys (request.contract manager) past
      (manager.regenerateCsrfToken sessionId
        expirationSeconds) fun _ _ => True := by
  unfold Manager.regenerateCsrfToken
  split
  · refine ⟨trivial, fun found _ => ?_⟩
    cases found with
    | none => trivial
    | some session => exact rotateToken_obeys _ _ _
  · trivial

/- Every request keeps to its contract. -/
theorem Request.perform_obeys (request : Request) :
    Obeys (request.contract manager) []
      (request.perform manager)
      (Returns fun past =>
        request.Returned manager past) := by
  have hOther
      {α : Type}
      {program : Managed α}
      {outcome : α → Outcome}
      (hProgram :
        Obeys (request.contract manager) [] program
          fun _ _ => True)
      (hReturned : ∀ past value,
        request.Returned manager past (outcome value)) :
      Obeys (request.contract manager) []
        (program.bind fun value => .done (outcome value))
        (Returns fun past =>
          request.Returned manager past) := by
    apply hProgram.bind
    · intro past' value _ _
      rw [obeys_done, returns_ok]
      exact hReturned past' value
    · intro past' error _ _
      exact returns_error error
  cases request with
  | createSession new =>
      exact hOther (createSession_obeys new)
        fun _ _ => trivial
  | validateSession sessionId updateActivity =>
      apply (validateSession_obeys sessionId
        updateActivity).andThen
      intro past' session _ hSession
      rw [obeys_done, returns_ok]
      cases session with
      | none => trivial
      | some session => exact hSession session rfl
  | setTokenVersion sessionId tokenVersion =>
      apply hOther _ fun _ _ => trivial
      apply (modifySession_obeys sessionId _).bind
      · intro _ _ _ _
        trivial
      · intro _ _ _ _
        trivial
  | modifySession sessionId stamp =>
      exact hOther (modifySession_obeys sessionId stamp)
        fun _ _ => trivial
  | regenerateCsrfToken sessionId expirationSeconds =>
      exact hOther (regenerateCsrfToken_obeys sessionId
        expirationSeconds) fun _ _ => trivial
  | validateCsrfToken sessionId token =>
      exact hOther (obeys_of_plain
        (validateCsrfToken_plain sessionId token) [])
          fun _ _ => trivial
  | terminateSession sessionId =>
      exact hOther (obeys_of_plain
        (terminateSession_plain sessionId) [])
          fun _ _ => trivial
  | terminateAllUserSessions userId exclude =>
      exact hOther (obeys_of_plain
        (terminateAllUserSessions_plain userId exclude) [])
          fun _ _ => trivial
  | cleanupExpiredSessions =>
      apply hOther _ fun _ _ => trivial
      apply obeys_of_plain
      intro past
      exact ⟨trivial, fun now _ => ⟨trivial, fun keys _ =>
        sweepSessions_plain now keys _⟩⟩

end Requests

end SessionStore

end CrudAuth
