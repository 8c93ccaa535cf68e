import CrudAuth.SessionStore.Discipline

/-
  The fields of a session that a call of its manager writes:
  one at most, and no other field of the record.

  Main declarations:
    * `Field`
    * `Request.writes`
    * `Request.confined`
    * `Operation`
    * `Operation.perform_confined`
-/

------------------------------------------------------------
-- Fields
------------------------------------------------------------

namespace CrudAuth

namespace SessionStore

open Concurrency
open Concurrency.Program

/- What the calls of a manager write in a session. -/
inductive Field where
  | lastActivity
  | csrfTokenId
  | sudoStamp
  | tokenVersion
deriving DecidableEq

/- The value of a field. -/
def Field.read (session : SessionData) : Field → Option Nat
  | .lastActivity => some session.lastActivity
  | .csrfTokenId => session.csrfTokenId
  | .sudoStamp => session.sudoStamp
  | .tokenVersion => session.tokenVersion

/- The one field that a stamp sets. -/
def Manager.Stamp.field : Manager.Stamp → Field
  | .sudoStamp _ => .sudoStamp
  | .tokenVersion _ => .tokenVersion

/- The field that a call writes, where it finds a session. -/
def Request.writes : Request → Option Field
  | .validateSession _ true => some .lastActivity
  | .setTokenVersion _ _ => some .tokenVersion
  | .modifySession _ stamp => some stamp.field
  | .regenerateCsrfToken _ _ => some .csrfTokenId
  | _ => none

/- The change leaves every field but that of the call. -/
def Request.Confines
    (request : Request)
    (change : SessionData → SessionData) : Prop :=
  ∀ session field,
    request.writes ≠ some field →
      field.read (change session) = field.read session

/- No session is stored, and a change is confined. -/
def Request.confined (request : Request) :
    Contract storeOps where
  rule := fun _ op =>
    match op with
    | .sessionCreate _ _ _ => False
    | .sessionModify _ change _ => request.Confines change
    | _ => True
  answer := fun _ _ => True

/- Whether a call stores a session of its own. -/
def Request.opensSession : Request → Bool
  | .createSession _ => true
  | _ => false

/- The calls on sessions that there are. -/
abbrev Operation :=
  { request : Request // request.opensSession = false }

------------------------------------------------------------
-- Confined Changes
------------------------------------------------------------

variable {request : Request}

/- A touch writes the activity only. -/
theorem confines_touch
    (now : Nat)
    (hWrites : request.writes = some .lastActivity) :
    request.Confines (Manager.touch now) := by
  intro session field hField
  cases field with
  | lastActivity => exact absurd hWrites hField
  | csrfTokenId => rfl
  | sudoStamp => rfl
  | tokenVersion => rfl

theorem confines_rotate
    (newKey : Nat)
    (hWrites : request.writes = some .csrfTokenId) :
    request.Confines (Manager.rotate newKey) := by
  intro session field hField
  cases field with
  | csrfTokenId => exact absurd hWrites hField
  | lastActivity => rfl
  | sudoStamp => rfl
  | tokenVersion => rfl

/- A stamp sets its own field. -/
theorem read_stamp
    (stamp : Manager.Stamp)
    (session : SessionData)
    {field : Field}
    (hField : stamp.field ≠ field) :
    field.read (stamp.apply session) =
      field.read session := by
  cases stamp with
  | sudoStamp value =>
      cases field with
      | sudoStamp => exact absurd rfl hField
      | lastActivity => rfl
      | csrfTokenId => rfl
      | tokenVersion => rfl
  | tokenVersion value =>
      cases field with
      | tokenVersion => exact absurd rfl hField
      | lastActivity => rfl
      | csrfTokenId => rfl
      | sudoStamp => rfl

theorem confines_stamp
    {stamp : Manager.Stamp}
    (hWrites : request.writes = some stamp.field) :
    request.Confines (stamp.apply ·) := by
  intro session field hField
  apply read_stamp
  rintro rfl
  exact hField hWrites

------------------------------------------------------------
-- Confined Calls
------------------------------------------------------------

section Confined

variable {manager : Manager}
variable {past : Past}
variable {α : Type}

/- A program that writes no session is confined. -/
theorem confined_of_plain
    {program : Managed α}
    (hPlain : Obeys plain past program fun _ _ => True) :
    Obeys request.confined past program fun _ _ => True := by
  apply hPlain.relax
  · intro past op hOp
    cases op with
    | sessionCreate => cases hOp
    | sessionModify => cases hOp
    | _ => trivial
  · intro op ret _
    trivial

/- A confined part, and what follows it. -/
theorem confined_bind
    {β : Type}
    {program : Managed α}
    {rest : α → Managed β}
    (hProgram :
      Obeys request.confined past program fun _ _ => True)
    (hRest : ∀ value past,
      Obeys request.confined past (rest value)
        fun _ _ => True) :
    Obeys request.confined past (program.bind rest)
      fun _ _ => True := by
  apply hProgram.bind
  · intro past' value _ _
    exact hRest value past'
  · intro _ _ _ _
    trivial

/- A touched session. -/
theorem touchSession_confined
    (key now ttl : Nat)
    (hChange : request.Confines (Manager.touch now)) :
    Obeys request.confined past
      (manager.touchSession key now ttl)
      fun _ _ => True := by
  refine ⟨hChange, fun touched _ => ?_⟩
  cases touched with
  | none => trivial
  | some touched =>
      simp only [done_bind]
      split
      · exact ⟨trivial, fun _ _ => trivial⟩
      · trivial

/- A request writes the activity only. -/
theorem validateSession_confined
    (sessionId : Nat)
    (updateActivity : Bool) :
    Obeys
      (Request.validateSession sessionId
        updateActivity).confined past
      (manager.validateSession sessionId updateActivity)
      fun _ _ => True := by
  refine ⟨trivial, fun found _ => ?_⟩
  cases found with
  | none => trivial
  | some session =>
      refine ⟨trivial, fun now _ => ?_⟩
      change Obeys _ _
        (manager.acceptSession (manager.key sessionId)
          updateActivity session now) _
      unfold Manager.acceptSession
      split
      · exact confined_bind
          (confined_of_plain (terminate_plain _ _ _))
          fun _ _ => trivial
      · split
        · rename_i hUpdate
          subst hUpdate
          exact touchSession_confined _ _ _
            (confines_touch now rfl)
        · trivial

/- A stamp writes its field only. -/
theorem modifySession_confined
    (sessionId : Nat)
    (stamp : Manager.Stamp)
    (hWrites : request.writes = some stamp.field) :
    Obeys request.confined past
      (manager.modifySession sessionId stamp)
      fun _ _ => True :=
  ⟨confines_stamp hWrites, fun _ _ => trivial⟩

/- A rotation writes the new token, in one change. -/
theorem rotateToken_confined
    (key ttl : Nat)
    (hWrites : request.writes = some .csrfTokenId) :
    Obeys request.confined past
      (manager.rotateToken key ttl) fun _ _ => True := by
  apply confined_bind
    (confined_of_plain (generateCsrfToken_plain _ _ _))
  intro token past'
  cases token with
  | none => trivial
  | some token =>
      refine ⟨confines_rotate _ hWrites, fun swapped _ => ?_⟩
      cases swapped with
      | none => exact ⟨trivial, fun _ _ => trivial⟩
      | some swapped =>
          simp only [done_bind]
          split
          · trivial
          · exact ⟨trivial, fun _ _ => trivial⟩

/- A rotation writes the token only. -/
theorem regenerateCsrfToken_confined
    (sessionId : Nat)
    (expirationSeconds : Option Nat)
    (hWrites : request.writes = some .csrfTokenId) :
    Obeys request.confined past
      (manager.regenerateCsrfToken sessionId
        expirationSeconds) fun _ _ => True := by
  unfold Manager.regenerateCsrfToken
  split
  · refine ⟨trivial, fun found _ => ?_⟩
    cases found with
    | none => trivial
    | some session => exact rotateToken_confined _ _ hWrites
  · trivial

/- Every call on a session writes its own field only. -/
theorem Operation.perform_confined (operation : Operation) :
    Obeys operation.val.confined []
      (operation.val.perform manager) fun _ _ => True := by
  rcases operation with ⟨request, hOpens⟩
  have hPlain
      {α : Type}
      {program : Managed α}
      {outcome : α → Outcome}
      (hProgram : Obeys plain [] program fun _ _ => True) :
      Obeys request.confined []
        (program.bind fun value => .done (outcome value))
        fun _ _ => True :=
    confined_bind (confined_of_plain hProgram)
      fun _ _ => trivial
  cases request with
  | createSession new => cases hOpens
  | validateSession sessionId updateActivity =>
      exact confined_bind
        (validateSession_confined sessionId updateActivity)
        fun _ _ => trivial
  | setTokenVersion sessionId tokenVersion =>
      refine confined_bind (confined_bind
        (modifySession_confined sessionId
          (.tokenVersion (some tokenVersion)) rfl) ?_) ?_
      · exact fun _ _ => trivial
      · exact fun _ _ => trivial
  | modifySession sessionId stamp =>
      exact confined_bind
        (modifySession_confined sessionId stamp rfl)
        fun _ _ => trivial
  | regenerateCsrfToken sessionId expirationSeconds =>
      exact confined_bind
        (regenerateCsrfToken_confined sessionId
          expirationSeconds rfl)
        fun _ _ => trivial
  | validateCsrfToken sessionId token =>
      exact hPlain
        (validateCsrfToken_plain sessionId token [])
  | terminateSession sessionId =>
      exact hPlain (terminateSession_plain sessionId [])
  | terminateAllUserSessions userId exclude =>
      exact hPlain
        (terminateAllUserSessions_plain userId exclude [])
  | cleanupExpiredSessions =>
      apply hPlain
      exact ⟨trivial, fun now _ => ⟨trivial, fun keys _ =>
        sweepSessions_plain now keys _⟩⟩

end Confined

end SessionStore

end CrudAuth
