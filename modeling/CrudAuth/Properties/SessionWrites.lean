import CrudAuth.SessionStore.Fields
import CrudAuth.Storage.Modifications

/-
  The calls of a manager on its sessions, over the session
  storage of every backend: a session that was removed does
  not come back, and no write of a field is lost.

  Main declarations:
    * `storageCall`
    * `Operation.serve`
    * `SessionsKept`
    * `sessionsKept_of_reaches`
-/

namespace CrudAuth

namespace SessionStore

open Concurrency
open Concurrency.Program
open Storage

------------------------------------------------------------
-- Sessions In A Storage
------------------------------------------------------------

instance : Owned SessionData where
  userId := fun session => some session.userId

/- A manager's calls, over a storage for its sessions. -/
abbrev managing : Interface :=
  client (calls Nat SessionData) storeOps

/-
  What a store operation is at the storage.  A session is
  deleted with its user, `owner`: that of the record that was
  read, which no call changes.
-/
def storageCall (owner : Nat → Option UserId) :
    (op : StoreOp) → Program managing HttpError op.Ret
  | .sessionCreate key data ttl =>
      Program.call (I := managing)
        (.call (.create key data (some ttl)))
  | .sessionGet key =>
      Program.call (I := managing) (.call (.get key))
  | .sessionModify key change ttl =>
      (Program.call (I := managing)
        (.call (.modify key change ttl.isSome ttl))).bind
          fun written => .done
            (written.map fun pair => ([pair.1], pair.2))
  | .sessionDelete key =>
      Program.call (I := managing)
        (.call (.delete key (owner key)))
  | .userSessions userId =>
      Program.call (I := managing)
        (.call (.getUserSessions userId))
  | .now => Program.call (I := managing) (.app .now)
  | .fresh => Program.call (I := managing) (.app .fresh)
  | .scanKeys =>
    Program.call (I := managing) (.app .scanKeys)
  | .csrfCreate key data ttl =>
      Program.call (I := managing)
        (.app (.csrfCreate key data ttl))
  | .csrfGet key =>
      Program.call (I := managing) (.app (.csrfGet key))
  | .csrfDelete key =>
      Program.call (I := managing) (.app (.csrfDelete key))
  | .csrfExtend key ttl =>
      Program.call (I := managing)
        (.app (.csrfExtend key ttl))

section Served

variable (choice : BackendChoice)

/- The storage of the sessions. -/
abbrev sessionStorage : Backend Nat SessionData :=
  getSessionStorage choice

variable {ω : Type}
variable (world : Server storeOps ω)

/- The storage, and a world that answers the rest. -/
abbrev Service (ω : Type) : Type :=
  Layered (sessionStorage choice).State ω

/- The storage, with whatever else the callers use. -/
abbrev service :=
  serving (sessionStorage choice) world

/- A call of a client, or a step of the backend. -/
abbrev SessionEvent (ι ω : Type) :=
  Moment ι (sessionStorage choice) storeOps ω

/- A call of a manager, at the commands of the backend. -/
def Operation.serve
    (manager : Manager)
    (owner : Nat → Option UserId)
    (ω : Type)
    (operation : Operation) :
    Program (Served (sessionStorage choice) storeOps ω)
      HttpError Outcome :=
  (Layered.lower (sessionStorage choice).implement
    ((operation.val.perform manager).translate
      (storageCall owner))).observed (Service choice ω)

variable {choice}

/- The session in the storage, under a key. -/
def stored?
    (state : Service choice ω)
    (key : Nat) : Option SessionData :=
  (sessionStorage choice).stored state.store key

------------------------------------------------------------
-- The Property
------------------------------------------------------------

variable {ι : Type}

/-
  A `modify` that has returned a session has written what
  its change makes of the one that was stored just before.
-/
def Applied
    (history : List (SessionEvent choice ι ω)) : Prop :=
  ∀ {thread key change reset expiration old new answer}
    {later earlier : List (SessionEvent choice ι ω)},
    history = later ++
      ⟨thread,
        .finished (.modify key change reset expiration)
          (some (old, new)), answer⟩ :: earlier →
    new = change old ∧
    ∃ between event before,
      earlier = between ++ event :: before ∧
      event.thread = thread ∧
      (∃ command, event.op = .command command) ∧
      OnlyCommands thread between ∧
      Overwrites (sessionStorage choice) world key old new
        event

/- A field is changed by the calls that write it only. -/
def Undisturbed
    (operations : ι → Operation)
    (history : List (SessionEvent choice ι ω)) : Prop :=
  ∀ event ∈ history, ∀ key old new field,
    Overwrites (sessionStorage choice) world key old new
      event →
    (operations event.thread).val.writes ≠ some field →
    field.read new = field.read old

/-
  What holds of a run: a session that is gone stays gone, as
  one is that a `delete` has returned for, and of the writes
  none is lost.
-/
structure SessionsKept
    [DecidableEq ι]
    (operations : ι → Operation)
    (config :
      Config ι (Served (sessionStorage choice) storeOps ω)
        (Service choice ω) HttpError Outcome) : Prop where
  gone : ∀ key later,
    stored? config.state key = none →
    Reaches (service choice world) anyStep config later →
    stored? later.state key = none
  deleted : ∀ thread key userId ret answer,
    (⟨thread, .finished (.delete key userId) ret, answer⟩ :
      SessionEvent choice ι ω) ∈ config.history →
    stored? config.state key = none
  applied : Applied world config.history
  undisturbed : Undisturbed world operations config.history

end Served

------------------------------------------------------------
-- What The Calls Owe
------------------------------------------------------------

/- A call stores no session, and its change is confined. -/
def sessionClients (request : Request) :
    Contract managing where
  rule := fun _ op =>
    match op with
    | .call call =>
        Mild call ∧
        ∀ key change reset expiration,
          call = .modify key change reset expiration →
          request.Confines change
    | _ => True
  answer := fun _ _ => True

section Owed

variable {manager : Manager}
variable {owner : Nat → Option UserId}

/- A store operation owes at the storage what it owed. -/
theorem storageCall_obeys
    {request : Request}
    {past : Past}
    {lowPast : List (Action managing)}
    {op : StoreOp}
    (hRule : request.confined.rule past op) :
    Obeys (sessionClients request) lowPast
      (storageCall owner op) fun _ _ => True := by
  cases op with
  | sessionCreate key data ttl => cases hRule
  | sessionModify key change ttl =>
      refine ⟨⟨trivial, ?_⟩, fun _ _ => trivial⟩
      rintro _ _ _ _ ⟨⟩
      exact hRule
  | sessionGet key =>
      exact ⟨⟨trivial, nofun⟩, fun _ _ => trivial⟩
  | sessionDelete key =>
      exact ⟨⟨trivial, nofun⟩, fun _ _ => trivial⟩
  | userSessions userId =>
      exact ⟨⟨trivial, nofun⟩, fun _ _ => trivial⟩
  | now => exact ⟨trivial, fun _ _ => trivial⟩
  | fresh => exact ⟨trivial, fun _ _ => trivial⟩
  | scanKeys => exact ⟨trivial, fun _ _ => trivial⟩
  | csrfCreate key data ttl =>
      exact ⟨trivial, fun _ _ => trivial⟩
  | csrfGet key => exact ⟨trivial, fun _ _ => trivial⟩
  | csrfDelete key => exact ⟨trivial, fun _ _ => trivial⟩
  | csrfExtend key ttl => exact ⟨trivial, fun _ _ => trivial⟩

/- Every call on a session keeps to what it owes. -/
theorem Operation.translate_obeys (operation : Operation) :
    Obeys (sessionClients operation.val) []
      ((operation.val.perform manager).translate
        (storageCall owner)) fun _ _ => True := by
  let shows (_ : List (Action managing)) (_ : Past) : Prop :=
    True
  have hShows : shows [] [] := trivial
  refine operation.perform_confined.translate hShows ?_
  intro lowPast past op _ hRule
  apply (storageCall_obeys hRule).mono
  intro past' result _ _
  cases result with
  | ok ret => exact (returns_ok ret).mpr ⟨trivial, trivial⟩
  | error error => exact returns_error error

variable {choice : BackendChoice}
variable {ω : Type}

/- So does it over a backend, by a laxer contract too. -/
theorem Operation.serve_obeys
    {clients : Contract managing}
    (operation : Operation)
    (hRule : ∀ past op,
      (sessionClients operation.val).rule past op →
        clients.rule past op)
    (hAnswer : ∀ op ret, clients.answer op ret) :
    Obeys
      (((disciplineOf choice).contract clients).observed
        (Service choice ω)) []
      (operation.serve choice manager owner ω)
      fun _ _ => True := by
  have hClient :
      Obeys clients []
        ((operation.val.perform manager).translate
          (storageCall owner)) fun _ _ => True :=
    operation.translate_obeys.relax hRule
      fun _ _ _ => trivial
  let unseen : List (Action
      (Served (sessionStorage choice) storeOps ω)) := []
  have hLowered :
      Obeys ((disciplineOf choice).contract clients)
        (unseen.map seen)
        (Layered.lower (sessionStorage choice).implement
          ((operation.val.perform manager).translate
            (storageCall owner))) fun _ _ => True :=
    Layered.lower_obeys (implement_obeys choice)
      (fun _ _ _ _ => hAnswer _ _) (fun _ => rfl) hClient
  exact hLowered.observed

end Owed

------------------------------------------------------------
-- Runs
------------------------------------------------------------

section Runs

variable {ι : Type} [DecidableEq ι]
variable {choice : BackendChoice}
variable {ω : Type}
variable {world : Server storeOps ω}
variable {manager : Manager}
variable {owner : Nat → Option UserId}
variable {operations : ι → Operation}
variable {start : Service choice ω}
variable {config later :
  Config ι (Served (sessionStorage choice) storeOps ω)
    (Service choice ω) HttpError Outcome}

variable (choice world manager owner operations start) in
/- Runs of the calls, from any state of the storage. -/
abbrev BackedRuns :
    Config ι (Served (sessionStorage choice) storeOps ω)
      (Service choice ω) HttpError Outcome → Prop :=
  Reaches (service choice world) anyStep
    ⟨start, [],
      fun thread =>
        (operations thread).serve choice manager owner ω⟩

/- Each request keeps to its operations. -/
theorem confined_of_runs
    (hRuns : BackedRuns choice world manager owner
      operations start config) :
    Trace (service choice world)
      (fun thread =>
        ((disciplineOf choice).contract
          (sessionClients
            (operations thread).val)).observed
              (Service choice ω))
      anyStep start [] config.state config.history := by
  refine Reaches.trace (fun thread =>
    (operations thread).serve_obeys (fun _ _ hRule => hRule)
      fun _ _ => trivial) ?_ hRuns
  intro thread op state
  cases op <;> trivial

/- The storage is driven within its contract. -/
theorem mildly_of_runs
    (hRuns : BackedRuns choice world manager owner
      operations start config) :
    Mildly (sessionStorage choice) (disciplineOf choice)
      world start config.state config.history := by
  refine Reaches.trace (fun thread =>
    (operations thread).serve_obeys ?_
      fun _ _ => trivial) ?_ hRuns
  · intro past op hRule
    cases op with
    | call call => exact hRule.1
    | now => trivial
    | app op => trivial
  · intro thread op state
    cases op <;> trivial

/- What is gone stays gone, step by step. -/
theorem gone_of_reaches
    {key : Nat}
    (hRuns : BackedRuns choice world manager owner
      operations start config)
    (hNone : stored? config.state key = none)
    (hLater :
      Reaches (service choice world) anyStep config later) :
    stored? later.state key = none := by
  induction hLater with
  | start => exact hNone
  | perform hBefore hNext hAllowed ih =>
      have hMild := mildly_of_runs
        (hRuns.trans (.perform hBefore hNext hAllowed))
      exact stored_of_event hMild List.mem_cons_self ih
  | tick _ tick ih => exact stored_tick tick ih

/- What was reported applied was applied. -/
theorem applied_of_runs
    (hRuns : BackedRuns choice world manager owner
      operations start config) :
    Applied world config.history := by
  intro thread key change reset expiration old new answer
    later earlier hHistory
  have hMild := mildly_of_runs hRuns
  rw [hHistory] at hMild
  rcases hMild.at_moment with
    ⟨hEarlier, ⟨-, made, hUnderway, hReturns⟩, -, -⟩
  exact (lastingOf choice world).writes hEarlier hUnderway
    hReturns

/- Nobody writes another's record. -/
theorem undisturbed_of_runs
    (hRuns : BackedRuns choice world manager owner
      operations start config) :
    Undisturbed world operations config.history := by
  intro event hEvent key old new field
    ⟨hBefore, hAfter⟩ hField
  rcases List.append_of_mem hEvent with
    ⟨later, earlier, hHistory⟩
  have hMild := mildly_of_runs hRuns
  have hConfined := confined_of_runs hRuns
  rw [hHistory] at hMild hConfined
  have hRule := hConfined.at_moment.2.1
  have hSame
      (hKept :
        (sessionStorage choice).stored
          ((service choice world).exec event.op
            event.moment).2.store key =
        (sessionStorage choice).stored
          event.moment.store key) :
      field.read new = field.read old := by
    rw [hBefore, hAfter] at hKept
    rw [Option.some.inj hKept]
  rcases event with ⟨thread, op, ret⟩
  cases op with
  | now => exact hSame rfl
  | began call => exact hSame rfl
  | finished call ret => exact hSame rfl
  | app op => exact hSame rfl
  | command op =>
      rcases hRule with
        ⟨call, made, hUnderway, ⟨hCall, hConfines⟩,
          hCommand, -⟩
      have hBecomes : Becomes call key
          ((sessionStorage choice).stored ret.2.store key)
          ((sessionStorage choice).stored
            ((sessionStorage choice).server.exec op
              ret.2.clock ret.2.store).2 key) :=
        (lastingOf choice world).command hMild.at_moment.1
          hUnderway hCall hCommand
      have hValues :
          Becomes call key (some old) (some new) := by
        rw [← hBefore, ← hAfter]
        exact hBecomes
      cases hValues with
      | same => rfl
      | changed _ hModify =>
          exact hConfines _ _ _ _ hModify old field hField

end Runs

/-
  On every backend, whatever the interleaving: a session that
  was removed does not come back, and every `modify` changes
  the session that it writes over, in its own field.
-/
theorem sessionsKept_of_reaches
    {ι ω : Type} [DecidableEq ι]
    (choice : BackendChoice)
    (world : Server storeOps ω)
    (manager : Manager)
    (owner : Nat → Option UserId)
    (operations : ι → Operation)
    {start : Service choice ω}
    {config :
      Config ι (Served (sessionStorage choice) storeOps ω)
        (Service choice ω) HttpError Outcome}
    (hReaches :
      Reaches (service choice world) anyStep
        ⟨start, [],
          fun thread =>
            (operations thread).serve choice manager owner ω⟩
        config) :
    SessionsKept world operations config where
  gone _ _ := gone_of_reaches hReaches
  deleted _ _ _ _ _ :=
    stored_of_deleted (mildly_of_runs hReaches)
  applied := applied_of_runs hReaches
  undisturbed := undisturbed_of_runs hReaches

------------------------------------------------------------
-- A Logout During A Request
------------------------------------------------------------

/- The tokens and the clock, beside the sessions. -/
def beside : Server storeOps Stores where
  Upkeep := Empty
  exec op now stores :=
    Stores.exec .strict op
      { stores with clock := now / 1000 }
  upkeep upkeep _ _ := upkeep.elim

/- Sessions of half an hour, five a user. -/
def oneManager : Manager where
  config :=
    { sessionTimeout := 30 * 60
      rememberMeTimeout := 30 * 60
      absoluteTimeout := none
      maxSessions := 5 }
  hasCsrfStorage := true
  key := id
  csrfKey := id

/- One session is stored, under 5. -/
def oneStored : Service (.memory 1800) Stores where
  clock := 0
  store :=
    AList.insert 5
      { value := ⟨1, 0, 0, false, none, none, none⟩
        expiry := 1800000 }
      (∅ : Memory Nat SessionData)
  app := ⟨0, 0, ∅, ∅, []⟩

/- A request with the session, and its logout. -/
def raced : Bool → Operation
  | false => ⟨.validateSession 5 true, rfl⟩
  | true => ⟨.terminateSession 5, rfl⟩

/- The logout comes between the read and the write. -/
def logout :
    List
      (Choice Bool (service (.memory 1800) beside).Tick) :=
  List.replicate 4 (.thread false) ++
    List.replicate 6 (.thread true) ++
    List.replicate 3 (.thread false)

/- The run, if its schedule can be followed. -/
def racedRun :=
  Config.run (service (.memory 1800) beside) anyStep
    ⟨oneStored, [],
      fun thread =>
        (raced thread).serve (.memory 1800) oneManager
          (fun _ => some 1) Stores⟩
    logout

theorem racedRun_ends : racedRun.isSome = true := by
  decide

/- A logout beside a request. -/
theorem logout_kept :
    SessionsKept beside raced (racedRun.get racedRun_ends) :=
  sessionsKept_of_reaches (.memory 1800) beside oneManager
    (fun _ => some 1) raced
    (Reaches.of_run (Option.some_get racedRun_ends).symm)

end SessionStore

end CrudAuth
