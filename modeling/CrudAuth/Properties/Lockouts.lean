import CrudAuth.RateLimit.Counting
import CrudAuth.RateLimit.KeyRows

/-
  An announced lockout is enforced, under any order of the
  backend's operations: a call that sets a lock which is not
  there yet, and every later call that reads it in time, if
  no other key of the run is kept in the lock's row.

  Main declarations:
    * `LockoutPolicy.record`
    * `LockoutPolicy.heeding`
    * `LockoutPolicy.record_heeds`
    * `Backend.Holds`
    * `LockoutPolicy.LaterCall`
    * `LockoutPolicy.Enforced`
    * `LockoutPolicy.LaterCall.Alone`
    * `LockoutPolicy.LaterCall.refused_of_inTime`
    * `LockoutPolicy.not_enforced_of_lastSecond`
-/

namespace CrudAuth

namespace RateLimit

open Concurrency

variable {ι : Type} [DecidableEq ι]
variable {ρ : Type} [DecidableEq ρ]

------------------------------------------------------------
-- Calls
------------------------------------------------------------

/- The arguments of a `check_and_record` call. -/
structure Recording where
  ipAddress : String
  username : String
  success : Bool

/- The keys that lock an address or an identifier. -/
def IsLock : Key → Prop
  | .ipLock _ => True
  | .userLock _ => True
  | _ => False

/- If an operation sets a lock, it is for the duration. -/
def Op.Arms (duration : Nat) : Op → Prop
  | .increment key _ expiry =>
      IsLock key → expiry = duration
  | _ => True

/- If an operation reads a lock, there is none. -/
def ReadsFree : (op : Op) → op.Ret → Prop
  | .getTtl key, ttl => IsLock key → ttl = 0
  | _, _ => True

/- Every lock that was set is for the duration. -/
def ArmsFor (duration : Nat) (past : List Act) : Prop :=
  ∀ action ∈ past, action.op.Arms duration

/- No lock was set: any duration fits. -/
def Unarmed (past : List Act) : Prop :=
  ∀ duration, ArmsFor duration past

/- No lock was found. -/
def Unlocked (past : List Act) : Prop :=
  ∀ action ∈ past, ReadsFree action.op action.ret

variable {past : List Act}
variable {duration : Nat}
variable {action : Act}

/- One more write of that duration. -/
theorem ArmsFor.cons
    (hPast : ArmsFor duration past)
    (hOp : action.op.Arms duration) :
    ArmsFor duration (action :: past) :=
  List.forall_mem_cons.mpr ⟨hOp, hPast⟩

/- One more step that arms nothing. -/
theorem Unarmed.cons
    (hPast : Unarmed past)
    (hOp : ∀ duration, action.op.Arms duration) :
    Unarmed (action :: past) :=
  fun duration => (hPast duration).cons (hOp duration)

/- One more reading without a lock. -/
theorem Unlocked.cons
    (hPast : Unlocked past)
    (hRead : ReadsFree action.op action.ret) :
    Unlocked (action :: past) :=
  List.forall_mem_cons.mpr ⟨hRead, hPast⟩

namespace LockoutPolicy

variable (policy : LockoutPolicy)

/- A call of `check_and_record`, from end to end. -/
def record (recording : Recording) : Flow Unit := do
  call (.arrive (.checkAndRecord recording.ipAddress
    recording.username recording.success))
  let outcome ← policy.checkAndRecord recording.ipAddress
    recording.username recording.success
  call (.respond outcome)

/-
  A failure is allowed only if no lock was found, and what
  is announced is the duration of the locks that were set.
-/
def Answers
    (recording : Recording)
    (past : List Act) :
    Outcome → Prop
  | .verdict allowed _ retryAfter =>
      (allowed = true → recording.success = false →
        Unlocked past) ∧
      ArmsFor retryAfter past
  | _ => True

/-
  Locks are never set anew, and only a success deletes one,
  that of its own identifier.
-/
def heeding (recording : Recording) :
    Contract interface where
  rule past
    | .incrementAndRefreshTtl key _ _ => ¬ IsLock key
    | .delete key =>
        IsLock key →
          recording.success = true ∧
            key = policy.userLock recording.username
    | .respond outcome => Answers recording past outcome
    | _ => True
  answer _ _ := True

variable {policy}
variable {recording : Recording}
variable {past : List Act}

------------------------------------------------------------
-- What A Call Does
------------------------------------------------------------

/- An operation that sets no lock, with the rest. -/
theorem unarmed_step
    {α : Type}
    {op : Op}
    {rest : op.Ret → Flow α}
    {post : List Act → Except Empty α → Prop}
    (hUnarmed : Unarmed past)
    (hRule : (policy.heeding recording).rule past op)
    (hOp : ∀ duration, op.Arms duration)
    (hRest : ∀ ret : op.Ret, Unarmed (⟨op, ret⟩ :: past) →
      Program.Obeys (policy.heeding recording)
        (⟨op, ret⟩ :: past) (rest ret) post) :
    Program.Obeys (policy.heeding recording) past
      (Program.bind (call op) rest) post :=
  obeys_step hRule fun ret _ =>
    hRest ret (hUnarmed.cons hOp)

/- With no lock set, a success may answer at any point. -/
theorem answers_of_success
    (hSuccess : recording.success = true)
    (hUnarmed : Unarmed past) :
    Program.Returns (ε := Empty) (Answers recording) past
      (.ok (.verdict true none 0)) := by
  refine (Program.returns_ok _).mpr ⟨?_, hUnarmed 0⟩
  intro _ hFailure
  rw [hSuccess] at hFailure
  cases hFailure

/- A success announces no lock. -/
theorem recordSuccess_heeds
    (hSuccess : recording.success = true)
    (hUnarmed : Unarmed past) :
    (policy.recordSuccess recording.ipAddress
      recording.username).Obeys
        (policy.heeding recording) past
        (Program.Returns (Answers recording)) := by
  unfold recordSuccess
  refine unarmed_step hUnarmed False.elim
    (fun _ => trivial) fun _ hUnarmed => ?_
  refine unarmed_step hUnarmed (fun _ => ⟨hSuccess, rfl⟩)
    (fun _ => trivial) fun _ hUnarmed => ?_
  refine unarmed_step hUnarmed False.elim
    (fun _ => trivial) fun _ hUnarmed => ?_
  split
  · exact answers_of_success hSuccess hUnarmed
  · refine unarmed_step hUnarmed trivial
      (fun _ => trivial) fun ownFailures hUnarmed => ?_
    split
    · exact answers_of_success hSuccess hUnarmed
    · split
      · exact answers_of_success hSuccess hUnarmed
      · refine unarmed_step hUnarmed False.elim
          (fun _ => trivial) fun existed hUnarmed => ?_
        split
        · refine unarmed_step hUnarmed trivial
            (fun _ => False.elim) fun _ hUnarmed => ?_
          exact answers_of_success hSuccess hUnarmed
        · exact answers_of_success hSuccess hUnarmed

/- Counting the pair neither arms nor locks. -/
theorem countPair_heeds
    (hUnarmed : Unarmed past)
    (hUnlocked : Unlocked past) :
    (policy.countPair recording.ipAddress
      recording.username).Obeys
        (policy.heeding recording) past
        (fun past' _ => Unarmed past' ∧ Unlocked past') := by
  unfold countPair
  split
  · exact ⟨hUnarmed, hUnlocked⟩
  · refine unarmed_step hUnarmed trivial
      (fun _ => trivial) fun ipWindow hUnarmed => ?_
    split
    · refine unarmed_step hUnarmed trivial
        (fun _ => False.elim) fun _ hUnarmed => ?_
      refine ⟨hUnarmed, Unlocked.cons ?_ trivial⟩
      exact Unlocked.cons hUnlocked False.elim
    · refine ⟨hUnarmed, ?_⟩
      exact Unlocked.cons hUnlocked False.elim

/- A lock-out answers with the time it arms. -/
theorem lockOut_heeds
    (hUnarmed : Unarmed past) :
    (policy.lockOut recording.ipAddress
      recording.username).Obeys
        (policy.heeding recording) past
        (Program.Returns (Answers recording)) := by
  unfold lockOut
  refine unarmed_step hUnarmed trivial
    (fun _ => trivial) fun ipRounds hUnarmed => ?_
  refine unarmed_step hUnarmed trivial
    (fun _ => trivial) fun userRounds hUnarmed => ?_
  refine obeys_step trivial fun _ _ => ?_
  refine obeys_step trivial fun _ _ => ?_
  refine obeys_step id fun _ _ => ?_
  refine obeys_step id fun _ _ => ?_
  refine (Program.returns_ok _).mpr ⟨?_, ?_⟩
  · intro hAllowed
    cases hAllowed
  · -- both locks are set for what is announced
    refine ArmsFor.cons (ArmsFor.cons ?_ trivial) trivial
    refine ArmsFor.cons (ArmsFor.cons ?_ ?_) ?_
    · exact hUnarmed _
    · exact fun _ => rfl
    · exact fun _ => rfl

/- A failure answers so when it locks. -/
theorem recordFailure_heeds
    (hUnarmed : Unarmed past)
    (hUnlocked : Unlocked past) :
    (policy.recordFailure recording.ipAddress
      recording.username).Obeys
        (policy.heeding recording) past
        (Program.Returns (Answers recording)) := by
  unfold recordFailure
  refine unarmed_step hUnarmed trivial
    (fun _ => trivial) fun ipTtl hUnarmed => ?_
  refine unarmed_step hUnarmed trivial
    (fun _ => trivial) fun userTtl hUnarmed => ?_
  dsimp only
  split
  · refine (Program.returns_ok _).mpr ⟨?_, hUnarmed _⟩
    intro hAllowed
    cases hAllowed
  · rename_i hFree
    obtain ⟨hIp, hUser⟩ :=
      Nat.max_eq_zero_iff.mp (Nat.eq_zero_of_not_pos hFree)
    refine unarmed_step hUnarmed trivial
      (fun _ => False.elim) fun ipCount hUnarmed => ?_
    refine unarmed_step hUnarmed trivial
      (fun _ => False.elim) fun userCount hUnarmed => ?_
    refine Program.Obeys.bind
      (countPair_heeds hUnarmed ?_) ?_ ?_
    · refine Unlocked.cons (Unlocked.cons ?_ trivial) trivial
      refine Unlocked.cons (Unlocked.cons ?_ ?_) ?_
      · exact hUnlocked
      · exact fun _ => hIp
      · exact fun _ => hUser
    · rintro past' _ - ⟨hUnarmed', hUnlocked'⟩
      split
      · refine (Program.returns_ok _).mpr ⟨?_, hUnarmed' 0⟩
        exact fun _ _ => hUnlocked'
      · exact lockOut_heeds hUnarmed'
    · intro past' error _ _
      exact error.elim

/- A call answers with a lock it read or set. -/
theorem checkAndRecord_heeds
    (hUnarmed : Unarmed past)
    (hUnlocked : Unlocked past) :
    (policy.checkAndRecord recording.ipAddress
      recording.username recording.success).Obeys
        (policy.heeding recording) past
        (Program.Returns (Answers recording)) := by
  unfold checkAndRecord
  split
  · rename_i hSuccess
    exact recordSuccess_heeds hSuccess hUnarmed
  · exact recordFailure_heeds hUnarmed hUnlocked

/- A call of `check_and_record` keeps to its contract. -/
theorem record_heeds :
    (policy.record recording).Obeys
      (policy.heeding recording) []
      (fun _ _ => True) := by
  refine obeys_step trivial fun _ _ => ?_
  refine Program.Obeys.bind
    (checkAndRecord_heeds ?_ ?_) ?_ ?_
  · intro duration
    refine ArmsFor.cons ?_ trivial
    intro action hAction
    cases hAction
  · refine Unlocked.cons ?_ trivial
    intro action hAction
    cases hAction
  · intro past' outcome _ hOutcome
    have hAnswers : Answers recording past' outcome :=
      (Program.returns_ok _).mp hOutcome
    exact obeys_call hAnswers fun _ _ => trivial
  · intro past' error _ _
    exact error.elim

/- It uses the keys of its address and its identifier. -/
theorem record_within :
    (policy.record recording).Obeys
      (within (policy.keys recording.ipAddress
        recording.username)) []
      (fun _ _ => True) := by
  refine obeys_step ?_ fun _ _ => ?_
  · intro key hKey
    cases hKey
  refine Program.Obeys.bind
    (checkAndRecord_within subset_rfl _) ?_ ?_
  · intro past' outcome _ _
    refine obeys_call ?_ fun _ _ => trivial
    intro key hKey
    cases hKey
  · intro past' error _ _
    exact error.elim

end LockoutPolicy

------------------------------------------------------------
-- A Lock That Lasts
------------------------------------------------------------

namespace Backend

variable {backend : Backend}
variable {row : Key → ρ}
variable {limiter : Limiter ρ}
variable {place : ρ}
variable {key : Key}
variable {deadline : Nat}

/- Until it has expired, the lock is there as it was set. -/
def Holds
    (backend : Backend)
    (place : ρ)
    (deadline : Nat)
    (limiter : Limiter ρ) : Prop :=
  backend.isExpired limiter.clock ⟨0, some deadline⟩ =
      false →
    ∃ count,
      limiter.counters place = some ⟨count, some deadline⟩

/- The least that is left of a lock that is read as one. -/
def least : Backend → Nat
  | .memory => 1000000
  | .database => 1
  | .redis => 500

/- There is enough left of a lock for it to be read. -/
def InTime
    (backend : Backend)
    (clock deadline : Nat) : Prop :=
  backend.now clock + backend.least ≤ deadline

instance (clock deadline : Nat) :
    Decidable (backend.InTime clock deadline) :=
  inferInstanceAs (Decidable
    (backend.now clock + backend.least ≤ deadline))

omit [DecidableEq ρ] in
/- While it lasts it is live. -/
theorem Holds.live
    (hHolds : backend.Holds place deadline limiter)
    (hExpired :
      backend.isExpired limiter.clock ⟨0, some deadline⟩ =
        false) :
    ∃ count, backend.live limiter place =
      some ⟨count, some deadline⟩ := by
  rcases hHolds hExpired with ⟨count, hStored⟩
  exact ⟨count, live_eq_some.mpr ⟨hStored, hExpired⟩⟩

/- A lock that is set where there is none is armed. -/
theorem holds_armed
    {amount : Int}
    {expiry : Nat}
    (hFresh : backend.live limiter (row key) = none) :
    backend.Holds (row key)
      (backend.now limiter.clock + backend.seconds expiry)
      (backend.exec row (.increment key amount expiry)
        limiter).2 := by
  intro _
  refine ⟨0 + amount, ?_⟩
  change Function.update limiter.counters (row key) _
    (row key) = _
  rw [Function.update_self]
  unfold incremented current
  rw [hFresh]
  rfl

/- Writing another row leaves it. -/
theorem Holds.put_of_ne
    {touched : ρ}
    {stored : Option Counter}
    (hHolds : backend.Holds place deadline limiter)
    (hOther : touched ≠ place) :
    backend.Holds place deadline
      (put limiter touched stored) := by
  intro hExpired
  rcases hHolds hExpired with ⟨count, hStored⟩
  refine ⟨count, ?_⟩
  change Function.update limiter.counters touched _
    place = _
  rw [Function.update_of_ne (Ne.symm hOther), hStored]

/- What is not a delete or a new expiry leaves a lock. -/
theorem Holds.exec
    {op : Op}
    (hHolds : backend.Holds place deadline limiter)
    (hDelete : ∀ touched, row touched = place →
      op ≠ .delete touched)
    (hRefresh : ∀ touched, row touched = place →
      ∀ amount expiry,
        op ≠ .incrementAndRefreshTtl touched amount expiry) :
    backend.Holds place deadline
      (backend.exec row op limiter).2 := by
  cases op with
  | arrive called => exact hHolds
  | respond outcome => exact hHolds
  | getCount read => exact hHolds
  | getTtl read => exact hHolds
  | increment touched amount expiry =>
      by_cases hRow : row touched = place
      · subst hRow
        intro hExpired
        rcases hHolds.live hExpired with ⟨count, hLive⟩
        refine ⟨count + amount, ?_⟩
        change Function.update limiter.counters
          (row touched) _ (row touched) = _
        rw [Function.update_self]
        unfold incremented current
        rw [hLive]
        rfl
      · exact hHolds.put_of_ne hRow
  | incrementAndRefreshTtl touched amount expiry =>
      refine hHolds.put_of_ne fun hRow => ?_
      exact hRefresh touched hRow amount expiry rfl
  | delete deleted =>
      refine hHolds.put_of_ne fun hRow => ?_
      exact hDelete deleted hRow rfl
  | verify =>
      rcases limiter with ⟨counters, clock, checks⟩
      cases checks with
      | nil => exact hHolds
      | cons check checks => exact hHolds

/- Time leaves it as well, and so does a sweep. -/
theorem Holds.tick
    {step : Tick ρ}
    (hHolds : backend.Holds place deadline limiter) :
    backend.Holds place deadline
      (backend.tick step limiter) := by
  cases step with
  | pass microseconds =>
      intro hExpired
      refine hHolds ?_
      cases hBefore : backend.isExpired limiter.clock
          ⟨0, some deadline⟩ with
      | false => rfl
      | true =>
          have hLater := backend.isExpired_mono
            (Nat.le_add_right limiter.clock microseconds)
            hBefore
          exact absurd hExpired
            (by simp [Backend.tick, hLater])
  | sweep swept =>
      by_cases hRow : swept = place
      · subst hRow
        intro hExpired
        rcases hHolds.live hExpired with ⟨count, hLive⟩
        refine ⟨count, ?_⟩
        change Function.update limiter.counters swept _
          swept = _
        rw [Function.update_self, hLive]
      · exact hHolds.put_of_ne hRow

/- A lock that is read in time is seen. -/
theorem Holds.getTtl_pos
    (hHolds : backend.Holds (row key) deadline limiter)
    (hTime : backend.InTime limiter.clock deadline) :
    0 < (backend.exec row (.getTtl key) limiter).1 := by
  have hExpired :
      backend.isExpired limiter.clock ⟨0, some deadline⟩ =
        false := by
    cases backend with
    | memory =>
        simp only [InTime, least] at hTime
        exact decide_eq_false (by omega)
    | database =>
        simp only [InTime, least] at hTime
        exact decide_eq_false (by omega)
    | redis =>
        simp only [InTime, least] at hTime
        exact decide_eq_false (by omega)
  rcases hHolds.live hExpired with ⟨count, hLive⟩
  have hAnswer : (backend.exec row (.getTtl key) limiter).1 =
      backend.remaining limiter.clock deadline := by
    simp only [Backend.exec, hLive, Option.bind_some]
  rw [hAnswer]
  cases backend with
  | memory =>
      simp only [InTime, least] at hTime
      exact Nat.div_pos (by omega) (by omega)
  | database =>
      simp only [InTime, least] at hTime
      exact Nat.div_pos (by omega) (by omega)
  | redis =>
      simp only [InTime, least] at hTime
      exact Nat.div_pos (by omega) (by omega)

end Backend

------------------------------------------------------------
-- Announced Lockouts
------------------------------------------------------------

/- One operation of one thread, in a run. -/
def Performs
    (backend : Backend)
    (row : Key → ρ)
    (before : Config ι interface (Limiter ρ) Empty Unit)
    (thread : ι)
    (op : Op)
    (after : Config ι interface (Limiter ρ) Empty Unit) :
    Prop :=
  ∃ next,
    before.pool thread = .perform op next ∧
    after =
      before.advance (backend.machine row) thread op next

/- A run of the backend's operations, in any order. -/
abbrev Runs
    (backend : Backend)
    (row : Key → ρ)
    (before after :
      Config ι interface (Limiter ρ) Empty Unit) : Prop :=
  Reaches (backend.machine row) anyStep before after

/- The attempt is not allowed. -/
def Refused (outcome : Outcome) : Prop :=
  ∀ remaining retryAfter,
    outcome ≠ .verdict true remaining retryAfter

namespace LockoutPolicy

/- Concurrent calls that have not begun. -/
def opened
    (policy : LockoutPolicy)
    (calls : ι → Recording)
    (start : Limiter ρ) :
    Config ι interface (Limiter ρ) Empty Unit where
  state := start
  history := []
  pool := fun thread => policy.record (calls thread)

/-
  A call sets a lock and announces a lockout, and a later
  call that records a failure under this lock starts before
  the announced time is over.  Nobody succeeds in between
  who could delete the lock.
-/
structure LaterCall
    (policy : LockoutPolicy)
    (backend : Backend)
    (row : Key → ρ)
    (calls : ι → Recording)
    (start : Limiter ρ) where
  tripper : ι
  later : ι
  key : Key
  duration : Nat
  retryAfter : Nat
  outcome : Outcome
  armed : Config ι interface (Limiter ρ) Empty Unit
  locked : Config ι interface (Limiter ρ) Empty Unit
  tripped : Config ι interface (Limiter ρ) Empty Unit
  answered : Config ι interface (Limiter ρ) Empty Unit
  arrived : Config ι interface (Limiter ρ) Empty Unit
  started : Config ι interface (Limiter ρ) Empty Unit
  reading : Config ι interface (Limiter ρ) Empty Unit
  seen : Config ι interface (Limiter ρ) Empty Unit
  finish : Config ι interface (Limiter ρ) Empty Unit
  isLock : IsLock key
  toArmed :
    Runs backend row (policy.opened calls start) armed
  sets : Performs backend row armed tripper
    (.increment key 1 duration) locked
  toTripped : Runs backend row locked tripped
  announces : Performs backend row tripped tripper
    (.respond (.verdict false (some 0) retryAfter)) answered
  toArrived : Runs backend row answered arrived
  starts : Performs backend row arrived later
    (.arrive (.checkAndRecord (calls later).ipAddress
      (calls later).username (calls later).success)) started
  fails : (calls later).success = false
  soon : tripped.state.clock < arrived.state.clock ∧
    arrived.state.clock <
      tripped.state.clock + retryAfter * 1000000
  toReading : Runs backend row started reading
  reads : Performs backend row reading later (.getTtl key)
    seen
  toFinish : Runs backend row seen finish
  ends : finish.next? later = some (.respond outcome)
  unlifted : ∀ since,
    reading.history = since ++ locked.history →
    ∀ event ∈ since,
      (calls event.thread).success = true →
      policy.userLock (calls event.thread).username ≠ key

/- Every later call is refused. -/
def Enforced
    (policy : LockoutPolicy)
    (backend : Backend)
    (row : Key → ρ)
    (calls : ι → Recording)
    (start : Limiter ρ) : Prop :=
  ∀ story : LaterCall policy backend row calls start,
    Refused story.outcome

namespace LaterCall

variable {policy : LockoutPolicy}
variable {backend : Backend}
variable {row : Key → ρ}
variable {calls : ι → Recording}
variable {start : Limiter ρ}
variable (story : LaterCall policy backend row calls start)

/- When the lock ends, if it was armed when it was set. -/
def deadline : Nat :=
  backend.now story.armed.state.clock +
    backend.seconds story.retryAfter

/-
  No other key that a call of the run uses is kept in the
  lock's row.
-/
def Alone : Prop :=
  ∀ thread,
    ∀ key ∈ policy.keys (calls thread).ipAddress
        (calls thread).username,
      row key = row story.key → key = story.key

/- What a thread keeps to. -/
def contract
    (policy : LockoutPolicy)
    (recording : Recording) : Contract interface :=
  (policy.heeding recording).both
    (within (policy.keys recording.ipAddress
      recording.username))

/- An operation of a run is a run. -/
theorem reaches_of_performs
    {before after :
      Config ι interface (Limiter ρ) Empty Unit}
    {thread : ι}
    {op : Op}
    (hPerforms :
      Performs backend row before thread op after) :
    Runs backend row before after := by
  rcases hPerforms with ⟨next, hNext, rfl⟩
  exact .perform .start hNext trivial

/- Every thread keeps to its contract. -/
theorem obeys_of_runs
    {config : Config ι interface (Limiter ρ) Empty Unit}
    (hRuns :
      Runs backend row (policy.opened calls start) config)
    (thread : ι) :
    (config.pool thread).Obeys
      (contract policy (calls thread))
      (own thread config.history)
      (fun _ _ => True ∧ True) := by
  have hOpened : ∀ thread,
      ((policy.opened calls start).pool thread).Obeys
        (contract policy (calls thread)) []
        (fun _ _ => True ∧ True) :=
    fun _ => Program.Obeys.both record_heeds record_within
  exact hRuns.obeys hOpened
    (fun _ _ _ => And.intro trivial trivial) thread

/- The moments of a part of a run. -/
theorem trace_of_runs
    {before after :
      Config ι interface (Limiter ρ) Empty Unit}
    (hBefore :
      Runs backend row (policy.opened calls start) before)
    (hRuns : Runs backend row before after) :
    Trace (backend.machine row)
      (fun thread => contract policy (calls thread)) anyStep
      before.state before.history
      after.state after.history :=
  hRuns.trace (obeys_of_runs hBefore)
    (fun _ _ _ => And.intro trivial trivial)

/- The run goes on from moment to moment. -/
theorem runs_locked :
    Runs backend row (policy.opened calls start)
      story.locked :=
  story.toArmed.trans (reaches_of_performs story.sets)

/- The run up to the lock. -/
theorem runs_tripped :
    Runs backend row (policy.opened calls start)
      story.tripped :=
  story.runs_locked.trans story.toTripped

/- The reading that finds it. -/
theorem locked_reading :
    Runs backend row story.locked story.reading :=
  story.toTripped.trans
    ((reaches_of_performs story.announces).trans
      (story.toArrived.trans
        ((reaches_of_performs story.starts).trans
          story.toReading)))

/- The run up to that reading. -/
theorem runs_seen :
    Runs backend row (policy.opened calls start)
      story.seen :=
  story.runs_locked.trans
    (story.locked_reading.trans
      (reaches_of_performs story.reads))

/- What is announced is what the lock was set for. -/
theorem duration_eq :
    story.duration = story.retryAfter := by
  rcases story.sets with ⟨_, -, hLocked⟩
  rcases story.announces with ⟨next, hNext, -⟩
  have hObeys :=
    obeys_of_runs story.runs_tripped story.tripper
  rw [hNext] at hObeys
  have hSuffix := own_suffix story.tripper
    (trace_of_runs story.runs_locked
      story.toTripped).suffix
  have hSet : (⟨.increment story.key 1 story.duration,
      (backend.exec row
        (.increment story.key 1 story.duration)
        story.armed.state).1⟩ : Act) ∈
      own story.tripper story.tripped.history := by
    refine hSuffix.subset ?_
    rw [mem_own_iff, hLocked]
    exact List.mem_cons_self
  exact hObeys.1.1.2 _ hSet story.isLock

/- The lock is there when the later call reads it. -/
theorem holds_reading
    (hAlone : story.Alone)
    (hFresh :
      backend.live story.armed.state (row story.key) =
        none) :
    backend.Holds (row story.key) story.deadline
      story.reading.state := by
  rcases story.sets with ⟨_, -, hLocked⟩
  have hTrace :=
    trace_of_runs story.runs_locked story.locked_reading
  have hHolds := hTrace.invariant
    (fun state history =>
      ∃ since, history = since ++ story.locked.history ∧
        ((∀ event ∈ since,
          (calls event.thread).success = true →
          policy.userLock (calls event.thread).username ≠
            story.key) →
        backend.Holds (row story.key) story.deadline state))
    ?_ ?_ ?_
  · rcases hHolds with ⟨since, hSince, hKept⟩
    exact hKept (story.unlifted since hSince)
  · refine ⟨[], rfl, fun _ => ?_⟩
    rw [hLocked]
    unfold deadline
    rw [← story.duration_eq]
    exact Backend.holds_armed hFresh
  · rintro state history thread op - hRule -
      ⟨since, rfl, hKept⟩
    refine ⟨_ :: since, rfl, fun hUnlifted => ?_⟩
    have hBefore := hKept fun event hEvent =>
      hUnlifted event (List.mem_cons_of_mem _ hEvent)
    refine hBefore.exec ?_ ?_
    · rintro touched hRow rfl
      obtain rfl :=
        hAlone thread touched (hRule.2 touched rfl) hRow
      rcases hRule.1 story.isLock with ⟨hSuccess, hKey⟩
      exact hUnlifted _ List.mem_cons_self hSuccess
        hKey.symm
    · rintro touched hRow amount expiry rfl
      obtain rfl :=
        hAlone thread touched (hRule.2 touched rfl) hRow
      exact hRule.1 story.isLock
  · rintro state history step ⟨since, hSince, hKept⟩
    exact ⟨since, hSince,
      fun hUnlifted => (hKept hUnlifted).tick⟩

/-
  A later call is refused if the lock was not there when it
  was set, no other key of the run is kept in its row, and
  enough of it is left when it is read.
-/
theorem refused_of_inTime
    (hAlone : story.Alone)
    (hFresh :
      backend.live story.armed.state (row story.key) =
        none)
    (hTime : backend.InTime story.reading.state.clock
      story.deadline) :
    Refused story.outcome := by
  intro remaining retryAfter hAllowed
  have hPos :=
    (story.holds_reading hAlone hFresh).getTtl_pos hTime
  rcases story.reads with ⟨_, -, hSeen⟩
  have hObeys := obeys_of_runs
    (story.runs_seen.trans story.toFinish) story.later
  rcases Config.next?_eq_some.mp story.ends with
    ⟨next, hNext⟩
  rw [hNext, hAllowed] at hObeys
  have hSuffix := own_suffix story.later
    (trace_of_runs story.runs_seen story.toFinish).suffix
  have hRead : (⟨.getTtl story.key,
      (backend.exec row (.getTtl story.key)
        story.reading.state).1⟩ : Act) ∈
      own story.later story.finish.history := by
    refine hSuffix.subset ?_
    rw [mem_own_iff, hSeen]
    exact List.mem_cons_self
  have hFree := hObeys.1.1.1 rfl story.fails _ hRead
    story.isLock
  exact absurd hFree hPos.ne'

end LaterCall

------------------------------------------------------------
-- The Last Second
------------------------------------------------------------

/- One attempt in ten seconds; a lockout lasts a minute. -/
def brief : LockoutPolicy where
  maxAttempts := 1
  attemptWindowSeconds := 10
  lockoutBaseSeconds := 60
  lockoutMaxSeconds := 3600
  roundRetentionSeconds := 86400
  onLoginSuccess := .clearUserOnly
  maxAttempts_pos := Nat.succ_pos _
  attemptWindow_pos := Nat.succ_pos _
  lockoutBase_pos := Nat.succ_pos _
  lockoutMax_pos := Nat.succ_pos _
  roundRetention_pos := Nat.succ_pos _
  clientIpKey := id
  canonicalIdentifier := id

/- Every call fails, from one address for one user. -/
def failures : Nat → Recording :=
  fun _ =>
    { ipAddress := "a"
      username := "u"
      success := false }

/- A limiter that has counted nothing. -/
def fresh : Limiter Key where
  counters := fun _ => none
  clock := 0
  checks := []

/- Follow a schedule, if it can be followed to its end. -/
def follow
    (config : Config Nat interface (Limiter Key) Empty Unit)
    (schedule : List (Choice Nat (Backend.Tick Key))) :
    Config Nat interface (Limiter Key) Empty Unit :=
  (config.run (Backend.memory.machine id) anyStep
    schedule).getD config

/- A followed schedule is a run. -/
theorem runs_follow
    (config : Config Nat interface (Limiter Key) Empty Unit)
    (schedule : List (Choice Nat (Backend.Tick Key))) :
    Runs .memory id config (follow config schedule) := by
  unfold follow
  cases hRun : config.run (Backend.memory.machine id)
      anyStep schedule with
  | none => exact .start
  | some config' => exact .of_run hRun

/- A thread takes so many steps. -/
def turns
    (thread count : Nat) :
    List (Choice Nat (Backend.Tick Key)) :=
  List.replicate count (.thread thread)

/- One failure, and a second one up to its lock. -/
def aboutToLock :
    Config Nat interface (Limiter Key) Empty Unit :=
  follow (brief.opened failures fresh)
    (turns 0 6 ++ turns 1 7)

/- The second failure is about to answer. -/
def aboutToAnswer :
    Config Nat interface (Limiter Key) Empty Unit :=
  follow (follow aboutToLock (turns 1 1)) (turns 1 3)

/- A third failure begins some time later. -/
def aboutToArrive
    (microseconds : Nat) :
    Config Nat interface (Limiter Key) Empty Unit :=
  follow (follow aboutToAnswer (turns 1 1))
    [.tick (.pass microseconds)]

/- The third call reads the lock next. -/
def aboutToRead
    (microseconds : Nat) :
    Config Nat interface (Limiter Key) Empty Unit :=
  follow (aboutToArrive microseconds) (turns 2 1)

/- Half a second before the minute is over. -/
def lastSecond :
    LaterCall brief .memory id failures fresh where
  tripper := 1
  later := 2
  key := .ipLock "a"
  duration := 60
  retryAfter := 60
  outcome := .verdict true (some 0) 0
  armed := aboutToLock
  locked := follow aboutToLock (turns 1 1)
  tripped := aboutToAnswer
  answered := follow aboutToAnswer (turns 1 1)
  arrived := aboutToArrive 59500000
  started := aboutToRead 59500000
  reading := aboutToRead 59500000
  seen := follow (aboutToRead 59500000) (turns 2 1)
  finish :=
    follow (follow (aboutToRead 59500000) (turns 2 1))
    (turns 2 3)
  isLock := trivial
  toArmed := runs_follow _ _
  sets := ⟨_, rfl, rfl⟩
  toTripped := runs_follow _ _
  announces := ⟨_, rfl, rfl⟩
  toArrived := runs_follow _ _
  starts := ⟨_, rfl, rfl⟩
  fails := rfl
  soon := by decide
  toReading := .start
  reads := ⟨_, rfl, rfl⟩
  toFinish := runs_follow _ _
  ends := rfl
  unlifted := by
    intro since _ event _ hSuccess
    cases hSuccess

/- Half of the minute is left. -/
def halfway :
    LaterCall brief .memory id failures fresh where
  tripper := 1
  later := 2
  key := .ipLock "a"
  duration := 60
  retryAfter := 60
  outcome := .verdict false (some 0) 30
  armed := aboutToLock
  locked := follow aboutToLock (turns 1 1)
  tripped := aboutToAnswer
  answered := follow aboutToAnswer (turns 1 1)
  arrived := aboutToArrive 30000000
  started := aboutToRead 30000000
  reading := aboutToRead 30000000
  seen := follow (aboutToRead 30000000) (turns 2 1)
  finish :=
    follow (follow (aboutToRead 30000000) (turns 2 1))
    (turns 2 1)
  isLock := trivial
  toArmed := runs_follow _ _
  sets := ⟨_, rfl, rfl⟩
  toTripped := runs_follow _ _
  announces := ⟨_, rfl, rfl⟩
  toArrived := runs_follow _ _
  starts := ⟨_, rfl, rfl⟩
  fails := rfl
  soon := by decide
  toReading := .start
  reads := ⟨_, rfl, rfl⟩
  toFinish := runs_follow _ _
  ends := rfl
  unlifted := by
    intro since _ event _ hSuccess
    cases hSuccess

/- In memory, no two keys share a row. -/
theorem halfway_refused : Refused halfway.outcome :=
  LaterCall.refused_of_inTime halfway
    (fun _ _ _ hSame => hSame) rfl (by decide)

/- The attempt is allowed while the lockout still runs. -/
theorem not_enforced_of_lastSecond :
    ¬ Enforced brief .memory id failures fresh := by
  intro hEnforced
  exact hEnforced lastSecond (some 0) 0 rfl

end LockoutPolicy

end RateLimit

end CrudAuth
