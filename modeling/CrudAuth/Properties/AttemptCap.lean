import CrudAuth.RateLimit.Counting
import CrudAuth.RateLimit.Policy

/-
  The attempt cap of the login lockout under any order of
  the backend's operations.

  Main declarations:
    * `LockoutPolicy.recording`
    * `LockoutPolicy.attempt_obeys`
    * `LockoutPolicy.Capped`
    * `LockoutPolicy.capped_of_atomicCounters`
-/

namespace CrudAuth

namespace RateLimit

open Concurrency

variable {σ ι ρ : Type} [DecidableEq ι]

namespace LockoutPolicy

variable (policy : LockoutPolicy)

------------------------------------------------------------
-- What A Failure-Recording Call Does
------------------------------------------------------------

/- The attempt was counted, and the count was in the cap. -/
def Within
    (key : Key)
    (past : List Act) : Prop :=
  ∃ expiry, ∃ count : Int,
    (⟨.increment key 1 expiry, count⟩ : Act) ∈ past ∧
      count ≤ policy.maxAttempts

/- Whether one was added to the counter of a key. -/
def Counted (key : Key) (past : List Act) : Prop :=
  ∃ expiry, ∃ count : Int,
    (⟨.increment key 1 expiry, count⟩ : Act) ∈ past

/- The counters that the cap is compared with. -/
def IsAttempts : Key → Prop
  | .ipAttempts _ => True
  | .userAttempts _ => True
  | _ => False

/-
  A call only ever adds one, at most once to a counter of
  attempts, and it allows the attempt only if both counts
  are in the cap.
-/
def recording
    (ipAddress username : String) :
    Contract interface where
  rule past
    | .increment key amount _ =>
        amount = 1 ∧
          (IsAttempts key → ¬ Counted key past)
    | .incrementAndRefreshTtl key amount _ =>
        amount = 1 ∧ ¬ IsAttempts key
    | .respond (.verdict true _ _) =>
        policy.Within (policy.ipAttempts ipAddress) past ∧
          policy.Within (policy.userAttempts username) past
    | _ => True
  answer _ _ := True

variable {policy}
variable {ipAddress username : String}
variable {past : List Act}

/- What is allowed of an outcome after some actions. -/
def Allows
    (policy : LockoutPolicy)
    (ipAddress username : String)
    (past : List Act)
    (outcome : Outcome) : Prop :=
  (policy.recording ipAddress username).rule past
    (.respond outcome)

/- A count within the limit stays in the past. -/
theorem Within.mono
    {key : Key}
    {past' : List Act}
    (hWithin : policy.Within key past)
    (hSuffix : past <:+ past') :
    policy.Within key past' := by
  rcases hWithin with ⟨expiry, count, hMem, hCount⟩
  exact ⟨expiry, count, hSuffix.subset hMem, hCount⟩

/- An action of another kind leaves a key uncounted. -/
theorem not_counted_cons
    {key : Key}
    {action : Act}
    (hOther : ∀ amount expiry,
      action.op ≠ .increment key amount expiry)
    (hPast : ¬ Counted key past) :
    ¬ Counted key (action :: past) := by
  rintro ⟨expiry, count, hMem⟩
  rcases List.mem_cons.mp hMem with hHead | hTail
  · exact hOther 1 expiry (congrArg Action.op hHead.symm)
  · exact hPast ⟨expiry, count, hTail⟩

/- The pair is counted once. -/
theorem countPair_obeys :
    (policy.countPair ipAddress username).Obeys
      (policy.recording ipAddress username) past
      (fun _ _ => True) := by
  unfold countPair
  split
  · trivial
  · refine obeys_step trivial fun ipWindow _ => ?_
    split
    · exact obeys_step ⟨rfl, False.elim⟩ fun _ _ => trivial
    · trivial

/- A lock-out lets nobody in. -/
theorem lockOut_obeys :
    (policy.lockOut ipAddress username).Obeys
      (policy.recording ipAddress username) past
      (Program.Returns
        (policy.Allows ipAddress username)) := by
  unfold lockOut
  refine obeys_step trivial fun ipRounds _ => ?_
  refine obeys_step trivial fun userRounds _ => ?_
  refine obeys_step ⟨rfl, False.elim⟩ fun _ _ => ?_
  refine obeys_step ⟨rfl, False.elim⟩ fun _ _ => ?_
  refine obeys_step ⟨rfl, id⟩ fun _ _ => ?_
  refine obeys_step ⟨rfl, id⟩ fun _ _ => ?_
  exact (Program.returns_ok _).mpr trivial

/- A failure is counted, then judged. -/
theorem recordFailure_obeys
    (hPast : ∀ key, ¬ Counted key past) :
    (policy.recordFailure ipAddress username).Obeys
      (policy.recording ipAddress username) past
      (Program.Returns
        (policy.Allows ipAddress username)) := by
  unfold recordFailure
  refine obeys_step trivial fun ipTtl _ => ?_
  refine obeys_step trivial fun userTtl _ => ?_
  dsimp only
  split
  · exact (Program.returns_ok _).mpr trivial
  · refine obeys_step ⟨rfl, fun _ => ?_⟩ fun ipCount _ => ?_
    · exact not_counted_cons nofun
        (not_counted_cons nofun (hPast _))
    refine obeys_step ⟨rfl, fun _ => ?_⟩
      fun userCount _ => ?_
    · exact not_counted_cons nofun
        (not_counted_cons nofun
          (not_counted_cons nofun (hPast _)))
    refine Program.Obeys.bind countPair_obeys ?_ ?_
    · intro past' _ hSuffix _
      split
      · rename_i hCount
        refine (Program.returns_ok _).mpr ⟨?_, ?_⟩
        · refine Within.mono
            ⟨policy.attemptWindowSeconds, ipCount, ?_,
              (le_max_left _ _).trans hCount⟩ hSuffix
          exact List.mem_cons_of_mem _
            List.mem_cons_self
        · refine Within.mono
            ⟨policy.attemptWindowSeconds, userCount, ?_,
              (le_max_right _ _).trans hCount⟩ hSuffix
          exact List.mem_cons_self
      · exact lockOut_obeys
    · intro past' error _ _
      exact error.elim

/- A failure-recording call keeps to its contract. -/
theorem attempt_obeys :
    (policy.attempt ipAddress username).Obeys
      (policy.recording ipAddress username) []
      (fun _ _ => True) := by
  refine obeys_step trivial fun _ _ => ?_
  refine Program.Obeys.bind (recordFailure_obeys ?_) ?_ ?_
  · intro key
    refine not_counted_cons nofun ?_
    rintro ⟨_, _, hMem⟩
    cases hMem
  · intro past' outcome _ hOutcome
    have hAllows :
        policy.Allows ipAddress username past' outcome :=
      (Program.returns_ok _).mp hOutcome
    exact obeys_call hAllows fun _ _ => trivial
  · intro past' error _ _
    exact error.elim

------------------------------------------------------------
-- The Cap
------------------------------------------------------------

/- The call of a thread came back with allowed=True. -/
def Allowed
    (history : List (Ev ι))
    (thread : ι) : Prop :=
  ∃ remaining retryAfter,
    (⟨thread, .respond (.verdict true remaining retryAfter),
      ()⟩ : Ev ι) ∈ history

/- A call belongs to the life that counted its attempt. -/
def CountedIn
    (key : Key)
    (events : List (Ev ι))
    (thread : ι) : Prop :=
  ∃ event ∈ events,
    event.thread = thread ∧
      ∃ count, Counts key count event

/-
  In every run of calls that record failures, from any
  counters: every call that is allowed has counted its
  attempt for its identifier and for its address, and of
  the calls counted in one life of either counter no more
  than the cap are allowed.  A counter lives as long as the
  row it is kept in.
-/
def Capped
    (policy : LockoutPolicy)
    (machine : Machine interface σ)
    (row : Key → ρ)
    (ipAddress username : ι → String) : Prop :=
  ∀ (start : σ) (config : Config ι interface σ Empty Unit),
    Reaches machine anyStep
      { state := start
        history := []
        pool := fun thread =>
          policy.attempt (ipAddress thread)
            (username thread) }
      config →
    (∀ thread, Allowed config.history thread →
      CountedIn (policy.ipAttempts (ipAddress thread))
          config.history thread ∧
        CountedIn (policy.userAttempts (username thread))
          config.history thread) ∧
    ∀ key later life earlier,
      config.history = later ++ life ++ earlier →
      Lifetime row key life →
      ∀ threads : Finset ι,
        (∀ thread ∈ threads,
          Allowed config.history thread ∧
          (key = policy.ipAttempts (ipAddress thread) ∨
            key = policy.userAttempts (username thread)) ∧
          CountedIn key life thread) →
        threads.card ≤ policy.maxAttempts

variable {machine : Machine interface σ}
variable {row : Key → ρ}
variable {start state : σ}
variable {history : List (Ev ι)}
variable {ipAddresses usernames : ι → String}
variable {thread : ι}
variable {key : Key}

/- The moments of a run of failure-recording calls. -/
abbrev Recorded
    (policy : LockoutPolicy)
    (machine : Machine interface σ)
    (ipAddresses usernames : ι → String)
    (start : σ) :
    σ → List (Ev ι) → Prop :=
  Trace machine
    (fun thread =>
      policy.recording (ipAddresses thread)
        (usernames thread))
    anyStep start []

/- What was in the cap when the answer was given. -/
theorem within_of_allowed
    (hTrace : policy.Recorded machine ipAddresses usernames
      start state history)
    (hAllowed : Allowed history thread) :
    policy.Within (policy.ipAttempts (ipAddresses thread))
        (own thread history) ∧
      policy.Within
        (policy.userAttempts (usernames thread))
        (own thread history) := by
  rcases hAllowed with ⟨remaining, retryAfter, hMem⟩
  rcases hTrace.at_member hMem with
    ⟨-, earlier, hEarlier, -, hRule, -⟩
  have hOwn := own_suffix thread hEarlier
  exact ⟨hRule.1.mono hOwn, hRule.2.mono hOwn⟩

/- A thread never counts in a counter a second time. -/
def CountsOnce
    (contract : ι → Contract interface)
    (key : Key) : Prop :=
  ∀ thread past amount expiry,
    (contract thread).rule past
      (.increment key amount expiry) →
    ¬ Counted key past

/- A call counts its attempt in a counter only once. -/
theorem counts_once
    {contract : ι → Contract interface}
    {condition : Condition ι interface σ}
    {event event' : Ev ι}
    {count count' : Int}
    (hOnce : CountsOnce contract key)
    (hTrace : Trace machine contract condition start []
      state history)
    (hEvent : event ∈ history)
    (hEvent' : event' ∈ history)
    (hThread : event.thread = thread)
    (hThread' : event'.thread = thread)
    (hCounts : Counts key count event)
    (hCounts' : Counts key count' event') :
    event = event' := by
  rcases hCounts with ⟨_, expiry, rfl⟩
  rcases hCounts' with ⟨_, expiry', rfl⟩
  obtain rfl := hThread
  obtain rfl := hThread'
  rcases order_of_members hEvent hEvent' with
    ⟨later, between, earlier, rfl⟩ |
      ⟨later, between, earlier, rfl⟩ | hSame
  · rcases hTrace.at_event with ⟨-, -, hRule, -⟩
    refine absurd ⟨expiry', count', ?_⟩
      (hOnce _ _ _ _ hRule)
    rw [mem_own_iff]
    simp
  · rcases hTrace.at_event with ⟨-, -, hRule, -⟩
    refine absurd ⟨expiry, count, ?_⟩
      (hOnce _ _ _ _ hRule)
    rw [mem_own_iff]
    simp
  · exact hSame

omit [DecidableEq ι] in
/- Whatever a call adds to a counter, it adds one. -/
theorem countsByOne :
    CountsByOne
      (fun thread =>
        policy.recording (ipAddresses thread)
          (usernames thread))
      row key := by
  intro thread past op touched hRule hOp _
  cases op with
  | increment counted amount expiry => exact ⟨hOp, hRule.1⟩
  | incrementAndRefreshTtl counted amount expiry =>
      exact ⟨hOp, hRule.1⟩
  | arrive called => exact hOp.elim
  | respond outcome => exact hOp.elim
  | getCount read => exact hOp.elim
  | delete deleted => exact hOp.elim
  | getTtl read => exact hOp.elim
  | verify => exact hOp.elim

/- No call counts a key twice. -/
omit [DecidableEq ι] in
theorem countsOnce
    (hKey : IsAttempts key) :
    CountsOnce
      (fun thread =>
        policy.recording (ipAddresses thread)
          (usernames thread))
      key := by
  intro thread past amount expiry hRule
  exact hRule.2 hKey

/- What a thread counted is an event of the history. -/
theorem counts_of_within
    (hWithin : policy.Within key (own thread history)) :
    ∃ event ∈ history, ∃ count,
      event.thread = thread ∧
      Counts key count event ∧
      count ≤ policy.maxAttempts := by
  rcases hWithin with ⟨expiry, count, hMem, hCount⟩
  exact ⟨_, mem_own_iff.mp hMem, count, rfl,
    ⟨thread, expiry, rfl⟩, hCount⟩

/- The cap holds over every limiter that counts in a step. -/
theorem capped_of_atomicCounters
    (counters : AtomicCounters machine row)
    (policy : LockoutPolicy)
    (ipAddresses usernames : ι → String) :
    policy.Capped machine row ipAddresses usernames := by
  intro start config hReaches
  have hTrace : policy.Recorded machine ipAddresses
      usernames start config.state config.history :=
    hReaches.trace (fun _ => attempt_obeys)
      (fun _ _ _ => trivial)
  refine ⟨fun thread hAllowed => ?_, ?_⟩
  · rcases within_of_allowed hTrace hAllowed with
      ⟨hIp, hUser⟩
    rcases counts_of_within hIp with
      ⟨event, hEvent, count, hThread, hCounts, -⟩
    rcases counts_of_within hUser with
      ⟨event', hEvent', count', hThread', hCounts', -⟩
    exact ⟨⟨event, hEvent, hThread, count, hCounts⟩,
      event', hEvent', hThread', count', hCounts'⟩
  · intro key later life earlier hHistory hLife threads
      hThreads
    rcases threads.eq_empty_or_nonempty with rfl | hSome
    · exact Nat.zero_le _
    have hKey : IsAttempts key := by
      rcases hSome with ⟨thread, hMem⟩
      rcases (hThreads thread hMem).2.1 with rfl | rfl
      · exact trivial
      · exact trivial
    have hSplit : Trace machine _ anyStep start []
        config.state (later ++ life ++ earlier) :=
      hHistory ▸ hTrace
    refine hLife.card_le counters countsByOne hSplit ?_
    intro thread hMem
    rcases hThreads thread hMem with
      ⟨hAllowed, hOwn, event, hEvent, hThread, count,
        hCounts⟩
    have hWithin :
        policy.Within key (own thread config.history) := by
      rcases hOwn with rfl | rfl
      · exact (within_of_allowed hTrace hAllowed).1
      · exact (within_of_allowed hTrace hAllowed).2
    rcases counts_of_within hWithin with
      ⟨event', hEvent', count', hThread', hCounts', hCap⟩
    have hMoment : event ∈ config.history := by
      rw [hHistory]
      simp [hEvent]
    have hSame : event = event' :=
      counts_once (countsOnce hKey) hTrace hMoment hEvent'
        hThread hThread' hCounts hCounts'
    subst hSame
    exact ⟨event, hEvent, count', hThread,
      hCounts'.countsIn, hCap⟩

/-
  Every backend of the tree counts in a step, also where it
  keeps two long keys in one row.
-/
theorem capped_in_tree :
    ∀ (backend : Backend) (row : Key → List Char)
      (policy : LockoutPolicy)
      (ipAddresses usernames : Nat → String),
      policy.Capped (backend.machine row) row
        ipAddresses usernames :=
  fun backend row policy ipAddresses usernames =>
    capped_of_atomicCounters (backend.atomicCounters row)
      policy ipAddresses usernames

end LockoutPolicy

end RateLimit

end CrudAuth
