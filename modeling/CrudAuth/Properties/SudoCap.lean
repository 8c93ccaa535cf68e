import CrudAuth.Properties.AttemptCap
import CrudAuth.RateLimit.Sudo
import Mathlib.Data.List.TakeWhile

/-
  The attempt cap of sudo under any order of the backend's
  operations: from a moment without counters to the end of
  the first lock that is set after it.

  A lock deletes the failure counter.  A call that passed
  the check of the lock earlier can still count, on a
  counter that starts again.

  Main declarations:
    * `SudoManager.elevating`
    * `SudoManager.attempt_obeys`
    * `SudoManager.CapHolds`
    * `SudoManager.Begun`
    * `SudoManager.capHolds_of_timely`
    * `SudoManager.not_capHolds_of_late`
-/

namespace CrudAuth

namespace RateLimit

open Concurrency
open LockoutPolicy (Counted not_counted_cons counts_once)

variable {σ ι ρ : Type} [DecidableEq ι]

namespace SudoManager

variable (config : SudoConfig)
variable (userId : Nat)

------------------------------------------------------------
-- What A Call Does
------------------------------------------------------------

/- The attempt was counted, and the count was in the cap. -/
def Within (past : List Act) : Prop :=
  ∃ expiry, ∃ count : Int,
    (⟨.increment (failKey userId) 1 expiry, count⟩ : Act)
        ∈ past ∧
      count ≤ config.maxAttempts

/- A password or a code was checked. -/
def Checked (past : List Act) : Prop :=
  ∃ action ∈ past, action.op = .verify

/-
  A call counts one failure, once, and it checks once, an
  attempt that was counted in the cap.  It adds to its own
  two counters only, one at a time.
-/
def elevating : Contract interface where
  rule past
    | .increment key amount _ =>
        (key = failKey userId ∨ key = lockKey userId) ∧
          amount = 1 ∧
          (key = failKey userId → ¬ Counted key past)
    | .incrementAndRefreshTtl _ _ _ => False
    | .verify =>
        Within config userId past ∧ ¬ Checked past
    | _ => True
  answer _ _ := True

variable {config : SudoConfig}
variable {userId : Nat}
variable {past : List Act}

/- A lock and a count never share a key. -/
theorem lockKey_ne_failKey :
    lockKey userId ≠ failKey userId :=
  Key.noConfusion

/- An action of another kind checks nothing. -/
theorem not_checked_cons
    {action : Act}
    (hOther : action.op ≠ .verify)
    (hPast : ¬ Checked past) :
    ¬ Checked (action :: past) := by
  rintro ⟨checked, hMem, hChecked⟩
  rcases List.mem_cons.mp hMem with rfl | hTail
  · exact hOther hChecked
  · exact hPast ⟨checked, hTail, hChecked⟩

/- A lock writes only the account's keys. -/
theorem lock_obeys :
    (lock config userId).Obeys (elevating config userId)
      past (fun _ _ => True) := by
  unfold lock
  refine obeys_step ?_ fun _ _ => ?_
  · exact ⟨Or.inr rfl, rfl,
      fun hKey => absurd hKey lockKey_ne_failKey⟩
  · exact obeys_step trivial fun _ _ => trivial

/- An attempt is counted before it is checked. -/
theorem elevate_obeys
    (hCounted : ¬ Counted (failKey userId) past)
    (hChecked : ¬ Checked past) :
    (elevate config userId).Obeys (elevating config userId)
      past (fun _ _ => True) := by
  unfold elevate countAttempt
  refine obeys_step trivial fun ttl _ => ?_
  split
  · trivial
  refine obeys_step ⟨Or.inl rfl, rfl, fun _ => ?_⟩
    fun attempt _ => ?_
  · exact not_counted_cons (by simp) hCounted
  split
  · exact lock_obeys
  · rename_i hCap
    refine obeys_step ⟨?_, ?_⟩ fun verified _ => ?_
    · exact ⟨config.windowSeconds, attempt,
        List.mem_cons_self, Int.not_lt.mp hCap⟩
    · exact not_checked_cons (by simp)
        (not_checked_cons (by simp) hChecked)
    split
    · exact obeys_step trivial fun _ _ => trivial
    · split
      · exact lock_obeys
      · trivial

/- A call of `elevate` keeps to its contract. -/
theorem attempt_obeys :
    (attempt config userId).Obeys (elevating config userId)
      [] (fun _ _ => True) := by
  refine obeys_step trivial fun _ _ => ?_
  refine Program.Obeys.bind (elevate_obeys ?_ ?_) ?_ ?_
  · refine not_counted_cons (by simp) ?_
    rintro ⟨_, _, hMem⟩
    cases hMem
  · refine not_checked_cons (by simp) ?_
    rintro ⟨_, hMem, _⟩
    cases hMem
  · intro past' outcome _ _
    exact obeys_call trivial fun _ _ => trivial
  · intro past' error _ _
    exact error.elim

------------------------------------------------------------
-- The Cap
------------------------------------------------------------

/- The calls that had a password or a code checked. -/
def verifiers (history : List (Ev ι)) : List ι :=
  (history.filter fun event => event.op = .verify).map
    Event.thread

/- A password or a code that was right. -/
def succeeds : (op : Op) → op.Ret → Bool
  | .verify, verified => verified
  | _, _ => false

/- No call succeeds. -/
def Fails (history : List (Ev ι)) : Prop :=
  ∀ event ∈ history, succeeds event.op event.ret = false

/- Sudo has been locked. -/
def Locked (userId : Nat) (since : List (Ev ι)) : Prop :=
  ∃ event ∈ since, event.op.increments (lockKey userId)

/- A failure has been counted, and is not deleted. -/
def Counting (userId : Nat) (since : List (Ev ι)) : Prop :=
  ∃ event ∈ since.takeWhile fun event =>
      event.op ≠ .delete (failKey userId),
    event.op.increments (failKey userId)

/- The failure counter has been deleted. -/
def Deleted (userId : Nat) (since : List (Ev ι)) : Prop :=
  ∃ event ∈ since, event.op = .delete (failKey userId)

instance (since : List (Ev ι)) :
    Decidable (Deleted userId since) :=
  inferInstanceAs (Decidable (∃ event ∈ since,
    event.op = .delete (failKey userId)))

/- What happened before the failure counter was deleted. -/
def beforeDelete
    (userId : Nat) :
    List (Ev ι) → List (Ev ι)
  | [] => []
  | event :: since =>
      if Deleted userId (event :: since) then
        beforeDelete userId since
      else
        event :: since

/-
  The time that the cap is about: the first lock has not
  ended, and no failure has expired.
-/
def window
    {machine : Machine interface σ}
    {row : Key → ρ}
    (counters : AtomicCounters machine row)
    (userId : Nat)
    (condition : Condition ι interface σ) :
    Condition ι interface σ :=
  fun state since thread op =>
    (Locked userId since →
      counters.count state (lockKey userId) ≠ none) ∧
    (Counting userId since →
      counters.count state (failKey userId) ≠ none) ∧
    condition state since thread op

/-
  A call that has its password or code checked has counted
  its attempt since the moment, and before the failure
  counter was deleted.
-/
def timely (userId : Nat) : Condition ι interface σ :=
  fun _ since thread op =>
    op = .verify →
    ∃ event ∈ beforeDelete userId since,
      event.thread = thread ∧
        event.op.increments (failKey userId)

instance (history : List (Ev ι)) :
    Decidable (Fails history) :=
  inferInstanceAs (Decidable (∀ event ∈ history,
    succeeds event.op event.ret = false))

instance (since : List (Ev ι)) :
    Decidable (Locked userId since) :=
  inferInstanceAs (Decidable (∃ event ∈ since,
    event.op.increments (lockKey userId)))

instance (since : List (Ev ι)) :
    Decidable (Counting userId since) :=
  inferInstanceAs (Decidable (∃ event ∈
      since.takeWhile fun event =>
        event.op ≠ .delete (failKey userId),
    event.op.increments (failKey userId)))

instance
    {machine : Machine interface σ}
    {row : Key → ρ}
    (counters : AtomicCounters machine row)
    (condition : Condition ι interface σ)
    [∀ state since thread op,
      Decidable (condition state since thread op)]
    (state : σ)
    (since : List (Ev ι))
    (thread : ι)
    (op : Op) :
    Decidable (window counters userId condition
      state since thread op) :=
  inferInstanceAs (Decidable (_ ∧ _ ∧ _))

instance
    (state : σ)
    (since : List (Ev ι))
    (thread : ι)
    (op : Op) :
    Decidable (timely userId state since thread op) :=
  inferInstanceAs (Decidable (op = .verify →
    ∃ event ∈ beforeDelete userId since,
      event.thread = thread ∧
        event.op.increments (failKey userId)))

/-
  In every run of calls for one user that all fail: from a
  moment with neither a failure counter nor a lock, no more
  passwords and codes than the cap are checked, as long as
  the first lock has not ended.
-/
def CapHolds
    (config : SudoConfig)
    (userId : Nat)
    {machine : Machine interface σ}
    {row : Key → ρ}
    (counters : AtomicCounters machine row)
    (condition : Condition ι interface σ) : Prop :=
  ∀ (start : σ)
    (moment finish : Config ι interface σ Empty Unit),
    Reaches machine anyStep
      { state := start
        history := []
        pool := fun _ => attempt config userId }
      moment →
    counters.count moment.state (failKey userId) = none →
    counters.count moment.state (lockKey userId) = none →
    Reaches machine (window counters userId condition)
      { moment with history := [] } finish →
    Fails (finish.history ++ moment.history) →
    (verifiers finish.history).length ≤ config.maxAttempts

------------------------------------------------------------
-- Before The Failure Counter Is Deleted
------------------------------------------------------------

variable {machine : Machine interface σ}
variable {row : Key → ρ}
variable {counters : AtomicCounters machine row}
variable {condition : Condition ι interface σ}
variable {start state : σ}
variable {history since opening : List (Ev ι)}
variable {event : Ev ι}
variable {thread : ι}

/- A deletion stays in the history. -/
omit [DecidableEq ι] in
theorem Deleted.cons
    (hDeleted : Deleted userId since) :
    Deleted userId (event :: since) := by
  rcases hDeleted with ⟨deleted, hMem, hOp⟩
  exact ⟨deleted, List.mem_cons_of_mem _ hMem, hOp⟩

/- Without one the history is whole. -/
omit [DecidableEq ι] in
theorem beforeDelete_of_not_deleted
    (hKept : ¬ Deleted userId since) :
    beforeDelete userId since = since := by
  cases since with
  | nil => rfl
  | cons event since => exact if_neg hKept

/- A later step is not before it. -/
omit [DecidableEq ι] in
theorem beforeDelete_cons_of_deleted
    (hDeleted : Deleted userId (event :: since)) :
    beforeDelete userId (event :: since) =
      beforeDelete userId since :=
  if_pos hDeleted

/- What precedes it begins the history. -/
omit [DecidableEq ι] in
theorem beforeDelete_suffix :
    beforeDelete userId since <:+ since := by
  induction since with
  | nil => exact List.suffix_rfl
  | cons event since ih =>
      unfold beforeDelete
      split
      · exact ih.trans (List.suffix_cons event since)
      · exact List.suffix_rfl

omit [DecidableEq ι] in
/- What came before the delete stays before it. -/
theorem mem_beforeDelete_cons
    {newest : Ev ι}
    (hMem : event ∈ beforeDelete userId since) :
    event ∈ beforeDelete userId (newest :: since) := by
  by_cases hDeleted : Deleted userId (newest :: since)
  · rwa [beforeDelete_cons_of_deleted hDeleted]
  · rw [beforeDelete_of_not_deleted hDeleted]
    exact List.mem_cons_of_mem _
      (beforeDelete_suffix.subset hMem)

omit [DecidableEq ι] in
/- As long as nothing is deleted, a failure counts. -/
theorem counting_of_not_deleted
    (hKept : ¬ Deleted userId since)
    (hMem : event ∈ since)
    (hOp : event.op.increments (failKey userId)) :
    Counting userId since := by
  refine ⟨event, ?_, hOp⟩
  have hAll :
      since.takeWhile (fun event =>
        event.op ≠ .delete (failKey userId)) = since := by
    refine List.takeWhile_eq_self_iff.mpr ?_
    intro other hOther
    exact decide_eq_true
      fun hDelete => hKept ⟨other, hOther, hDelete⟩
  rwa [hAll]

/-
  What happened before the delete: no failure was counted,
  or one life of the failure counter began.
-/
inductive Begun
    (counters : AtomicCounters machine row)
    (userId : Nat)
    (state : σ)
    (since : List (Ev ι)) : Prop
  | uncounted
      (hNone : ∀ event ∈ beforeDelete userId since,
        ¬ event.op.InRow row (failKey userId))
      (hCount : ¬ Deleted userId since →
        counters.count state (failKey userId) = none)
  | counted
      (newer : List (Ev ι))
      (first : Ev ι)
      (older : List (Ev ι))
      (hSplit : beforeDelete userId since =
        newer ++ first :: older)
      (hFirst : CountsIn row (failKey userId) 1 first)
      (hQuiet : Quiet row (failKey userId) newer)
      (hOlder : ∀ event ∈ older,
        ¬ event.op.InRow row (failKey userId))
      (hCount : ¬ Deleted userId since → ∀ count,
        counters.count state (failKey userId) =
            some count →
          1 ≤ count)

/- Time keeps the count of a window. -/
omit [DecidableEq ι] in
theorem Begun.tick
    (hBegun : Begun counters userId state since)
    (step : machine.Tick) :
    Begun counters userId (machine.tick step state)
      since := by
  cases hBegun with
  | uncounted hNone hCount =>
      refine .uncounted hNone fun hKept => ?_
      rw [Option.eq_none_iff_forall_ne_some]
      intro count hSome
      have hBefore := counters.tick _ _ _ _ hSome
      rw [hCount hKept] at hBefore
      cases hBefore
  | counted newer first older hSplit hFirst hQuiet hOlder
      hCount =>
      refine .counted newer first older hSplit hFirst
        hQuiet hOlder fun hKept count hSome => ?_
      exact hCount hKept count
        (counters.tick _ _ _ _ hSome)

omit [DecidableEq ι] in
/- After a delete nothing more is known, or needed. -/
theorem Begun.deleted
    {state' : σ}
    (hBegun : Begun counters userId state since)
    (hDeleted : Deleted userId (event :: since)) :
    Begun counters userId state' (event :: since) := by
  have hSame : beforeDelete userId (event :: since) =
      beforeDelete userId since :=
    beforeDelete_cons_of_deleted hDeleted
  cases hBegun with
  | uncounted hNone hCount =>
      refine .uncounted ?_ fun hKept => ?_
      · rwa [hSame]
      · exact absurd hDeleted hKept
  | counted newer first older hSplit hFirst hQuiet hOlder
      hCount =>
      refine .counted newer first older ?_ hFirst hQuiet
        hOlder fun hKept => ?_
      · rwa [hSame]
      · exact absurd hDeleted hKept

/- A call adds one, to one of its own two counters. -/
theorem adds_of_rule
    {op : Op}
    {touched : Key}
    (hRule : (elevating config userId).rule past op)
    (hOp : op.increments touched) :
    op.Adds touched 1 ∧
      (touched = failKey userId ∨
        touched = lockKey userId) := by
  cases op with
  | increment counted amount expiry =>
      obtain rfl : counted = touched := hOp
      exact ⟨⟨rfl, hRule.2.1⟩, hRule.1⟩
  | incrementAndRefreshTtl counted amount expiry =>
      exact hRule.elim
  | arrive called => exact hOp.elim
  | respond outcome => exact hOp.elim
  | getCount read => exact hOp.elim
  | delete deleted => exact hOp.elim
  | getTtl read => exact hOp.elim
  | verify => exact hOp.elim

/- Failures are counted one at a time. -/
theorem increment_of_rule
    {op : Op}
    (hRule : (elevating config userId).rule past op)
    (hOp : op.increments (failKey userId)) :
    ∃ expiry, op = .increment (failKey userId) 1 expiry := by
  cases op with
  | increment touched amount expiry =>
      obtain rfl : touched = failKey userId := hOp
      obtain rfl : amount = 1 := hRule.2.1
      exact ⟨expiry, rfl⟩
  | incrementAndRefreshTtl touched amount expiry =>
      exact hRule.elim
  | arrive called => exact hOp.elim
  | respond outcome => exact hOp.elim
  | getCount read => exact hOp.elim
  | delete deleted => exact hOp.elim
  | getTtl read => exact hOp.elim
  | verify => exact hOp.elim

/- Only the two counters of the user are added to. -/
def OwnKeys (userId : Nat) (since : List (Ev ι)) : Prop :=
  ∀ event ∈ since, ∀ touched,
    event.op.increments touched →
      touched = failKey userId ∨ touched = lockKey userId

omit [DecidableEq ι] in
/- In the window, a row that was added to is there. -/
theorem live_of_window
    (hOwn : OwnKeys userId since)
    (hKept : ¬ Deleted userId since)
    (hLocked : Locked userId since →
      counters.count state (lockKey userId) ≠ none)
    (hCounting : Counting userId since →
      counters.count state (failKey userId) ≠ none)
    (hMem : event ∈ since)
    (hOp : event.op.InRow row (failKey userId)) :
    counters.count state (failKey userId) ≠ none := by
  rcases hOp with ⟨touched, hTouched, hRow⟩
  rcases hOwn event hMem touched hTouched with rfl | rfl
  · exact hCounting
      (counting_of_not_deleted hKept hMem hTouched)
  · rw [← counters.shared state _ _ hRow]
    exact hLocked ⟨event, hMem, hTouched⟩

omit [DecidableEq ι] in
/- The row is added to: the first time, or once more. -/
theorem Begun.count
    {op : Op}
    (hBegun : Begun counters userId state since)
    (hEvent : event =
      ⟨thread, op, (machine.exec op state).1⟩)
    (hRule : (elevating config userId).rule past op)
    (hOp : op.InRow row (failKey userId))
    (hDelete : op ≠ .delete (failKey userId))
    (hKept : ¬ Deleted userId since)
    (hLive : ∀ event ∈ since,
      event.op.InRow row (failKey userId) →
        counters.count state (failKey userId) ≠ none) :
    Begun counters userId (machine.exec op state).2
      (event :: since) := by
  have hBefore := beforeDelete_of_not_deleted hKept
  have hAll : beforeDelete userId (event :: since) =
      event :: since := by
    refine beforeDelete_of_not_deleted ?_
    rintro ⟨deleted, hMem, hDeleted⟩
    rcases List.mem_cons.mp hMem with rfl | hOld
    · rw [hEvent] at hDeleted
      exact hDelete hDeleted
    · exact hKept ⟨deleted, hOld, hDeleted⟩
  have hRow := hOp
  rcases hOp with ⟨touched, hTouched, hSame⟩
  have hAnswer := counters.adds_one state
    (adds_of_rule hRule hTouched).1 hSame
  cases hBegun with
  | uncounted hNone hCount =>
      rw [hCount hKept] at hAnswer
      rw [hBefore] at hNone
      refine .counted [] event since hAll ?_ ?_ hNone ?_
      · rw [hEvent]
        exact ⟨hRow, hAnswer⟩
      · intro other hOther
        cases hOther
      · intro _ count hSome
        have hLater := counters.after _ _ _ _ hRow hSome
        rw [hAnswer] at hLater
        exact (Option.some.inj hLater).le
  | counted newer first older hSplit hFirst hQuiet hOlder
      hCount =>
      rw [hBefore] at hSplit
      have hMem : first ∈ since := by
        rw [hSplit]
        exact List.mem_append_right _ List.mem_cons_self
      obtain ⟨count, hSome⟩ :=
        Option.ne_none_iff_exists'.mp
          (hLive first hMem hFirst.1)
      rw [hSome] at hAnswer
      have hLess : 1 < count + 1 :=
        Int.lt_add_one_of_le (hCount hKept count hSome)
      refine .counted (event :: newer) first older ?_ hFirst
        ?_ hOlder ?_
      · rw [hAll, hSplit]
        exact List.cons_append.symm
      · intro other hOther hOne
        rcases List.mem_cons.mp hOther with rfl | hOld
        · rw [hEvent] at hOne
          exact hLess.ne
            (Option.some.inj (hOne.2.symm.trans hAnswer))
        · exact hQuiet other hOld hOne
      · intro _ later hLater
        have hNext := counters.after _ _ _ _ hRow hLater
        rw [hAnswer] at hNext
        rw [← Option.some.inj hNext]
        exact hLess.le

omit [DecidableEq ι] in
/- What is no count leaves the counter as it is, or none. -/
theorem Begun.keep
    {op : Op}
    (hBegun : Begun counters userId state since)
    (hEvent : event.op = op)
    (hKept : ¬ Deleted userId (event :: since))
    (hOp : ¬ op.InRow row (failKey userId)) :
    Begun counters userId (machine.exec op state).2
      (event :: since) := by
  have hSince : ¬ Deleted userId since :=
    fun hDeleted => hKept hDeleted.cons
  have hAll := beforeDelete_of_not_deleted hKept
  have hBefore := beforeDelete_of_not_deleted hSince
  cases hBegun with
  | uncounted hNone hCount =>
      refine .uncounted ?_ fun _ => ?_
      · rw [hAll]
        rw [hBefore] at hNone
        rw [← hEvent] at hOp
        exact List.forall_mem_cons.mpr ⟨hOp, hNone⟩
      · rw [Option.eq_none_iff_forall_ne_some]
        intro count hSome
        have hEarlier := counters.frame _ _ _ _ hOp hSome
        rw [hCount hSince] at hEarlier
        cases hEarlier
  | counted newer first older hSplit hFirst hQuiet hOlder
      hCount =>
      rw [hBefore] at hSplit
      refine .counted (event :: newer) first older ?_ hFirst
        ?_ hOlder ?_
      · rw [hAll, hSplit]
        exact List.cons_append.symm
      · intro other hOther hOne
        rcases List.mem_cons.mp hOther with rfl | hOld
        · rw [← hEvent] at hOp
          exact hOp hOne.1
        · exact hQuiet other hOld hOne
      · intro _ count hSome
        exact hCount hSince count
          (counters.frame _ _ _ _ hOp hSome)

omit [DecidableEq ι] in
/- What one step of a call does to what has begun. -/
theorem Begun.step
    {op : Op}
    (hBegun : Begun counters userId state since)
    (hRule : (elevating config userId).rule past op)
    (hOwn : OwnKeys userId since)
    (hLocked : Locked userId since →
      counters.count state (lockKey userId) ≠ none)
    (hCounting : Counting userId since →
      counters.count state (failKey userId) ≠ none) :
    Begun counters userId (machine.exec op state).2
      (⟨thread, op, (machine.exec op state).1⟩ ::
        since) := by
  by_cases hDeleted : Deleted userId
      (⟨thread, op, (machine.exec op state).1⟩ :: since)
  · exact hBegun.deleted hDeleted
  have hKept : ¬ Deleted userId since :=
    fun hSince => hDeleted hSince.cons
  by_cases hOp : op.InRow row (failKey userId)
  · refine hBegun.count rfl hRule hOp ?_ hKept ?_
    · rintro rfl
      exact hDeleted ⟨_, List.mem_cons_self, rfl⟩
    · intro event hMem hRow
      exact live_of_window hOwn hKept hLocked hCounting hMem
        hRow
  · exact hBegun.keep rfl hDeleted hOp

------------------------------------------------------------
-- Runs
------------------------------------------------------------

/- The moments of a run of concurrent calls. -/
abbrev Elevated
    (config : SudoConfig)
    (userId : Nat)
    (machine : Machine interface σ)
    (condition : Condition ι interface σ)
    (start : σ)
    (opening : List (Ev ι)) :
    σ → List (Ev ι) → Prop :=
  Trace machine (fun _ => elevating config userId)
    condition start opening

/- The verifiers are the threads that verified. -/
omit [DecidableEq ι] in
theorem mem_verifiers :
    thread ∈ verifiers history ↔
      ∃ event ∈ history,
        event.op = .verify ∧ event.thread = thread := by
  unfold verifiers
  simp only [List.mem_map, List.mem_filter,
    decide_eq_true_eq]
  constructor
  · rintro ⟨event, ⟨hMem, hOp⟩, hThread⟩
    exact ⟨event, hMem, hOp, hThread⟩
  · rintro ⟨event, hMem, hOp, hThread⟩
    exact ⟨event, ⟨hMem, hOp⟩, hThread⟩

/- A verification adds its thread. -/
omit [DecidableEq ι] in
theorem verifiers_cons_of_verify
    (hOp : event.op = .verify) :
    verifiers (event :: history) =
      event.thread :: verifiers history := by
  simp [verifiers, hOp]

omit [DecidableEq ι] in
theorem verifiers_cons_of_ne
    (hOp : event.op ≠ .verify) :
    verifiers (event :: history) = verifiers history := by
  simp [verifiers, hOp]

/- A call has its password or code checked only once. -/
theorem verifiers_nodup
    (hTrace : Elevated config userId machine condition
      start [] state history) :
    (verifiers history).Nodup := by
  refine hTrace.invariant
    (fun _ history => (verifiers history).Nodup)
    List.nodup_nil ?_ (fun _ _ _ hNodup => hNodup)
  intro state history thread op _ hRule _ hNodup
  by_cases hOp : op = .verify
  · subst hOp
    rw [verifiers_cons_of_verify rfl, List.nodup_cons]
    refine ⟨fun hMem => ?_, hNodup⟩
    rcases mem_verifiers.mp hMem with
      ⟨event, hEvent, hVerify, hThread⟩
    have hOwner : event.thread = thread := hThread
    refine hRule.2 ⟨event.action, ?_, hVerify⟩
    rw [mem_own_iff, ← hOwner]
    exact hEvent
  · rwa [verifiers_cons_of_ne hOp]

/- The count of a window holds its attempts. -/
theorem begun_of_trace
    (hTrace : Elevated config userId machine
      (sinceOpening (window counters userId condition)
        opening)
      start opening state history)
    (hAbsent :
      counters.count start (failKey userId) = none) :
    ∃ since, history = since ++ opening ∧
      Begun counters userId state since ∧
      OwnKeys userId since := by
  refine hTrace.invariant
    (fun state history =>
      ∃ since, history = since ++ opening ∧
        Begun counters userId state since ∧
        OwnKeys userId since) ?_ ?_ ?_
  · refine ⟨[], rfl, .uncounted ?_ fun _ => hAbsent, ?_⟩
    · intro event hEvent
      cases hEvent
    · intro event hEvent
      cases hEvent
  · rintro state history thread op - hRule
      ⟨since, rfl, hLocked, hCounting, -⟩
      ⟨since', hSame, hBegun, hOwn⟩
    obtain rfl := List.append_cancel_right hSame
    refine ⟨_ :: since, rfl, ?_, ?_⟩
    · exact hBegun.step hRule hOwn hLocked hCounting
    · exact List.forall_mem_cons.mpr
        ⟨fun touched hOp => (adds_of_rule hRule hOp).2,
          hOwn⟩
  · rintro state history step ⟨since, rfl, hBegun, hOwn⟩
    exact ⟨since, rfl, hBegun.tick step, hOwn⟩

/- Who is checked has counted before the delete. -/
theorem backed_of_trace
    (hTrace : Elevated config userId machine
      (sinceOpening
        (window counters userId (timely userId)) opening)
      start opening state history) :
    ∃ since, history = since ++ opening ∧
      ∀ thread ∈ verifiers since,
        ∃ event ∈ beforeDelete userId since,
          event.thread = thread ∧
            event.op.increments (failKey userId) := by
  refine hTrace.invariant
    (fun _ history =>
      ∃ since, history = since ++ opening ∧
        ∀ thread ∈ verifiers since,
          ∃ event ∈ beforeDelete userId since,
            event.thread = thread ∧
              event.op.increments (failKey userId))
    ?_ ?_ (fun _ _ _ hBacked => hBacked)
  · refine ⟨[], rfl, ?_⟩
    intro thread hThread
    cases hThread
  · rintro state history active op - -
      ⟨since, rfl, -, -, hTimely⟩ ⟨since', hSame, hBacked⟩
    obtain rfl := List.append_cancel_right hSame
    refine ⟨_ :: since, rfl, fun thread hThread => ?_⟩
    have hCounted :
        ∃ event ∈ beforeDelete userId since,
          event.thread = thread ∧
            event.op.increments (failKey userId) := by
      by_cases hOp : op = .verify
      · rw [verifiers_cons_of_verify hOp] at hThread
        rcases List.mem_cons.mp hThread with rfl | hOld
        · exact hTimely hOp
        · exact hBacked thread hOld
      · rw [verifiers_cons_of_ne hOp] at hThread
        exact hBacked thread hThread
    rcases hCounted with ⟨event, hMem, hEvent⟩
    exact ⟨event, mem_beforeDelete_cons hMem, hEvent⟩

/- A failure that a call counted, as an event of a run. -/
theorem counts_of_increments
    (hTrace : Elevated config userId machine condition
      start [] state history)
    (hMem : event ∈ history)
    (hOp : event.op.increments (failKey userId)) :
    ∃ count, Counts (failKey userId) count event := by
  rcases hTrace.at_member hMem with
    ⟨-, earlier, -, -, hRule, -⟩
  rcases event with ⟨thread, op, ret⟩
  obtain ⟨expiry, rfl⟩ := increment_of_rule hRule hOp
  exact ⟨ret, thread, expiry, rfl⟩

omit [DecidableEq ι] in
/- A call counts a failure only once. -/
theorem countsOnce :
    LockoutPolicy.CountsOnce
      (fun _ : ι => elevating config userId)
      (failKey userId) :=
  fun _ _ _ _ hRule => hRule.2.2 rfl

/- Who is checked was answered a count in the cap. -/
theorem within_of_verify
    (hTrace : Elevated config userId machine condition
      start [] state history)
    (hThread : thread ∈ verifiers history) :
    ∃ event ∈ history, ∃ count,
      event.thread = thread ∧
      Counts (failKey userId) count event ∧
      count ≤ config.maxAttempts := by
  rcases mem_verifiers.mp hThread with
    ⟨⟨_, op, ret⟩, hMem, hVerify, rfl⟩
  obtain rfl : op = .verify := hVerify
  rcases hTrace.at_member hMem with
    ⟨-, earlier, hEarlier, -, hRule, -⟩
  rcases hRule.1 with ⟨expiry, count, hCounted, hCap⟩
  have hOwn := (own_suffix _ hEarlier).subset hCounted
  exact ⟨_, mem_own_iff.mp hOwn, count, rfl,
    ⟨_, expiry, rfl⟩, hCap⟩

/- Those checked counted in one life of the counter. -/
theorem card_verifiers_le
    (hTrace : Elevated config userId machine condition
      start [] state (since ++ opening))
    (hBegun : Begun counters userId state since)
    (hBacked : ∀ thread ∈ verifiers since,
      ∃ event ∈ beforeDelete userId since,
        event.thread = thread ∧
          event.op.increments (failKey userId)) :
    (verifiers since).toFinset.card ≤
      config.maxAttempts := by
  cases hBegun with
  | uncounted hNone hCount =>
      have hEmpty : verifiers since = [] := by
        refine List.eq_nil_iff_forall_not_mem.mpr ?_
        intro thread hThread
        rcases hBacked thread hThread with
          ⟨event, hMem, -, hOp⟩
        exact hNone event hMem (Op.inRow_of_increments hOp)
      rw [hEmpty]
      exact Nat.zero_le _
  | counted newer first older hSplit hFirst hQuiet hOlder
      hCount =>
      have hSuffix : beforeDelete userId since <:+ since :=
        beforeDelete_suffix
      obtain ⟨later, hSince⟩ := hSuffix
      have hLife : Lifetime row (failKey userId)
          (newer ++ [first]) :=
        ⟨newer, first, rfl, hFirst, hQuiet⟩
      have hHistory : since ++ opening =
          later ++ (newer ++ [first]) ++
            (older ++ opening) := by
        rw [← hSince, hSplit]
        simp
      have hWhole := hHistory ▸ hTrace
      refine hLife.card_le counters ?_ hWhole ?_
      · intro thread past op touched hRule hOp _
        exact (adds_of_rule hRule hOp).1
      intro thread hThread
      have hVerifier := List.mem_toFinset.mp hThread
      rcases hBacked thread hVerifier with
        ⟨event, hMem, hOwner, hOp⟩
      have hEvent : event ∈ since ++ opening :=
        List.mem_append_left _
          (beforeDelete_suffix.subset hMem)
      obtain ⟨count, hCounts⟩ :=
        counts_of_increments hTrace hEvent hOp
      have hAll : thread ∈ verifiers (since ++ opening) := by
        rcases mem_verifiers.mp hVerifier with
          ⟨verified, hVerified, hRest⟩
        exact mem_verifiers.mpr ⟨verified,
          List.mem_append_left _ hVerified, hRest⟩
      rcases within_of_verify hTrace hAll with
        ⟨event', hEvent', count', hOwner', hCounts', hCap⟩
      obtain rfl : event = event' :=
        counts_once
          countsOnce hTrace hEvent hEvent' hOwner hOwner'
          hCounts hCounts'
      refine ⟨event, ?_, count', hOwner, hCounts'.countsIn,
        hCap⟩
      rw [hSplit] at hMem
      rcases List.mem_append.mp hMem with hNewer | hRest
      · exact List.mem_append_left _ hNewer
      rcases List.mem_cons.mp hRest with rfl | hOld
      · exact List.mem_append_right _ List.mem_cons_self
      · exact absurd (Op.inRow_of_increments hOp)
          (hOlder event hOld)

/-
  The cap holds as long as nobody is checked on a count
  that is not of the first life of the failure counter.
-/
theorem capHolds_of_timely
    (config : SudoConfig)
    (userId : Nat)
    (counters : AtomicCounters machine row) :
    CapHolds (ι := ι) config userId counters
      (timely userId) := by
  intro start moment finish hMoment hFail _ hFinish _
  have hSince := hFinish.reopen moment.history
  have hRule : ∀ thread,
      (moment.pool thread).Obeys (elevating config userId)
        (own thread moment.history) (fun _ _ => True) :=
    hMoment.obeys (fun _ => attempt_obeys)
      (fun _ _ _ => trivial)
  have hTrace := hSince.trace hRule (fun _ _ _ => trivial)
  have hWhole : Elevated config userId machine anyStep
      start [] finish.state
      (finish.history ++ moment.history) :=
    (hMoment.trans
      (hSince.mono fun _ _ _ _ _ => trivial)).trace
        (fun _ => attempt_obeys) (fun _ _ _ => trivial)
  obtain ⟨since, hSame, hBegun, -⟩ :=
    begun_of_trace hTrace hFail
  obtain rfl := List.append_cancel_right hSame
  obtain ⟨since, hSame, hBacked⟩ := backed_of_trace hTrace
  obtain rfl := List.append_cancel_right hSame
  have hNodup : (verifiers finish.history).Nodup := by
    have hAll := verifiers_nodup hWhole
    unfold verifiers at hAll ⊢
    rw [List.filter_append, List.map_append] at hAll
    exact hAll.of_append_left
  rw [← List.toFinset_card_of_nodup hNodup]
  exact card_verifiers_le hWhole hBegun hBacked

------------------------------------------------------------
-- A Late Count
------------------------------------------------------------

/- One wrong password locks. -/
def strict : SudoConfig where
  windowSeconds := 300
  maxAttempts := 1
  lockoutSeconds := 900

/- A limiter that has counted nothing. -/
def noCounters : Limiter Key where
  counters := fun _ => none
  clock := 0
  checks := []

/- Every thread makes one attempt for user 1. -/
def calls :
    Config Nat interface (Limiter Key) Empty Unit where
  state := noCounters
  history := []
  pool := fun _ => attempt strict 1

/- A thread takes so many steps. -/
def steps
    (thread count : Nat) :
    List (Choice Nat (Backend.Tick Key)) :=
  List.replicate count (.thread thread)

/- One call after the other. -/
def onTime : List (Choice Nat (Backend.Tick Key)) :=
  steps 0 7 ++ steps 1 3

/- The second call counts after the lock of the first. -/
def tooLate : List (Choice Nat (Backend.Tick Key)) :=
  steps 0 2 ++ steps 1 2 ++ steps 0 4 ++ steps 1 2

theorem onTime_ends :
    (calls.run (Backend.memory.machine id)
      (window (Backend.memory.atomicCounters id) 1
        (timely 1))
      onTime).isSome = true := by
  decide

/- Two guesses in time share the cap. -/
theorem onTime_capped :
    (verifiers ((calls.run (Backend.memory.machine id)
      (window (Backend.memory.atomicCounters id) 1
        (timely 1))
      onTime).get onTime_ends).history).length ≤ 1 :=
  capHolds_of_timely strict 1
    (Backend.memory.atomicCounters id)
    noCounters calls _ .start rfl rfl
    (Reaches.of_run (Option.some_get onTime_ends).symm)
    (by decide)

theorem tooLate_ends :
    (calls.run (Backend.memory.machine id)
      (window (Backend.memory.atomicCounters id) 1 anyStep)
      tooLate).isSome = true := by
  decide

/- Two passwords are checked under a cap of one. -/
theorem not_capHolds_of_late :
    1 ≤ strict.maxAttempts ∧
    ¬ CapHolds strict 1 (Backend.memory.atomicCounters id)
      (anyStep (ι := Nat)) := by
  refine ⟨Nat.le_refl 1, fun hHolds => ?_⟩
  have hCap := hHolds noCounters calls _ .start rfl rfl
    (Reaches.of_run (Option.some_get tooLate_ends).symm)
    (by decide)
  exact absurd hCap (by decide)

end SudoManager

end RateLimit

end CrudAuth
