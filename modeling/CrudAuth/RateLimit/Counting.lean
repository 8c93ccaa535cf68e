import CrudAuth.RateLimit.Backend
import CrudAuth.Concurrency.Interleaving
import Mathlib.Data.Finset.Card
import Mathlib.Data.Int.Interval

/-
  What a limiter can rely on: an increment reads the count
  and writes the next one in one step, and nothing else
  makes a count come back or change.  Keys that are kept in
  one row share its count, and so its life.

  Main declarations:
    * `Op.InRow`
    * `AtomicCounters`
    * `Backend.atomicCounters`
    * `Lifetime`
    * `Lifetime.increases`
    * `Lifetime.card_le`
-/

namespace CrudAuth

namespace RateLimit

open Concurrency

variable {σ ι ρ : Type} [DecidableEq ι]

------------------------------------------------------------
-- Atomic Counters
------------------------------------------------------------

/- Operations that add to the counter of a key. -/
def Op.increments (key : Key) : Op → Prop
  | .increment touched _ _ => touched = key
  | .incrementAndRefreshTtl touched _ _ => touched = key
  | _ => False

instance (key : Key) :
    ∀ op : Op, Decidable (op.increments key)
  | .increment touched _ _ =>
      inferInstanceAs (Decidable (touched = key))
  | .incrementAndRefreshTtl touched _ _ =>
      inferInstanceAs (Decidable (touched = key))
  | .arrive _ => instDecidableFalse
  | .respond _ => instDecidableFalse
  | .getCount _ => instDecidableFalse
  | .delete _ => instDecidableFalse
  | .getTtl _ => instDecidableFalse
  | .verify => instDecidableFalse

/- Operations that add so much to the counter of a key. -/
def Op.Adds (key : Key) (added : Int) : Op → Prop
  | .increment touched amount _ =>
      touched = key ∧ amount = added
  | .incrementAndRefreshTtl touched amount _ =>
      touched = key ∧ amount = added
  | _ => False

/- Operations that add to the row a key is kept in. -/
def Op.InRow (row : Key → ρ) (key : Key) (op : Op) : Prop :=
  ∃ touched, op.increments touched ∧ row touched = row key

/- The count that an increment is answered. -/
def Op.counted : (op : Op) → op.Ret → Option Int
  | .increment _ _ _, count => some count
  | .incrementAndRefreshTtl _ _ _, count => some count
  | _, _ => none

/-
  A limiter with counters that count in one step.  `count`
  is the live count of a key, if there is one, and `row`
  says which keys have it in common.
-/
structure AtomicCounters
    (machine : Machine interface σ)
    (row : Key → ρ) where
  count : σ → Key → Option Int
  shared : ∀ state key key',
    row key = row key' →
    count state key = count state key'
  answer : ∀ state (op : Op) key amount,
    op.Adds key amount →
    op.counted (machine.exec op state).1 =
      some ((count state key).getD 0 + amount)
  after : ∀ state (op : Op) key later,
    op.InRow row key →
    count (machine.exec op state).2 key = some later →
    op.counted (machine.exec op state).1 = some later
  frame : ∀ state (op : Op) key later,
    ¬ op.InRow row key →
    count (machine.exec op state).2 key = some later →
    count state key = some later
  tick : ∀ state tick key later,
    count (machine.tick tick state) key = some later →
    count state key = some later

/- An increment of a key is one in its row. -/
theorem Op.inRow_of_increments
    {row : Key → ρ}
    {key : Key}
    {op : Op}
    (hOp : op.increments key) :
    op.InRow row key :=
  ⟨key, hOp, rfl⟩

namespace Backend

variable [DecidableEq ρ]
variable {backend : Backend}
variable {row : Key → ρ}
variable {limiter : Limiter ρ}
variable {place touched : ρ}
variable {key : Key}
variable {counter : Counter}
variable {stored : Option Counter}

/- A later clock reads no earlier. -/
theorem now_mono
    {earlier later : Nat}
    (hLater : earlier ≤ later) :
    backend.now earlier ≤ backend.now later := by
  cases backend with
  | memory => exact hLater
  | database => exact Nat.div_le_div_right hLater
  | redis => exact Nat.div_le_div_right hLater

/- A counter that is live was live before. -/
theorem isExpired_mono
    {earlier later : Nat}
    (hLater : earlier ≤ later)
    (hExpired : backend.isExpired earlier counter = true) :
    backend.isExpired later counter = true := by
  have hNow := backend.now_mono hLater
  unfold isExpired at hExpired ⊢
  cases hDeadline : counter.expiresAt with
  | none => simp [hDeadline] at hExpired
  | some deadline =>
      rw [hDeadline] at hExpired
      cases backend with
      | memory =>
          simp only [Option.any_some, decide_eq_true_eq]
            at hExpired ⊢
          exact hExpired.trans_le hNow
      | database =>
          simp only [Option.any_some, decide_eq_true_eq]
            at hExpired ⊢
          exact hExpired.trans hNow
      | redis =>
          simp only [Option.any_some, decide_eq_true_eq]
            at hExpired ⊢
          exact hExpired.trans_le hNow

omit [DecidableEq ρ] in
/- A live counter is stored, and has not expired. -/
theorem live_eq_some :
    backend.live limiter place = some counter ↔
      limiter.counters place = some counter ∧
        backend.isExpired limiter.clock counter =
          false := by
  unfold live
  rw [Option.filter_eq_some_iff]
  simp

/- Writing a row leaves the others as they are. -/
theorem live_put_of_ne
    (hKey : touched ≠ place) :
    backend.live (put limiter touched stored) place =
      backend.live limiter place := by
  simp only [live, put,
    Function.update_of_ne (Ne.symm hKey)]

/- What is live under a written key is what was written. -/
theorem live_put_self
    (hLive :
      backend.live (put limiter place stored) place =
        some counter) :
    stored = some counter := by
  rw [live_eq_some] at hLive
  simpa [put] using hLive.1

/- Time passing brings no counter back. -/
theorem live_of_tick
    {step : Tick ρ}
    (hLive :
      backend.live (backend.tick step limiter) place =
        some counter) :
    backend.live limiter place = some counter := by
  cases step with
  | pass microseconds =>
      rw [live_eq_some] at hLive ⊢
      refine ⟨hLive.1, ?_⟩
      cases hExpired :
          backend.isExpired limiter.clock counter with
      | false => rfl
      | true =>
          have hLater :=
            backend.isExpired_mono
              (Nat.le_add_right limiter.clock microseconds)
              hExpired
          exact absurd hLive.2 (by simp [tick, hLater])
  | sweep swept =>
      by_cases hKey : swept = place
      · subst hKey
        exact live_put_self hLive
      · rwa [tick, live_put_of_ne hKey] at hLive

/- Only an increment in its row changes a live counter. -/
theorem live_of_exec
    {op : Op}
    (hOp : ¬ op.InRow row key)
    (hLive :
      backend.live (backend.exec row op limiter).2
        (row key) = some counter) :
    backend.live limiter (row key) = some counter := by
  cases op with
  | arrive called => exact hLive
  | respond outcome => exact hLive
  | getCount read => exact hLive
  | getTtl read => exact hLive
  | increment touched amount expiry =>
      have hRow : row touched ≠ row key :=
        fun hSame => hOp ⟨touched, rfl, hSame⟩
      rwa [exec, live_put_of_ne hRow] at hLive
  | incrementAndRefreshTtl touched amount expiry =>
      have hRow : row touched ≠ row key :=
        fun hSame => hOp ⟨touched, rfl, hSame⟩
      rwa [exec, live_put_of_ne hRow] at hLive
  | delete deleted =>
      by_cases hRow : row deleted = row key
      · rw [exec, hRow] at hLive
        exact absurd (live_put_self hLive) (by simp)
      · rwa [exec, live_put_of_ne hRow] at hLive
  | verify =>
      rcases limiter with ⟨counters, clock, checks⟩
      cases checks with
      | nil => exact hLive
      | cons check checks => exact hLive

omit [DecidableEq ρ] in
/- The count of a counter that may be missing. -/
theorem current_count :
    (backend.current limiter place).count =
      ((backend.live limiter place).map
        Counter.count).getD 0 := by
  unfold current
  cases backend.live limiter place with
  | none => rfl
  | some counter => rfl

/-
  Each backend counts in one step, wherever it keeps keys.
-/
def atomicCounters
    (backend : Backend)
    (row : Key → ρ) :
    AtomicCounters (backend.machine row) row where
  count := fun limiter key =>
    (backend.live limiter (row key)).map Counter.count
  shared := by
    intro limiter key key' hRow
    rw [hRow]
  answer := by
    intro limiter op key amount hAdds
    cases op with
    | increment touched added expiry =>
        obtain ⟨rfl, rfl⟩ := hAdds
        rw [← current_count]
        rfl
    | incrementAndRefreshTtl touched added expiry =>
        obtain ⟨rfl, rfl⟩ := hAdds
        rw [← current_count]
        rfl
    | arrive called => exact hAdds.elim
    | respond outcome => exact hAdds.elim
    | getCount read => exact hAdds.elim
    | delete deleted => exact hAdds.elim
    | getTtl read => exact hAdds.elim
    | verify => exact hAdds.elim
  after := by
    rintro limiter op key later ⟨touched, hOp, hRow⟩ hLater
    rcases Option.map_eq_some_iff.mp hLater with
      ⟨counter, hLive, rfl⟩
    cases op with
    | increment counted amount expiry =>
        obtain rfl : counted = touched := hOp
        rw [← hRow] at hLive
        exact congrArg (Option.map Counter.count)
          (live_put_self hLive)
    | incrementAndRefreshTtl counted amount expiry =>
        obtain rfl : counted = touched := hOp
        rw [← hRow] at hLive
        exact congrArg (Option.map Counter.count)
          (live_put_self hLive)
    | arrive called => exact hOp.elim
    | respond outcome => exact hOp.elim
    | getCount read => exact hOp.elim
    | delete deleted => exact hOp.elim
    | getTtl read => exact hOp.elim
    | verify => exact hOp.elim
  frame := by
    intro limiter op key later hOp hLater
    rcases Option.map_eq_some_iff.mp hLater with
      ⟨counter, hLive, rfl⟩
    rw [live_of_exec hOp hLive]
    rfl
  tick := by
    intro limiter step key later hLater
    rcases Option.map_eq_some_iff.mp hLater with
      ⟨counter, hLive, rfl⟩
    rw [live_of_tick hLive]
    rfl

end Backend

------------------------------------------------------------
-- Lifetimes
------------------------------------------------------------

/- An event that counts one and is answered `count`. -/
def Counts
    (key : Key)
    (count : Int)
    (event : Ev ι) : Prop :=
  ∃ thread expiry,
    event = ⟨thread, .increment key 1 expiry, count⟩

/- An event that adds to a key's row, answered `count`. -/
def CountsIn
    (row : Key → ρ)
    (key : Key)
    (count : Int)
    (event : Ev ι) : Prop :=
  event.op.InRow row key ∧
    event.op.counted event.ret = some count

/- No event starts the counter of the key again. -/
def Quiet
    (row : Key → ρ)
    (key : Key)
    (events : List (Ev ι)) : Prop :=
  ∀ event ∈ events, ¬ CountsIn row key 1 event

/-
  One life of a counter, newest event first: from the
  increment that starts it, with no other start in it.  A
  counter that expires is started by its next increment, of
  whichever key in its row.
-/
def Lifetime
    (row : Key → ρ)
    (key : Key)
    (events : List (Ev ι)) : Prop :=
  ∃ newer first,
    events = newer ++ [first] ∧
    CountsIn row key 1 first ∧
    Quiet row key newer

/- Threads that add to a row add one at a time. -/
def CountsByOne
    (contract : ι → Contract interface)
    (row : Key → ρ)
    (key : Key) : Prop :=
  ∀ thread past op touched,
    (contract thread).rule past op →
    op.increments touched →
    row touched = row key →
    op.Adds touched 1

variable {machine : Machine interface σ}
variable {contract : ι → Contract interface}
variable {condition : Condition ι interface σ}
variable {start state : σ}
variable {newer earlier later events : List (Ev ι)}
variable {first event : Ev ι}
variable {row : Key → ρ}
variable {key : Key}
variable {count : Int}

omit [DecidableEq ι] in
/- Counting one for a key adds to its row. -/
theorem Counts.countsIn
    (hCounts : Counts key count event) :
    CountsIn row key count event := by
  rcases hCounts with ⟨thread, expiry, rfl⟩
  exact ⟨⟨key, rfl, rfl⟩, rfl⟩

omit [DecidableEq ι] in
/- One event is answered one count. -/
theorem CountsIn.count_eq
    {count' : Int}
    (hIn : CountsIn row key count event)
    (hIn' : CountsIn row key count' event) :
    count = count' :=
  Option.some.inj (hIn.2.symm.trans hIn'.2)

/- What one addition by one does to the count of a row. -/
theorem AtomicCounters.adds_one
    (counters : AtomicCounters machine row)
    (state : σ)
    {op : Op}
    {touched : Key}
    (hAdds : op.Adds touched 1)
    (hRow : row touched = row key) :
    op.counted (machine.exec op state).1 =
      some ((counters.count state key).getD 0 + 1) := by
  rw [counters.answer state op touched 1 hAdds,
    counters.shared state touched key hRow]

/- Within one life, every later answer is larger. -/
theorem Quiet.increases
    (counters : AtomicCounters machine row)
    (hContract : CountsByOne contract row key)
    (hTrace : Trace machine contract condition start []
      state (newer ++ first :: earlier))
    (hFirst : CountsIn row key count first)
    (hQuiet : Quiet row key newer) :
    ∀ event ∈ newer, ∀ next,
      CountsIn row key next event → count < next := by
  rcases hTrace.at_event with
    ⟨before, -, -, -, hRet, -, hAfter⟩
  let holds : σ → List (Ev ι) → Prop :=
    fun state history =>
      ∃ newer,
        history = newer ++ first :: earlier ∧
        (Quiet row key newer →
          (∀ next, counters.count state key = some next →
            count ≤ next) ∧
          ∀ event ∈ newer, ∀ next,
            CountsIn row key next event → count < next)
  have hHolds : holds state (newer ++ first :: earlier) := by
    refine hAfter.invariant holds ?_ ?_ ?_
    · refine ⟨[], rfl, fun _ => ⟨?_, by simp⟩⟩
      intro next hNext
      have hAnswer := counters.after _ _ _ _ hFirst.1 hNext
      rw [← hRet, hFirst.2] at hAnswer
      exact (Option.some.inj hAnswer).le
    · rintro state history active op - hRule -
        ⟨newer, rfl, hNewer⟩
      refine ⟨_ :: newer, rfl, fun hQuiet => ?_⟩
      rcases hNewer
          (fun event hEvent =>
            hQuiet event (List.mem_cons_of_mem _ hEvent))
        with ⟨hCount, hEvents⟩
      by_cases hOp : op.InRow row key
      · obtain ⟨touched, hTouched, hRow⟩ := hOp
        have hAnswer := counters.adds_one state
          (hContract _ _ _ _ hRule hTouched hRow) hRow
        -- a counter that is not there would start again
        cases hLive : counters.count state key with
        | none =>
            rw [hLive] at hAnswer
            exact absurd
              ⟨⟨touched, hTouched, hRow⟩, hAnswer⟩
              (hQuiet _ List.mem_cons_self)
        | some live =>
            have hLe := hCount live hLive
            rw [hLive] at hAnswer
            have hLess : count < live + 1 :=
              Int.lt_add_one_of_le hLe
            refine ⟨fun next hNext => ?_, ?_⟩
            · have hLater := counters.after _ _ _ _
                ⟨touched, hTouched, hRow⟩ hNext
              rw [hAnswer] at hLater
              rw [← Option.some.inj hLater]
              exact hLess.le
            · intro event hEvent next hNext
              rcases List.mem_cons.mp hEvent with
                rfl | hEvent
              · rw [← Option.some.inj
                  (hAnswer.symm.trans hNext.2)]
                exact hLess
              · exact hEvents event hEvent next hNext
      · refine ⟨fun next hNext => ?_, ?_⟩
        · exact hCount next
            (counters.frame _ _ _ _ hOp hNext)
        · intro event hEvent next hNext
          rcases List.mem_cons.mp hEvent with
            rfl | hEvent
          · exact absurd hNext.1 hOp
          · exact hEvents event hEvent next hNext
    · rintro state history tick ⟨newer, rfl, hNewer⟩
      refine ⟨newer, rfl, fun hQuiet => ?_⟩
      rcases hNewer hQuiet with ⟨hCount, hEvents⟩
      refine ⟨fun next hNext => ?_, hEvents⟩
      exact hCount next (counters.tick _ _ _ _ hNext)
  rcases hHolds with ⟨newer', hSame, hGoal⟩
  obtain rfl : newer = newer' :=
    List.append_cancel_right hSame
  exact (hGoal hQuiet).2

omit [DecidableEq ι] in
/- What is newer than any event of a life is quiet. -/
theorem Lifetime.quiet
    (hLifetime :
      Lifetime row key (newer ++ event :: earlier)) :
    Quiet row key newer := by
  rcases hLifetime with ⟨counting, first, hSame, -, hQuiet⟩
  rcases order_of_splits hSame with
    ⟨between, -, rfl⟩ | ⟨between, hNil, -⟩ | ⟨-, rfl, -⟩
  · intro other hOther
    exact hQuiet other (List.mem_append_left _ hOther)
  · simp at hNil
  · exact hQuiet

/- Every answer in a life is at least the first one. -/
theorem Lifetime.one_le
    (counters : AtomicCounters machine row)
    (hContract : CountsByOne contract row key)
    (hTrace : Trace machine contract condition start []
      state (events ++ earlier))
    (hLifetime : Lifetime row key events)
    (hEvent : event ∈ events)
    (hCounts : CountsIn row key count event) :
    1 ≤ count := by
  rcases hLifetime with ⟨newer, first, rfl, hFirst, hQuiet⟩
  rw [List.append_assoc] at hTrace
  rcases List.mem_append.mp hEvent with hNewer | hLast
  · exact (hQuiet.increases counters hContract hTrace
      hFirst event hNewer count hCounts).le
  · obtain rfl := List.mem_singleton.mp hLast
    exact (hFirst.count_eq hCounts).le

/- Two events of one life with one answer are one event. -/
theorem Lifetime.eq_of_counts
    {other : Ev ι}
    (counters : AtomicCounters machine row)
    (hContract : CountsByOne contract row key)
    (hTrace : Trace machine contract condition start []
      state (events ++ earlier))
    (hLifetime : Lifetime row key events)
    (hEvent : event ∈ events)
    (hOther : other ∈ events)
    (hCounts : CountsIn row key count event)
    (hCounts' : CountsIn row key count other) :
    event = other := by
  rcases List.append_of_mem hEvent with
    ⟨newer, older, rfl⟩
  rcases List.append_of_mem hOther with
    ⟨newer', older', hSplit⟩
  rcases order_of_splits hSplit with
    ⟨between, rfl, rfl⟩ | ⟨between, rfl, rfl⟩ | ⟨rfl, -, -⟩
  · have hTrace' : Trace machine contract condition start []
        state ((newer ++ event :: between) ++
          other :: (older' ++ earlier)) := by
      simpa using hTrace
    rw [hSplit] at hLifetime
    have hLess := hLifetime.quiet.increases counters
      hContract hTrace' hCounts' event (by simp) count
      hCounts
    exact absurd hLess (lt_irrefl count)
  · have hTrace' : Trace machine contract condition start []
        state ((newer' ++ other :: between) ++
          event :: (older ++ earlier)) := by
      simpa using hTrace
    have hLess := hLifetime.quiet.increases counters
      hContract hTrace' hCounts other (by simp) count
      hCounts'
    exact absurd hLess (lt_irrefl count)
  · rfl

/- At most `cap` threads are answered up to `cap`. -/
theorem Lifetime.card_le
    {cap : Nat}
    {threads : Finset ι}
    (counters : AtomicCounters machine row)
    (hContract : CountsByOne contract row key)
    (hTrace : Trace machine contract condition start []
      state (later ++ events ++ earlier))
    (hLifetime : Lifetime row key events)
    (hThreads : ∀ thread ∈ threads,
      ∃ event ∈ events, ∃ count,
        event.thread = thread ∧
        CountsIn row key count event ∧
        count ≤ cap) :
    threads.card ≤ cap := by
  rw [List.append_assoc] at hTrace
  rcases hTrace.at_suffix with ⟨middle, hMiddle, -⟩
  choose! event hEvent count hThread hCounts hCap
    using hThreads
  have hRange : ∀ thread ∈ threads,
      count thread ∈ Finset.Icc (1 : Int) cap := by
    intro thread hMem
    rw [Finset.mem_Icc]
    exact ⟨hLifetime.one_le counters hContract hMiddle
      (hEvent thread hMem) (hCounts thread hMem),
      hCap thread hMem⟩
  have hInjective : Set.InjOn count threads := by
    intro thread hMem thread' hMem' hSame
    have hCounts' := hCounts thread' hMem'
    rw [← hSame] at hCounts'
    rw [← hThread thread hMem, ← hThread thread' hMem']
    exact congrArg Event.thread
      (hLifetime.eq_of_counts counters hContract hMiddle
        (hEvent thread hMem) (hEvent thread' hMem')
        (hCounts thread hMem) hCounts')
  calc
    threads.card
        ≤ (Finset.Icc (1 : Int) cap).card :=
      Finset.card_le_card_of_injOn count hRange hInjective
    _ = cap := by simp

end RateLimit

end CrudAuth
