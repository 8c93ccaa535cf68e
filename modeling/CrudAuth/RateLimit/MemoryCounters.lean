import CrudAuth.RateLimit.AbstractCounter

/-
  `MemoryRateLimiterBackend`: two dictionaries, of counts and
  of deadlines, evicted on access and by a sweep.

  A call happens at one moment of the monotonic clock.

  Main declarations:
    * `MemoryCounters`
    * `MemoryCounters.exec`
    * `MemoryCounters.backend`
    * `MemoryCounters.Related`
    * `MemoryCounters.simulates`
-/

namespace CrudAuth

namespace RateLimit

open Storage (Text)

------------------------------------------------------------
-- The Dictionaries
------------------------------------------------------------

/- `MEMORY_SWEEP_EVERY_INCREMENTS` -/
def memorySweepEveryIncrements : Nat := 256

/- `MemoryRateLimiterBackend`: its two dictionaries. -/
structure MemoryCounters where
  counts : Text → Option Int
  deadline : Text → Option Nat
  incrementsSinceSweep : Nat

namespace MemoryCounters

/- A backend that was just made. -/
def empty : MemoryCounters where
  counts := fun _ => none
  deadline := fun _ => none
  incrementsSinceSweep := 0

/- `dl < now` of a key that has a deadline. -/
def past
    (now : Nat)
    (memory : MemoryCounters)
    (key : Text) : Bool :=
  (memory.deadline key).any fun deadline => deadline < now

/- `pop` of a key from both dictionaries. -/
def pop (memory : MemoryCounters) (key : Text) :
    MemoryCounters :=
  { memory with
    counts := Function.update memory.counts key none
    deadline := Function.update memory.deadline key none }

/- `_gc` -/
def gc
    (now : Nat)
    (memory : MemoryCounters)
    (key : Text) : MemoryCounters :=
  if memory.past now key then memory.pop key else memory

/- `_maybe_sweep` -/
def maybeSweep
    (now : Nat)
    (memory : MemoryCounters) : MemoryCounters :=
  let increments := memory.incrementsSinceSweep + 1
  if increments < memorySweepEveryIncrements then
    { memory with incrementsSinceSweep := increments }
  else
    { counts := fun key =>
        if memory.past now key then none
        else memory.counts key
      deadline := fun key =>
        if memory.past now key then none
        else memory.deadline key
      incrementsSinceSweep := 0 }

/- `self._counts[key] = self._counts.get(key, 0) + amount` -/
def count
    (memory : MemoryCounters)
    (key : Text)
    (amount : Int) : MemoryCounters :=
  { memory with
    counts := Function.update memory.counts key
      (some ((memory.counts key).getD 0 + amount)) }

/- A key's deadline is set, or removed. -/
def arm
    (memory : MemoryCounters)
    (key : Text)
    (deadline : Option Nat) : MemoryCounters :=
  { memory with
    deadline :=
      Function.update memory.deadline key deadline }

/- `return self._counts[key]` -/
def answer
    (memory : MemoryCounters)
    (key : Text) : CounterAnswer :=
  match memory.counts key with
  | some count => .count count
  | none => .keyError

/- The deadline is set on first touch only. -/
def armOnce
    (now : Nat)
    (memory : MemoryCounters)
    (key : Text) : Option Nat → MemoryCounters
  | some seconds =>
      if memory.deadline key = none then
        memory.arm key (some (now + seconds * 1000))
      else
        memory
  | none => memory

/- The deadline slides on every call. -/
def armAgain
    (now : Nat)
    (memory : MemoryCounters)
    (key : Text) : Option Nat → MemoryCounters
  | some seconds =>
      memory.arm key (some (now + seconds * 1000))
  | none => memory

/- `increment` -/
def increment
    (now : Nat)
    (key : Text)
    (amount : Int)
    (expiry : Option Nat)
    (memory : MemoryCounters) :
    CounterAnswer × MemoryCounters :=
  let memory := (memory.gc now key).count key amount
  let memory := memory.armOnce now key expiry
  let memory := memory.maybeSweep now
  (memory.answer key, memory)

/- `increment_and_refresh_ttl` -/
def incrementAndRefreshTtl
    (now : Nat)
    (key : Text)
    (amount : Int)
    (expiry : Option Nat)
    (memory : MemoryCounters) :
    CounterAnswer × MemoryCounters :=
  let memory := (memory.gc now key).count key amount
  let memory := memory.armAgain now key expiry
  let memory := memory.maybeSweep now
  (memory.answer key, memory)

/- `get_count` -/
def getCount
    (now : Nat)
    (key : Text)
    (memory : MemoryCounters) :
    CounterAnswer × MemoryCounters :=
  let memory := memory.gc now key
  (.current (memory.counts key), memory)

/- Each call of the backend. -/
def exec (now : Nat) :
    CounterCall → MemoryCounters →
      CounterAnswer × MemoryCounters
  | .increment key amount expiry, memory =>
      memory.increment now key amount expiry
  | .incrementAndRefreshTtl key amount expiry, memory =>
      memory.incrementAndRefreshTtl now key amount expiry
  | .getCount key, memory => memory.getCount now key
  | .reset key, memory => (.reset, memory.pop key)
  | .delete key, memory =>
      (.deleted (memory.counts key).isSome, memory.pop key)

/- The counter under a key: its count and its deadline. -/
def held (memory : MemoryCounters) : Counters := fun key =>
  (memory.counts key).map fun count =>
    ⟨count, memory.deadline key⟩

/- There is nothing to purge. -/
def backend : CounterBackend where
  State := MemoryCounters
  initial := empty
  exec := exec
  purge _ _ memory := memory
  held := held

------------------------------------------------------------
-- Eviction
------------------------------------------------------------

/- The counters that are not past their deadline. -/
abbrev fresh (now : Nat) (counters : Counters) : Counters :=
  readable Counter.freshAt now counters

/- The counter a count is meant to go on from. -/
abbrev meant
    (now : Nat)
    (counters : Counters)
    (key : Text) : Counter :=
  AbstractCounter.current Counter.freshAt now counters key

/- A deadline belongs to a count. -/
def Paired (memory : MemoryCounters) : Prop :=
  ∀ key, memory.counts key = none →
    memory.deadline key = none

variable {now elapsed : Nat}
variable {memory : MemoryCounters}
variable {counters : Counters}
variable {key other : Text}
variable {amount : Int}

/- The dictionary's test for an expired key. -/
theorem past_eq_not_freshAt
    {count : Int} :
    memory.past now key =
      !Counter.freshAt now ⟨count, memory.deadline key⟩ := by
  unfold past Counter.freshAt
  cases memory.deadline key with
  | none => rfl
  | some deadline =>
      simp only [Option.any_some, Option.all_some]
      rw [← decide_not, decide_eq_decide]
      omega

/- A key popped is no longer held. -/
theorem held_pop :
    held (memory.pop key) =
      Function.update memory.held key none := by
  funext other
  unfold held pop
  by_cases hKey : other = key
  · subst hKey
    simp
  · simp [Function.update_of_ne hKey]

/- Counts and deadlines stay paired. -/
theorem paired_pop (hPaired : memory.Paired) :
    (memory.pop key).Paired := by
  intro other hNone
  unfold pop at hNone ⊢
  dsimp only at hNone ⊢
  by_cases hKey : other = key
  · subst hKey
    simp
  · rw [Function.update_of_ne hKey] at hNone ⊢
    exact hPaired other hNone

/- What `_gc` drops is past its deadline. -/
theorem held_gc :
    held (memory.gc now key) =
      Function.update memory.held key
        (fresh now memory.held key) := by
  unfold gc
  cases hCount : memory.counts key with
  | none =>
      have hNone : memory.held key = none := by
        simp [held, hCount]
      have hSame : fresh now memory.held key = none := by
        simp [readable, hNone]
      rw [hSame]
      split
      · exact held_pop
      · rw [← hNone, Function.update_eq_self]
  | some count =>
      have hHeld : memory.held key =
          some ⟨count, memory.deadline key⟩ := by
        simp [held, hCount]
      have hPast :=
        @past_eq_not_freshAt now memory key count
      unfold fresh readable
      rw [hHeld, hPast]
      cases hFresh :
          Counter.freshAt now
            ⟨count, memory.deadline key⟩ with
      | true =>
          rw [if_neg (by decide)]
          simp only [Option.filter, hFresh, if_true]
          rw [← hHeld, Function.update_eq_self]
      | false =>
          rw [if_pos (by decide)]
          simp only [Option.filter, hFresh,
            Bool.false_eq_true, if_false]
          exact held_pop

theorem paired_gc (hPaired : memory.Paired) :
    (memory.gc now key).Paired := by
  unfold gc
  split
  · exact paired_pop hPaired
  · exact hPaired

/- The sweep leaves every fresh counter. -/
theorem fresh_maybeSweep :
    fresh now (memory.maybeSweep now).held =
      fresh now memory.held := by
  funext other
  unfold maybeSweep
  dsimp only
  split
  · rfl
  · unfold fresh readable held
    dsimp only
    cases hCount : memory.counts other with
    | none => simp
    | some count =>
        have hPast :=
          @past_eq_not_freshAt now memory other count
        cases hFresh :
            Counter.freshAt now
              ⟨count, memory.deadline other⟩ with
        | true => simp [hPast, hFresh]
        | false => simp [hPast, hFresh, Option.filter]

theorem paired_maybeSweep (hPaired : memory.Paired) :
    (memory.maybeSweep now).Paired := by
  unfold maybeSweep
  dsimp only
  split
  · exact hPaired
  · intro other hNone
    dsimp only at hNone ⊢
    split
    · rfl
    · rename_i hKept
      rw [if_neg hKept] at hNone
      exact hPaired other hNone

/- A fresh counter outlives the sweep, and is answered. -/
theorem answer_maybeSweep
    {counter : Counter}
    (hHeld : memory.held key = some counter)
    (hFresh : counter.freshAt now = true) :
    (memory.maybeSweep now).answer key =
      .count counter.count := by
  unfold held at hHeld
  rcases Option.map_eq_some_iff.mp hHeld with
    ⟨count, hCount, rfl⟩
  have hKept : memory.past now key = false := by
    rw [past_eq_not_freshAt, hFresh]
    rfl
  have hSwept :
      (memory.maybeSweep now).counts key = some count := by
    unfold maybeSweep
    dsimp only
    split
    · exact hCount
    · dsimp only
      rw [hKept]
      exact hCount
  unfold answer
  rw [hSwept]

------------------------------------------------------------
-- The Abstract Counter
------------------------------------------------------------

/- The fresh counters are the ones that are meant. -/
structure Related
    (now : Nat)
    (memory : MemoryCounters)
    (counters : Counters) : Prop where
  paired : memory.Paired
  same : fresh now memory.held = fresh now counters

/- The fresh counters after an update. -/
theorem fresh_update
    {stored : Option Counter} :
    fresh now (Function.update counters key stored) =
      Function.update (fresh now counters) key
        (stored.filter (Counter.freshAt now)) := by
  funext other
  unfold fresh readable
  by_cases hKey : other = key
  · subst hKey
    simp
  · simp [Function.update_of_ne hKey]

/- What a key means is its fresh counter. -/
theorem meant_eq :
    meant now counters key =
      (fresh now counters key).getD
        { count := 0, expiresAt := none } :=
  rfl

/- Fresh counters are fresh. -/
theorem fresh_fresh :
    fresh now (fresh now counters) = fresh now counters := by
  funext key
  unfold fresh readable
  exact (filter_eq_filter_filter fun _ hSame => hSame).symm

/- After `_gc` the dictionaries hold what can be read. -/
theorem read_gc
    (hRelated : Related now memory counters) :
    (memory.gc now key).counts key =
        (fresh now counters key).map Counter.count ∧
      (memory.gc now key).deadline key =
        (fresh now counters key).bind
          Counter.expiresAt := by
  have hHeld : (memory.gc now key).held key =
      fresh now counters key := by
    rw [held_gc, Function.update_self, hRelated.same]
  rw [← hHeld]
  unfold held
  cases hCount : (memory.gc now key).counts key with
  | none =>
      have hNone :=
        paired_gc hRelated.paired key hCount
      rw [hNone]
      exact ⟨rfl, rfl⟩
  | some count => exact ⟨rfl, rfl⟩

/- A counter that is written is fresh. -/
theorem freshAt_counted
    {expiry : Option Nat}
    {count : Int}
    {expiresAt : Option Nat}
    (hExpiry : ∀ deadline, expiresAt = some deadline →
      (fresh now counters key).bind Counter.expiresAt =
          some deadline ∨
        armed now expiry = some deadline) :
    Counter.freshAt now ⟨count, expiresAt⟩ = true := by
  unfold Counter.freshAt
  cases hDeadline : expiresAt with
  | none => rfl
  | some deadline =>
      simp only [Option.all_some, decide_eq_true_eq]
      rcases hExpiry deadline hDeadline with hOld | hArmed
      · rcases Option.bind_eq_some_iff.mp hOld with
          ⟨counter, hCounter, hOwn⟩
        have hAlive :=
          (Option.filter_eq_some_iff.mp hCounter).2
        unfold Counter.freshAt at hAlive
        rw [hOwn] at hAlive
        simp only [Option.all_some, decide_eq_true_eq]
          at hAlive
        exact hAlive
      · unfold armed at hArmed
        rcases Option.map_eq_some_iff.mp hArmed with
          ⟨seconds, _, hSum⟩
        omega

/- What arming does: one deadline, and nothing else. -/
theorem armOnce_eq
    {expiry : Option Nat} :
    memory.armOnce now key expiry =
      memory.arm key
        ((memory.deadline key).or (armed now expiry)) := by
  unfold armOnce
  cases expiry with
  | none => simp [armed, arm]
  | some seconds =>
      dsimp only
      cases hDeadline : memory.deadline key with
      | none => rfl
      | some deadline =>
          rw [if_neg (by simp)]
          unfold arm
          rw [Option.some_or, ← hDeadline,
            Function.update_eq_self]

/- A deadline set anew or kept. -/
theorem armAgain_eq
    {expiry : Option Nat} :
    memory.armAgain now key expiry =
      memory.arm key
        ((armed now expiry).or (memory.deadline key)) := by
  unfold armAgain
  cases expiry with
  | none => simp [armed, arm]
  | some seconds => rfl

/- A count and a deadline are written, then the sweep. -/
def written
    (now : Nat)
    (memory : MemoryCounters)
    (key : Text)
    (amount : Int)
    (expiresAt : Option Nat) : MemoryCounters :=
  (((memory.gc now key).count key amount).arm key
    expiresAt).maybeSweep now

/- The counters once a count and a deadline are written. -/
theorem related_written
    {expiresAt : Option Nat}
    (hRelated : Related now memory counters)
    (hFresh : Counter.freshAt now
      ⟨(meant now counters key).count +
        amount, expiresAt⟩ = true) :
    let counted : Counter :=
      ⟨(meant now counters key).count +
        amount, expiresAt⟩
    (memory.written now key amount expiresAt).answer key =
        .count counted.count ∧
      Related now (memory.written now key amount expiresAt)
        (AbstractCounter.put counters key
          (some counted)) := by
  intro counted
  have hCount :
      ((memory.gc now key).counts key).getD 0 =
        (meant now counters key).count := by
    rw [(read_gc hRelated).1]
    rw [meant_eq]
    cases fresh now counters key with
    | none => rfl
    | some counter => rfl
  have hWritten :
      (((memory.gc now key).count key amount).arm key
          expiresAt).held =
        Function.update memory.held key (some counted) := by
    funext other
    by_cases hKey : other = key
    · subst hKey
      rw [Function.update_self]
      unfold held arm count
      simp [hCount, counted]
    · have hOther : (memory.gc now key).held other =
          memory.held other := by
        rw [held_gc, Function.update_of_ne hKey]
      rw [Function.update_of_ne hKey, ← hOther]
      unfold held arm count
      simp [Function.update_of_ne hKey]
  have hPaired :
      (((memory.gc now key).count key amount).arm key
        expiresAt).Paired := by
    intro other hNone
    unfold arm count at hNone ⊢
    dsimp only at hNone ⊢
    by_cases hKey : other = key
    · subst hKey
      rw [Function.update_self] at hNone
      cases hNone
    · rw [Function.update_of_ne hKey] at hNone ⊢
      exact paired_gc hRelated.paired other hNone
  constructor
  · apply answer_maybeSweep
    · rw [hWritten, Function.update_self]
    · exact hFresh
  · constructor
    · exact paired_maybeSweep hPaired
    · unfold written
      rw [fresh_maybeSweep, hWritten, fresh_update,
        hRelated.same, AbstractCounter.put, fresh_update]

/- The deadline a call goes on from. -/
theorem deadline_gc
    (hRelated : Related now memory counters) :
    ((memory.gc now key).count key amount).deadline key =
      (meant now counters key).expiresAt := by
  have hRead := (@read_gc now memory counters key
    hRelated).2
  unfold count
  dsimp only
  rw [hRead]
  rw [meant_eq]
  cases fresh now counters key with
  | none => rfl
  | some counter => rfl

/- Either increment writes a count and a deadline. -/
theorem increment_eq
    {expiry : Option Nat}
    (hRelated : Related now memory counters) :
    let expiresAt :=
      (meant now counters key).expiresAt.or
        (armed now expiry)
    memory.increment now key amount expiry =
      ((memory.written now key amount expiresAt).answer key,
        memory.written now key amount expiresAt) := by
  intro expiresAt
  unfold increment
  dsimp only
  rw [armOnce_eq, deadline_gc hRelated]
  rfl

/- A count that refreshes its deadline. -/
theorem incrementAndRefreshTtl_eq
    {expiry : Option Nat}
    (hRelated : Related now memory counters) :
    let expiresAt :=
      (armed now expiry).or
        (meant now counters key).expiresAt
    memory.incrementAndRefreshTtl now key amount expiry =
      ((memory.written now key amount expiresAt).answer key,
        memory.written now key amount expiresAt) := by
  intro expiresAt
  unfold incrementAndRefreshTtl
  dsimp only
  rw [armAgain_eq, deadline_gc hRelated]
  rfl

/- Whichever expiry is kept, the counter is fresh. -/
theorem freshAt_current
    {expiry expiresAt : Option Nat}
    {count : Int}
    (hExpiry : ∀ deadline, expiresAt = some deadline →
      (meant now counters key).expiresAt =
          some deadline ∨
        armed now expiry = some deadline) :
    Counter.freshAt now ⟨count, expiresAt⟩ = true := by
  apply freshAt_counted
  intro deadline hDeadline
  rcases hExpiry deadline hDeadline with hOld | hArmed
  · left
    rw [meant_eq] at hOld
    cases hStored : fresh now counters key with
    | none =>
        rw [hStored] at hOld
        cases hOld
    | some counter =>
        rw [hStored] at hOld
        exact hOld
  · exact .inr hArmed

/- A pop drops the counter, whatever it was. -/
theorem related_pop
    (hRelated : Related now memory counters) :
    Related now (memory.pop key)
      (AbstractCounter.put counters key none) := by
  constructor
  · exact paired_pop hRelated.paired
  · rw [held_pop, fresh_update, hRelated.same,
      AbstractCounter.put, fresh_update]

/- A read drops the counter where it is past. -/
theorem related_gc
    (hRelated : Related now memory counters) :
    Related now (memory.gc now key) counters := by
  constructor
  · exact paired_gc hRelated.paired
  · rw [held_gc, fresh_update, ← hRelated.same]
    have hSame := congrFun
      (@fresh_fresh now memory.held) key
    unfold fresh readable at hSame ⊢
    rw [hSame]
    exact Function.update_eq_self key _

/- The memory backend is the abstract counter. -/
theorem simulates (keys : Set Text) :
    backend.Simulates keys Counter.freshAt Related := by
  constructor
  · intro now
    constructor
    · intro key _
      rfl
    · rfl
  · intro now elapsed memory counters hRelated
    constructor
    · exact hRelated.paired
    · funext key
      apply filter_later
      · intro counter hLater
        exact Counter.freshAt_of_later hLater
      · exact congrFun hRelated.same key
  · intro now purged memory counters hRelated
    exact hRelated
  · intro now call memory counters hRelated _
    cases call with
    | increment key amount expiry =>
        have hStep := @increment_eq now memory counters key
          amount expiry hRelated
        have hDone := related_written hRelated
          (@freshAt_current now counters key expiry _
            ((meant now counters key).count + amount)
            fun deadline hDeadline =>
              (Option.or_eq_some_iff.mp hDeadline).imp_right
                And.right)
        unfold backend exec
        dsimp only
        rw [hStep]
        constructor
        · rw [hDone.1]
          rfl
        · exact hDone.2
    | incrementAndRefreshTtl key amount expiry =>
        have hStep := @incrementAndRefreshTtl_eq now memory
          counters key amount expiry hRelated
        have hDone := related_written hRelated
          (@freshAt_current now counters key expiry _
            ((meant now counters key).count + amount)
            fun deadline hDeadline =>
              (Option.or_eq_some_iff.mp
                hDeadline).symm.imp_left And.right)
        unfold backend exec
        dsimp only
        rw [hStep]
        constructor
        · rw [hDone.1]
          rfl
        · exact hDone.2
    | getCount key =>
        have hRead := @read_gc now memory counters key
          hRelated
        constructor
        · exact congrArg some hRead.1
        · exact related_gc hRelated
    | reset key =>
        constructor
        · rfl
        · exact related_pop hRelated
    | delete key =>
        constructor
        · rfl
        · exact related_pop hRelated
  · intro now memory counters hRelated key _
    exact congrFun hRelated.same key

end MemoryCounters

end RateLimit

end CrudAuth
