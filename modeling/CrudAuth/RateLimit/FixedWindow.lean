import CrudAuth.RateLimit.MemoryCounters
import CrudAuth.RateLimit.WindowKeys

/-
  `increment_and_check`: a fixed window over a counter whose
  key is stamped with the start of the window.

  A call reads the clock, and makes its increment then or
  later, while other calls make theirs.  Calls are listed in
  the order of their increments; what is expired may be
  purged at any moment.  The clock counts milliseconds.

  Main declarations:
    * `WindowCall.verdict`
    * `WindowLimiter.base`
    * `WindowLimiter.redis`
    * `WindowLimiter.Follows`
    * `WindowLimiter.after`
    * `Deployment.countsExactly`
-/

namespace CrudAuth

namespace RateLimit

open Storage (Text)

------------------------------------------------------------
-- Windows
------------------------------------------------------------

/- `int(time.time())` -/
def second (now : Nat) : Nat :=
  now / 1000

/- `now - (now % period)` -/
def windowStart (period second : Nat) : Nat :=
  second - second % period

/- A call of `increment_and_check`. -/
structure WindowCall where
  key : Text
  limit : Nat
  period : Nat
  failOpen : Bool
  period_pos : 0 < period

namespace WindowCall

variable (call : WindowCall)

/- The window of the moment the clock was read. -/
def window (read : Nat) : Nat :=
  windowStart call.period (second read)

/- `wkey` -/
def stamped (read : Nat) : Text :=
  stamp call.key (call.window read)

/- `period - (now - window_start)` -/
def retryAfter (read : Nat) : Nat :=
  call.period - (second read - call.window read)

/-
  The triple of a count, or of an increment that raised:
  the count, whether it is limited, and the wait.
-/
def verdict (read : Nat) : Option Int → Int × Bool × Nat
  | some count =>
      if count ≤ call.limit then
        (count, false, 0)
      else
        (count, true, call.retryAfter read)
  | none =>
      if call.failOpen then
        (0, false, 0)
      else
        (call.limit + 1, true, call.period)

end WindowCall

------------------------------------------------------------
-- Limiters
------------------------------------------------------------

/-
  How a backend counts in a window: the count, or `none` for
  an error, and what a purge of some keys does.
-/
structure WindowLimiter where
  State : Type
  initial : State
  count :
    Nat → Text → Nat → State → Option Int × State
  purge : Nat → List Text → State → State
  held : State → Counters

/- `RateLimiterBackend`: `self.increment(wkey, 1, period)` -/
def WindowLimiter.base
    (backend : CounterBackend) : WindowLimiter where
  State := backend.State
  initial := backend.initial
  count now key period state :=
    let done :=
      backend.exec now (.increment key 1 (some period)) state
    (done.1.counted.join, done.2)
  purge := backend.purge
  held := backend.held

namespace RedisWindows

/-
  `INCR` and `EXPIRE`, with or without NX, which sets an
  expiry only where there is none.  An expired key is gone
  first.
-/
def count
    (keyPrefix : Text)
    (nx : Bool)
    (now : Nat)
    (key : Text)
    (period : Nat)
    (stored : Counters) : Option Int × Counters :=
  let current :=
    ((stored (keyPrefix ++ key)).filter
      (Counter.freshAt now)).getD ⟨0, none⟩
  let deadline := some (now + period * 1000)
  let counter : Counter :=
    { count := current.count + 1
      expiresAt :=
        if nx then current.expiresAt.or deadline
        else deadline }
  (some counter.count,
    Function.update stored (keyPrefix ++ key) (some counter))

/- Expired keys are dropped, on access or by the server. -/
def purge
    (now : Nat)
    (purged : List Text)
    (stored : Counters) : Counters :=
  fun key => (stored key).filter fun counter =>
    !(purged.contains key && !counter.freshAt now)

end RedisWindows

/-
  Redis: `RedisBackend` overrides the check, and re-arms on
  every call; its `increment` sets an expiry with NX.
-/
def WindowLimiter.redis
    (keyPrefix : Text)
    (nx : Bool) : WindowLimiter where
  State := Counters
  initial := fun _ => none
  count := RedisWindows.count keyPrefix nx
  purge := RedisWindows.purge
  held stored := fun key => stored (keyPrefix ++ key)

/-
  The backends of the repository; and the base method over
  the `increment` of Redis, which the override replaces.
-/
inductive Deployment where
  | memory
  | database (config : DatabaseCounters.Config)
  | redis (keyPrefix : Text)
  | redisBase (keyPrefix : Text)

/- The limiter that a deployment runs. -/
def Deployment.limiter : Deployment → WindowLimiter
  | .memory => .base MemoryCounters.backend
  | .database config =>
    .base (DatabaseCounters.backend config)
  | .redis keyPrefix => .redis keyPrefix false
  | .redisBase keyPrefix => .redis keyPrefix true

------------------------------------------------------------
-- Runs
------------------------------------------------------------

/-
  Time passes, and an increment is made by a call that read
  the clock some time before; or some keys are purged.
-/
inductive WindowEvent where
  | call (elapsed waited : Nat) (call : WindowCall)
  | purge (elapsed : Nat) (purged : List Text)

namespace WindowLimiter

variable (limiter : WindowLimiter)

/- `increment_and_check` -/
def check
    (now waited : Nat)
    (call : WindowCall)
    (state : limiter.State) :
    (Int × Bool × Nat) × limiter.State :=
  let read := now - waited
  let done :=
    limiter.count now (call.stamped read) call.period state
  (call.verdict read done.1, done.2)

/- The moment and the state after some events. -/
def after :
    List WindowEvent → Nat → limiter.State →
      Nat × limiter.State
  | [], now, state => (now, state)
  | .call elapsed waited call :: events, now, state =>
      after events (now + elapsed)
        (limiter.check (now + elapsed) waited call state).2
  | .purge elapsed purged :: events, now, state =>
      after events (now + elapsed)
        (limiter.purge (now + elapsed) purged state)

end WindowLimiter

/- How many increments of a key a window has had. -/
def increments
    (key : Text)
    (window : Nat) : List WindowEvent → Nat → Nat
  | [], _ => 0
  | .call elapsed waited call :: events, now =>
      increments key window events (now + elapsed) +
        if call.key = key ∧
            call.window (now + elapsed - waited) =
              window then
          1
        else
          0
  | .purge elapsed _ :: events, now =>
      increments key window events (now + elapsed)

/- The calls for a key agree on its period. -/
def OnePeriod
    (key : Text)
    (period : Nat)
    (events : List WindowEvent) : Prop :=
  ∀ elapsed waited call,
    WindowEvent.call elapsed waited call ∈ events →
      call.key = key → call.period = period

/- The windows that are incremented in a run. -/
def windowsOf : List WindowEvent → Nat → Set (Text × Nat)
  | [], _ => fun _ => False
  | .call elapsed waited call :: events, now => fun pair =>
      pair = (call.key,
          call.window (now + elapsed - waited)) ∨
        windowsOf events (now + elapsed) pair
  | .purge elapsed _ :: events, now =>
      windowsOf events (now + elapsed)

/- The texts of some windows. -/
def stamps (windows : Set (Text × Nat)) : Set Text :=
  fun text => ∃ pair ∈ windows, text = stamp pair.1 pair.2

/-
  What a deployment needs on some windows: in a database,
  that digests are digests, and differ for different stamps.
-/
def Deployment.Sound
    (windows : Set (Text × Nat)) : Deployment → Prop
  | .memory => True
  | .database config =>
      DatabaseCounters.HexDigest config.digest ∧
        ∀ left ∈ stamps windows, ∀ right ∈ stamps windows,
          config.digest (config.keyPrefix ++ left) =
              config.digest (config.keyPrefix ++ right) →
            left = right
  | .redis _ => True
  | .redisBase _ => True

------------------------------------------------------------
-- Following The Abstract Counter
------------------------------------------------------------

/-
  A limiter counts as the abstract counter does for a call
  it is said to make.
-/
structure WindowLimiter.Follows
    (limiter : WindowLimiter)
    (keys : Set Text)
    (alive : Liveness)
    (makes : Text → Nat → CounterCall)
    (related : Nat → limiter.State → Counters → Prop) :
    Prop where
  initial : ∀ now,
    related now limiter.initial fun _ => none
  later : ∀ now elapsed state counters,
    related now state counters →
      related (now + elapsed) state counters
  purge : ∀ now purged state counters,
    related now state counters →
      related now (limiter.purge now purged state) counters
  count : ∀ now key period state counters,
    related now state counters →
    key ∈ keys →
      (limiter.count now key period state).1 =
          (AbstractCounter.exec alive now (makes key period)
            counters).1.counted.join ∧
        related now (limiter.count now key period state).2
          (AbstractCounter.exec alive now (makes key period)
            counters).2
  readable : ∀ now state counters,
    related now state counters →
    ∀ key ∈ keys,
      readable alive now (limiter.held state) key =
        readable alive now counters key

/- `self.increment(wkey, 1, period)` -/
def firstTouch (key : Text) (period : Nat) : CounterCall :=
  .increment key 1 (some period)

/- `INCR` with an `EXPIRE` on every call. -/
def rearmed (key : Text) (period : Nat) : CounterCall :=
  .incrementAndRefreshTtl key 1 (some period)

/- The limiter over a backend follows the counters. -/
theorem WindowLimiter.base_follows
    {backend : CounterBackend}
    {keys : Set Text}
    {alive : Liveness}
    {related : Nat → backend.State → Counters → Prop}
    (hSimulates : backend.Simulates keys alive related) :
    (WindowLimiter.base backend).Follows keys alive
      firstTouch related where
  initial := hSimulates.initial
  later := hSimulates.later
  purge := hSimulates.purge
  count now key period state counters hRelated hKey := by
    have hCall := hSimulates.call now (firstTouch key period)
      state counters hRelated hKey
    exact ⟨congrArg Option.join hCall.1, hCall.2⟩
  readable := hSimulates.readable

namespace RedisWindows

/- The keys under the prefix are the counters meant. -/
def Related
    (keyPrefix : Text)
    (now : Nat)
    (stored counters : Counters) : Prop :=
  ∀ key, (stored (keyPrefix ++ key)).filter
      (Counter.freshAt now) =
    readable Counter.freshAt now counters key

variable {keyPrefix : Text}
variable {now : Nat}
variable {stored counters : Counters}

/- A purge keeps the state related. -/
theorem related_purge
    (purged : List Text)
    (hRelated : Related keyPrefix now stored counters) :
    Related keyPrefix now (purge now purged stored)
      counters := by
  intro key
  rw [← hRelated key]
  unfold purge
  cases hStored : stored (keyPrefix ++ key) with
  | none => rfl
  | some counter =>
      cases hFresh : counter.freshAt now with
      | false =>
          by_cases hPurged : keyPrefix ++ key ∈ purged
          · simp [Option.filter, hFresh, hPurged]
          · simp [Option.filter, hFresh, hPurged]
      | true => simp [Option.filter, hFresh]

/- A key that is written, and the others. -/
theorem related_update
    (key : Text)
    (counter : Counter)
    (hRelated : Related keyPrefix now stored counters) :
    Related keyPrefix now
      (Function.update stored (keyPrefix ++ key)
        (some counter))
      (AbstractCounter.put counters key (some counter)) := by
  intro other
  unfold readable AbstractCounter.put
  by_cases hKey : other = key
  · rw [hKey, Function.update_self, Function.update_self]
  · have hColumn : keyPrefix ++ other ≠ keyPrefix ++ key :=
      fun hSame => hKey (List.append_cancel_left hSame)
    rw [Function.update_of_ne hColumn, hRelated other,
      Function.update_of_ne hKey]
    rfl

/- The call that an increment stands for. -/
def makes (nx : Bool) (key : Text) (period : Nat) :
    CounterCall :=
  if nx then firstTouch key period else rearmed key period

/- A counted call keeps it so. -/
theorem related_count
    (nx : Bool)
    (key : Text)
    (period : Nat)
    (hRelated : Related keyPrefix now stored counters) :
    (count keyPrefix nx now key period stored).1 =
        (AbstractCounter.exec Counter.freshAt now
          (makes nx key period) counters).1.counted.join ∧
      Related keyPrefix now
        (count keyPrefix nx now key period stored).2
        (AbstractCounter.exec Counter.freshAt now
          (makes nx key period) counters).2 := by
  have hCurrent :
      ((stored (keyPrefix ++ key)).filter
          (Counter.freshAt now)).getD ⟨0, none⟩ =
        AbstractCounter.current Counter.freshAt now counters
          key := by
    rw [hRelated key]
    rfl
  unfold count
  dsimp only
  rw [hCurrent]
  cases nx with
  | false =>
      constructor
      · rfl
      · exact related_update key _ hRelated
  | true =>
      constructor
      · rfl
      · exact related_update key _ hRelated

end RedisWindows

/- The Redis limiter follows them too. -/
theorem WindowLimiter.redis_follows
    (keyPrefix : Text)
    (nx : Bool)
    (keys : Set Text) :
    (WindowLimiter.redis keyPrefix nx).Follows keys
      Counter.freshAt (RedisWindows.makes nx)
      (RedisWindows.Related keyPrefix) where
  initial _ _ := rfl
  later _ _ _ _ hRelated key :=
    filter_later
      (fun _ hLater => Counter.freshAt_of_later hLater)
      (hRelated key)
  purge _ purged _ _ hRelated :=
    RedisWindows.related_purge purged hRelated
  count _ key period _ _ hRelated _ :=
    RedisWindows.related_count nx key period hRelated
  readable _ _ _ hRelated key _ := hRelated key

------------------------------------------------------------
-- One Window
------------------------------------------------------------

/-
  What a call makes of a counter: one more, and an expiry
  that is its own or a period away.
-/
def Arms (makes : Text → Nat → CounterCall) : Prop :=
  ∀ (alive : Liveness) now key period counters,
    let current :=
      AbstractCounter.current alive now counters key
    ∃ expiry,
      AbstractCounter.exec alive now (makes key period)
          counters =
        (.count (current.count + 1),
          AbstractCounter.put counters key
            (some ⟨current.count + 1, some expiry⟩)) ∧
      (expiry = now + period * 1000 ∨
        current.expiresAt = some expiry)

/- A call may arm a counter on first touch. -/
theorem arms_firstTouch : Arms firstTouch := by
  intro alive now key period counters current
  have hExec :
      AbstractCounter.exec alive now (firstTouch key period)
          counters =
        (.count (current.count + 1),
          AbstractCounter.put counters key
            (some ⟨current.count + 1,
              current.expiresAt.or
                (armed now (some period))⟩)) :=
    rfl
  cases hExpiry : current.expiresAt with
  | none =>
      refine ⟨now + period * 1000, ?_, Or.inl rfl⟩
      rw [hExec, hExpiry]
      rfl
  | some expiry =>
      refine ⟨expiry, ?_, Or.inr rfl⟩
      rw [hExec, hExpiry]
      rfl

/- It may arm the counter anew each time. -/
theorem arms_rearmed : Arms rearmed := by
  intro alive now key period counters current
  exact ⟨now + period * 1000, rfl, Or.inl rfl⟩

section Window

variable {key : Text}
variable {period window now n : Nat}
variable {counters : Counters}

/-
  What is kept for a window after `n` increments: nothing at
  first, and until the window ends their number.
-/
structure Counted
    (key : Text)
    (period window now n : Nat)
    (counters : Counters) : Prop where
  absent : n = 0 → counters (stamp key window) = none
  counter : 0 < n → now < (window + period) * 1000 →
    ∃ expiry,
      counters (stamp key window) =
          some ⟨n, some expiry⟩ ∧
        (window + period) * 1000 ≤ expiry

/- A count stays as time passes. -/
theorem Counted.later
    (hCounted : Counted key period window now n counters)
    (elapsed : Nat) :
    Counted key period window (now + elapsed) n
      counters where
  absent := hCounted.absent
  counter hSome hOpen :=
    hCounted.counter hSome (by omega)

/- While a window is open its counter goes on. -/
theorem Counted.current
    {alive : Liveness}
    (hAlive : ∀ now counter,
      Counter.aliveAt now counter = true →
        alive now counter = true)
    (hCounted : Counted key period window now n counters)
    (hOpen : now < (window + period) * 1000) :
    let current := AbstractCounter.current alive now counters
      (stamp key window)
    current.count = n ∧
      ∀ expiry, current.expiresAt = some expiry →
        (window + period) * 1000 ≤ expiry := by
  intro current
  by_cases hNone : n = 0
  · have hEmpty : current =
        { count := 0, expiresAt := none } := by
      change (readable alive now counters
        (stamp key window)).getD _ = _
      unfold readable
      rw [hCounted.absent hNone]
      rfl
    rw [hEmpty, hNone]
    constructor
    · rfl
    · intro expiry hExpiry
      cases hExpiry
  · rcases hCounted.counter (Nat.pos_of_ne_zero hNone) hOpen
      with ⟨expiry, hStored, hLong⟩
    have hLive :
        alive now ⟨n, some expiry⟩ = true := by
      apply hAlive
      unfold Counter.aliveAt
      simp only [Option.all_some, decide_eq_true_eq]
      omega
    have hSame : current = ⟨n, some expiry⟩ := by
      change (readable alive now counters
        (stamp key window)).getD _ = _
      unfold readable
      rw [hStored, Option.filter_some, if_pos hLive]
      rfl
    rw [hSame]
    constructor
    · rfl
    · intro other hOther
      cases hOther
      exact hLong

/- The start of a window is not after the clock was read. -/
theorem windowStart_le
    (period second : Nat) :
    windowStart period second ≤ second :=
  Nat.sub_le _ _

/- Every second lies in its window. -/
theorem lt_windowStart_add
    (second : Nat)
    (hPeriod : 0 < period) :
    second < windowStart period second + period := by
  have hMod := Nat.mod_lt second hPeriod
  have hLe := Nat.mod_le second period
  unfold windowStart
  omega

/- An increment of the window, or of another one. -/
theorem Counted.exec
    {alive : Liveness}
    {makes : Text → Nat → CounterCall}
    {call : WindowCall}
    {waited : Nat}
    (hArms : Arms makes)
    (hAlive : ∀ now counter,
      Counter.aliveAt now counter = true →
        alive now counter = true)
    (hPeriod : call.key = key → call.period = period)
    (hCounted : Counted key period window now n counters) :
    Counted key period window now
      (n + if call.key = key ∧
          call.window (now - waited) = window then
        1
      else
        0)
      (AbstractCounter.exec alive now
        (makes (call.stamped (now - waited)) call.period)
        counters).2 := by
  rcases hArms alive now (call.stamped (now - waited))
    call.period counters with ⟨expiry, hExec, hExpiry⟩
  rw [hExec]
  dsimp only
  by_cases hMine :
      call.key = key ∧ call.window (now - waited) = window
  · have hStamp :
        call.stamped (now - waited) = stamp key window := by
      unfold WindowCall.stamped
      rw [hMine.1, hMine.2]
    rw [if_pos hMine]
    rw [hStamp] at hExpiry ⊢
    constructor
    · intro hZero
      omega
    · intro _ hOpen
      have hCurrent := hCounted.current hAlive hOpen
      refine ⟨expiry, ?_, ?_⟩
      · unfold AbstractCounter.put
        rw [Function.update_self, hCurrent.1]
        rfl
      · rcases hExpiry with hArmed | hOwn
        · have hStart := windowStart_le call.period
            (second (now - waited))
          have hWindow : windowStart call.period
              (second (now - waited)) = window := hMine.2
          rw [hPeriod hMine.1] at hArmed
          unfold second at hStart hWindow
          omega
        · exact hCurrent.2 expiry hOwn
  · have hStamp :
        stamp key window ≠ call.stamped (now - waited) := by
      intro hSame
      have hInj := stamp_inj hSame
      exact hMine ⟨hInj.1.symm, hInj.2.symm⟩
    rw [if_neg hMine]
    constructor
    · intro hZero
      unfold AbstractCounter.put
      rw [Function.update_of_ne hStamp]
      exact hCounted.absent hZero
    · intro hSome hOpen
      unfold AbstractCounter.put
      rw [Function.update_of_ne hStamp]
      exact hCounted.counter hSome hOpen

end Window

------------------------------------------------------------
-- Whole Runs
------------------------------------------------------------

section Runs

variable {limiter : WindowLimiter}
variable {windows : Set (Text × Nat)}
variable {alive : Liveness}
variable {makes : Text → Nat → CounterCall}
variable {related : Nat → limiter.State → Counters → Prop}
variable {key : Text}
variable {period window now n : Nat}
variable {state : limiter.State}
variable {counters : Counters}

/- A run keeps the number of increments of the window. -/
theorem counted_after
    (hFollows :
      limiter.Follows (stamps windows) alive makes related)
    (hArms : Arms makes)
    (hAlive : ∀ now counter,
      Counter.aliveAt now counter = true →
        alive now counter = true)
    {events : List WindowEvent}
    (hPeriod : OnePeriod key period events)
    (hWindows : windowsOf events now ⊆ windows)
    (hRelated : related now state counters)
    (hCounted : Counted key period window now n counters) :
    let done := limiter.after events now state
    ∃ counters',
      related done.1 done.2 counters' ∧
        Counted key period window done.1
          (n + increments key window events now)
          counters' := by
  induction events generalizing now state counters n with
  | nil => exact ⟨counters, hRelated, hCounted⟩
  | cons event events ih =>
      have hRest : OnePeriod key period events :=
        fun elapsed waited call hMem =>
          hPeriod elapsed waited call
            (List.mem_cons_of_mem _ hMem)
      cases event with
      | purge elapsed purged =>
          have hLater := hFollows.later now elapsed state
            counters hRelated
          have hPurged := hFollows.purge _ purged _ _ hLater
          exact ih hRest hWindows hPurged
            (hCounted.later elapsed)
      | call elapsed waited call =>
          have hLater := hFollows.later now elapsed state
            counters hRelated
          have hKey : call.stamped (now + elapsed - waited) ∈
              stamps windows :=
            ⟨_, hWindows (Or.inl rfl), rfl⟩
          have hCall := hFollows.count _ _ call.period _ _
            hLater hKey
          have hMade := @Counted.exec
            _ _ _ _ _ _ _ _ _ waited hArms hAlive
            (hPeriod elapsed waited call List.mem_cons_self)
            (hCounted.later elapsed)
          have hDone := ih hRest
            (fun _ hMem => hWindows (Or.inr hMem))
            hCall.2 hMade
          rcases hDone with ⟨counters', hRelated', hCounted'⟩
          refine ⟨counters', hRelated', ?_⟩
          rw [Nat.add_assoc, Nat.add_comm (ite _ _ _)]
            at hCounted'
          exact hCounted'

/- The answer of a call, and the count while it is open. -/
theorem count_of_counted
    (hFollows :
      limiter.Follows (stamps windows) alive makes related)
    (hArms : Arms makes)
    (hAlive : ∀ now counter,
      Counter.aliveAt now counter = true →
        alive now counter = true)
    {call : WindowCall}
    {read : Nat}
    (hWindow : (call.key, call.window read) ∈ windows)
    (hRelated : related now state counters)
    (hCounted : Counted call.key call.period
      (call.window read) now n counters) :
    ∃ count,
      (limiter.count now (call.stamped read) call.period
        state).1 = some count ∧
      (now < (call.window read + call.period) * 1000 →
        count = n + 1) := by
  have hKey : call.stamped read ∈ stamps windows :=
    ⟨_, hWindow, rfl⟩
  have hCall := hFollows.count now _ call.period _ _
    hRelated hKey
  rcases hArms alive now (call.stamped read) call.period
    counters with ⟨expiry, hExec, _⟩
  rw [hExec] at hCall
  refine ⟨_, hCall.1, ?_⟩
  intro hOpen
  have hCurrent := hCounted.current hAlive hOpen
  exact congrArg (· + 1) hCurrent.1

/- What can be read of an open window. -/
theorem readable_of_counted
    (hFollows :
      limiter.Follows (stamps windows) alive makes related)
    (hAlive : ∀ now counter,
      Counter.aliveAt now counter = true →
        alive now counter = true)
    (hWindow : (key, window) ∈ windows)
    (hRelated : related now state counters)
    (hCounted : Counted key period window now n counters)
    (hOpen : now < (window + period) * 1000) :
    (readable Counter.aliveAt now (limiter.held state)
        (stamp key window)).map Counter.count =
      if n = 0 then none else some (n : Int) := by
  have hKey : stamp key window ∈ stamps windows :=
    ⟨_, hWindow, rfl⟩
  have hSame := hFollows.readable now state counters hRelated
    _ hKey
  have hNarrow :
      readable Counter.aliveAt now (limiter.held state)
          (stamp key window) =
        readable Counter.aliveAt now counters
          (stamp key window) := by
    unfold readable at hSame ⊢
    exact filter_later (hAlive now) hSame
  rw [hNarrow]
  unfold readable
  by_cases hNone : n = 0
  · rw [hCounted.absent hNone, if_pos hNone]
    rfl
  · rcases hCounted.counter (Nat.pos_of_ne_zero hNone) hOpen
      with ⟨expiry, hStored, hLong⟩
    have hLive :
        Counter.aliveAt now ⟨n, some expiry⟩ = true := by
      unfold Counter.aliveAt
      simp only [Option.all_some, decide_eq_true_eq]
      omega
    rw [hStored, Option.filter_some, if_pos hLive,
      if_neg hNone]
    rfl

end Runs

------------------------------------------------------------
-- The Deployments
------------------------------------------------------------

/-
  A limiter counts for these windows as some counter does.
-/
structure WindowLimiter.Counts
    (limiter : WindowLimiter)
    (windows : Set (Text × Nat))
    (alive : Liveness)
    (makes : Text → Nat → CounterCall)
    (related : Nat → limiter.State → Counters → Prop) :
    Prop where
  follows :
    limiter.Follows (stamps windows) alive makes related
  arms : Arms makes
  alive : ∀ now counter,
    Counter.aliveAt now counter = true →
      alive now counter = true

/- A sound database keeps its windows apart. -/
theorem apart_of_sound
    {windows : Set (Text × Nat)}
    {config : DatabaseCounters.Config}
    (hSound :
      (Deployment.database config).Sound windows) :
    config.Apart (stamps windows) := by
  intro left hLeft right hRight hSame
  have hApart := hSound.2 left hLeft right hRight
  rcases hLeft with ⟨pair, _, rfl⟩
  rcases hRight with ⟨pair', _, rfl⟩
  exact DatabaseCounters.column_stamp_inj hSound.1 hApart
    hSame

/- The Redis limiter counts exactly. -/
theorem WindowLimiter.redis_counts
    (keyPrefix : Text)
    (nx : Bool)
    (windows : Set (Text × Nat)) :
    (WindowLimiter.redis keyPrefix nx).Counts windows
      Counter.freshAt (RedisWindows.makes nx)
      (RedisWindows.Related keyPrefix) where
  follows := WindowLimiter.redis_follows keyPrefix nx _
  arms := by
    cases nx with
    | false => exact arms_rearmed
    | true => exact arms_firstTouch
  alive := fun _ _ => Counter.freshAt_of_aliveAt

/- So does every sound deployment. -/
theorem Deployment.counts
    {windows : Set (Text × Nat)}
    (deployment : Deployment)
    (hSound : deployment.Sound windows) :
    ∃ alive makes related,
      deployment.limiter.Counts windows alive makes
        related := by
  cases deployment with
  | memory =>
      exact ⟨Counter.freshAt, firstTouch,
        MemoryCounters.Related,
        { follows := WindowLimiter.base_follows
            (MemoryCounters.simulates _)
          arms := arms_firstTouch
          alive := fun _ _ => Counter.freshAt_of_aliveAt }⟩
  | database config =>
      exact ⟨Counter.aliveAt, firstTouch,
        DatabaseCounters.Related config (stamps windows),
        { follows := WindowLimiter.base_follows
            (DatabaseCounters.simulates
              (apart_of_sound hSound))
          arms := arms_firstTouch
          alive := fun _ _ hLive => hLive }⟩
  | redis keyPrefix =>
      exact ⟨_, _, _, WindowLimiter.redis_counts keyPrefix
        false windows⟩
  | redisBase keyPrefix =>
      exact ⟨_, _, _, WindowLimiter.redis_counts keyPrefix
        true windows⟩

/- The triple of the `count`-th increment of a window. -/
def WindowCall.exactly
    (call : WindowCall)
    (read count : Nat) : Int × Bool × Nat :=
  if count ≤ call.limit then
    (count, false, 0)
  else
    (count, true, call.retryAfter read)

/- A wait that ends as the next window starts. -/
def WindowCall.WaitsForNext
    (call : WindowCall)
    (read wait : Nat) : Prop :=
  1 ≤ wait ∧ wait ≤ call.period ∧
    second read + wait = call.window read + call.period

/- The time to wait ends with the window. -/
theorem WindowCall.waitsForNext_retryAfter
    (call : WindowCall)
    (read : Nat) :
    call.WaitsForNext read (call.retryAfter read) := by
  have hLe := windowStart_le call.period (second read)
  have hLt := lt_windowStart_add (second read)
    call.period_pos
  unfold WindowCall.WaitsForNext WindowCall.retryAfter
    WindowCall.window
  omega

/-
  What is to hold after some events of a key whose calls
  have one period: of the next call for it, and of its
  windows.
-/
structure WindowLimiter.Exact
    (limiter : WindowLimiter)
    (windows : Set (Text × Nat))
    (events : List WindowEvent)
    (start : Nat)
    (key : Text)
    (period : Nat) : Prop where
  check : ∀ elapsed waited (call : WindowCall),
    call.key = key →
    call.period = period →
    let done := limiter.after events start limiter.initial
    let now := done.1 + elapsed
    let read := now - waited
    (key, call.window read) ∈ windows →
    now < (call.window read + period) * 1000 →
      (limiter.check now waited call done.2).1 =
        call.exactly read
          (increments key (call.window read) events
            start + 1)
  waits : ∀ elapsed waited (call : WindowCall),
    call.key = key →
    call.period = period →
    let done := limiter.after events start limiter.initial
    let now := done.1 + elapsed
    let read := now - waited
    let answer := (limiter.check now waited call done.2).1
    (key, call.window read) ∈ windows →
    answer.2.1 = true →
      call.WaitsForNext read answer.2.2
  held : ∀ elapsed window,
    let done := limiter.after events start limiter.initial
    let now := done.1 + elapsed
    let count := increments key window events start
    (key, window) ∈ windows →
    now < (window + period) * 1000 →
      (readable Counter.aliveAt now (limiter.held done.2)
          (stamp key window)).map Counter.count =
        if count = 0 then none else some (count : Int)

/- An unused window counts nothing. -/
theorem counted_initial
    (key : Text)
    (period window now : Nat) :
    Counted key period window now 0 fun _ => none where
  absent _ := rfl
  counter hSome _ := absurd hSome (Nat.lt_irrefl 0)

/- What a limiter that counts has at the end of a run. -/
theorem counted_run
    {limiter : WindowLimiter}
    {windows : Set (Text × Nat)}
    {alive : Liveness}
    {makes : Text → Nat → CounterCall}
    {related : Nat → limiter.State → Counters → Prop}
    (hCounts : limiter.Counts windows alive makes related)
    {events : List WindowEvent}
    {start : Nat}
    (hWindows : windowsOf events start ⊆ windows)
    {key : Text}
    {period : Nat}
    (hPeriod : OnePeriod key period events)
    (elapsed window : Nat) :
    let done := limiter.after events start limiter.initial
    ∃ counters,
      related (done.1 + elapsed) done.2 counters ∧
        Counted key period window (done.1 + elapsed)
          (increments key window events start) counters := by
  have hAfter := counted_after hCounts.follows hCounts.arms
    hCounts.alive hPeriod hWindows
    (hCounts.follows.initial start)
    (counted_initial key period window start)
  rcases hAfter with ⟨counters, hRelated, hCounted⟩
  rw [Nat.zero_add] at hCounted
  exact ⟨counters,
    hCounts.follows.later _ elapsed _ _ hRelated,
    hCounted.later elapsed⟩

/- Exact counts along every run. -/
theorem WindowLimiter.Counts.exact
    {limiter : WindowLimiter}
    {windows : Set (Text × Nat)}
    {alive : Liveness}
    {makes : Text → Nat → CounterCall}
    {related : Nat → limiter.State → Counters → Prop}
    (hCounts : limiter.Counts windows alive makes related)
    {events : List WindowEvent}
    {start : Nat}
    (hWindows : windowsOf events start ⊆ windows)
    {key : Text}
    {period : Nat}
    (hPeriod : OnePeriod key period events) :
    limiter.Exact windows events start key period := by
  constructor
  · intro elapsed waited call hKey hSame done now read
      hWindow hOpen
    subst hKey
    subst hSame
    rcases counted_run hCounts hWindows hPeriod elapsed
        (call.window read) with
      ⟨counters, hRelated, hCounted⟩
    rcases count_of_counted hCounts.follows hCounts.arms
        hCounts.alive hWindow hRelated hCounted with
      ⟨count, hCount, hExact⟩
    have hVerdict :
        (limiter.check now waited call done.2).1 =
          call.verdict read (some count) :=
      congrArg (call.verdict read) hCount
    rw [hVerdict, hExact hOpen]
    unfold WindowCall.verdict WindowCall.exactly
    dsimp only
    norm_cast
  · intro elapsed waited call hKey hSame done now read answer
      hWindow hLimited
    subst hKey
    subst hSame
    rcases counted_run hCounts hWindows hPeriod elapsed
        (call.window read) with
      ⟨counters, hRelated, hCounted⟩
    rcases count_of_counted hCounts.follows hCounts.arms
        hCounts.alive hWindow hRelated hCounted with
      ⟨count, hCount, _⟩
    have hVerdict :
        answer = call.verdict read (some count) :=
      congrArg (call.verdict read) hCount
    rw [hVerdict] at hLimited ⊢
    unfold WindowCall.verdict at hLimited ⊢
    dsimp only at hLimited ⊢
    by_cases hFew : count ≤ call.limit
    · rw [if_pos hFew] at hLimited
      cases hLimited
    · rw [if_neg hFew]
      exact call.waitsForNext_retryAfter read
  · intro elapsed window done now count hWindow hOpen
    rcases counted_run hCounts hWindows hPeriod elapsed
        window with
      ⟨counters, hRelated, hCounted⟩
    exact readable_of_counted hCounts.follows hCounts.alive
      hWindow hRelated hCounted hOpen

/- Runs of two limiters take the same time. -/
theorem moment_after
    {limiter limiter' : WindowLimiter}
    {events : List WindowEvent}
    {now : Nat}
    {state : limiter.State}
    {state' : limiter'.State} :
    (limiter.after events now state).1 =
      (limiter'.after events now state').1 := by
  induction events generalizing now state state' with
  | nil => rfl
  | cons event events ih =>
      cases event with
      | call elapsed waited call => exact ih
      | purge elapsed purged => exact ih

/- Two limiters answer a call for the key with one triple. -/
def SameAnswers
    (limiter limiter' : WindowLimiter)
    (windows : Set (Text × Nat))
    (events : List WindowEvent)
    (start : Nat)
    (key : Text)
    (period : Nat) : Prop :=
  ∀ elapsed waited (call : WindowCall),
    call.key = key →
    call.period = period →
    let done := limiter.after events start limiter.initial
    let done' := limiter'.after events start limiter'.initial
    let now := done.1 + elapsed
    let read := now - waited
    (key, call.window read) ∈ windows →
    now < (call.window read + period) * 1000 →
      (limiter.check now waited call done.2).1 =
        (limiter'.check now waited call done'.2).1

/- Two exact limiters answer alike. -/
theorem sameAnswers_of_exact
    {limiter limiter' : WindowLimiter}
    {windows : Set (Text × Nat)}
    {events : List WindowEvent}
    {start : Nat}
    {key : Text}
    {period : Nat}
    (hExact :
      limiter.Exact windows events start key period)
    (hExact' :
      limiter'.Exact windows events start key period) :
    SameAnswers limiter limiter' windows events start key
      period := by
  intro elapsed waited call hKey hSame done done' now read
    hWindow hOpen
  have hFirst := hExact.check elapsed waited call hKey hSame
    hWindow hOpen
  have hMoment : done'.1 = done.1 := moment_after
  have hSecond := hExact'.check elapsed waited call hKey
    hSame
  dsimp only at hSecond
  rw [hMoment] at hSecond
  exact hFirst.trans (hSecond hWindow hOpen).symm

/-
  In every run, on every backend, a call whose increment is
  the k-th of its window, before it ends, answers k, and is
  limited exactly where k is over the limit, until the next
  window starts; the window's counter is the number of its
  increments until it ends, and nothing before them; and the
  override of Redis answers what the others do.
-/
theorem Deployment.countsExactly
    (deployment : Deployment)
    (windows : Set (Text × Nat))
    (hSound : deployment.Sound windows)
    (events : List WindowEvent)
    (start : Nat)
    (hWindows : windowsOf events start ⊆ windows)
    (key : Text)
    (period : Nat)
    (hPeriod : OnePeriod key period events) :
    deployment.limiter.Exact windows events start key
        period ∧
      ∀ keyPrefix,
        SameAnswers (Deployment.redis keyPrefix).limiter
          deployment.limiter windows events start key
          period := by
  rcases deployment.counts hSound with
    ⟨alive, makes, related, hCounts⟩
  have hExact := hCounts.exact hWindows hPeriod
  constructor
  · exact hExact
  · intro keyPrefix
    have hRedis := (WindowLimiter.redis_counts keyPrefix
      false windows).exact hWindows hPeriod
    exact sameAnswers_of_exact hRedis hExact

/- A second call, past its limit, in the first window. -/
def onceAMinute : WindowCall where
  key := "login".toList
  limit := 1
  period := 60
  failOpen := true
  period_pos := by decide

/- One call, late in its minute. -/
def firstCall : List WindowEvent :=
  [.call 61500 0 onceAMinute]

/- A second call of the same minute. -/
theorem countsExactly_second :
    (Deployment.memory.limiter.check 62500 500 onceAMinute
      (Deployment.memory.limiter.after firstCall 0
        Deployment.memory.limiter.initial).2).1 =
      (2, true, 58) := by
  have hPeriod :
      OnePeriod onceAMinute.key 60 firstCall := by
    intro elapsed waited call hMem _
    cases List.mem_singleton.mp hMem
    rfl
  have hCheck :=
    (Deployment.countsExactly .memory Set.univ trivial
      firstCall 0 (fun _ _ => trivial) onceAMinute.key 60
      hPeriod).1.check 1000 500 onceAMinute rfl rfl
  exact (hCheck trivial (by decide)).trans (by decide)

end RateLimit

end CrudAuth
