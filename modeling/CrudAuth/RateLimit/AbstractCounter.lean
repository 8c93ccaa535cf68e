import CrudAuth.RateLimit.Backend
import CrudAuth.Storage.Records

/-
  What a counter is for: it starts at the amount when it is
  absent or expired, arms its expiry on first touch or when
  it has none, and slides it in the refreshing variant.

  The clock counts milliseconds, and time passes between two
  calls.  A backend is compared with this counter by the
  counts it answers and by the counters that can be read.

  Main declarations:
    * `CounterCall`
    * `CounterAnswer.counted`
    * `readable`
    * `AbstractCounter.exec`
    * `CounterBackend`
    * `CounterBackend.run`
    * `Untied`
    * `CounterBackend.Agrees`
    * `CounterBackend.Simulates`
    * `CounterBackend.Simulates.run`
    * `CounterBackend.agrees_of_simulates`
-/

namespace CrudAuth

namespace RateLimit

open Storage (Text)

------------------------------------------------------------
-- Calls
------------------------------------------------------------

/- An expiry is in seconds, or none is given. -/
inductive CounterCall where
  | increment
      (key : Text)
      (amount : Int)
      (expiry : Option Nat)
  | incrementAndRefreshTtl
      (key : Text)
      (amount : Int)
      (expiry : Option Nat)
  | getCount (key : Text)
  | reset (key : Text)
  | delete (key : Text)
deriving DecidableEq

/- The key that a call counts under. -/
def CounterCall.key : CounterCall → Text
  | .increment key _ _ => key
  | .incrementAndRefreshTtl key _ _ => key
  | .getCount key => key
  | .reset key => key
  | .delete key => key

/- `keyError` is a count that is read but not there. -/
inductive CounterAnswer where
  | count (value : Int)
  | current (value : Option Int)
  | reset
  | deleted (existed : Bool)
  | keyError
deriving DecidableEq

/- The count an answer reports, if it reports one. -/
def CounterAnswer.counted :
    CounterAnswer → Option (Option Int)
  | .count value => some (some value)
  | .current value => some value
  | .reset => none
  | .deleted _ => none
  | .keyError => none

------------------------------------------------------------
-- The Counter
------------------------------------------------------------

/- The counters that are kept, by key. -/
abbrev Counters := Text → Option Counter

/- Whether a counter has not expired. -/
def Counter.aliveAt (now : Nat) (counter : Counter) : Bool :=
  counter.expiresAt.all fun deadline => now < deadline

/- Whether a counter expires at no earlier moment. -/
def Counter.freshAt (now : Nat) (counter : Counter) : Bool :=
  counter.expiresAt.all fun deadline => now ≤ deadline

/- Which counters count as live at a moment. -/
abbrev Liveness := Nat → Counter → Bool

/- The counters that can be read. -/
def readable
    (alive : Liveness)
    (now : Nat)
    (counters : Counters) : Counters :=
  fun key => (counters key).filter (alive now)

/- The expiry that a call would arm. -/
def armed (now : Nat) (expiry : Option Nat) : Option Nat :=
  expiry.map fun seconds => now + seconds * 1000

namespace AbstractCounter

/- A counter is stored, or removed. -/
def put
    (counters : Counters)
    (key : Text)
    (counter : Option Counter) : Counters :=
  Function.update counters key counter

variable (alive : Liveness)

/- The counter a count goes on from. -/
def current
    (now : Nat)
    (counters : Counters)
    (key : Text) : Counter :=
  (readable alive now counters key).getD
    { count := 0, expiresAt := none }

/- Each call on the counters. -/
def exec (now : Nat) :
    CounterCall → Counters → CounterAnswer × Counters
  | .increment key amount expiry, counters =>
      let counter := current alive now counters key
      let counted : Counter :=
        { count := counter.count + amount
          expiresAt :=
            counter.expiresAt.or (armed now expiry) }
      (.count counted.count, put counters key counted)
  | .incrementAndRefreshTtl key amount expiry, counters =>
      let counter := current alive now counters key
      let counted : Counter :=
        { count := counter.count + amount
          expiresAt :=
            (armed now expiry).or counter.expiresAt }
      (.count counted.count, put counters key counted)
  | .getCount key, counters =>
      (.current ((readable alive now counters key).map
        Counter.count), counters)
  | .reset key, counters =>
      (.reset, put counters key none)
  | .delete key, counters =>
      (.deleted (readable alive now counters key).isSome,
        put counters key none)

end AbstractCounter

------------------------------------------------------------
-- Backends And Runs
------------------------------------------------------------

/-
  A backend: what a call does at a moment, what a purge of
  some keys does, and the counters it holds.
-/
structure CounterBackend where
  State : Type
  initial : State
  exec : Nat → CounterCall → State → CounterAnswer × State
  purge : Nat → List Text → State → State
  held : State → Counters

/- A purge has nothing to do here. -/
def AbstractCounter.backend (alive : Liveness) :
    CounterBackend where
  State := Counters
  initial := fun _ => none
  exec := AbstractCounter.exec alive
  purge _ _ counters := counters
  held := id

/-
  Time passes; then a call is made, and what is purged after
  it, or something is purged alone.
-/
inductive CounterEvent where
  | call
      (elapsed : Nat)
      (call : CounterCall)
      (purged : List Text)
  | purge (elapsed : Nat) (purged : List Text)

/- The time before an event. -/
def CounterEvent.elapsed : CounterEvent → Nat
  | .call elapsed _ _ => elapsed
  | .purge elapsed _ => elapsed

namespace CounterBackend

variable (backend : CounterBackend)

/- One event, at the moment it happens. -/
def step (now : Nat) :
    CounterEvent → backend.State →
      Option CounterAnswer × backend.State
  | .call _ call purged, state =>
      let done := backend.exec now call state
      (some done.1, backend.purge now purged done.2)
  | .purge _ purged, state =>
      (none, backend.purge now purged state)

/- The answers of a run, its last moment and state. -/
def run :
    List CounterEvent → Nat → backend.State →
      List (Option CounterAnswer) × Nat × backend.State
  | [], now, state => ([], now, state)
  | event :: events, now, state =>
      let done :=
        backend.step (now + event.elapsed) event state
      let rest :=
        run events (now + event.elapsed) done.2
      (done.1 :: rest.1, rest.2)

end CounterBackend

/- The calls are about these keys. -/
def Within (keys : Set Text)
    (events : List CounterEvent) : Prop :=
  ∀ elapsed call purged,
    CounterEvent.call elapsed call purged ∈ events →
      call.key ∈ keys

------------------------------------------------------------
-- Agreement
------------------------------------------------------------

/- The counts a run reports. -/
def reported (answers : List (Option CounterAnswer)) :
    List (Option (Option Int)) :=
  answers.map fun answer =>
    answer.bind CounterAnswer.counted

/- The counter all backends are to be. -/
abbrev AbstractCounter.strict : CounterBackend :=
  AbstractCounter.backend Counter.aliveAt

/-
  On these keys the run answers the counts and ends with the
  counters that the abstract counter does.
-/
structure CounterBackend.Agrees
    (backend : CounterBackend)
    (keys : Set Text)
    (events : List CounterEvent)
    (start : Nat) : Prop where
  counts :
    reported (backend.run events start backend.initial).1 =
      reported (AbstractCounter.strict.run events start
        fun _ => none).1
  moments :
    (backend.run events start backend.initial).2.1 =
      (AbstractCounter.strict.run events start
        fun _ => none).2.1
  counters : ∀ key ∈ keys,
    readable Counter.aliveAt
        (backend.run events start backend.initial).2.1
        (backend.held
          (backend.run events start
            backend.initial).2.2) key =
      readable Counter.aliveAt
        (AbstractCounter.strict.run events start
          fun _ => none).2.1
        (AbstractCounter.strict.run events start
          fun _ => none).2.2 key

/-
  A relation between the states at a moment that holds at
  first, outlives the passing of time and a purge, and is
  kept by every call.
-/
structure CounterBackend.Simulates
    (backend : CounterBackend)
    (keys : Set Text)
    (alive : Liveness)
    (related : Nat → backend.State → Counters → Prop) :
    Prop where
  initial : ∀ now,
    related now backend.initial fun _ => none
  later : ∀ now elapsed state counters,
    related now state counters →
      related (now + elapsed) state counters
  purge : ∀ now purged state counters,
    related now state counters →
      related now (backend.purge now purged state) counters
  call : ∀ now call state counters,
    related now state counters →
    call.key ∈ keys →
      (backend.exec now call state).1.counted =
          (AbstractCounter.exec alive now call
            counters).1.counted ∧
        related now (backend.exec now call state).2
          (AbstractCounter.exec alive now call counters).2
  readable : ∀ now state counters,
    related now state counters →
    ∀ key ∈ keys,
      readable alive now (backend.held state) key =
        readable alive now counters key

/- A simulation carries a whole run. -/
theorem CounterBackend.Simulates.run
    {backend : CounterBackend}
    {keys : Set Text}
    {alive : Liveness}
    {related : Nat → backend.State → Counters → Prop}
    (hSimulates : backend.Simulates keys alive related)
    {events : List CounterEvent}
    (hWithin : Within keys events)
    {now : Nat}
    {state : backend.State}
    {counters : Counters}
    (hRelated : related now state counters) :
    let done := backend.run events now state
    let meant :=
      (AbstractCounter.backend alive).run events now counters
    reported done.1 = reported meant.1 ∧
      done.2.1 = meant.2.1 ∧
      related done.2.1 done.2.2 meant.2.2 := by
  induction events generalizing now state counters with
  | nil => exact ⟨rfl, rfl, hRelated⟩
  | cons event events ih =>
      have hRest : Within keys events := by
        intro elapsed call purged hMem
        exact hWithin elapsed call purged
          (List.mem_cons_of_mem _ hMem)
      have hLater := hSimulates.later now event.elapsed
        state counters hRelated
      cases event with
      | purge elapsed purged =>
          have hPurged := hSimulates.purge _ purged _ _
            hLater
          have hDone := ih hRest hPurged
          exact ⟨congrArg (none :: ·) hDone.1, hDone.2⟩
      | call elapsed call purged =>
          have hKey := hWithin elapsed call purged
            List.mem_cons_self
          have hCall := hSimulates.call _ call _ _ hLater
            hKey
          have hPurged := hSimulates.purge _ purged _ _
            hCall.2
          have hDone := ih hRest hPurged
          refine ⟨?_, hDone.2⟩
          unfold reported at hDone ⊢
          exact congrArg₂ List.cons hCall.1 hDone.1

------------------------------------------------------------
-- Expiries
------------------------------------------------------------

section Expiries

variable {now elapsed : Nat}
variable {counter : Counter}
variable {stored other : Option Counter}

/- A counter alive is fresh as well. -/
theorem Counter.freshAt_of_aliveAt
    (hAlive : counter.aliveAt now = true) :
    counter.freshAt now = true := by
  unfold Counter.aliveAt at hAlive
  unfold Counter.freshAt
  cases hExpiry : counter.expiresAt with
  | none => rfl
  | some deadline =>
      rw [hExpiry] at hAlive
      simp only [Option.all_some, decide_eq_true_eq]
        at hAlive ⊢
      exact Nat.le_of_lt hAlive

/- What is alive later was alive before. -/
theorem Counter.aliveAt_of_later
    (hLater : counter.aliveAt (now + elapsed) = true) :
    counter.aliveAt now = true := by
  unfold Counter.aliveAt at hLater ⊢
  cases hExpiry : counter.expiresAt with
  | none => rfl
  | some deadline =>
      rw [hExpiry] at hLater
      simp only [Option.all_some, decide_eq_true_eq]
        at hLater ⊢
      omega

/- One fresh later is fresh now. -/
theorem Counter.freshAt_of_later
    (hLater : counter.freshAt (now + elapsed) = true) :
    counter.freshAt now = true := by
  unfold Counter.freshAt at hLater ⊢
  cases hExpiry : counter.expiresAt with
  | none => rfl
  | some deadline =>
      rw [hExpiry] at hLater
      simp only [Option.all_some, decide_eq_true_eq]
        at hLater ⊢
      omega

/- A wider condition may be asked first. -/
theorem filter_eq_filter_filter
    {narrow wide : Counter → Bool}
    (hWide : ∀ counter,
      narrow counter = true → wide counter = true) :
    stored.filter narrow =
      (stored.filter wide).filter narrow := by
  cases stored with
  | none => rfl
  | some counter =>
      cases hNarrow : narrow counter with
      | true =>
          simp [Option.filter, hNarrow, hWide _ hNarrow]
      | false =>
          cases hBoth : wide counter with
          | true => simp [Option.filter, hNarrow, hBoth]
          | false => simp [Option.filter, hNarrow, hBoth]

/- Counters that agree where they are alive do so later. -/
theorem filter_later
    {earlier later : Counter → Bool}
    (hEarlier : ∀ counter,
      later counter = true → earlier counter = true)
    (hSame : stored.filter earlier = other.filter earlier) :
    stored.filter later = other.filter later := by
  rw [filter_eq_filter_filter hEarlier, hSame,
    ← filter_eq_filter_filter hEarlier]

end Expiries

end RateLimit

end CrudAuth
