import CrudAuth.Concurrency.Interleaving

/-
  The rate-limiter backend port: counters that expire, and
  what each of the three backends of the tree makes of it.

  The clock counts microseconds.  The database and Redis
  see it in whole milliseconds.  A counter that has expired
  may be dropped at any time; only the memory backend can
  still tell that it is there.

  `row` says where a backend keeps the counter of a key.  In
  memory and in Redis each key has one of its own; in the
  database two long keys may be stored as one text.

  Main declarations:
    * `Counter`
    * `Backend`
    * `Op`
    * `Backend.exec`
    * `Backend.machine`
-/

namespace CrudAuth

namespace RateLimit

open Concurrency

------------------------------------------------------------
-- Keys And Calls
------------------------------------------------------------

/-
  The counters of the lockout policy and of sudo.  The pair
  key joins an address and an identifier into one text.
-/
inductive Key
  | ipAttempts (ip : String)
  | userAttempts (user : String)
  | pairAttempts (pair : String)
  | ipLock (ip : String)
  | userLock (user : String)
  | ipRounds (ip : String)
  | userRounds (user : String)
  | sudoFail (userId : Nat)
  | sudoLock (userId : Nat)
deriving DecidableEq, Repr

/- The calls that count attempts. -/
inductive Call
  | checkAndRecord
      (ipAddress username : String)
      (success : Bool)
  | forgetAttempt (ipAddress username : String)
  | elevate (userId : Nat)
deriving DecidableEq, Repr

/- What a call comes back with. -/
inductive Outcome
  | verdict
      (allowed : Bool)
      (remaining : Option Nat)
      (retryAfter : Nat)
  | forgotten
  | elevated
  | incorrect
  | locked (retryAfter : Nat)
deriving DecidableEq, Repr

------------------------------------------------------------
-- Operations
------------------------------------------------------------

/-
  `arrive` and `respond` are the two ends of a call, and
  `verify` is the check of a password or a code.
-/
inductive Op
  | arrive (call : Call)
  | respond (outcome : Outcome)
  | increment (key : Key) (amount : Int) (expiry : Nat)
  | incrementAndRefreshTtl
      (key : Key)
      (amount : Int)
      (expiry : Nat)
  | getCount (key : Key)
  | delete (key : Key)
  | getTtl (key : Key)
  | verify
deriving DecidableEq, Repr

/- What an operation answers. -/
@[reducible]
def Op.Ret : Op → Type
  | .arrive _ => Unit
  | .respond _ => Unit
  | .increment _ _ _ => Int
  | .incrementAndRefreshTtl _ _ _ => Int
  | .getCount _ => Option Int
  | .delete _ => Bool
  | .getTtl _ => Nat
  | .verify => Bool

/- The operations that may interleave. -/
abbrev interface : Interface where
  Op := Op
  Ret := Op.Ret

------------------------------------------------------------
-- Counters
------------------------------------------------------------

/- A count and when it stops being live, if ever. -/
structure Counter where
  count : Int
  expiresAt : Option Nat
deriving DecidableEq, Repr

/-
  The counters by the rows they are kept in, the clock, and
  what the checks of passwords and codes will say.
-/
structure Limiter (ρ : Type) where
  counters : ρ → Option Counter
  clock : Nat
  checks : List Bool

/- The backends of the tree. -/
inductive Backend
  | memory
  | database
  | redis
deriving DecidableEq, Repr

namespace Backend

variable {ρ : Type} [DecidableEq ρ]

/- How a backend reads the clock. -/
def now (backend : Backend) (clock : Nat) : Nat :=
  match backend with
  | .memory => clock
  | .database => clock / 1000
  | .redis => clock / 1000

/- A number of seconds, in the backend's own unit. -/
def seconds (backend : Backend) (count : Nat) : Nat :=
  match backend with
  | .memory => count * 1000000
  | .database => count * 1000
  | .redis => count * 1000

/- Whether a counter is past its expiry. -/
def isExpired
    (backend : Backend)
    (clock : Nat)
    (counter : Counter) : Bool :=
  counter.expiresAt.any fun deadline =>
    match backend with
    | .memory => deadline < backend.now clock
    | .database => deadline ≤ backend.now clock
    | .redis => deadline < backend.now clock

/- The counter as it is read: an expired one is absent. -/
def live
    (backend : Backend)
    (limiter : Limiter ρ)
    (row : ρ) : Option Counter :=
  (limiter.counters row).filter fun counter =>
    !backend.isExpired limiter.clock counter

/-
  What is left of a counter's life, in seconds: cut off by
  the memory backend, rounded up by the database, rounded
  to the nearest by Redis.
-/
def remaining
    (backend : Backend)
    (clock deadline : Nat) : Nat :=
  match backend with
  | .memory => (deadline - backend.now clock) / 1000000
  | .database =>
      (deadline - backend.now clock + 999) / 1000
  | .redis => (deadline - backend.now clock + 500) / 1000

/- Write what a row holds. -/
def put
    (limiter : Limiter ρ)
    (row : ρ)
    (counter : Option Counter) : Limiter ρ :=
  { limiter with
    counters :=
      Function.update limiter.counters row counter }

/- The counter a count goes on from. -/
def current
    (backend : Backend)
    (limiter : Limiter ρ)
    (row : ρ) : Counter :=
  (backend.live limiter row).getD
    { count := 0, expiresAt := none }

/- The expiry is armed when there is none. -/
def incremented
    (backend : Backend)
    (limiter : Limiter ρ)
    (row : ρ)
    (amount : Int)
    (expiry : Nat) : Counter :=
  let counter := backend.current limiter row
  { count := counter.count + amount
    expiresAt :=
      some (counter.expiresAt.getD
        (backend.now limiter.clock +
          backend.seconds expiry)) }

/- The expiry is armed anew. -/
def refreshed
    (backend : Backend)
    (limiter : Limiter ρ)
    (row : ρ)
    (amount : Int)
    (expiry : Nat) : Counter :=
  let counter := backend.current limiter row
  { count := counter.count + amount
    expiresAt :=
      some (backend.now limiter.clock +
        backend.seconds expiry) }

/-
  Whether a delete reports a counter.  The memory backend
  does not look at the expiry.
-/
def existed
    (backend : Backend)
    (limiter : Limiter ρ)
    (row : ρ) : Bool :=
  match backend with
  | .memory => (limiter.counters row).isSome
  | .database => (backend.live limiter row).isSome
  | .redis => (backend.live limiter row).isSome

/- The effect and the answer of one operation. -/
def exec
    (backend : Backend)
    (row : Key → ρ) :
    (op : Op) → Limiter ρ → op.Ret × Limiter ρ
  | .arrive _, limiter => ((), limiter)
  | .respond _, limiter => ((), limiter)
  | .increment key amount expiry, limiter =>
      let counter :=
        backend.incremented limiter (row key) amount expiry
      (counter.count, put limiter (row key) (some counter))
  | .incrementAndRefreshTtl key amount expiry, limiter =>
      let counter :=
        backend.refreshed limiter (row key) amount expiry
      (counter.count, put limiter (row key) (some counter))
  | .getCount key, limiter =>
      ((backend.live limiter (row key)).map Counter.count,
        limiter)
  | .delete key, limiter =>
      (backend.existed limiter (row key),
        put limiter (row key) none)
  | .getTtl key, limiter =>
      (match (backend.live limiter (row key)).bind
          Counter.expiresAt with
        | some deadline =>
            backend.remaining limiter.clock deadline
        | none => 0,
        limiter)
  | .verify, limiter =>
      match limiter.checks with
      | [] => (false, limiter)
      | check :: checks => (check, { limiter with checks })

/- What the environment does: time passes, or a sweep. -/
inductive Tick (ρ : Type)
  | pass (microseconds : Nat)
  | sweep (row : ρ)

/- A sweep drops a counter that has expired. -/
def tick
    (backend : Backend) : Tick ρ → Limiter ρ → Limiter ρ
  | .pass microseconds, limiter =>
      { limiter with clock := limiter.clock + microseconds }
  | .sweep row, limiter =>
      put limiter row (backend.live limiter row)

/- A backend, under any calls at once. -/
abbrev machine
    (backend : Backend)
    (row : Key → ρ) : Machine interface (Limiter ρ) where
  Tick := Tick ρ
  exec := backend.exec row
  tick := backend.tick

end Backend

------------------------------------------------------------
-- Flows
------------------------------------------------------------

/- A call, or a part of one; it never raises. -/
abbrev Flow := Program interface Empty

/- One operation of a flow. -/
def call (op : Op) : Flow op.Ret :=
  Program.call (I := interface) op

/- What one call did, and what a run of calls did. -/
abbrev Act := Action interface
/- A step of one of the callers. -/
abbrev Ev (ι : Type) := Event ι interface

variable {α : Type}
variable {contract : Contract interface}
variable {past : List Act}

/- An operation that stands alone. -/
theorem obeys_call
    {op : Op}
    {post : List Act → Except Empty op.Ret → Prop}
    (hRule : contract.rule past op)
    (hPost : ∀ ret : op.Ret, contract.answer op ret →
      post (⟨op, ret⟩ :: past) (.ok ret)) :
    Program.Obeys contract past (call op) post :=
  ⟨hRule, hPost⟩

/- An operation with the rest of its flow. -/
theorem obeys_step
    {op : Op}
    {rest : op.Ret → Flow α}
    {post : List Act → Except Empty α → Prop}
    (hRule : contract.rule past op)
    (hRest : ∀ ret : op.Ret, contract.answer op ret →
      Program.Obeys contract (⟨op, ret⟩ :: past)
        (rest ret) post) :
    Program.Obeys contract past
      (Program.bind (call op) rest) post :=
  ⟨hRule, hRest⟩

end RateLimit

end CrudAuth
