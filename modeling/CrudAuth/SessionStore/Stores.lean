import CrudAuth.Concurrency.Observed
import CrudAuth.Runtime
import CrudAuth.Storage.Base

/-
  The two stores of a `SessionManager`: sessions and CSRF
  tokens, each record with an expiry of its own.

  A store operation is one step.  `modify` may have run its
  change on values that were overwritten before it wrote:
  its answer lists every value the change has run on.  An
  expired record counts as absent.

  Main declarations:
    * `SessionData`, `CSRFToken`
    * `StoreOp`
    * `Stores.exec`
    * `stores`
-/

------------------------------------------------------------
-- Records
------------------------------------------------------------

namespace CrudAuth

namespace SessionStore

open Concurrency

/-
  A stored session.  `rememberMe`, `csrfTokenId` and
  `sudoStamp` are entries of its metadata.
-/
structure SessionData where
  userId : UserId
  createdAt : Nat
  lastActivity : Nat
  rememberMe : Bool
  csrfTokenId : Option Nat
  sudoStamp : Option Nat
  tokenVersion : Option Nat
deriving DecidableEq, Repr

/- A CSRF token, under the key of its id. -/
structure CSRFToken where
  token : Nat
  sessionId : Nat
  expiry : Nat
deriving DecidableEq, Repr

/- A record with the expiry of its store. -/
structure Timed (α : Type) where
  value : α
  expiry : Nat
deriving DecidableEq, Repr

/-
  When a record is alive.  Stores differ at the expiry
  itself, and agree before and after it.
-/
structure Expiry where
  alive : Nat → Nat → Bool
  alive_of_lt : ∀ now expiry, now < expiry →
    alive now expiry = true
  le_of_alive : ∀ now expiry, alive now expiry = true →
    now ≤ expiry

/- A record is gone at its expiry. -/
def Expiry.strict : Expiry where
  alive now expiry := now < expiry
  alive_of_lt _ _ hBefore := decide_eq_true hBefore
  le_of_alive _ _ hAlive :=
    Nat.le_of_lt (of_decide_eq_true hAlive)

------------------------------------------------------------
-- Operations
------------------------------------------------------------

/- `ttl` is missing where a `modify` keeps the expiry. -/
inductive StoreOp where
  | now
  | fresh
  | sessionCreate (key : Nat) (data : SessionData)
    (ttl : Nat)
  | sessionGet (key : Nat)
  | sessionModify
      (key : Nat)
      (change : SessionData → SessionData)
      (ttl : Option Nat)
  | sessionDelete (key : Nat)
  | userSessions (userId : UserId)
  | scanKeys
  | csrfCreate (key : Nat) (data : CSRFToken) (ttl : Nat)
  | csrfGet (key : Nat)
  | csrfDelete (key : Nat)
  | csrfExtend (key : Nat) (ttl : Nat)

/-
  A `modify` answers what its change has run on, and made.
-/
@[reducible]
def StoreOp.Ret : StoreOp → Type
  | .now => Nat
  | .fresh => Nat
  | .sessionCreate _ _ _ => Unit
  | .sessionGet _ => Option SessionData
  | .sessionModify _ _ _ =>
      Option (List SessionData × SessionData)
  | .sessionDelete _ => Bool
  | .userSessions _ => List Nat
  | .scanKeys => List Nat
  | .csrfCreate _ _ _ => Unit
  | .csrfGet _ => Option CSRFToken
  | .csrfDelete _ => Bool
  | .csrfExtend _ _ => Bool

/- The stores, as a manager sees them. -/
abbrev storeOps : Interface where
  Op := StoreOp
  Ret := StoreOp.Ret

/-
  The clock, the next random id, the two stores, and what
  the next `modify` runs its change on in vain.
-/
structure Stores where
  clock : Nat
  nextId : Nat
  sessions : Storage.Table Nat (Timed SessionData)
  tokens : Storage.Table Nat (Timed CSRFToken)
  reruns : List SessionData

namespace Stores

variable (expiry : Expiry)

/- A record that has not expired. -/
def isAlive {α : Type} (now : Nat) (record : Timed α) :
    Bool :=
  expiry.alive now record.expiry

/- The session that can be read under a key. -/
def session?
    (stores : Stores)
    (key : Nat) : Option (Timed SessionData) :=
  (stores.sessions.lookup key).filter
    (isAlive expiry stores.clock)

/- A CSRF token that can be read. -/
def token?
    (stores : Stores)
    (key : Nat) : Option (Timed CSRFToken) :=
  (stores.tokens.lookup key).filter
    (isAlive expiry stores.clock)

/- A session is written, or written over. -/
def setSession
    (stores : Stores)
    (key : Nat)
    (record : Timed SessionData) : Stores :=
  { stores with
    sessions := AList.insert key record stores.sessions }

/- A CSRF token is written, or written over. -/
def setToken
    (stores : Stores)
    (key : Nat)
    (record : Timed CSRFToken) : Stores :=
  { stores with
    tokens := AList.insert key record stores.tokens }

/- The effect and the answer of one operation. -/
def exec :
    (op : StoreOp) → Stores → op.Ret × Stores
  | .now, stores => (stores.clock, stores)
  | .fresh, stores =>
      (stores.nextId,
        { stores with nextId := stores.nextId + 1 })
  | .sessionCreate key data ttl, stores =>
      ((), stores.setSession key ⟨data, stores.clock + ttl⟩)
  | .sessionGet key, stores =>
      ((stores.session? expiry key).map Timed.value, stores)
  | .sessionModify key change ttl, stores =>
      match stores.session? expiry key with
      | none => (none, stores)
      | some record =>
          (some (stores.reruns ++ [record.value],
            change record.value),
            stores.setSession key
              ⟨change record.value,
                (ttl.map (stores.clock + ·)).getD
                  record.expiry⟩)
  | .sessionDelete key, stores =>
      ((stores.session? expiry key).isSome,
        { stores with
          sessions := AList.erase key stores.sessions })
  | .userSessions userId, stores =>
      (stores.sessions.keysWhere fun record =>
        isAlive expiry stores.clock record &&
          record.value.userId == userId, stores)
  | .scanKeys, stores =>
      (stores.sessions.keysWhere fun record =>
        isAlive expiry stores.clock record, stores)
  | .csrfCreate key data ttl, stores =>
      ((), stores.setToken key ⟨data, stores.clock + ttl⟩)
  | .csrfGet key, stores =>
      ((stores.token? expiry key).map Timed.value, stores)
  | .csrfDelete key, stores =>
      ((stores.token? expiry key).isSome,
        { stores with
          tokens := AList.erase key stores.tokens })
  | .csrfExtend key ttl, stores =>
      match stores.token? expiry key with
      | none => (false, stores)
      | some record =>
          (true,
            stores.setToken key
              ⟨record.value, stores.clock + ttl⟩)

/- Time passes, or a `modify` is going to lose rounds. -/
inductive Tick where
  | pass (time : Nat)
  | lose (reruns : List SessionData)

/- Time passes, or writes are lost and run again. -/
def tick : Tick → Stores → Stores
  | .pass time, stores =>
      { stores with clock := stores.clock + time }
  | .lose reruns, stores => { stores with reruns := reruns }

end Stores

/- The two stores, serving any number of managers. -/
abbrev stores (expiry : Expiry) :
    Machine storeOps Stores where
  Tick := Stores.Tick
  exec := Stores.exec expiry
  tick := Stores.tick

end SessionStore

end CrudAuth
