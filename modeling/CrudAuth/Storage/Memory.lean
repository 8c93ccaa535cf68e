import CrudAuth.Storage.Base

/-
  `MemorySessionStorage`: a dictionary in one process.

  No call yields to the event loop, so every call is one
  command.  `_maybe_sweep` counts writes to decide when it
  runs; here a sweep can run at any moment.

  Main declarations:
    * `Memory`
    * `Memory.exec`
    * `memory`
-/

------------------------------------------------------------
-- The Dictionary
------------------------------------------------------------

namespace CrudAuth

namespace Storage

open Concurrency

/- `data` and `expiry` of one key. -/
structure Entry (ν : Type) where
  value : ν
  expiry : Nat
deriving DecidableEq, Repr

/- The two dictionaries, which always share their keys. -/
abbrev Memory (κ ν : Type) := Table κ (Entry ν)

namespace Memory

variable {κ ν : Type}
variable [DecidableEq κ] [Owned ν]
variable (expiration : Nat)
variable (now : Nat)
variable (memory : Memory κ ν)

/- `exp < _utcnow()` -/
def expired (entry : Entry ν) : Bool :=
  entry.expiry < now

/- `_check_expiry`: drop the entry if it is expired. -/
def checkExpiry (key : κ) : Memory κ ν :=
  memory.eraseIf key (expired now)

/- `create` -/
def create
    (key : κ)
    (data : ν)
    (ttl : Option Nat) : Memory κ ν :=
  memory.insert key ⟨data, now + lifetime expiration ttl⟩

/- `get` -/
def get (key : κ) : Option ν × Memory κ ν :=
  let memory := memory.checkExpiry now key
  ((memory.lookup key).map Entry.value, memory)

/- `update` -/
def update
    (key : κ)
    (data : ν)
    (resetExpiration : Bool)
    (ttl : Option Nat) : Bool × Memory κ ν :=
  let memory := memory.checkExpiry now key
  match memory.lookup key with
  | none => (false, memory)
  | some entry =>
      (true,
        memory.insert key
          { value := data
            expiry :=
              if resetExpiration then
                now + lifetime expiration ttl
              else
                entry.expiry })

/- The interface's own `modify`. -/
def modify
    (key : κ)
    (change : ν → ν)
    (resetExpiration : Bool)
    (ttl : Option Nat) : Option (ν × ν) × Memory κ ν :=
  match memory.get now key with
  | (none, memory) => (none, memory)
  | (some data, memory) =>
      match update expiration now memory key (change data)
          resetExpiration ttl with
      | (false, memory) => (none, memory)
      | (true, memory) => (some (data, change data), memory)

/- `delete`, which checks no expiry. -/
def delete (key : κ) : Bool × Memory κ ν :=
  ((memory.lookup key).isSome, memory.erase key)

/- `exists` -/
def exists? (key : κ) : Bool × Memory κ ν :=
  let memory := memory.checkExpiry now key
  ((memory.lookup key).isSome, memory)

/- The interface's own `set_if_absent`. -/
def setIfAbsent
    (key : κ)
    (data : ν)
    (ttl : Option Nat) : Bool × Memory κ ν :=
  match memory.exists? now key with
  | (true, memory) => (false, memory)
  | (false, memory) =>
      (true, create expiration now memory key data ttl)

/- The interface's own `get_and_delete`. -/
def getAndDelete (key : κ) : Option ν × Memory κ ν :=
  match memory.get now key with
  | (none, memory) => (none, memory)
  | (some data, memory) => (some data, (memory.delete key).2)

/- Drop every expired entry. -/
def sweep : Memory κ ν :=
  memory.keys.foldl (fun memory key =>
    checkExpiry now memory key) memory

/- Every entry is checked while they are enumerated. -/
def getUserSessions
    (userId : UserId) : List κ × Memory κ ν :=
  let memory := memory.sweep now
  (memory.keysWhere fun entry =>
    Owned.userId entry.value == some userId, memory)

/- The effect and the answer of one call. -/
def exec :
    (call : Call κ ν) → Nat → Memory κ ν →
    call.Ret × Memory κ ν
  | .create key data ttl, now, memory =>
      ((), create expiration now memory key data ttl)
  | .get key, now, memory => memory.get now key
  | .modify key change resetExpiration ttl, now, memory =>
      modify expiration now memory key change
        resetExpiration ttl
  | .delete key _, _, memory => memory.delete key
  | .setIfAbsent key data ttl, now, memory =>
      setIfAbsent expiration now memory key data ttl
  | .getAndDelete key, now, memory =>
      memory.getAndDelete now key
  | .getUserSessions userId, now, memory =>
      memory.getUserSessions now userId
  | .removeFromUserIndex _ _, _, memory => ((), memory)

end Memory

------------------------------------------------------------
-- The Backend
------------------------------------------------------------

variable {κ ν : Type}
variable [DecidableEq κ] [Owned ν]

/- A sweep of the dictionary can run at any moment. -/
abbrev Memory.server
    (expiration : Nat) :
    Server (calls κ ν) (Memory κ ν) where
  Upkeep := Unit
  exec := Memory.exec expiration
  upkeep := fun _ now memory => memory.sweep now

/- `get_session_storage("memory")` -/
def memory (expiration : Nat) : Backend κ ν where
  commands := calls κ ν
  State := Memory κ ν
  server := Memory.server expiration
  implement := fun call => Program.call (I := calls κ ν) call
  stored := fun state key =>
    (state.lookup key).map Entry.value
  live := fun state now key =>
    ((state.lookup key).filter fun entry =>
      !Memory.expired now entry).map Entry.value

end Storage

end CrudAuth
