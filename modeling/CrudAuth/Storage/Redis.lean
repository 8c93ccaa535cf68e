import CrudAuth.Storage.Base

/-
  `RedisSessionStorage`: records and a user index on a
  Redis server.

  A command is one Redis command or one MULTI/EXEC.  WATCH
  is answered with the number of times its key has been
  modified, and EXEC aborts when that number has moved or
  the key has expired: what the server remembers for the
  connection, the program holds here.

  Main declarations:
    * `RedisCommand`
    * `Redis`
    * `Redis.exec`
    * `Redis.modify`
    * `redis`
-/

------------------------------------------------------------
-- Commands
------------------------------------------------------------

namespace CrudAuth

namespace Storage

open Concurrency

/-
  `set` with its options, `exec` for MULTI, SET, EXEC under
  a WATCH (no `ttl` is KEEPTTL), `getDel` for MULTI, GET,
  DEL, EXEC, and `index` for SADD with the two EXPIREs.
-/
inductive RedisCommand (κ ν : Type) where
  | set (key : κ) (data : ν) (ttl : Nat)
  | setNx (key : κ) (data : ν) (ttl : Nat)
  | get (key : κ)
  | watch (key : κ)
  | exec
      (key : κ)
      (watched : Nat)
      (data : ν)
      (ttl : Option Nat)
  | del (key : κ)
  | getDel (key : κ)
  | index (userId : UserId) (key : κ) (ttl : Nat)
  | srem (userId : UserId) (key : κ)
  | smembers (userId : UserId)

variable {κ ν : Type}

/- Replies of the server. -/
@[reducible]
def RedisCommand.Ret : RedisCommand κ ν → Type
  | .set _ _ _ => Unit
  | .setNx _ _ _ => Bool
  | .get _ => Option ν
  | .watch _ => Nat
  | .exec _ _ _ _ => Bool
  | .del _ => Bool
  | .getDel _ => Option ν
  | .index _ _ _ => Unit
  | .srem _ _ => Unit
  | .smembers _ => List κ

/- Redis, as its clients see it. -/
abbrev redisCommands (κ ν : Type) : Interface where
  Op := RedisCommand κ ν
  Ret := RedisCommand.Ret

------------------------------------------------------------
-- The Server
------------------------------------------------------------

/- A string key; without `expiresAt` it persists. -/
structure Record (ν : Type) where
  value : ν
  expiresAt : Option Nat
deriving DecidableEq, Repr

/- The set of a user's session keys. -/
structure UserIndex (κ : Type) where
  members : List κ
  expiresAt : Nat
deriving DecidableEq, Repr

/-
  The keys, how often each was modified, and the indexes.
-/
structure Redis (κ ν : Type) where
  records : Table κ (Record ν)
  modified : κ → Nat
  users : UserId → Option (UserIndex κ)

/- `USER_INDEX_TTL_BUFFER_SECONDS`, in milliseconds. -/
def userIndexBuffer : Nat := 3600 * 1000

namespace Redis

variable [DecidableEq κ]
variable (now : Nat)
variable (redis : Redis κ ν)

/- A key is gone once the clock has passed its expiry. -/
def expired (record : Record ν) : Bool :=
  record.expiresAt.any fun expiresAt => expiresAt < now

/- A record that has not expired. -/
def alive (key : κ) : Option (Record ν) :=
  (redis.records.lookup key).filter fun record =>
    !expired now record

/- Write a key: every client that watches it is told. -/
def put (key : κ) (record : Record ν) : Redis κ ν :=
  { redis with
    records := redis.records.insert key record
    modified :=
      Function.update redis.modified key
        (redis.modified key + 1) }

/- Delete a key, if it is there. -/
def remove (key : κ) : Redis κ ν :=
  if (redis.records.lookup key).isSome then
    { redis with
      records := redis.records.erase key
      modified :=
        Function.update redis.modified key
          (redis.modified key + 1) }
  else
    redis

section Records

variable {now : Nat}
variable {redis : Redis κ ν}
variable {key other : κ}
variable {record : Record ν}

/- A record alive is stored and not expired. -/
theorem alive_eq_some :
    redis.alive now key = some record ↔
      redis.records.lookup key = some record ∧
        expired now record = false := by
  unfold alive
  rw [Option.filter_eq_some_iff]
  simp

/- What is stored after a write. -/
theorem lookup_put :
    (redis.put key record).records.lookup other =
      if key = other then
        some record
      else
        redis.records.lookup other :=
  Table.lookup_insert' _ _ _ _

theorem lookup_remove :
    (redis.remove key).records.lookup other =
      if key = other then
        none
      else
        redis.records.lookup other := by
  unfold remove
  split
  · exact Table.lookup_erase' _ _ _
  · rename_i hAbsent
    split
    · rename_i hKey
      rw [← hKey]
      simpa using hAbsent
    · rfl

end Records

/- The index of a user, while it has not expired. -/
def members? (userId : UserId) : Option (UserIndex κ) :=
  (redis.users userId).filter fun index =>
    now ≤ index.expiresAt

/- The index of a user is replaced, or dropped. -/
def setIndex
    (userId : UserId)
    (index : Option (UserIndex κ)) : Redis κ ν :=
  { redis with
    users := Function.update redis.users userId index }

/- SADD, EXPIRE NX and EXPIRE GT. -/
def addToIndex
    (userId : UserId)
    (key : κ)
    (ttl : Nat) : Redis κ ν :=
  redis.setIndex userId
    (match redis.members? now userId with
    | none => some ⟨[key], now + ttl⟩
    | some index =>
        some
          { members := index.members.insert key
            expiresAt := max index.expiresAt (now + ttl) })

/- SREM; a set without members is no key. -/
def removeFromIndex
    (userId : UserId)
    (key : κ) : Redis κ ν :=
  match redis.members? now userId with
  | none => redis
  | some index =>
      let members := index.members.filter (· ≠ key)
      redis.setIndex userId
        (if members.isEmpty then
          none
        else
          some { index with members })

/- The effect and the answer of one command. -/
def exec :
    (command : RedisCommand κ ν) → Nat → Redis κ ν →
    command.Ret × Redis κ ν
  | .set key data ttl, now, redis =>
      ((), redis.put key ⟨data, some (now + ttl)⟩)
  | .setNx key data ttl, now, redis =>
      match redis.alive now key with
      | some _ => (false, redis)
      | none =>
        (true, redis.put key ⟨data, some (now + ttl)⟩)
  | .get key, now, redis =>
      ((redis.alive now key).map Record.value, redis)
  | .watch key, _, redis => (redis.modified key, redis)
  | .exec key watched data ttl, now, redis =>
      if redis.modified key = watched ∧
          ¬ (redis.records.lookup key).any (expired now) then
        let expiresAt := match ttl with
          | some ttl => some (now + ttl)
          | none =>
              (redis.records.lookup key).bind
                Record.expiresAt
        (true, redis.put key ⟨data, expiresAt⟩)
      else
        (false, redis)
  | .del key, now, redis =>
      ((redis.alive now key).isSome, redis.remove key)
  | .getDel key, now, redis =>
      ((redis.alive now key).map Record.value,
        redis.remove key)
  | .index userId key ttl, now, redis =>
      ((), redis.addToIndex now userId key ttl)
  | .srem userId key, now, redis =>
      ((), redis.removeFromIndex now userId key)
  | .smembers userId, now, redis =>
      (((redis.members? now userId).map
        UserIndex.members).getD [], redis)

/- The server deletes a key that has expired. -/
def evict
    (key : κ)
    (now : Nat)
    (redis : Redis κ ν) : Redis κ ν :=
  if (redis.records.lookup key).any (expired now) then
    redis.remove key
  else
    redis

theorem lookup_evict
    {now : Nat}
    {redis : Redis κ ν}
    {key other : κ} :
    (evict key now redis).records.lookup other =
      if key = other then
        (redis.records.lookup other).filter fun record =>
          !expired now record
      else
        redis.records.lookup other := by
  unfold evict
  split
  · rename_i hExpired
    rw [lookup_remove]
    split
    · rename_i hKey
      subst hKey
      cases hRecord : redis.records.lookup key with
      | none => rfl
      | some record =>
          rw [hRecord] at hExpired
          have hDead : expired now record = true := hExpired
          simp [Option.filter, hDead]
    · rfl
  · rename_i hLive
    split
    · rename_i hKey
      subst hKey
      cases hRecord : redis.records.lookup key with
      | none => rfl
      | some record =>
          rw [hRecord] at hLive
          have hAlive : expired now record = false := by
            simpa using hLive
          simp [Option.filter, hAlive]
    · rfl

------------------------------------------------------------
-- Calls
------------------------------------------------------------

variable [Owned ν]

/- The default TTL, and how often a WATCH is retried. -/
structure Config where
  expiration : Nat
  attempts : Nat

/- A call of the storage, as the commands it sends. -/
abbrev Client (κ ν α : Type) :=
  Program (redisCommands κ ν) HttpError α

/- One command. -/
def command
    (command : RedisCommand κ ν) :
    Client κ ν command.Ret :=
  Program.call (I := redisCommands κ ν) command

variable (config : Config)

/- `_index`: the entry outlives `ttl` by the buffer. -/
def index
    (data : ν)
    (key : κ)
    (ttl : Nat) : Client κ ν Unit :=
  match Owned.userId data with
  | none => return ()
  | some userId =>
      command (.index userId key (ttl + userIndexBuffer))

/- The index is written before the record. -/
def create
    (key : κ)
    (data : ν)
    (expiration : Option Nat) : Client κ ν Unit := do
  let ttl := lifetime config.expiration expiration
  index data key ttl
  command (.set key data ttl)

/-
  The rounds of the WATCH loop.  The loop of the source has
  no bound; every finite run of it is a run of some number
  of rounds.
-/
def modifyRounds
    (key : κ)
    (change : ν → ν)
    (ttl : Option Nat) :
    Nat → Client κ ν (Option (ν × ν))
  | 0 => .raise .unhandled
  | rounds + 1 => do
      let watched ← command (.watch key)
      match ← command (.get key) with
      | none => return none
      | some data =>
          if ← command
              (.exec key watched (change data) ttl) then
            return some (data, change data)
          else
            modifyRounds key change ttl rounds

/- Compare-and-set, and then the index. -/
def modify
    (key : κ)
    (change : ν → ν)
    (resetExpiration : Bool)
    (expiration : Option Nat) :
    Client κ ν (Option (ν × ν)) := do
  let ttl := lifetime config.expiration expiration
  match ← modifyRounds key change
      (if resetExpiration then some ttl else none)
      config.attempts with
  | none => return none
  | some (data, changed) =>
      index changed key ttl
      return some (data, changed)

/- The owner of a record, read when it is not known. -/
def owner
    (key : κ)
    (userId : Option UserId) :
    Client κ ν (Option UserId) :=
  match userId with
  | some userId => return some userId
  | none => do
      let data ← command (.get key)
      return data.bind Owned.userId

/- The entry goes only when a record was deleted. -/
def unindexDeleted
    (deleted : Bool)
    (userId : Option UserId)
    (key : κ) : Client κ ν Unit :=
  match deleted, userId with
  | true, some userId => command (.srem userId key)
  | _, _ => return ()

/- `delete` -/
def delete
    (key : κ)
    (userId : Option UserId) : Client κ ν Bool := do
  let userId ← owner key userId
  let deleted ← command (.del key)
  unindexDeleted deleted userId key
  return deleted

/- The storage, call by call. -/
def implement : (call : Call κ ν) → Client κ ν call.Ret
  | .create key data expiration =>
      create config key data expiration
  | .get key => command (.get key)
  | .modify key change resetExpiration expiration =>
      modify config key change resetExpiration expiration
  | .delete key userId => delete key userId
  | .setIfAbsent key data expiration =>
      command (.setNx key data
        (lifetime config.expiration expiration))
  | .getAndDelete key => command (.getDel key)
  | .getUserSessions userId => command (.smembers userId)
  | .removeFromUserIndex userId key =>
      command (.srem userId key)

end Redis

------------------------------------------------------------
-- The Backend
------------------------------------------------------------

variable [DecidableEq κ] [Owned ν]

/- The server, which may evict what has expired. -/
abbrev Redis.server :
    Server (redisCommands κ ν) (Redis κ ν) where
  Upkeep := κ
  exec := Redis.exec
  upkeep := Redis.evict

/- `get_session_storage("redis")` -/
def redis (config : Redis.Config) : Backend κ ν where
  commands := redisCommands κ ν
  State := Redis κ ν
  server := Redis.server
  implement := Redis.implement config
  stored := fun state key =>
    (state.records.lookup key).map Record.value
  live := fun state now key =>
    (state.alive now key).map Record.value

end Storage

end CrudAuth
