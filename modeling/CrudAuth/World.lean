import CrudAuth.Concurrency.Interleaving
import CrudAuth.Requests

/-
  The shared state of an application and the atomic
  operations on it: one statement with its commit, one
  read, or one call of a server-side store.

  Sessions and challenges expire, the clock is moved by the
  environment, and the rate limiter's verdicts are read
  from a list fixed in advance, so that a theorem about
  every start covers every verdict.

  Main declarations:
    * `Op`
    * `World`
    * `World.exec`
    * `machine`
    * `unsteady`
-/

namespace CrudAuth

open Concurrency

------------------------------------------------------------
-- Stored Records
------------------------------------------------------------

/- A record of a store and when it stops being live. -/
structure Stored (α : Type) where
  value : α
  expiresAt : Nat

/- `SessionData` -/
structure SessionData where
  userId : UserId
  createdAt : Nat
  lastActivity : Nat
  rememberMe : Bool
  loginType : Option String
  tokenVersion : Option Nat
  elevatedUntil : Option Nat := none
deriving DecidableEq, Repr

/- `MfaChallenge` -/
structure MfaChallenge where
  accountId : UserId
  tokenVersion : Nat
  transport : TransportName
  setup : Bool
  lockoutIdentifier : String
  ipAddress : String
  options : LoginOptions
  attempts : Nat := 0
deriving DecidableEq, Repr

/- The changes `SessionManager` and sudo make to one. -/
inductive SessionChange
  | touch (now ttl : Nat)
  | rebind (version : Nat)
  | stamp (elevatedUntil : Option Nat)
deriving DecidableEq, Repr

namespace SessionChange

/- Only an activity update moves the expiry. -/
def apply
    (change : SessionChange)
    (clock : Nat)
    (stored : Stored SessionData) : Stored SessionData :=
  match change with
  | .touch now ttl =>
      { value := { stored.value with lastActivity := now }
        expiresAt := clock + ttl }
  | .rebind version =>
      { stored with
        value :=
          { stored.value with
            tokenVersion := some version } }
  | .stamp elevatedUntil =>
      { stored with
        value := { stored.value with elevatedUntil } }

end SessionChange

------------------------------------------------------------
-- Operations
------------------------------------------------------------

/- How a row is selected. -/
inductive Selector
  | byId (id : UserId)
  | byField (field : Field) (value : String)
  | byOauth (provider providerUserId : String)
deriving DecidableEq, Repr

/- The column a compare-and-set update is guarded by. -/
inductive Guard
  | totpConfirmedAt (expected : Option Nat)
  | mfaRecoveryCodes
      (expected : Option (List RecoveryCode))
deriving DecidableEq, Repr

/-
  `arrive` and `respond` are the two ends of a request;
  `fresh` draws a random value; `commit` flushes the
  changes made to the copy `loaded` and commits.
-/
inductive Op
  | arrive (request : Request)
  | respond (response : Response)
  | now
  | fresh
  | select (selector : Selector)
  | insert (row : User)
  | commit (loaded : User) (data : Patch)
  | refresh (id : UserId)
  | incrementVersion (id : UserId)
  | claimStep (id : UserId) (step : Nat)
  | updateIf (id : UserId) (guard : Guard) (data : Patch)
  | sessionCreate
      (key : Nat)
      (data : SessionData)
      (ttl : Nat)
  | sessionGet (key : Nat)
  | sessionModify (key : Nat) (change : SessionChange)
  | sessionDelete (key : Nat) (userId : UserId)
  | userSessions (userId : UserId)
  | unindex (userId : UserId) (key : Nat)
  | challengeCreate
      (key : Nat)
      (challenge : MfaChallenge)
      (ttl : Nat)
  | challengeGet (key : Nat)
  | challengeAttempt (key : Nat)
  | challengeDelete (key : Nat)
  | challengeTake (key : Nat)
  | consumeToken (token : SignedToken) (ttl : Nat)
  | recordFailure (ip identifier : String)
  | recordSuccess (ip identifier : String)
  | forgetAttempt (ip identifier : String)
  | sudoTtl (userId : UserId)
  | sudoAttempt (userId : UserId)
  | sudoLock (userId : UserId)
  | sudoClear (userId : UserId)
  | withinLimit (action target : String)
  | deliver (intent : DeliveryIntent)

/- The type of an operation's answer. -/
@[reducible]
def Op.Ret : Op → Type
  | .now => Nat
  | .fresh => Nat
  | .select _ => Option User
  | .insert _ => Option User
  | .commit _ _ => Bool
  | .refresh _ => Option User
  | .claimStep _ _ => Bool
  | .updateIf _ _ _ => Bool
  | .sessionGet _ => Option SessionData
  | .sessionModify _ _ => Option SessionData
  | .userSessions _ => List Nat
  | .challengeGet _ => Option MfaChallenge
  | .challengeAttempt _ => Option MfaChallenge
  | .challengeTake _ => Option MfaChallenge
  | .consumeToken _ _ => Bool
  | .recordFailure _ _ => Option Nat
  | .sudoTtl _ => Nat
  | .sudoAttempt _ => Nat
  | .withinLimit _ _ => Bool
  | .arrive _ => Unit
  | .respond _ => Unit
  | .incrementVersion _ => Unit
  | .sessionCreate _ _ _ => Unit
  | .sessionDelete _ _ => Unit
  | .unindex _ _ => Unit
  | .challengeCreate _ _ _ => Unit
  | .challengeDelete _ => Unit
  | .recordSuccess _ _ => Unit
  | .forgetAttempt _ _ => Unit
  | .sudoLock _ => Unit
  | .sudoClear _ => Unit
  | .deliver _ => Unit

/- The system, as requests see it. -/
abbrev interface : Interface where
  Op := Op
  Ret := Op.Ret

------------------------------------------------------------
-- The World
------------------------------------------------------------

/- The database, the stores, the limiters and the clock. -/
structure World where
  users : List User
  sessions : Nat → Option (Stored SessionData)
  userIndex : UserId → List Nat
  challenges : Nat → Option (Stored MfaChallenge)
  usedTokens : List (SignedToken × Nat)
  nonce : Nat
  clock : Nat
  verdicts : List (Option Nat)

namespace World

variable (world : World)

/- The row with a primary key. -/
def row? (id : UserId) : Option User :=
  world.users.find? fun user => user.id == id

/- Whether a row is the one a statement looks for. -/
def matchesSelector
    (selector : Selector)
    (user : User) : Bool :=
  match selector with
  | .byId id => user.id == id
  | .byField field value => user.get field == some value
  | .byOauth provider providerUserId =>
      user.providerIds provider == some providerUserId

/- The row that a lookup finds. -/
def select (selector : Selector) : Option User :=
  world.users.find? (matchesSelector selector)

/- Replace one row. -/
def setRow (row : User) : World :=
  { world with
    users := world.users.map fun user =>
      if user.id = row.id then row else user }

/-
  Whether writing `data` on the row `id` would repeat
  another row's value in a unique column.
-/
def violatesUnique (id : UserId) (data : Patch) : Bool :=
  world.users.any fun other =>
    other.id != id &&
      ((data.email.any fun value =>
          value.isSome && other.email == value) ||
        (data.username.any fun value =>
          value.isSome && other.username == value) ||
        (data.column.any fun entry =>
          entry.2.isSome &&
            other.columns entry.1 == entry.2) ||
        (data.providerId.any fun entry =>
          other.providerIds entry.1 == some entry.2))

/- The live record of a session. -/
def session? (key : Nat) : Option (Stored SessionData) :=
  (world.sessions key).filter fun stored =>
    world.clock < stored.expiresAt

/- The live record of a challenge. -/
def challenge?
    (key : Nat) : Option (Stored MfaChallenge) :=
  (world.challenges key).filter fun stored =>
    world.clock < stored.expiresAt

/- A session is stored, or removed. -/
def putSession
    (key : Nat)
    (record : Option (Stored SessionData)) : World :=
  { world with
    sessions := Function.update world.sessions key record }

/- A challenge is stored, or removed. -/
def putChallenge
    (key : Nat)
    (record : Option (Stored MfaChallenge)) : World :=
  { world with
    challenges :=
      Function.update world.challenges key record }

/- A session enters the index of its user. -/
def index (userId : UserId) (key : Nat) : World :=
  { world with
    userIndex :=
      Function.update world.userIndex userId
        (key :: world.userIndex userId) }

/- A session leaves it. -/
def unindex (userId : UserId) (key : Nat) : World :=
  { world with
    userIndex :=
      Function.update world.userIndex userId
        ((world.userIndex userId).filter (· != key)) }

/- The condition of a compare-and-set update. -/
def holds (guard : Guard) (user : User) : Bool :=
  match guard with
  | .totpConfirmedAt expected =>
      user.totpConfirmedAt == expected
  | .mfaRecoveryCodes expected =>
      user.mfaRecoveryCodes == expected

/- Whether `step` is newer than the last accepted one. -/
def stepIsNewer (user : User) (step : Nat) : Bool :=
  match user.totpLastStep with
  | none => true
  | some last => last < step

/- The next verdict of the rate limiter. -/
def verdict : Option Nat × World :=
  match world.verdicts with
  | [] => (none, world)
  | verdict :: rest =>
      (verdict, { world with verdicts := rest })

end World

------------------------------------------------------------
-- Execution
------------------------------------------------------------

namespace World

/- `_flush` and commit; `false` for an `IntegrityError`. -/
def commit
    (loaded : User)
    (data : Patch)
    (world : World) : Bool × World :=
  if world.violatesUnique loaded.id data then
    (false, world)
  else
    match world.row? loaded.id with
    | none => (false, world)
    | some stored =>
        (true, world.setRow (data.flush loaded stored))

/- A conditional UPDATE of one row, and its row count. -/
def updateWhere
    (id : UserId)
    (condition : User → Bool)
    (change : User → User)
    (world : World) : Bool × World :=
  match world.row? id with
  | none => (false, world)
  | some stored =>
      if condition stored then
        (true, world.setRow (change stored))
      else
        (false, world)

/- INSERT; the key comes from a sequence. -/
def insert
    (row : User)
    (world : World) : Option User × World :=
  let data : Patch :=
    { email := some row.email
      username := some row.username }
  if world.violatesUnique world.nonce data then
    (none, world)
  else
    let created := { row with id := world.nonce }
    (some created,
      { world with
        users := world.users ++ [created]
        nonce := world.nonce + 1 })

/- The effect and the answer of one operation. -/
def exec :
    (op : Op) → World → op.Ret × World
  | .arrive _, world => ((), world)
  | .respond _, world => ((), world)
  | .now, world => (world.clock, world)
  | .fresh, world =>
      (world.nonce, { world with nonce := world.nonce + 1 })
  | .select selector, world =>
      (world.select selector, world)
  | .insert row, world => world.insert row
  | .commit loaded data, world => world.commit loaded data
  | .refresh id, world => (world.row? id, world)
  | .incrementVersion id, world =>
      ((), (world.updateWhere id (fun _ => true)
        fun user =>
          { user with
            tokenVersion := user.tokenVersion + 1 }).2)
  | .claimStep id step, world =>
      world.updateWhere id
        (fun user => stepIsNewer user step)
        fun user => { user with totpLastStep := some step }
  | .updateIf id guard data, world =>
      world.updateWhere id (holds guard) data.assign
  | .sessionCreate key data ttl, world =>
      ((), (world.putSession key
        (some ⟨data, world.clock + ttl⟩)).index
          data.userId key)
  | .sessionGet key, world =>
      ((world.session? key).map Stored.value, world)
  | .sessionModify key change, world =>
      match world.session? key with
      | none => (none, world)
      | some stored =>
          let changed := change.apply world.clock stored
          (some changed.value,
            world.putSession key (some changed))
  | .sessionDelete key userId, world =>
      ((), (world.putSession key none).unindex userId key)
  | .userSessions userId, world =>
      (world.userIndex userId, world)
  | .unindex userId key, world =>
      ((), world.unindex userId key)
  | .challengeCreate key challenge ttl, world =>
      ((), world.putChallenge key
        (some ⟨challenge, world.clock + ttl⟩))
  | .challengeGet key, world =>
      ((world.challenge? key).map Stored.value, world)
  | .challengeAttempt key, world =>
      match world.challenge? key with
      | none => (none, world)
      | some stored =>
          let counted :=
            { stored.value with
              attempts := stored.value.attempts + 1 }
          (some counted,
            world.putChallenge key
              (some { stored with value := counted }))
  | .challengeDelete key, world =>
      ((), world.putChallenge key none)
  | .challengeTake key, world =>
      ((world.challenge? key).map Stored.value,
        world.putChallenge key none)
  | .consumeToken token ttl, world =>
      if world.usedTokens.any fun used =>
          used.1 == token && world.clock < used.2 then
        (false, world)
      else
        (true,
          { world with
            usedTokens :=
              (token, world.clock + ttl) ::
                world.usedTokens })
  | .recordFailure _ _, world => world.verdict
  | .recordSuccess _ _, world => ((), world)
  | .forgetAttempt _ _, world => ((), world)
  | .sudoTtl _, world =>
      (world.verdict.1.getD 0, world.verdict.2)
  | .sudoAttempt _, world =>
      (world.verdict.1.getD 0, world.verdict.2)
  | .sudoLock _, world => ((), world)
  | .sudoClear _, world => ((), world)
  | .withinLimit _ _, world =>
      (world.verdict.1.isNone, world.verdict.2)
  | .deliver _, world => ((), world)

end World

/- A world that the environment moves in some way. -/
abbrev served
    {τ : Type}
    (tick : τ → World → World) :
    Machine interface World where
  Tick := τ
  exec := World.exec
  tick := tick

/- The environment lets time pass. -/
abbrev machine : Machine interface World :=
  served fun (seconds : Nat) world =>
    { world with clock := world.clock + seconds }

/-
  The clock is set, forwards or back, and the stores may
  drop records, as they do with those that have expired.
-/
structure ClockChange where
  clock : Nat
  keepsSession : Nat → Bool
  keepsChallenge : Nat → Bool
  keepsToken : SignedToken × Nat → Bool

/- What is left after that. -/
def World.changeClock
    (change : ClockChange)
    (world : World) : World :=
  { world with
    clock := change.clock
    sessions := fun key =>
      (world.sessions key).filter fun _ =>
        change.keepsSession key
    challenges := fun key =>
      (world.challenges key).filter fun _ =>
        change.keepsChallenge key
    usedTokens :=
      world.usedTokens.filter change.keepsToken }

/- The environment sets the clock as it likes. -/
abbrev unsteady : Machine interface World :=
  served World.changeClock

------------------------------------------------------------
-- Flows
------------------------------------------------------------

/- A request handler, or a part of one. -/
abbrev Flow := Program interface HttpError

/- Perform one operation of the world. -/
def call (op : Op) : Flow op.Ret :=
  Program.call (I := interface) op

/- What requests do, and who does it. -/
abbrev Act := Action interface
abbrev Ev (ι : Type) := Event ι interface

variable {α : Type}
variable {contract : Contract interface}
variable {past : List Act}
variable {post : List Act → Except HttpError α → Prop}

/- An operation that stands alone. -/
theorem obeys_call
    {op : Op}
    {post : List Act → Except HttpError op.Ret → Prop}
    (hRule : contract.rule past op)
    (hPost : ∀ ret : op.Ret, contract.answer op ret →
      post (⟨op, ret⟩ :: past) (.ok ret)) :
    Program.Obeys contract past (call op) post :=
  ⟨hRule, hPost⟩

/- An operation with the rest of its flow. -/
theorem obeys_step
    {op : Op}
    {rest : op.Ret → Flow α}
    (hRule : contract.rule past op)
    (hRest : ∀ ret : op.Ret, contract.answer op ret →
      Program.Obeys contract (⟨op, ret⟩ :: past)
        (rest ret) post) :
    Program.Obeys contract past
      (Program.bind (call op) rest) post :=
  ⟨hRule, hRest⟩

end CrudAuth
