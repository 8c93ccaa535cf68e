import CrudAuth.Resolution.Resolver

/-
  One moment of an application: its user table, and the
  records of its stores that are live.  A store call that
  sets an expiry sets it ahead of the moment, so the record
  stays live.

  Main declarations:
    * `World`
    * `exec`
    * `SessionTransport.Accepts`
    * `SessionTransport.csrfPasses`
    * `BearerTransport.Accepts`
-/

namespace CrudAuth

namespace Resolution

open Concurrency

/- The users table, both stores, and the clock. -/
structure World where
  users : List Account
  sessions : String → Option SessionRecord
  csrf : String → Option CSRFToken
  clock : Nat

namespace World

variable (world : World)

/- The row of an id. -/
def row? (id : UserId) : Option Account :=
  world.users.find? fun user => user.id == id

/- A session is stored, or removed. -/
def putSession
    (key : String)
    (record : Option SessionRecord) : World :=
  { world with
    sessions := Function.update world.sessions key record }

end World

/- The effect and the answer of one operation. -/
def exec : (op : Op) → World → op.Ret × World
  | .now, world => (world.clock, world)
  | .sessionGet key, world => (world.sessions key, world)
  | .sessionTouch key now _, world =>
      match world.sessions key with
      | none => (none, world)
      | some record =>
          let touched := { record with lastActivity := now }
          (some touched, world.putSession key (some touched))
  | .sessionDelete key _, world =>
      ((), world.putSession key none)
  | .csrfGet key, world => (world.csrf key, world)
  | .csrfExtend _ _, world => ((), world)
  | .csrfDelete key, world =>
      ((), { world with
        csrf := Function.update world.csrf key none })
  | .getById _ id, world => (world.row? id, world)

/- No operation writes a user row. -/
theorem exec_users
    (op : Op)
    (world : World) :
    (exec op world).2.users = world.users := by
  cases op with
  | sessionTouch key now ttl =>
      simp only [exec]
      split
      · rfl
      · rfl
  | _ => rfl

/- So no flow does. -/
theorem run_users
    {α : Type}
    (flow : Flow α)
    (world : World) :
    (flow.run exec world).2.users = world.users := by
  induction flow generalizing world with
  | done value => rfl
  | raise error => rfl
  | perform op next ih =>
      rw [Program.run_perform, ih, exec_users]

/- An operation with the rest of its flow. -/
theorem ends_step
    {α : Type}
    {goal : Except HttpError α → World → Prop}
    {op : Op}
    {rest : op.Ret → Flow α}
    {world : World}
    (hRest :
      Program.Ends exec (rest (exec op world).1)
        (exec op world).2 goal) :
    Program.Ends exec (Program.bind (call op) rest) world
      goal :=
  hRest

/- A row is found under its id. -/
theorem World.id_of_row?
    {world : World}
    {id : UserId}
    {user : Account}
    (hRow : world.row? id = some user) :
    user.id = id := by
  simpa using List.find?_some hRow

/- A call that runs alone is one that can be served. -/
theorem Served.alone
    {runtime : Runtime}
    {configured : List Transport}
    {request : HttpRequest}
    {done : List (Call × Outcome)}
    {cache cache' : Cache}
    {past : List Act}
    {call : Call}
    {outcome : Outcome}
    (hServed :
      Served runtime configured request done cache past)
    (world : World)
    (hSelected : call.transports ⊆ configured)
    (hRun :
      ((call.serve runtime request cache).run exec world).1 =
        .ok (outcome, cache')) :
    Served runtime configured request
      ((call, outcome) :: done) cache'
      ((call.serve runtime request cache).actions exec past
        world) := by
  have hYields := Program.yields_run exec
    (call.serve runtime request cache) past world
  rw [hRun] at hYields
  exact .call hServed hSelected hYields

------------------------------------------------------------
-- Accepted Credentials
------------------------------------------------------------

namespace SessionTransport

variable (transport : SessionTransport)

/- The record of a live session that is not too old. -/
structure Accepts
    (world : World)
    (sessionId : String)
    (record : SessionRecord) : Prop where
  stored :
    world.sessions (transport.storedAt sessionId) =
      some record
  active :
    transport.config.isIdleExpired record.toSessionData
      world.clock = false
  young :
    transport.config.isOverAge record.toSessionData
      world.clock = false

/- Whether the CSRF check of a request passes. -/
def csrfPasses
    (request : HttpRequest)
    (world : World)
    (sessionId : String) : Bool :=
  !transport.csrfEnabled ||
    safeMethods.contains request.method ||
    match request.csrfHeader with
    | none => false
    | some header =>
        !header.isEmpty && !sessionId.isEmpty &&
          match world.csrf
            (transport.csrfStoredAt header) with
          | none => false
          | some record =>
              record.sessionId ==
                transport.sessionKey sessionId

/- The session cookie of a request. -/
def presents
    (request : HttpRequest)
    (sessionId : String) : Prop :=
  request.cookies transport.cookieName = some sessionId ∧
    sessionId.isEmpty = false

end SessionTransport

namespace BearerTransport

variable (transport : BearerTransport)

/- The claims of the token of a request. -/
def presents
    (request : HttpRequest)
    (payload : Jwt) : Prop :=
  ∃ scheme token,
    request.authorization = some (scheme, token) ∧
      scheme.toLower = name ∧
      token.isEmpty = false ∧
      transport.decode token = some payload

/- The claims of the live access token of a request. -/
structure Accepts
    (request : HttpRequest)
    (world : World)
    (payload : Jwt) : Prop where
  presented : transport.presents request payload
  live : world.clock < payload.exp
  access : payload.tokenType = .access

end BearerTransport

end Resolution

end CrudAuth
