import CrudAuth.Invariants.Stores

/-
  Runs that follow a schedule, and a small application for
  them: one account, sessions, recovery by email.

  Main declarations:
    * `Runtime.scheduled`
    * `Runtime.reachable_scheduled`
    * `Scenario.runtime`
    * `Scenario.world`
-/

namespace CrudAuth

open Concurrency

------------------------------------------------------------
-- Scheduled Runs
------------------------------------------------------------

namespace Runtime

variable {ι : Type} [DecidableEq ι]
variable (runtime : Runtime)
variable (requests : ι → Request)
variable (condition : Condition ι interface World)
variable [∀ state history thread op,
  Decidable (condition state history thread op)]
variable (start : World)

/- Where a schedule leads, if every step is possible. -/
def scheduled?
    (schedule : List (Choice ι Nat)) :
    Option (Config ι interface World HttpError Unit) :=
  Config.run machine condition
    ⟨start, [], runtime.pool requests⟩ schedule

/- Where a schedule ends that can be followed. -/
def scheduled
    (schedule : List (Choice ι Nat))
    (hEnds :
      (runtime.scheduled? requests condition start
        schedule).isSome = true) :
    Config ι interface World HttpError Unit :=
  (runtime.scheduled? requests condition start
    schedule).get hEnds

/- A schedule only leads where a run can. -/
theorem reachable_scheduled
    (schedule : List (Choice ι Nat))
    (hEnds :
      (runtime.scheduled? requests condition start
        schedule).isSome = true) :
    runtime.Reachable requests condition start
      (runtime.scheduled requests condition start schedule
        hEnds) :=
  Reaches.of_run (Option.some_get hEnds).symm

end Runtime

------------------------------------------------------------
-- A Small Application
------------------------------------------------------------

namespace Scenario

/- Another system's hash of a password. -/
def legacyHash (password : String) : StoredHash :=
  .foreign ("legacy:" ++ password)

/- Sessions of half an hour, five a user. -/
def sessions : SessionConfig where
  maxSessions := 5
  sessionTimeout := 1800
  rememberMeTimeout := 86400
  absoluteTimeout := none

/- Email tokens of an hour. -/
def emails : EmailFlows where
  verifyTtl := 3600
  resetTtl := 3600
  changeTtl := 3600
  sendsEmail := true
  tokenStore := true

/- An application with emails and usernames. -/
def runtime : Runtime where
  loginFields := [.email, .username]
  recovery := some .email
  hasTokenVersion := true
  canonicalEmail := id
  normalizePassword := id
  legacyVerifiers :=
    [fun plain hash => hash == legacyHash plain]
  dummyHash := .bcrypt "" 0
  passwordPolicy := fun _ _ => true
  lockout := true
  mfa := none
  sessions := some sessions
  bearer := none
  emails := some emails
  sudoConfig := none
  freshSignInSeconds := 600
  usernameBase := id
  usernameWithSuffix := fun base suffix => base ++ suffix

/- Ada's account. -/
def account : User where
  id := 1
  email := some "ada@example.org"
  username := some "ada"
  columns := fun _ => none
  hashedPassword := legacyHash "old"
  isActive := true
  emailVerified := true
  factorVerified := false
  tokenVersion := 0
  providerIds := fun _ => none
  totpSecretEncrypted := none
  totpConfirmedAt := none
  totpLastStep := none
  mfaRecoveryCodes := none

/- Nobody is signed in, and the limiter never refuses. -/
def world (users : List User) : World where
  users := users
  sessions := fun _ => none
  userIndex := fun _ => []
  challenges := fun _ => none
  usedTokens := []
  nonce := 100
  clock := 1000
  verdicts := []

/- A token that lets its holder reset the password. -/
def resetToken (user : User) : SignedToken where
  sub := user.id
  state := runtime.stateFingerprint .reset user
  newEmail := none
  exp := 4000

/- Every code of an authenticator reads the same. -/
def mfa : MfaConfig where
  required := fun _ => false
  oauth := false
  challengeTtlSeconds := 300
  maxCodeAttempts := 5
  recoveryCodeCount := 2
  totpCode := fun secret _ => toString secret
  challengeTtlSeconds_pos := by decide
  maxCodeAttempts_pos := by decide
  recoveryCodeCount_pos := by decide

/- The same application, with a second factor. -/
def mfaRuntime : Runtime :=
  { runtime with mfa := some mfa }

/- An account whose password is crudauth's own hash. -/
def member : User :=
  { account with hashedPassword := .bcrypt "old" 1 }

/- The member, with an authenticator confirmed. -/
def enrolled : User :=
  { member with
    totpSecretEncrypted := some (.bare 55)
    totpConfirmedAt := some 900
    mfaRecoveryCodes := some [] }

/- A session of a user. -/
def session (user : User) : SessionData where
  userId := user.id
  createdAt := 900
  lastActivity := 900
  rememberMe := false
  loginType := none
  tokenVersion := some user.tokenVersion

/- The account is signed in under session `7`. -/
def signedIn (user : User) : World :=
  { world [user] with
    sessions := fun key =>
      if key = 7 then some ⟨session user, 2700⟩ else none
    userIndex := fun id => if id = user.id then [7] else [] }

/- Let one thread make a number of steps. -/
def steps
    {ι : Type}
    (thread : ι)
    (count : Nat) : List (Choice ι Nat) :=
  List.replicate count (.thread thread)

/- A world of one account is fit to start from. -/
theorem seasoned
    {user : User}
    {world : World}
    (hUsers : world.users = [user])
    (hId : user.id < world.nonce)
    (hDrawn : ∀ value ∈ user.drawn, value < world.nonce) :
    world.Seasoned := by
  refine ⟨⟨by simp [hUsers], by simpa [hUsers] using hId⟩,
    ?_⟩
  intro id row hRow
  have hMem : row ∈ world.users :=
    List.mem_of_find?_eq_some hRow
  obtain rfl : row = user := by simpa [hUsers] using hMem
  exact hDrawn

/- No record of a store is there to start with. -/
theorem tidy
    (users : List User) : (world users).Tidy := by
  refine ⟨?_, ?_, ?_, ?_⟩
  · simp [world]
  · simp [world]
  · simp [world]
  · simp [world, World.session?]

/- The member is signed in, and nothing is going on. -/
def memberStart : World :=
  signedIn member

/- The sample world has its history. -/
theorem memberStart_seasoned : memberStart.Seasoned :=
  seasoned rfl (by decide) (by decide)

end Scenario

end CrudAuth
