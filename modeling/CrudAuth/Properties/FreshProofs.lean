import CrudAuth.Invariants.SessionOrigins
import CrudAuth.Scenario

/-
  A new lasting credential of an account rests on a fresh
  proof of its owner: the password where it has one, else a
  sign-in not long ago or an elevation still in force.

  Main declarations:
    * `Runtime.FreshAt`
    * `Runtime.SeenFresh`
    * `FreshlyProven`
    * `freshlyProven_of_reachable`
-/

namespace CrudAuth

open Concurrency

variable {ι : Type} [DecidableEq ι]
variable {runtime : Runtime}
variable {request : Request}
variable {requests : ι → Request}
variable {past : List Act}
variable {condition : Condition ι interface World}
variable {start state : World}
variable {history : List (Ev ι)}
variable {thread : ι}
variable {credential : Credential}
variable {key now : Nat}
variable {id : UserId}
variable {config : Config ι interface World HttpError Unit}

------------------------------------------------------------
-- Fresh Sessions
------------------------------------------------------------

/-
  The session was stored by a sign-in to the account within
  the fresh window, or its elevation for the account, by the
  last stamp it has got, is still in force.
-/
def Runtime.FreshAt
    (runtime : Runtime)
    (requests : ι → Request)
    (history : List (Ev ι))
    (key : Nat)
    (id : UserId)
    (now : Nat) : Prop :=
  (∃ createdAt,
    runtime.SignedInAt requests history key id createdAt ∧
    createdAt ≤ now ∧
    now ≤ createdAt + runtime.freshSignInSeconds) ∨
  ∃ config elevatedAt,
    runtime.ElevatedAt requests history key id config
      elevatedAt ∧
    elevatedAt ≤ now ∧
    now < elevatedAt + config.windowSeconds

/- A thread has seen a session fresh for the account. -/
def Runtime.SeenFresh
    (runtime : Runtime)
    (requests : ι → Request)
    (history : List (Ev ι))
    (thread : ι)
    (key : Nat)
    (id : UserId) : Prop :=
  0 < runtime.freshSignInSeconds ∧
  ∃ session now newer between older,
    history =
      newer ++ ⟨thread, .now, now⟩ ::
        (between ++
          ⟨thread, .sessionGet key, some session⟩ ::
            older) ∧
    runtime.FreshAt requests older key id now

/-
  Where a route adds a password or an authenticator to an
  account, it was sent the account's password; where the
  account has none, the caller's session is its own, and
  was fresh as it was read.
-/
def FreshlyProven
    (runtime : Runtime)
    (requests : ι → Request)
    (history : List (Ev ι)) : Prop :=
  ∀ later earlier thread loaded data committed credential,
    history =
      later ++ ⟨thread, .commit loaded data, committed⟩ ::
        earlier →
    (requests thread).gate? = some credential →
    if loaded.hashedPassword.isUnusablePassword then
      ∃ key,
        credential = .session key ∧
          runtime.SeenFresh requests earlier thread key
            loaded.id
    else
      runtime.SentPassword (requests thread) loaded

------------------------------------------------------------
-- The Session Behind A Credential
------------------------------------------------------------

/- A gated request has authenticated its caller. -/
theorem authenticated_of_gate
    (hGate : request.gate? = some credential)
    (hEntitled : runtime.Entitled request past id) :
    runtime.Authenticated past credential id := by
  cases request with
  | setPassword presented newPassword =>
      obtain rfl : presented = credential :=
        Option.some.inj hGate
      exact hEntitled
  | totpSetup presented password =>
      obtain rfl : presented = credential :=
        Option.some.inj hGate
      exact hEntitled
  | _ => cases hGate

/- A session read fresh is fresh for its owner. -/
theorem freshAt_of_read
    {newer between older : List (Ev ι)}
    {session : SessionData}
    (hStart : ∀ key, start.sessions key = none)
    (hProves : runtime.Proves requests condition start state
      (newer ++ ⟨thread, .now, now⟩ ::
        (between ++
          ⟨thread, .sessionGet key, some session⟩ ::
            older)))
    (hFresh :
      runtime.sudoConfig.isSome = true ∧
          (∃ until' ∈ session.elevatedUntil, now < until') ∨
        now ≤
          session.createdAt + runtime.freshSignInSeconds) :
    runtime.FreshAt requests older key session.userId
      now := by
  rcases hProves.at_event with
    ⟨moment, hMoment, -, -, hNow, -, -⟩
  have hClock : now = moment.clock := hNow
  rcases hMoment.at_event with
    ⟨before, hBefore, -, -, hRead, -, -⟩
  have hShown :
      some session =
        (before.session? key).map Stored.value :=
    hRead
  rcases Option.map_eq_some_iff.mp hShown.symm with
    ⟨stored, hStored, rfl⟩
  have hRecord := (session?_eq_some.mp hStored).1
  -- what was read before the clock is not in its future
  have hPast {reader : ι} {reading : Nat}
      {opening : List (Ev ι)}
      (hOpening : opening <:+ older)
      (hReading :
        (⟨reader, .now, reading⟩ : Ev ι) ∈ opening) :
      reading ≤ now := by
    rw [hClock]
    exact clock_of_reading (Runtime.Proves.runs hMoment)
      ((hOpening.trans (suffix_of_split _ _ _)).subset
        hReading)
  rcases hFresh with ⟨-, until', hUntil, hBound⟩ | hWithin
  · rcases elevated_of_session hStart hBefore key stored
        hRecord until' hUntil with
      ⟨config, elevatedAt, rfl, hElevated⟩
    right
    refine ⟨config, elevatedAt, hElevated, ?_, hBound⟩
    rcases hElevated with
      ⟨-, elevator, proof, stamped, after, first, -, rfl, -,
        hReading, -⟩
    exact hPast (suffix_of_split _ _ _) hReading
  · have hSigned := signedIn_of_session hStart hBefore key
      stored hRecord
    left
    refine ⟨stored.value.createdAt, hSigned, ?_, hWithin⟩
    rcases hSigned with
      ⟨creator, data, ttl, after, first, rfl, -, -, -,
        hReading⟩
    exact hPast (suffix_of_split _ _ _) hReading

------------------------------------------------------------
-- Whole Runs
------------------------------------------------------------

/- A session that proves a request is its account's own. -/
theorem seenFresh_of_proven
    (hStart : ∀ key, start.sessions key = none)
    (hProves : runtime.Proves requests condition start state
      history)
    (hSigned :
      runtime.Authenticated (own thread history)
        (.session key) id)
    (hProven : runtime.ProvenBy (own thread history) key) :
    runtime.SeenFresh requests history thread key id := by
  rcases hProven with
    ⟨hOn, session, now, ⟨older, hOlder, hMem⟩, hFresh⟩
  rcases own_split hOlder with ⟨newer, recent, rfl, rfl⟩
  rcases List.append_of_mem (mem_own_iff.mp hMem) with
    ⟨between, oldest, rfl⟩
  refine ⟨hOn, session, now, newer, between, oldest, rfl,
    ?_⟩
  have hAt := freshAt_of_read hStart hProves hFresh
  have hRead :
      (⟨thread, .sessionGet key, some session⟩ : Ev ι) ∈
        newer ++ ⟨thread, .now, now⟩ ::
          (between ++
            ⟨thread, .sessionGet key, some session⟩ ::
              oldest) := by
    simp
  have hShown := signedIn_of_shown hStart hProves hRead
    (show shownUnder key _ = some session by
      simp [Event.action, shownUnder])
  rcases signedIn_of_authenticated hStart hProves
    hSigned with
    ⟨createdAt, hOwned⟩
  have hOwner : session.userId = id :=
    (hShown.unique (Runtime.Proves.runs hProves) hOwned).1
  rw [hOwner] at hAt
  exact hAt

/- Where nobody was signed in, new credentials are proven. -/
theorem freshlyProven_of_reachable
    (hStart : ∀ key, start.sessions key = none)
    (hReachable :
      runtime.Reachable requests condition start config) :
    FreshlyProven runtime requests config.history := by
  intro later earlier thread loaded data committed credential
    hHistory hGate
  have hProves := Runtime.proves_of_reachable hReachable
  rw [hHistory] at hProves
  rcases hProves.at_event with
    ⟨before, hBefore, ⟨⟨-, hEntitled, -⟩, hGated⟩, -⟩
  have hRests := hGated credential hGate
  split
  · rename_i hUnusable
    rw [if_pos hUnusable] at hRests
    rcases hRests with ⟨key, rfl, hProven⟩
    exact ⟨key, rfl, seenFresh_of_proven hStart hBefore
      (authenticated_of_gate hGate hEntitled) hProven⟩
  · rename_i hUsable
    rw [if_neg hUsable] at hRests
    exact hRests

------------------------------------------------------------
-- A First Password
------------------------------------------------------------

namespace Passwordless

/- Signs in through a provider, with an authenticator. -/
def owner : User :=
  { Scenario.enrolled with
    hashedPassword := .unusable 40
    providerIds := fun provider =>
      if provider = "github" then some "ada-9" else none }

/- A GitHub profile without an address. -/
def identity : OAuthUserInfo where
  provider := "github"
  providerUserId := "ada-9"
  email := none
  emailVerified := false
  username := "ada"

/- The runtime of the examples, with a sudo mode. -/
def sudoRuntime : Runtime :=
  { Scenario.mfaRuntime with
    sudoConfig :=
      some
        { windowSeconds := 300
          maxAttempts := 5
          lockoutSeconds := 900 } }

/- Signs in, elevates the session, and sets a password. -/
def ownerRequests : Nat → Request
  | 0 => .oauthCallback identity none
  | 1 => .elevate (.session 100) (.code (.digits "55"))
  | _ => .setPassword (.session 100) "fresh words"

/- The sign-in is too old by then, the elevation is not. -/
def ownerSteps : List (Choice Nat Nat) :=
  Scenario.steps 0 7 ++ .tick 700 ::
    (Scenario.steps 1 14 ++ .tick 200 ::
      Scenario.steps 2 9)

/- Where the owner's requests end. -/
def ownerRun : Config Nat interface World HttpError Unit :=
  sudoRuntime.scheduled ownerRequests anyStep
    (Scenario.world [owner]) ownerSteps (by decide)

/- The password is set, and was proven by the elevation. -/
theorem password_freshlyProven :
    FreshlyProven sudoRuntime ownerRequests
        ownerRun.history ∧
    ∃ loaded data,
      (⟨2, .commit loaded data, true⟩ : Ev Nat) ∈
        ownerRun.history ∧
      loaded.hashedPassword.isUnusablePassword = true :=
  ⟨freshlyProven_of_reachable (fun _ => rfl)
      (sudoRuntime.reachable_scheduled ownerRequests
        anyStep (Scenario.world [owner]) ownerSteps
        (by decide)),
    _, _, List.mem_cons_self, rfl⟩

end Passwordless

end CrudAuth
