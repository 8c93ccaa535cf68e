import CrudAuth.Invariants.Stores

/-
  The record of a login challenge from its creation to its
  consumption: its account and its deadline are fixed, its
  attempts only grow, and it never comes back.

  Main declarations:
    * `Descends`
    * `descends_along`
    * `attempts_increase`
    * `not_taken_twice`
    * `account_of_taken`
-/

namespace CrudAuth

open Concurrency

variable {ι : Type} [DecidableEq ι]
variable {runtime : Runtime}
variable {requests : ι → Request}
variable {condition : Condition ι interface World}
variable {start state world : World}
variable {history opening later between earlier :
  List (Ev ι)}
variable {thread thread' : ι}
variable {token deadline : Nat}
variable {challenge shown shown' taken : MfaChallenge}

------------------------------------------------------------
-- One Record
------------------------------------------------------------

/-
  Whatever is stored under a token descends from `challenge`,
  and no other record will be stored under it.
-/
structure Descends
    (token : Nat)
    (challenge : MfaChallenge)
    (deadline : Nat)
    (state : World)
    (history : List (Ev ι)) : Prop where
  spent : Spent state history token
  account : ∀ stored, state.challenges token = some stored →
    stored.value.accountId = challenge.accountId
  attempts : ∀ stored, state.challenges token = some stored →
    challenge.attempts ≤ stored.value.attempts
  deadline : ∀ stored, state.challenges token = some stored →
    stored.expiresAt = deadline

/- An operation of any request. -/
theorem Descends.exec
    {op : Op}
    (hRule :
      runtime.rule (requests thread) (own thread history)
        op)
    (hDescends : Descends token challenge deadline state
      history) :
    Descends token challenge deadline
      (World.exec op state).2
      (⟨thread, op, (World.exec op state).1⟩ ::
        history) := by
  have hStored (stored : Stored MfaChallenge)
      (hAfter :
        (World.exec op state).2.challenges token =
          some stored) :
      ∃ old attempts,
        state.challenges token = some old ∧
          old.value.attempts ≤ attempts ∧
          stored =
            { old with
              value := { old.value with attempts } } := by
    rw [World.challenges_exec] at hAfter
    rcases challengeAfter_cases hAfter with
      ⟨created, ttl, rfl, -⟩ | hCounted | hOld
    · exact absurd hRule.1 (hDescends.spent.free thread)
    · exact hCounted
    · exact ⟨stored, stored.value.attempts, hOld, le_rfl,
        rfl⟩
  constructor
  · exact hDescends.spent.exec thread
  · intro stored hAfter
    rcases hStored stored hAfter with
      ⟨old, attempts, hOld, -, rfl⟩
    exact hDescends.account old hOld
  · intro stored hAfter
    rcases hStored stored hAfter with
      ⟨old, attempts, hOld, hLe, rfl⟩
    exact (hDescends.attempts old hOld).trans hLe
  · intro stored hAfter
    rcases hStored stored hAfter with
      ⟨old, attempts, hOld, -, rfl⟩
    exact hDescends.deadline old hOld

/- No step lets another record take a challenge's place. -/
theorem descends_along
    (hRuns : runtime.Runs requests condition start opening
      state history)
    (hDescends : Descends token challenge deadline start
      opening) :
    Descends token challenge deadline state history := by
  refine Trace.invariant
    (fun state history =>
      Descends token challenge deadline state history)
    hRuns hDescends ?_ ?_
  · intro state history active op _ hRule _ hSoFar
    exact hSoFar.exec hRule
  · intro state history tick hSoFar
    exact ⟨hSoFar.spent.tick tick, hSoFar.account,
      hSoFar.attempts, hSoFar.deadline⟩

/- A challenge that is gone stays gone. -/
theorem challenge_gone_along
    (hRuns : runtime.Runs requests condition start opening
      state history)
    (hSpent : Spent start opening token)
    (hGone : start.challenges token = none) :
    state.challenges token = none := by
  have hAlong := Trace.invariant
    (fun state history =>
      Spent state history token ∧
        state.challenges token = none)
    hRuns ⟨hSpent, hGone⟩ ?_ ?_
  · exact hAlong.2
  · rintro state history active op - hRule - ⟨hSoFar, hNone⟩
    refine ⟨hSoFar.exec active, ?_⟩
    cases hAfter :
        (World.exec op state).2.challenges token with
    | none => rfl
    | some stored =>
        rw [World.challenges_exec] at hAfter
        rcases challengeAfter_cases hAfter with
          ⟨created, ttl, rfl, -⟩ | ⟨old, -, hOld, -⟩ | hOld
        · exact absurd hRule.1 (hSoFar.free active)
        · simp [hNone] at hOld
        · simp [hNone] at hOld
  · rintro state history tick ⟨hSoFar, hNone⟩
    exact ⟨hSoFar.tick tick, hNone⟩

------------------------------------------------------------
-- Creation, Attempts And Consumption
------------------------------------------------------------

/- The record a challenge starts with. -/
theorem descends_of_created
    {ttl : Nat}
    (hRuns : runtime.Runs requests condition start []
      state history)
    (hDrawn : Drawn (own thread history) token) :
    Descends token challenge (state.clock + ttl)
      (World.exec (.challengeCreate token challenge ttl)
        state).2
      (⟨thread, .challengeCreate token challenge ttl, ()⟩ ::
        history) := by
  have hStored (stored : Stored MfaChallenge)
      (hAfter :
        (World.exec (.challengeCreate token challenge ttl)
          state).2.challenges token = some stored) :
      stored = ⟨challenge, state.clock + ttl⟩ := by
    simpa [World.exec, World.putChallenge, eq_comm]
      using hAfter
  constructor
  · exact spent_of_fresh hRuns (fresh_of_drawn hDrawn)
      (by simp)
  · intro stored hAfter
    rw [hStored stored hAfter]
  · intro stored hAfter
    rw [hStored stored hAfter]
  · intro stored hAfter
    rw [hStored stored hAfter]

/- An attempt finds a live record and counts itself. -/
theorem live_of_attempt
    (hShown : some shown =
      (World.exec (.challengeAttempt token) world).1) :
    ∃ stored,
      world.challenge? token = some stored ∧
        shown.accountId = stored.value.accountId ∧
        shown.attempts = stored.value.attempts + 1 ∧
        (World.exec (.challengeAttempt token)
            world).2.challenges token =
          some { stored with value := shown } := by
  cases hLive : world.challenge? token with
  | none => simp [World.exec, hLive] at hShown
  | some stored =>
      simp only [World.exec, hLive] at hShown
      obtain rfl := Option.some.inj hShown
      refine ⟨stored, rfl, rfl, rfl, ?_⟩
      simp [World.exec, hLive, World.putChallenge]

/- A consumption finds a live record too, and removes it. -/
theorem live_of_taken
    (hTaken : some taken =
      (World.exec (.challengeTake token) world).1) :
    ∃ stored,
      world.challenge? token = some stored ∧
        stored.value = taken := by
  have hShown :
      (world.challenge? token).map Stored.value =
        some taken :=
    hTaken.symm
  exact Option.map_eq_some_iff.mp hShown

/- A challenge that can be read is unexpired. -/
theorem challenge?_eq_some
    {stored : Stored MfaChallenge} :
    world.challenge? token = some stored ↔
      world.challenges token = some stored ∧
        world.clock < stored.expiresAt := by
  simp [World.challenge?, Option.filter_eq_some_iff]

/- What follows an attempt descends from what it showed. -/
theorem descends_of_attempt
    (thread : ι)
    (hSpent : Spent state history token)
    (hShown : some shown =
      (World.exec (.challengeAttempt token) state).1) :
    ∃ deadline,
      Descends token shown deadline
        (World.exec (.challengeAttempt token) state).2
        (⟨thread, .challengeAttempt token, some shown⟩ ::
          history) := by
  rcases live_of_attempt hShown with
    ⟨record, -, -, -, hRecord⟩
  have hStored (stored : Stored MfaChallenge)
      (hAfter :
        (World.exec (.challengeAttempt token)
          state).2.challenges token = some stored) :
      stored = { record with value := shown } :=
    Option.some.inj (hAfter.symm.trans hRecord)
  have hSpent' :
      Spent (World.exec (.challengeAttempt token) state).2
        (⟨thread, .challengeAttempt token, some shown⟩ ::
          history) token :=
    @Spent.event _ _ _ _ _
      ⟨thread, .challengeAttempt token, some shown⟩ hSpent
      hShown
  refine ⟨record.expiresAt, ?_⟩
  constructor
  · exact hSpent'
  · intro stored hAfter
    rw [hStored stored hAfter]
  · intro stored hAfter
    rw [hStored stored hAfter]
  · intro stored hAfter
    rw [hStored stored hAfter]

/- The token of a challenge that is found is spent. -/
theorem spent_of_live
    {stored : Stored MfaChallenge}
    (hStart : start.Tidy)
    (hRuns : runtime.Runs requests condition start []
      state history)
    (hLive : state.challenge? token = some stored) :
    Spent state history token :=
  spent_of_challenge hStart hRuns token stored
    (challenge?_eq_some.mp hLive).1

------------------------------------------------------------
-- Two Operations On One Token
------------------------------------------------------------

/- A later attempt is shown a higher count. -/
theorem attempts_increase
    (hStart : start.Tidy)
    (hRuns : runtime.Runs requests condition start [] state
      (later ++
        ⟨thread', .challengeAttempt token, some shown'⟩ ::
          (between ++
            ⟨thread, .challengeAttempt token,
              some shown⟩ :: earlier))) :
    shown.attempts < shown'.attempts := by
  rcases hRuns.at_events with
    ⟨before, middle, hBefore, -, hRet, hSince, -, hRet'⟩
  rcases live_of_attempt hRet with ⟨record, hLive, -⟩
  have hSpent := spent_of_live hStart hBefore hLive
  rcases descends_of_attempt thread hSpent hRet with
    ⟨deadline, hDescends⟩
  have hLater := descends_along hSince hDescends
  rcases live_of_attempt hRet' with
    ⟨record', hLive', -, hCount, -⟩
  have hLe := hLater.attempts record'
    (challenge?_eq_some.mp hLive').1
  omega

/- Once consumed, a challenge shows itself to nobody. -/
theorem challenge_gone_of_taken
    (hStart : start.Tidy)
    {event : Ev ι}
    (hRuns : runtime.Runs requests condition start [] state
      (later ++ event ::
        (between ++
          ⟨thread, .challengeTake token, some taken⟩ ::
            earlier))) :
    ∃ middle,
      middle.challenge? token = none ∧
        event.ret = (World.exec event.op middle).1 := by
  rcases hRuns.at_events with
    ⟨before, middle, hBefore, -, hRet, hSince, -, hRet'⟩
  rcases live_of_taken hRet with ⟨record, hLive, -⟩
  have hSpent :
      Spent (World.exec (.challengeTake token) before).2
        (⟨thread, .challengeTake token, some taken⟩ ::
          earlier) token :=
    (spent_of_live hStart hBefore hLive).event hRet
  have hGone := challenge_gone_along hSince hSpent
    (by simp [World.exec, World.putChallenge])
  exact ⟨middle, by simp [World.challenge?, hGone], hRet'⟩

/- A challenge is taken once. -/
theorem not_taken_twice
    (hStart : start.Tidy)
    (hRuns : runtime.Runs requests condition start [] state
      (later ++
        ⟨thread', .challengeTake token, some shown⟩ ::
          (between ++
            ⟨thread, .challengeTake token, some taken⟩ ::
              earlier))) :
    False := by
  rcases challenge_gone_of_taken hStart hRuns with
    ⟨middle, hGone, hRet⟩
  rcases live_of_taken hRet with ⟨record, hLive, -⟩
  simp [hGone] at hLive

/- An attempt was shown the account of what was consumed. -/
theorem account_of_taken
    (hStart : start.Tidy)
    (hRuns : runtime.Runs requests condition start []
      state history)
    (hAttempt :
      (⟨thread', .challengeAttempt token, some shown⟩ :
        Ev ι) ∈ history)
    (hTaken :
      (⟨thread, .challengeTake token, some taken⟩ :
        Ev ι) ∈ history) :
    shown.accountId = taken.accountId := by
  rcases order_of_members hAttempt hTaken with
    ⟨later, between, earlier, rfl⟩ |
      ⟨later, between, earlier, rfl⟩ | hSame
  · rcases challenge_gone_of_taken hStart hRuns with
      ⟨middle, hGone, hRet⟩
    rcases live_of_attempt hRet with ⟨record, hLive, -⟩
    simp [hGone] at hLive
  · rcases hRuns.at_events with
      ⟨before, middle, hBefore, -, hRet, hSince, -, hRet'⟩
    rcases live_of_attempt hRet with ⟨record, hLive, -⟩
    have hSpent := spent_of_live hStart hBefore hLive
    rcases descends_of_attempt thread' hSpent hRet with
      ⟨deadline, hDescends⟩
    rcases live_of_taken hRet' with ⟨record', hLive', rfl⟩
    exact ((descends_along hSince hDescends).account record'
      (challenge?_eq_some.mp hLive').1).symm
  · cases hSame

end CrudAuth
