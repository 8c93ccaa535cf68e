import CrudAuth.Invariants.Fresh

/-
  Server-side records along a run: keys in use were drawn
  and never come again, what is dead stays dead, and live
  sessions are indexed under their owner.

  Main declarations:
    * `World.Tidy`
    * `spent_of_session`
    * `session_gone_along`
    * `listed_of_runs`
    * `session_gone_of_cleared`
    * `challenge_of_attempt`
-/

namespace CrudAuth

open Concurrency

variable {ι : Type} [DecidableEq ι]
variable {runtime : Runtime}
variable {requests : ι → Request}
variable {condition : Condition ι interface World}
variable {start state world : World}
variable {opening history later earlier : List (Ev ι)}
variable {thread creator : ι}
variable {key : Nat}
variable {id : UserId}
variable {op : Op}

------------------------------------------------------------
-- Records After One Operation
------------------------------------------------------------

/- Where the record of a session comes from. -/
theorem sessionAfter_cases
    {stored : Stored SessionData}
    (hAfter : world.sessionAfter op key = some stored) :
    (∃ data ttl,
      op = .sessionCreate key data ttl ∧
        stored = ⟨data, world.clock + ttl⟩) ∨
    (∃ change old,
      op = .sessionModify key change ∧
        world.session? key = some old ∧
        stored = change.apply world.clock old) ∨
    world.sessions key = some stored := by
  cases op with
  | sessionCreate created data ttl =>
      simp only [World.sessionAfter] at hAfter
      split at hAfter
      · rename_i hKey
        subst hKey
        exact Or.inl
          ⟨data, ttl, rfl, (Option.some.inj hAfter).symm⟩
      · exact Or.inr (Or.inr hAfter)
  | sessionModify modified change =>
      simp only [World.sessionAfter] at hAfter
      split at hAfter
      · rename_i hKey
        subst hKey
        split at hAfter
        · rename_i old hOld
          exact Or.inr (Or.inl ⟨change, old, rfl, hOld,
            (Option.some.inj hAfter).symm⟩)
        · exact Or.inr (Or.inr hAfter)
      · exact Or.inr (Or.inr hAfter)
  | sessionDelete deleted owner =>
      simp only [World.sessionAfter] at hAfter
      split at hAfter
      · cases hAfter
      · exact Or.inr (Or.inr hAfter)
  | _ => exact Or.inr (Or.inr hAfter)

/- Where the record of a challenge comes from. -/
theorem challengeAfter_cases
    {stored : Stored MfaChallenge}
    (hAfter : world.challengeAfter op key = some stored) :
    (∃ challenge ttl,
      op = .challengeCreate key challenge ttl ∧
        stored = ⟨challenge, world.clock + ttl⟩) ∨
    (∃ old attempts,
      world.challenges key = some old ∧
        old.value.attempts ≤ attempts ∧
        stored =
          { old with
            value := { old.value with attempts } }) ∨
    world.challenges key = some stored := by
  cases op with
  | challengeCreate created challenge ttl =>
      simp only [World.challengeAfter] at hAfter
      split at hAfter
      · rename_i hKey
        subst hKey
        exact Or.inl ⟨challenge, ttl, rfl,
          (Option.some.inj hAfter).symm⟩
      · exact Or.inr (Or.inr hAfter)
  | challengeAttempt attempted =>
      simp only [World.challengeAfter] at hAfter
      split at hAfter
      · rename_i hKey
        subst hKey
        split at hAfter
        · rename_i old hOld
          have hStored :=
            (Option.filter_eq_some_iff.mp hOld).1
          exact Or.inr (Or.inl ⟨old, _, hStored,
            Nat.le_succ _, (Option.some.inj hAfter).symm⟩)
        · exact Or.inr (Or.inr hAfter)
      · exact Or.inr (Or.inr hAfter)
  | challengeDelete deleted =>
      simp only [World.challengeAfter] at hAfter
      split at hAfter
      · cases hAfter
      · exact Or.inr (Or.inr hAfter)
  | challengeTake taken =>
      simp only [World.challengeAfter] at hAfter
      split at hAfter
      · cases hAfter
      · exact Or.inr (Or.inr hAfter)
  | _ => exact Or.inr (Or.inr hAfter)

/- Only a new session enters the index. -/
theorem indexAfter_cases
    (hAfter : key ∈ world.indexAfter op id) :
    (∃ data ttl,
      op = .sessionCreate key data ttl ∧
        data.userId = id) ∨
    key ∈ world.userIndex id := by
  cases op with
  | sessionCreate created data ttl =>
      simp only [World.indexAfter] at hAfter
      split at hAfter
      · rename_i hUser
        rcases List.mem_cons.mp hAfter with rfl | hOld
        · exact Or.inl ⟨data, ttl, rfl, hUser.symm⟩
        · exact Or.inr hOld
      · exact Or.inr hAfter
  | sessionDelete deleted owner =>
      simp only [World.indexAfter] at hAfter
      split at hAfter
      · exact Or.inr (List.mem_of_mem_filter hAfter)
      · exact Or.inr hAfter
  | unindex owner removed =>
      simp only [World.indexAfter] at hAfter
      split at hAfter
      · exact Or.inr (List.mem_of_mem_filter hAfter)
      · exact Or.inr hAfter
  | _ => exact Or.inr hAfter

------------------------------------------------------------
-- Keys In Use
------------------------------------------------------------

/-
  Every key in use was drawn, and live sessions are in the
  index of their owner.
-/
structure World.Tidy (world : World) : Prop where
  session : ∀ key stored,
    world.sessions key = some stored → key < world.nonce
  challenge : ∀ key stored,
    world.challenges key = some stored → key < world.nonce
  indexed : ∀ id, ∀ key ∈ world.userIndex id,
    key < world.nonce
  listed : ∀ key stored,
    world.session? key = some stored →
      key ∈ world.userIndex stored.value.userId

/- The key of a session is never drawn again. -/
theorem spent_of_session
    (hStart : start.Tidy)
    (hRuns : runtime.Runs requests condition start []
      state history) :
    ∀ key stored, state.sessions key = some stored →
      Spent state history key := by
  refine Trace.invariant
    (fun state history => ∀ key stored,
      state.sessions key = some stored →
        Spent state history key) hRuns ?_ ?_ ?_
  · intro key stored hStored
    exact spent_of_lt (hStart.session key stored hStored)
  · intro state history active op hSoFar hRule _ hSpent key
      stored hStored
    have hAfter :
        state.sessionAfter op key = some stored := by
      rw [← World.sessions_exec]
      exact hStored
    rcases sessionAfter_cases hAfter with
      ⟨data, ttl, rfl, -⟩ | ⟨change, old, -, hOld, -⟩ | hOld
    · exact spent_of_fresh hSoFar
        (fresh_of_drawn hRule.1) (by simp)
    · have hRecord := (Option.filter_eq_some_iff.mp hOld).1
      exact (hSpent key old hRecord).exec active
    · exact (hSpent key stored hOld).exec active
  · intro state history tick hSpent key stored hStored
    exact (hSpent key stored hStored).tick tick

/- The key of a challenge is never drawn again. -/
theorem spent_of_challenge
    (hStart : start.Tidy)
    (hRuns : runtime.Runs requests condition start []
      state history) :
    ∀ key stored, state.challenges key = some stored →
      Spent state history key := by
  refine Trace.invariant
    (fun state history => ∀ key stored,
      state.challenges key = some stored →
        Spent state history key) hRuns ?_ ?_ ?_
  · intro key stored hStored
    exact spent_of_lt (hStart.challenge key stored hStored)
  · intro state history active op hSoFar hRule _ hSpent key
      stored hStored
    have hAfter :
        state.challengeAfter op key = some stored := by
      rw [← World.challenges_exec]
      exact hStored
    rcases challengeAfter_cases hAfter with
      ⟨challenge, ttl, rfl, -⟩ | ⟨old, -, hOld, -, -⟩ | hOld
    · exact spent_of_fresh hSoFar
        (fresh_of_drawn hRule.1) (by simp)
    · exact (hSpent key old hOld).exec active
    · exact (hSpent key stored hOld).exec active
  · intro state history tick hSpent key stored hStored
    exact (hSpent key stored hStored).tick tick

/- So are the keys of the index. -/
theorem spent_of_indexed
    (hStart : start.Tidy)
    (hRuns : runtime.Runs requests condition start []
      state history) :
    ∀ id, ∀ key ∈ state.userIndex id,
      Spent state history key := by
  refine Trace.invariant
    (fun state history => ∀ id, ∀ key ∈ state.userIndex id,
      Spent state history key) hRuns ?_ ?_ ?_
  · intro id key hKey
    exact spent_of_lt (hStart.indexed id key hKey)
  · intro state history active op hSoFar hRule _ hSpent id
      key hKey
    have hAfter : key ∈ state.indexAfter op id := by
      rw [← World.userIndex_exec]
      exact hKey
    rcases indexAfter_cases hAfter with
      ⟨data, ttl, rfl, -⟩ | hOld
    · exact spent_of_fresh hSoFar
        (fresh_of_drawn hRule.1) (by simp)
    · exact (hSpent id key hOld).exec active
  · intro state history tick hSpent id key hKey
    exact (hSpent id key hKey).tick tick

------------------------------------------------------------
-- Dead Sessions
------------------------------------------------------------

/- A session that can be read is unexpired. -/
theorem session?_eq_some
    {stored : Stored SessionData} :
    world.session? key = some stored ↔
      world.sessions key = some stored ∧
        world.clock < stored.expiresAt := by
  simp [World.session?, Option.filter_eq_some_iff]

/- What is live after a while was live before. -/
theorem session?_of_tick
    {tick : Nat}
    {stored : Stored SessionData}
    (hLive : (machine.tick tick world).session? key =
      some stored) :
    world.session? key = some stored := by
  rw [session?_eq_some] at hLive ⊢
  exact ⟨hLive.1, (Nat.le_add_right _ _).trans_lt hLive.2⟩

/- A dead session stays dead. -/
theorem session_gone_along
    (hRuns : runtime.Runs requests condition start opening
      state history)
    (hSpent : Spent start opening key)
    (hGone : start.session? key = none) :
    state.session? key = none := by
  have hAlong := Trace.invariant
    (fun state history =>
      Spent state history key ∧ state.session? key = none)
    hRuns ⟨hSpent, hGone⟩ ?_ ?_
  · exact hAlong.2
  · rintro state history active op - hRule -
      ⟨hSpent, hGone⟩
    refine ⟨hSpent.exec active, ?_⟩
    by_contra hLive
    rcases Option.ne_none_iff_exists'.mp hLive with
      ⟨stored, hStored⟩
    rw [session?_eq_some, World.sessions_exec,
      World.clock_exec] at hStored
    rcases hStored with ⟨hAfter, hUnexpired⟩
    rcases sessionAfter_cases hAfter with
      ⟨data, ttl, rfl, -⟩ | ⟨change, old, -, hOld, -⟩ | hOld
    · exact hSpent.free active hRule.1
    · simp [hGone] at hOld
    · have hSame := session?_eq_some.mpr ⟨hOld, hUnexpired⟩
      simp [hGone] at hSame
  · rintro state history tick ⟨hSpent, hGone⟩
    refine ⟨hSpent.tick tick, ?_⟩
    by_contra hLive
    rcases Option.ne_none_iff_exists'.mp hLive with
      ⟨stored, hStored⟩
    have hSame := session?_of_tick hStored
    simp [hGone] at hSame

/- What an index read shows is spent ever after. -/
theorem spent_of_listing
    {ids : List Nat}
    (hStart : start.Tidy)
    (hRuns : runtime.Runs requests condition start []
      state history)
    (hListing :
      (⟨thread, .userSessions id, ids⟩ : Ev ι) ∈ history)
    (hKey : key ∈ ids) :
    Spent state history key := by
  rcases List.append_of_mem hListing with
    ⟨later, earlier, rfl⟩
  rcases hRuns.at_event with
    ⟨before, hBefore, -, -, hRet, -, hAfter⟩
  obtain rfl : ids = before.userIndex id := hRet
  have hSpent :=
    spent_of_indexed hStart hBefore id key hKey
  exact spent_along hAfter (hSpent.exec thread)

/- A listed session that was seen dead, or deleted, is. -/
theorem session_gone_of_cleared
    {ids : List Nat}
    (hStart : start.Tidy)
    (hRuns : runtime.Runs requests condition start []
      state history)
    (hCleared :
      Runtime.Cleared (own thread history) id ids key)
    (hKey : key ∈ ids) :
    state.session? key = none := by
  rcases hCleared with
    ⟨older, hSuffix, hListing⟩ |
      ⟨owner, older, hSuffix, hListing⟩
  · rcases own_split hSuffix with
      ⟨later, earlier, rfl, rfl⟩
    rcases hRuns.at_event with
      ⟨before, hBefore, -, -, hRet, -, hAfter⟩
    rw [mem_own_iff] at hListing
    have hSpent :=
      spent_of_listing hStart hBefore hListing hKey
    have hGone : before.session? key = none := by
      have hRead :
          none = (before.session? key).map Stored.value :=
        hRet
      simpa using hRead.symm
    exact session_gone_along hAfter (hSpent.event hRet)
      hGone
  · rcases own_split hSuffix with
      ⟨later, earlier, rfl, rfl⟩
    rcases hRuns.at_event with
      ⟨before, hBefore, -, -, -, -, hAfter⟩
    rw [mem_own_iff] at hListing
    have hSpent :=
      spent_of_listing hStart hBefore hListing hKey
    refine session_gone_along hAfter
      (hSpent.exec thread) ?_
    simp [World.session?, World.sessions_exec,
      World.sessionAfter]

/- A live session is in the index of its owner. -/
theorem listed_of_runs
    (hStart : start.Tidy)
    (hRuns : runtime.Runs requests condition start []
      state history) :
    ∀ key stored, state.session? key = some stored →
      key ∈ state.userIndex stored.value.userId := by
  refine Trace.invariant
    (fun state _ => ∀ key stored,
      state.session? key = some stored →
        key ∈ state.userIndex stored.value.userId)
    hRuns hStart.listed ?_ ?_
  · intro state history active op hSoFar hRule _ hListed key
      stored hStored
    have hLive := hStored
    rw [session?_eq_some, World.sessions_exec,
      World.clock_exec] at hStored
    rcases hStored with ⟨hAfter, hUnexpired⟩
    have hIndexed :
        (∃ data ttl, op = .sessionCreate key data ttl ∧
          stored.value.userId = data.userId) ∨
        key ∈ state.userIndex stored.value.userId := by
      rcases sessionAfter_cases hAfter with
        ⟨data, ttl, hOp, rfl⟩ |
          ⟨change, old, -, hOld, rfl⟩ | hOld
      · exact Or.inl ⟨data, ttl, hOp, rfl⟩
      · have hOwner :
            (change.apply state.clock old).value.userId =
              old.value.userId := by
          cases change <;> rfl
        rw [hOwner]
        exact Or.inr (hListed key old hOld)
      · exact Or.inr (hListed key stored
          (session?_eq_some.mpr ⟨hOld, hUnexpired⟩))
    rw [World.userIndex_exec]
    rcases hIndexed with ⟨data, ttl, rfl, hOwner⟩ | hOld
    · simp [World.indexAfter, hOwner]
    · cases op with
      | sessionCreate created data ttl =>
          simp only [World.indexAfter]
          split
          · exact List.mem_cons_of_mem _ hOld
          · exact hOld
      | sessionDelete deleted owner =>
          have hKey : key ≠ deleted := by
            rintro rfl
            simp [World.sessionAfter] at hAfter
          simp only [World.indexAfter]
          split
          · simpa [hKey] using hOld
          · exact hOld
      | unindex owner removed =>
          have hKey : key ≠ removed := by
            rintro rfl
            rcases hRule with ⟨ids, hMem, hSeen⟩
            have hGone := session_gone_of_cleared hStart
              hSoFar (Or.inl hSeen) hMem
            have hSame := session?_eq_some.mpr
              ⟨hAfter, hUnexpired⟩
            simp [hGone] at hSame
          simp only [World.indexAfter]
          split
          · simpa [hKey] using hOld
          · exact hOld
      | _ => exact hOld
  · intro state history tick hListed key stored hStored
    exact hListed key stored (session?_of_tick hStored)

------------------------------------------------------------
-- Records From Their Creation On
------------------------------------------------------------

/- The owner of a session is fixed when it is created. -/
theorem owner_along
    (hRuns : runtime.Runs requests condition start opening
      state history)
    (hSpent : Spent start opening key)
    (hOwner : ∀ stored, start.sessions key = some stored →
      stored.value.userId = id) :
    ∀ stored, state.sessions key = some stored →
      stored.value.userId = id := by
  have hAlong := Trace.invariant
    (fun state history =>
      Spent state history key ∧
      ∀ stored, state.sessions key = some stored →
        stored.value.userId = id)
    hRuns ⟨hSpent, hOwner⟩ ?_ ?_
  · exact hAlong.2
  · rintro state history active op - hRule -
      ⟨hSpent, hOwner⟩
    refine ⟨hSpent.exec active, ?_⟩
    intro stored hStored
    rw [World.sessions_exec] at hStored
    rcases sessionAfter_cases hStored with
      ⟨data, ttl, rfl, -⟩ |
        ⟨change, old, -, hOld, rfl⟩ | hOld
    · exact absurd hRule.1 (hSpent.free active)
    · have hRecord := (session?_eq_some.mp hOld).1
      have hKept := hOwner old hRecord
      cases change <;> exact hKept
    · exact hOwner stored hOld
  · rintro state history tick ⟨hSpent, hOwner⟩
    exact ⟨hSpent.tick tick, hOwner⟩

/- An attempt is shown the stored record, counted. -/
theorem attempt_shows
    {shown : MfaChallenge}
    (hShown : some shown =
      (World.exec (.challengeAttempt key) world).1) :
    ∃ stored,
      world.challenges key = some stored ∧
        shown.accountId = stored.value.accountId ∧
        shown.tokenVersion = stored.value.tokenVersion := by
  simp only [World.exec] at hShown
  split at hShown
  · cases hShown
  · rename_i stored hStored
    obtain rfl := Option.some.inj hShown
    exact ⟨stored,
      (Option.filter_eq_some_iff.mp hStored).1, rfl, rfl⟩

/- Before its key is drawn a challenge is not attempted. -/
theorem not_attempted_of_drawn
    {shown : MfaChallenge}
    (hStart : start.Tidy)
    (hRuns : runtime.Runs requests condition start []
      state history)
    (hDrawn : Drawn (own creator history) key) :
    (⟨thread, .challengeAttempt key, some shown⟩ : Ev ι) ∉
      history := by
  intro hAttempt
  rcases List.append_of_mem hAttempt with
    ⟨later, earlier, rfl⟩
  rcases hRuns.at_event with
    ⟨moment, hMoment, -, -, hRet, -, hSince⟩
  rcases attempt_shows hRet with ⟨stored, hStored, -⟩
  have hSpent :=
    spent_of_challenge hStart hMoment key stored hStored
  exact (spent_along hSince (hSpent.event hRet)).free
    creator hDrawn

/-
  What an attempt on a challenge is shown was fixed when
  the challenge was created.
-/
theorem challenge_of_attempt
    {challenge shown : MfaChallenge}
    {ttl : Nat}
    (hStart : start.Tidy)
    (hRuns : runtime.Runs requests condition start []
      state history)
    (hCreated :
      (⟨creator, .challengeCreate key challenge ttl, ()⟩ :
        Ev ι) ∈ history)
    (hAttempt :
      (⟨thread, .challengeAttempt key, some shown⟩ :
        Ev ι) ∈ history) :
    shown.accountId = challenge.accountId ∧
      shown.tokenVersion = challenge.tokenVersion := by
  rcases List.append_of_mem hCreated with
    ⟨later, earlier, rfl⟩
  rcases hRuns.at_event with
    ⟨before, hBefore, hRule, -, -, -, hAfter⟩
  have hDrawn : Drawn (own creator earlier) key := hRule.1
  have hSpent :
      Spent
        (World.exec (.challengeCreate key challenge ttl)
          before).2
        (⟨creator, .challengeCreate key challenge ttl, ()⟩ ::
          earlier) key :=
    spent_of_fresh hBefore (fresh_of_drawn hDrawn) (by simp)
  have hAlong := Trace.invariant
    (fun state (history : List (Ev ι)) =>
      Spent state history key ∧
      (∀ stored, state.challenges key = some stored →
        stored.value.accountId = challenge.accountId ∧
          stored.value.tokenVersion =
            challenge.tokenVersion) ∧
      ((⟨thread, .challengeAttempt key, some shown⟩ :
        Ev ι) ∈ history →
        shown.accountId = challenge.accountId ∧
          shown.tokenVersion = challenge.tokenVersion))
    hAfter ⟨hSpent, ?_, ?_⟩ ?_ ?_
  · exact hAlong.2.2 hAttempt
  · intro stored hStored
    obtain rfl := by
      simpa [World.exec, World.putChallenge] using hStored
    exact ⟨rfl, rfl⟩
  · intro hMem
    rcases List.mem_cons.mp hMem with hSame | hOld
    · cases hSame
    · exact absurd hOld
        (not_attempted_of_drawn hStart hBefore hDrawn)
  · rintro state history active op - hRule -
      ⟨hSpent, hFixed, hSeen⟩
    refine ⟨hSpent.exec active, ?_, ?_⟩
    · intro stored hStored
      rw [World.challenges_exec] at hStored
      rcases challengeAfter_cases hStored with
        ⟨created, ttl, rfl, -⟩ |
          ⟨old, attempts, hOld, -, rfl⟩ | hOld
      · exact absurd hRule.1 (hSpent.free active)
      · exact hFixed old hOld
      · exact hFixed stored hOld
    · intro hMem
      rcases List.mem_cons.mp hMem with hNew | hOld
      · obtain rfl : .challengeAttempt key = op :=
          congrArg Event.op hNew
        have hRet :
            some shown =
              (World.exec (.challengeAttempt key)
                state).1 :=
          eq_of_heq (Event.mk.inj hNew).2.2
        rcases attempt_shows hRet with
          ⟨stored, hStored, hAccount, hVersion⟩
        rcases hFixed stored hStored with
          ⟨hAccount', hVersion'⟩
        exact ⟨hAccount.trans hAccount',
          hVersion.trans hVersion'⟩
      · exact hSeen hOld
  · rintro state history tick ⟨hSpent, hFixed, hSeen⟩
    exact ⟨hSpent.tick tick, hFixed, hSeen⟩

end CrudAuth
