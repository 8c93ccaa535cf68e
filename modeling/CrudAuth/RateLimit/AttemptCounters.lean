import CrudAuth.RateLimit.Escalation

/-
  What the three calls of the lockout policy do to the
  attempt counters of an address and of a pair.

  Main declarations:
    * `LockoutPolicy.FailureCounted`
    * `LockoutPolicy.SuccessTaken`
    * `LockoutPolicy.AttemptForgotten`
    * `recordFailure_counts`
    * `recordSuccess_takes`
    * `forgetAttempt_forgets`
-/

namespace CrudAuth

namespace RateLimit

open Concurrency

------------------------------------------------------------
-- Attempt Counters
------------------------------------------------------------

/- The counters of an address, and of a pair. -/
def Key.isAttempts : Key → Bool
  | .ipAttempts _ => true
  | .pairAttempts _ => true
  | _ => false

section Counters

variable {backend : Backend}
variable {limiter limiter' : Limiter Key}
variable {key : Key}

/- A row that is written holds what was written. -/
theorem counters_put_self
    (limiter : Limiter Key)
    (key : Key)
    (counter : Option Counter) :
    (Backend.put limiter key counter).counters key =
      counter :=
  Function.update_self _ _ _

/- The other rows hold what they held. -/
theorem counters_put_of_ne
    {other : Key}
    (limiter : Limiter Key)
    (counter : Option Counter)
    (hKey : other ≠ key) :
    (Backend.put limiter key counter).counters other =
      limiter.counters other :=
  Function.update_of_ne hKey _ _

/- A counter is live as it was, if it and the clock are. -/
theorem live_congr
    (hClock : limiter'.clock = limiter.clock)
    (hCounter :
      limiter'.counters key = limiter.counters key) :
    backend.live limiter' key =
      backend.live limiter key := by
  unfold Backend.live
  rw [hCounter, hClock]

/- A remaining time hangs on clock and counter. -/
theorem getTtl_congr
    (hClock : limiter'.clock = limiter.clock)
    (hCounter :
      limiter'.counters key = limiter.counters key) :
    (backend.exec id (.getTtl key) limiter').1 =
      (backend.exec id (.getTtl key) limiter).1 := by
  simp only [Backend.exec, id_eq]
  rw [live_congr hClock hCounter, hClock]

theorem incremented_congr
    {amount : Int}
    {expiry : Nat}
    (hClock : limiter'.clock = limiter.clock)
    (hCounter :
      limiter'.counters key = limiter.counters key) :
    backend.incremented limiter' key amount expiry =
      backend.incremented limiter key amount expiry := by
  unfold Backend.incremented Backend.current
  rw [live_congr hClock hCounter, hClock]

end Counters

------------------------------------------------------------
-- What A Call Does To Them
------------------------------------------------------------

namespace LockoutPolicy

variable (policy : LockoutPolicy)
variable (backend : Backend)
variable (ipAddress username : String)
variable (limiter limiter' : Limiter Key)

/- The clock, and the counters of other attempts, stay. -/
structure Contained : Prop where
  clock : limiter'.clock = limiter.clock
  others : ∀ key, key.isAttempts = true →
    key ≠ policy.ipAttempts ipAddress →
    key ≠ policy.pairAttempts ipAddress username →
      limiter'.counters key = limiter.counters key

/-
  One more for the address, and one at most for the pair,
  for as long as the address's window has left.
-/
structure FailureCounted : Prop
    extends Contained policy ipAddress username limiter
      limiter' where
  ip : limiter'.counters (policy.ipAttempts ipAddress) =
    some (backend.incremented limiter
      (policy.ipAttempts ipAddress) 1
      policy.attemptWindowSeconds)
  pair :
    limiter'.counters
        (policy.pairAttempts ipAddress username) =
      limiter.counters
        (policy.pairAttempts ipAddress username) ∨
    ∃ expiry, 0 < expiry ∧
      (backend.exec id
        (.getTtl (policy.ipAttempts ipAddress))
        limiter').1 = expiry ∧
      limiter'.counters
          (policy.pairAttempts ipAddress username) =
        some (backend.incremented limiter
          (policy.pairAttempts ipAddress username) 1 expiry)

/- What the pair has counted is taken off the address. -/
structure SuccessTaken : Prop
    extends Contained policy ipAddress username limiter
      limiter' where
  taken : ∀ own,
    backend.live limiter
        (policy.pairAttempts ipAddress username) =
      some own →
    own.count ≠ 0 →
      limiter'.counters
          (policy.pairAttempts ipAddress username) = none ∧
      limiter'.counters (policy.ipAttempts ipAddress) =
        some (backend.incremented limiter
          (policy.ipAttempts ipAddress) (-own.count)
          policy.attemptWindowSeconds)
  kept :
    (∀ own,
      backend.live limiter
          (policy.pairAttempts ipAddress username) =
        some own →
      own.count = 0) →
      Same Key.isAttempts limiter limiter'

/- One is taken back from a counter that is positive. -/
def TakenBack (key : Key) : Prop :=
  (∀ counter,
    backend.live limiter key = some counter →
    0 < counter.count →
      limiter'.counters key =
        some (backend.incremented limiter key (-1)
          policy.attemptWindowSeconds)) ∧
  ((∀ counter,
    backend.live limiter key = some counter →
    counter.count ≤ 0) →
      limiter'.counters key = limiter.counters key)

/- A challenge takes one attempt back, and no more. -/
structure AttemptForgotten : Prop
    extends Contained policy ipAddress username limiter
      limiter' where
  ip : policy.TakenBack backend limiter limiter'
    (policy.ipAttempts ipAddress)
  pair : policy.TakenBack backend limiter limiter'
    (policy.pairAttempts ipAddress username)

end LockoutPolicy

section Calls

variable {policy : LockoutPolicy}
variable {backend : Backend}
variable {ipAddress username : String}
variable {limiter limiter' limiter'' : Limiter Key}

/- A pair's key is no address's. -/
theorem pair_ne_ip :
    policy.pairAttempts ipAddress username ≠
      policy.ipAttempts ipAddress :=
  nofun

/- A part of a failure that only counts the pair. -/
theorem countPair_counts
    (hClears : policy.onLoginSuccess = .clearAll) :
    Program.Ends (I := interface) (backend.exec id)
      (policy.countPair ipAddress username) limiter
      fun _ limiter' =>
        Same Key.isAttempts limiter limiter' ∨
        ∃ expiry, 0 < expiry ∧
          (backend.exec id
            (.getTtl (policy.ipAttempts ipAddress))
            limiter).1 = expiry ∧
          limiter' = Backend.put limiter
            (policy.pairAttempts ipAddress username)
            (some (backend.incremented limiter
              (policy.pairAttempts ipAddress username) 1
              expiry)) := by
  unfold LockoutPolicy.countPair
  rw [hClears]
  simp only [Program.bind_eq]
  apply ends_step
  change Program.Ends (I := interface) (backend.exec id) _
    limiter _
  split
  · rename_i hWindow
    apply ends_step
    exact Or.inr ⟨_, hWindow, rfl, rfl⟩
  · exact Or.inl (.refl limiter)

/- A lock-out leaves the attempts alone. -/
theorem lockOut_quiet :
    Program.Ends (I := interface) (backend.exec id)
      (policy.lockOut ipAddress username) limiter
      fun _ limiter' =>
        Same Key.isAttempts limiter limiter' := by
  unfold LockoutPolicy.lockOut
  simp only [Program.bind_eq]
  apply ends_step
  apply ends_step
  apply ends_spared Key.isAttempts rfl (.refl limiter)
  intro first hFirst
  apply ends_spared Key.isAttempts rfl hFirst
  intro second hSecond
  apply ends_spared Key.isAttempts rfl hSecond
  intro third hThird
  apply ends_spared Key.isAttempts rfl hThird
  intro fourth hFourth
  exact hFourth

/- The address is counted, and then the pair may be. -/
theorem failureCounted_of_steps
    {first second third : Limiter Key}
    (hFirst : Same Key.isAttempts
      (Backend.put limiter (policy.ipAttempts ipAddress)
        (some (backend.incremented limiter
          (policy.ipAttempts ipAddress) 1
          policy.attemptWindowSeconds))) first)
    (hSecond : Same Key.isAttempts first second ∨
      ∃ expiry, 0 < expiry ∧
        (backend.exec id
          (.getTtl (policy.ipAttempts ipAddress))
          first).1 = expiry ∧
        second = Backend.put first
          (policy.pairAttempts ipAddress username)
          (some (backend.incremented first
            (policy.pairAttempts ipAddress username) 1
            expiry)))
    (hThird : Same Key.isAttempts second third) :
    policy.FailureCounted backend ipAddress username limiter
      third := by
  have hPair :
      first.counters
          (policy.pairAttempts ipAddress username) =
        limiter.counters
          (policy.pairAttempts ipAddress username) := by
    rw [hFirst.counters _ rfl,
      counters_put_of_ne _ _ pair_ne_ip]
  have hIp :
      first.counters (policy.ipAttempts ipAddress) =
        some (backend.incremented limiter
          (policy.ipAttempts ipAddress) 1
          policy.attemptWindowSeconds) := by
    rw [hFirst.counters _ rfl, counters_put_self]
  have hClock : first.clock = limiter.clock := hFirst.clock
  rcases hSecond with
    hSecond | ⟨expiry, hPositive, hTtl, rfl⟩
  · have hSame := hSecond.trans hThird
    refine ⟨⟨?_, ?_⟩, ?_, Or.inl ?_⟩
    · exact hSame.clock.trans hClock
    · intro key hKey hNotIp hNotPair
      rw [hSame.counters key hKey, hFirst.counters key hKey,
        counters_put_of_ne _ _ hNotIp]
    · rw [hSame.counters _ rfl, hIp]
    · rw [hSame.counters _ rfl, hPair]
  · have hIpThird :
        third.counters (policy.ipAttempts ipAddress) =
          first.counters (policy.ipAttempts ipAddress) := by
      rw [hThird.counters _ rfl,
        counters_put_of_ne _ _ (Ne.symm pair_ne_ip)]
    refine ⟨⟨?_, ?_⟩, ?_,
      Or.inr ⟨expiry, hPositive, ?_, ?_⟩⟩
    · exact hThird.clock.trans hClock
    · intro key hKey hNotIp hNotPair
      rw [hThird.counters key hKey,
        counters_put_of_ne _ _ hNotPair,
        hFirst.counters key hKey,
        counters_put_of_ne _ _ hNotIp]
    · rw [hIpThird, hIp]
    · have hClockThird : third.clock = first.clock :=
        hThird.clock
      exact (getTtl_congr hClockThird hIpThird).trans hTtl
    · rw [hThird.counters _ rfl, counters_put_self,
        incremented_congr hClock hPair]

/- A failure under a lock counts nothing. -/
theorem recordFailure_counts
    (hClears : policy.onLoginSuccess = .clearAll) :
    Program.Ends (I := interface) (backend.exec id)
      (policy.recordFailure ipAddress username) limiter
      fun _ limiter' =>
        if policy.activeLockout backend id ipAddress username
            limiter = 0 then
          policy.FailureCounted backend ipAddress username
            limiter limiter'
        else
          Same Key.isAttempts limiter limiter' := by
  unfold LockoutPolicy.recordFailure
  simp only [Program.bind_eq]
  apply ends_step
  apply ends_step
  change Program.Ends (I := interface) (backend.exec id)
    (if 0 < policy.activeLockout backend id ipAddress
      username
        limiter then _ else _) limiter _
  by_cases hLocked :
      0 < policy.activeLockout backend id ipAddress username
        limiter
  · rw [if_pos hLocked]
    change (if policy.activeLockout backend id ipAddress
      username
      limiter = 0 then _ else _)
    rw [if_neg hLocked.ne']
    exact .refl limiter
  · rw [if_neg hLocked]
    simp only [if_pos (Nat.eq_zero_of_not_pos hLocked)]
    apply ends_step
    apply ends_spared Key.isAttempts rfl (.refl _)
    intro first hFirst
    apply Program.Ends.bind (countPair_counts hClears)
    · intro _ second hSecond
      split
      · exact failureCounted_of_steps hFirst hSecond
          (.refl second)
      · apply Program.Ends.mono lockOut_quiet
        intro result third hThird
        exact failureCounted_of_steps hFirst hSecond hThird
    · intro error
      cases error

/- A failure that is allowed is counted, within the cap. -/
theorem recordFailure_allows
    (hClears : policy.onLoginSuccess = .clearAll) :
    Program.Ends (I := interface) (backend.exec id)
      (policy.recordFailure ipAddress username) limiter
      fun result _ => ∀ remaining retryAfter,
        result = .ok (.verdict true remaining retryAfter) →
          policy.activeLockout backend id ipAddress username
              limiter = 0 ∧
            (backend.incremented limiter
              (policy.ipAttempts ipAddress) 1
              policy.attemptWindowSeconds).count ≤
                policy.maxAttempts := by
  unfold LockoutPolicy.recordFailure
  simp only [Program.bind_eq]
  apply ends_step
  apply ends_step
  change Program.Ends (I := interface) (backend.exec id)
    (if 0 < policy.activeLockout backend id ipAddress
      username
        limiter then _ else _) limiter _
  by_cases hLocked :
      0 < policy.activeLockout backend id ipAddress username
        limiter
  · rw [if_pos hLocked]
    intro remaining retryAfter hResult
    cases hResult
  · rw [if_neg hLocked]
    apply ends_step
    apply ends_step
    apply Program.Ends.bind (countPair_counts hClears)
    · intro _ second _
      split
      · rename_i hCap
        intro remaining retryAfter _
        exact ⟨Nat.eq_zero_of_not_pos hLocked,
          (le_max_left _ _).trans hCap⟩
      · apply Program.Ends.mono lockOut_ends
        rintro result third ⟨duration, rfl, -⟩
        intro remaining retryAfter hResult
        cases hResult
    · intro error
      cases error

/- A delete reports a counter that is live. -/
theorem existed_of_live
    {key : Key}
    {counter : Counter}
    (hLive : backend.live limiter key = some counter) :
    backend.existed limiter key = true := by
  cases backend with
  | memory =>
      change (limiter.counters key).isSome = true
      rw [(Backend.live_eq_some.mp hLive).1]
      rfl
  | database =>
      change (Backend.live _ limiter key).isSome = true
      rw [hLive]
      rfl
  | redis =>
      change (Backend.live _ limiter key).isSome = true
      rw [hLive]
      rfl

/- The pair is dropped, and what it had counted. -/
theorem successTaken_of_steps
    {third : Limiter Key}
    {own : Counter}
    (hSame : Same Key.isAttempts limiter third)
    (hOwn :
      backend.live limiter
        (policy.pairAttempts ipAddress username) = some own)
    (hCount : own.count ≠ 0) :
    let dropped := Backend.put third
      (policy.pairAttempts ipAddress username) none
    policy.SuccessTaken backend ipAddress username limiter
      (Backend.put dropped (policy.ipAttempts ipAddress)
        (some (backend.incremented dropped
          (policy.ipAttempts ipAddress) (-own.count)
          policy.attemptWindowSeconds))) := by
  intro dropped
  have hNe :
      policy.ipAttempts ipAddress ≠
        policy.pairAttempts ipAddress username :=
    Ne.symm pair_ne_ip
  have hIp :
      dropped.counters (policy.ipAttempts ipAddress) =
        limiter.counters (policy.ipAttempts ipAddress) := by
    rw [counters_put_of_ne _ _ hNe, hSame.counters _ rfl]
  have hClock : dropped.clock = limiter.clock := hSame.clock
  refine ⟨⟨hClock, ?_⟩, ?_, ?_⟩
  · intro key hKey hNotIp hNotPair
    rw [counters_put_of_ne _ _ hNotIp,
      counters_put_of_ne _ _ hNotPair,
      hSame.counters key hKey]
  · intro other hOther _
    obtain rfl : own = other :=
      Option.some.inj (hOwn.symm.trans hOther)
    constructor
    · rw [counters_put_of_ne _ _ pair_ne_ip,
        counters_put_self]
    · rw [counters_put_self, incremented_congr hClock hIp]
  · intro hZero
    exact absurd (hZero own hOwn) hCount

/- Where the pair has counted nothing, nothing is taken. -/
theorem successTaken_of_same
    (hSame : Same Key.isAttempts limiter limiter')
    (hZero : ∀ own,
      backend.live limiter
          (policy.pairAttempts ipAddress username) =
        some own →
      own.count = 0) :
    policy.SuccessTaken backend ipAddress username limiter
      limiter' where
  clock := hSame.clock
  others key hKey _ _ := hSame.counters key hKey
  taken own hOwn hCount := absurd (hZero own hOwn) hCount
  kept _ := hSame

/- A success takes the pair's attempts back. -/
theorem recordSuccess_takes
    (hClears : policy.onLoginSuccess = .clearAll) :
    Program.Ends (I := interface) (backend.exec id)
      (policy.recordSuccess ipAddress username) limiter
      fun _ limiter' =>
        policy.SuccessTaken backend ipAddress username
          limiter
          limiter' := by
  unfold LockoutPolicy.recordSuccess
  rw [hClears]
  simp only [Program.bind_eq]
  apply ends_spared Key.isAttempts rfl (.refl limiter)
  intro first hFirst
  apply ends_spared Key.isAttempts rfl hFirst
  intro second hSecond
  apply ends_spared Key.isAttempts rfl hSecond
  intro third hThird
  apply ends_step
  have hLive :
      backend.live third
          (policy.pairAttempts ipAddress username) =
        backend.live limiter
          (policy.pairAttempts ipAddress username) :=
    live_congr hThird.clock (hThird.counters _ rfl)
  simp only [Backend.exec, id_eq]
  cases hOwn :
      backend.live limiter
        (policy.pairAttempts ipAddress username) with
  | none =>
      rw [hLive, hOwn]
      apply successTaken_of_same hThird
      rw [hOwn]
      intro other hOther
      cases hOther
  | some own =>
      rw [hLive, hOwn]
      dsimp only [Option.map_some]
      by_cases hCount : own.count = 0
      · rw [if_pos hCount]
        apply successTaken_of_same hThird
        intro other hOther
        rw [Option.some.inj (hOther.symm.trans hOwn)]
        exact hCount
      · rw [if_neg hCount]
        apply ends_step
        rw [hOwn] at hLive
        have hExisted :
            (backend.exec id
              (.delete
                (policy.pairAttempts ipAddress username))
              third).1 = true :=
          existed_of_live hLive
        rw [hExisted, if_pos rfl]
        apply ends_step
        exact successTaken_of_steps hThird hOwn hCount

/- One key's latest attempt is taken back. -/
theorem forgetOne_takes (key : Key) :
    Program.Ends (I := interface) (backend.exec id)
      (policy.forgetOne key) limiter
      fun _ limiter' =>
        limiter'.clock = limiter.clock ∧
        policy.TakenBack backend limiter limiter' key ∧
        ∀ other, other ≠ key →
          limiter'.counters other =
            limiter.counters other := by
  unfold LockoutPolicy.forgetOne
  simp only [Program.bind_eq]
  apply ends_step
  change Program.Ends (I := interface) (backend.exec id)
    (if 0 < ((backend.live limiter key).map
        Counter.count).getD 0 then _ else _) limiter _
  by_cases hPositive :
      0 < ((backend.live limiter key).map
        Counter.count).getD 0
  · rw [if_pos hPositive]
    apply ends_step
    refine ⟨rfl, ⟨?_, ?_⟩, ?_⟩
    · intro counter _ _
      exact counters_put_self _ _ _
    · intro hNone
      cases hLive : backend.live limiter key with
      | none => simp [hLive] at hPositive
      | some counter =>
          rw [hLive] at hPositive
          exact absurd (hNone counter hLive)
            (not_le_of_gt hPositive)
    · intro other hOther
      exact counters_put_of_ne _ _ hOther
  · rw [if_neg hPositive]
    refine ⟨rfl, ⟨?_, fun _ => rfl⟩, fun _ _ => rfl⟩
    intro counter hLive hCount
    rw [hLive] at hPositive
    exact absurd hCount hPositive

/- What is taken back, from what the counter was before. -/
theorem takenBack_congr
    {key : Key}
    {last : Limiter Key}
    (hClock : limiter'.clock = limiter.clock)
    (hCounter :
      limiter'.counters key = limiter.counters key)
    (hTaken : policy.TakenBack backend limiter' last key) :
    policy.TakenBack backend limiter last key := by
  unfold LockoutPolicy.TakenBack at hTaken ⊢
  rwa [live_congr hClock hCounter,
    incremented_congr hClock hCounter, hCounter] at hTaken

/- An attempt is taken back from both keys. -/
theorem forgetAttempt_forgets
    (hClears : policy.onLoginSuccess = .clearAll) :
    Program.Ends (I := interface) (backend.exec id)
      (policy.forgetAttempt ipAddress username) limiter
      fun _ limiter' =>
        policy.AttemptForgotten backend ipAddress username
          limiter limiter' := by
  unfold LockoutPolicy.forgetAttempt
  rw [hClears]
  simp only [Program.bind_eq]
  apply Program.Ends.bind
    (forgetOne_takes (policy.ipAttempts ipAddress))
  · rintro _ first ⟨hFirst, hIp, hOther⟩
    apply Program.Ends.bind
      (forgetOne_takes (policy.userAttempts username))
    · rintro _ second ⟨hSecond, -, hOther'⟩
      apply Program.Ends.bind (forgetOne_takes
        (policy.pairAttempts ipAddress username))
      · rintro _ third ⟨hThird, hPair, hOther''⟩
        have hClock : second.clock = limiter.clock :=
          hSecond.trans hFirst
        have hSame : ∀ key, key.isAttempts = true →
            key ≠ policy.ipAttempts ipAddress →
              second.counters key =
                limiter.counters key := by
          intro key hKey hNotIp
          have hNotUser :
              key ≠ policy.userAttempts username := by
            rintro rfl
            cases hKey
          rw [hOther' key hNotUser, hOther key hNotIp]
        have hIpNotUser :
            policy.ipAttempts ipAddress ≠
              policy.userAttempts username := nofun
        have hIpLast :
            third.counters (policy.ipAttempts ipAddress) =
              first.counters
                (policy.ipAttempts ipAddress) := by
          rw [hOther'' _ (Ne.symm pair_ne_ip),
            hOther' _ hIpNotUser]
        change policy.AttemptForgotten backend ipAddress
          username limiter third
        refine ⟨⟨hThird.trans hClock, ?_⟩, ?_, ?_⟩
        · intro key hKey hNotIp hNotPair
          rw [hOther'' key hNotPair, hSame key hKey hNotIp]
        · unfold LockoutPolicy.TakenBack at hIp ⊢
          rwa [hIpLast]
        · exact takenBack_congr hClock
            (hSame _ rfl pair_ne_ip) hPair
      · intro error
        cases error
    · intro error
      cases error
  · intro error
    cases error

end Calls

end RateLimit

end CrudAuth
