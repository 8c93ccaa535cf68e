import CrudAuth.RateLimit.Counting
import CrudAuth.RateLimit.Policy

/-
  Lockouts of one pair escalate: each lasts at least twice as
  long as the one before, up to the maximum, while the round
  counters of the first are kept.

  Calls come one after another, with any time in between.
  The round of a lockout is the larger of two counters, and
  whichever held it goes on holding: every lockout that moves
  it has at least its round, and so keeps it as long.

  Main declarations:
    * `LockoutPolicy.after`
    * `LockoutPolicy.Trips`
    * `Ascent`
    * `Remembers`
    * `LockoutPolicy.escalates`
-/

namespace CrudAuth

namespace RateLimit

open Concurrency

------------------------------------------------------------
-- Sequential Runs
------------------------------------------------------------

/- Time passes or a sweep runs, or a call is made. -/
inductive Attempt (ρ : Type) where
  | tick (tick : Backend.Tick ρ)
  | check (ipAddress username : String) (success : Bool)

namespace LockoutPolicy

variable {ρ : Type} [DecidableEq ρ]
variable (policy : LockoutPolicy)
variable (backend : Backend)
variable (row : Key → ρ)

/- A call of `check_and_record`, alone. -/
def perform
    (ipAddress username : String)
    (success : Bool)
    (limiter : Limiter ρ) :
    Except Empty Outcome × Limiter ρ :=
  (policy.checkAndRecord ipAddress username success).run
    (backend.exec row) limiter

/- The limiter after one attempt. -/
def next (limiter : Limiter ρ) : Attempt ρ → Limiter ρ
  | .tick tick => backend.tick tick limiter
  | .check ipAddress username success =>
      (policy.perform backend row ipAddress username success
        limiter).2

/- The limiter after a sequential run. -/
def after
    (attempts : List (Attempt ρ))
    (limiter : Limiter ρ) : Limiter ρ :=
  attempts.foldl (policy.next backend row) limiter

@[simp]
theorem after_nil (limiter : Limiter ρ) :
    policy.after backend row [] limiter = limiter :=
  rfl

/- The rest of a run goes on from its first attempt. -/
@[simp]
theorem after_cons
    (attempt : Attempt ρ)
    (attempts : List (Attempt ρ))
    (limiter : Limiter ρ) :
    policy.after backend row (attempt :: attempts) limiter =
      policy.after backend row attempts
        (policy.next backend row limiter attempt) :=
  rfl

/- `max(get_ttl(ip_lock), get_ttl(user_lock))` -/
def activeLockout
    (ipAddress username : String)
    (limiter : Limiter ρ) : Nat :=
  max
    (backend.exec row (.getTtl (policy.ipLock ipAddress))
      limiter).1
    (backend.exec row (.getTtl (policy.userLock username))
      limiter).1

/- A failure that meets no lock, and is locked out for it. -/
def Trips
    (ipAddress username : String)
    (limiter : Limiter ρ)
    (duration : Nat) : Prop :=
  policy.activeLockout backend row ipAddress username
      limiter = 0 ∧
    (policy.perform backend row ipAddress username false
      limiter).1 = .ok (.verdict false (some 0) duration)

/- Nothing has been counted yet. -/
def unused
    (clock : Nat)
    (checks : List Bool) : Limiter ρ where
  counters := fun _ => none
  clock := clock
  checks := checks

end LockoutPolicy

------------------------------------------------------------
-- What A Call Does To The Rounds
------------------------------------------------------------

/- The counters of rounds. -/
def Key.isRounds : Key → Bool
  | .ipRounds _ => true
  | .userRounds _ => true
  | _ => false

/- The clock and the counters of a kind are the same. -/
structure Same
    (kind : Key → Bool)
    (limiter limiter' : Limiter Key) : Prop where
  clock : limiter'.clock = limiter.clock
  counters : ∀ key, kind key = true →
    limiter'.counters key = limiter.counters key

namespace LockoutPolicy

variable (policy : LockoutPolicy)
variable (backend : Backend)

/- The round that a lockout is in. -/
def rounds
    (ipAddress username : String)
    (limiter : Limiter Key) : Int :=
  max
    (((backend.live limiter (policy.ipRounds ipAddress)).map
      Counter.count).getD 0)
    (((backend.live limiter (policy.userRounds username)).map
      Counter.count).getD 0)

/- `max(retry_after, self.round_retention)` -/
def roundTtl (duration : Nat) : Nat :=
  max duration policy.roundRetentionSeconds

/- A lockout: its round counters climb, and others stay. -/
structure Climbs
    (ipAddress username : String)
    (limiter : Limiter Key)
    (duration : Nat)
    (limiter' : Limiter Key) : Prop where
  lasts : duration = policy.retryAfter
    (policy.rounds backend ipAddress username limiter)
  clock : limiter'.clock = limiter.clock
  ip : limiter'.counters (policy.ipRounds ipAddress) =
    some (backend.refreshed limiter
      (policy.ipRounds ipAddress) 1
      (policy.roundTtl duration))
  user : limiter'.counters (policy.userRounds username) =
    some (backend.refreshed limiter
      (policy.userRounds username) 1
      (policy.roundTtl duration))
  others : ∀ key, key.isRounds = true →
    key ≠ policy.ipRounds ipAddress →
    key ≠ policy.userRounds username →
      limiter'.counters key = limiter.counters key

end LockoutPolicy

section Calls

variable {kind : Key → Bool}
variable {policy : LockoutPolicy}
variable {backend : Backend}
variable {ipAddress username : String}
variable {limiter limiter' limiter'' : Limiter Key}

/- Nothing has changed. -/
theorem Same.refl (limiter : Limiter Key) :
    Same kind limiter limiter where
  clock := rfl
  counters _ _ := rfl

/- What two steps leave alone. -/
theorem Same.trans
    (hFirst : Same kind limiter limiter')
    (hSecond : Same kind limiter' limiter'') :
    Same kind limiter limiter'' where
  clock := hSecond.clock.trans hFirst.clock
  counters key hKey :=
    (hSecond.counters key hKey).trans
      (hFirst.counters key hKey)

/- Writing another counter. -/
theorem Same.put
    {key : Key}
    {counter : Option Counter}
    (hKey : kind key = false) :
    Same kind limiter (Backend.put limiter key counter) where
  clock := rfl
  counters other hOther := by
    have hNe : other ≠ key := by
      rintro rfl
      rw [hKey] at hOther
      cases hOther
    exact Function.update_of_ne hNe _ _

/- What is the same is as live as before. -/
theorem Same.live
    {key : Key}
    (hSame : Same kind limiter limiter')
    (hKey : kind key = true) :
    backend.live limiter' key =
      backend.live limiter key := by
  unfold Backend.live
  rw [hSame.counters key hKey, hSame.clock]

/- The operations that leave a kind of counters alone. -/
def Op.spares (kind : Key → Bool) : Op → Bool
  | .increment key _ _ => !kind key
  | .incrementAndRefreshTtl key _ _ => !kind key
  | .delete key => !kind key
  | _ => true

/- They do leave it alone. -/
theorem same_exec
    {op : Op}
    (hSpares : op.spares kind = true) :
    Same kind limiter (backend.exec id op limiter).2 := by
  cases op with
  | arrive called => exact .refl limiter
  | respond outcome => exact .refl limiter
  | getCount key => exact .refl limiter
  | getTtl key => exact .refl limiter
  | increment key amount expiry =>
      exact .put ((Bool.not_eq_true' _).mp hSpares)
  | incrementAndRefreshTtl key amount expiry =>
      exact .put ((Bool.not_eq_true' _).mp hSpares)
  | delete key =>
      exact .put ((Bool.not_eq_true' _).mp hSpares)
  | verify =>
      rcases limiter with ⟨counters, clock, checks⟩
      cases checks with
      | nil => exact .refl _
      | cons check checks => exact ⟨rfl, fun _ _ => rfl⟩

/- One operation, and what follows it. -/
theorem ends_step
    {ρ α : Type}
    [DecidableEq ρ]
    {row : Key → ρ}
    {limiter : Limiter ρ}
    {op : Op}
    {rest : op.Ret → Flow α}
    {goal : Except Empty α → Limiter ρ → Prop}
    (hRest :
      Program.Ends (I := interface) (backend.exec row)
        (rest (backend.exec row op limiter).1)
        (backend.exec row op limiter).2 goal) :
    Program.Ends (I := interface) (backend.exec row)
      ((call op).bind rest) limiter goal :=
  hRest

/- One that leaves a kind of counters alone. -/
theorem ends_spared
    (kind : Key → Bool)
    {α : Type}
    {op : Op}
    {rest : op.Ret → Flow α}
    {goal : Except Empty α → Limiter Key → Prop}
    (hSpares : op.spares kind = true)
    (hSame : Same kind limiter limiter')
    (hRest : ∀ limiter'', Same kind limiter limiter'' →
      Program.Ends (I := interface) (backend.exec id)
        (rest (backend.exec id op limiter').1)
        limiter'' goal) :
    Program.Ends (I := interface) (backend.exec id)
      ((call op).bind rest) limiter' goal :=
  hRest _ (hSame.trans (same_exec hSpares))

/- A success drops the rounds of its own identifier only. -/
structure Clears
    (policy : LockoutPolicy)
    (username : String)
    (limiter limiter' : Limiter Key) : Prop where
  clock : limiter'.clock = limiter.clock
  user :
    limiter'.counters (policy.userRounds username) = none
  counters : ∀ key, key.isRounds = true →
    key ≠ policy.userRounds username →
      limiter'.counters key = limiter.counters key

/- Other keys do not matter to a clearing. -/
theorem Clears.same
    (hClears : Clears policy username limiter limiter')
    (hSame : Same Key.isRounds limiter' limiter'') :
    Clears policy username limiter limiter'' where
  clock := hSame.clock.trans hClears.clock
  user := (hSame.counters _ rfl).trans hClears.user
  counters key hKey hNe :=
    (hSame.counters key hKey).trans
      (hClears.counters key hKey hNe)

/- A success clears the rounds. -/
theorem recordSuccess_ends :
    Program.Ends (I := interface) (backend.exec id)
      (policy.recordSuccess ipAddress username) limiter
      fun _ limiter' =>
        Clears policy username limiter limiter' := by
  unfold LockoutPolicy.recordSuccess
  simp only [Program.bind_eq]
  apply ends_spared Key.isRounds rfl (.refl limiter)
  intro first hFirst
  apply ends_spared Key.isRounds rfl hFirst
  intro second hSecond
  apply ends_step
  have hCleared : Clears policy username limiter
      (backend.exec id (.delete (policy.userRounds username))
        second).2 := by
    constructor
    · exact hSecond.clock
    · exact Function.update_self _ _ _
    · intro key hKey hNe
      exact (Function.update_of_ne hNe _ _).trans
        (hSecond.counters key hKey)
  generalize
    (backend.exec id (.delete (policy.userRounds username))
      second).2 = third at hCleared ⊢
  cases policy.onLoginSuccess with
  | clearUserOnly => exact hCleared
  | clearAll =>
      apply ends_step
      change Program.Ends (I := interface) (backend.exec id)
        _ third _
      cases (backend.exec id (.getCount
          (policy.pairAttempts ipAddress username)) third).1
        with
      | none => exact hCleared
      | some ownFailures =>
          dsimp only
          split
          · exact hCleared
          · apply ends_spared Key.isRounds rfl (.refl third)
            intro fourth hFourth
            split
            · apply ends_spared Key.isRounds rfl hFourth
              intro fifth hFifth
              exact hCleared.same hFifth
            · exact hCleared.same hFourth

/- Counting the pair leaves the rounds alone. -/
theorem countPair_ends :
    Program.Ends (I := interface) (backend.exec id)
      (policy.countPair ipAddress username) limiter
      fun _ limiter' =>
        Same Key.isRounds limiter limiter' := by
  unfold LockoutPolicy.countPair
  cases policy.onLoginSuccess with
  | clearUserOnly => exact .refl limiter
  | clearAll =>
      simp only [Program.bind_eq]
      apply ends_spared Key.isRounds rfl (.refl limiter)
      intro first hFirst
      split
      · apply ends_spared Key.isRounds rfl hFirst
        intro second hSecond
        exact hSecond
      · exact hFirst

/- A count of rounds after other steps. -/
theorem refreshed_same
    {key : Key}
    {expiry : Nat}
    (hSame : Same Key.isRounds limiter limiter')
    (hKey : key.isRounds = true) :
    backend.refreshed limiter' key 1 expiry =
      backend.refreshed limiter key 1 expiry := by
  unfold Backend.refreshed Backend.current
  rw [hSame.live hKey, hSame.clock]

/- The two round counters climb, one after the other. -/
theorem climbs_of_refreshed
    {duration : Nat}
    (hLasts : duration = policy.retryAfter
      (policy.rounds backend ipAddress username limiter))
    (hSame : Same Key.isRounds limiter limiter') :
    let ttl := policy.roundTtl duration
    let climbed := Backend.put limiter'
      (policy.ipRounds ipAddress)
      (some (backend.refreshed limiter'
        (policy.ipRounds ipAddress) 1 ttl))
    policy.Climbs backend ipAddress username limiter duration
      (Backend.put climbed (policy.userRounds username)
        (some (backend.refreshed climbed
          (policy.userRounds username) 1 ttl))) := by
  intro ttl climbed
  have hNe : policy.ipRounds ipAddress ≠
      policy.userRounds username := by
    intro hKeys
    cases hKeys
  constructor
  · exact hLasts
  · exact hSame.clock
  · unfold Backend.put
    dsimp only
    rw [Function.update_of_ne hNe]
    unfold climbed Backend.put
    dsimp only
    rw [Function.update_self,
      refreshed_same hSame rfl]
  · unfold Backend.put
    dsimp only
    rw [Function.update_self]
    have hOld :
        backend.refreshed climbed
            (policy.userRounds username) 1 ttl =
          backend.refreshed limiter'
            (policy.userRounds username) 1 ttl := by
      unfold Backend.refreshed Backend.current climbed
      rw [Backend.live_put_of_ne hNe]
      rfl
    rw [hOld, refreshed_same hSame rfl]
  · intro key hKey hIp hUser
    unfold Backend.put
    dsimp only
    rw [Function.update_of_ne hUser]
    unfold climbed Backend.put
    dsimp only
    rw [Function.update_of_ne hIp]
    exact hSame.counters key hKey

/- A lock-out climbs one round. -/
theorem lockOut_ends :
    Program.Ends (I := interface) (backend.exec id)
      (policy.lockOut ipAddress username) limiter
      fun result limiter' => ∃ duration,
        result = .ok (.verdict false (some 0) duration) ∧
          policy.Climbs backend ipAddress username limiter
            duration limiter' := by
  unfold LockoutPolicy.lockOut
  simp only [Program.bind_eq]
  apply ends_step
  apply ends_step
  apply ends_spared Key.isRounds rfl (.refl limiter)
  intro first hFirst
  apply ends_spared Key.isRounds rfl hFirst
  intro second hSecond
  apply ends_step
  apply ends_step
  exact ⟨_, rfl, climbs_of_refreshed rfl hSecond⟩

/- A failure is counted, refused or locked out. -/
theorem recordFailure_ends :
    Program.Ends (I := interface) (backend.exec id)
      (policy.recordFailure ipAddress username) limiter
      fun result limiter' =>
        (Same Key.isRounds limiter limiter' ∧
          (policy.activeLockout backend id ipAddress username
              limiter = 0 →
            ∃ remaining,
              result = .ok (.verdict true remaining 0))) ∨
        ∃ duration,
          result = .ok (.verdict false (some 0) duration) ∧
            policy.Climbs backend ipAddress username limiter
              duration limiter' := by
  unfold LockoutPolicy.recordFailure
  simp only [Program.bind_eq]
  apply ends_step
  apply ends_step
  change Program.Ends (I := interface) (backend.exec id) _
    limiter _
  split
  case isTrue hLocked =>
    left
    constructor
    · exact .refl limiter
    · intro hFree
      exact absurd hLocked
        (by
          change ¬ 0 < policy.activeLockout backend id
            ipAddress
            username limiter
          omega)
  case isFalse =>
    apply ends_spared Key.isRounds rfl (.refl limiter)
    intro first hFirst
    apply ends_spared Key.isRounds rfl hFirst
    intro second hSecond
    apply Program.Ends.bind countPair_ends
    · intro _ third hThird
      have hSame := hSecond.trans hThird
      split
      · left
        exact ⟨hSame, fun _ => ⟨_, rfl⟩⟩
      · apply Program.Ends.mono lockOut_ends
        rintro result last ⟨duration, hResult, hClimbs⟩
        right
        refine ⟨duration, hResult, ?_⟩
        have hIp := @Same.live _ backend _ _
          (policy.ipRounds ipAddress) hSame rfl
        have hUser := @Same.live _ backend _ _
          (policy.userRounds username) hSame rfl
        constructor
        · rw [hClimbs.lasts]
          unfold LockoutPolicy.rounds
          rw [hIp, hUser]
        · exact hClimbs.clock.trans hSame.clock
        · rw [hClimbs.ip, refreshed_same hSame rfl]
        · rw [hClimbs.user, refreshed_same hSame rfl]
        · intro key hKey hNotIp hNotUser
          rw [hClimbs.others key hKey hNotIp hNotUser]
          exact hSame.counters key hKey
    · intro error
      cases error

/- A call is one of the three. -/
theorem perform_cases
    (success : Bool) :
    let done := policy.perform backend id ipAddress username
      success limiter
    (success = true ∧
      Clears policy username limiter done.2) ∨
    (success = false ∧ Same Key.isRounds limiter done.2) ∨
    success = false ∧ ∃ duration,
      policy.Climbs backend ipAddress username limiter
        duration done.2 := by
  intro done
  cases success with
  | true => exact Or.inl ⟨rfl, recordSuccess_ends⟩
  | false =>
      rcases @recordFailure_ends policy backend ipAddress
          username limiter with
        ⟨hSame, _⟩ | ⟨duration, _, hClimbs⟩
      · exact Or.inr (Or.inl ⟨rfl, hSame⟩)
      · exact Or.inr (Or.inr ⟨rfl, duration, hClimbs⟩)

/- A lockout that trips climbs the rounds. -/
theorem climbs_of_trips
    {duration : Nat}
    (hTrips :
      policy.Trips backend id ipAddress username limiter
      duration) :
    policy.Climbs backend ipAddress username limiter duration
      (policy.perform backend id ipAddress username false
        limiter).2 := by
  rcases @recordFailure_ends policy backend ipAddress
      username limiter with
    ⟨_, hAllowed⟩ | ⟨other, hResult, hClimbs⟩
  · rcases hAllowed hTrips.1 with ⟨remaining, hResult⟩
    have hVerdict := hTrips.2.symm.trans hResult
    cases hVerdict
  · have hVerdict := hTrips.2.symm.trans hResult
    cases hVerdict
    exact hClimbs

end Calls

------------------------------------------------------------
-- Durations
------------------------------------------------------------

section Durations

variable (policy : LockoutPolicy)

/- A lock never outlasts the maximum. -/
theorem retryAfter_le_max (rounds : Int) :
    policy.retryAfter rounds ≤ policy.lockoutMaxSeconds :=
  Nat.min_le_right _ _

theorem le_retryAfter (rounds : Int) :
    min policy.lockoutBaseSeconds policy.lockoutMaxSeconds ≤
      policy.retryAfter rounds := by
  have hPow : 1 ≤ 2 ^ rounds.toNat := Nat.one_le_two_pow
  have hBase : policy.lockoutBaseSeconds * 1 ≤
      policy.lockoutBaseSeconds * 2 ^ rounds.toNat :=
    Nat.mul_le_mul_left _ hPow
  unfold LockoutPolicy.retryAfter
  omega

theorem retryAfter_mono
    {rounds rounds' : Int}
    (hRounds : rounds ≤ rounds') :
    policy.retryAfter rounds ≤
      policy.retryAfter rounds' := by
  have hNat : rounds.toNat ≤ rounds'.toNat := by omega
  have hPow : 2 ^ rounds.toNat ≤ 2 ^ rounds'.toNat :=
    Nat.pow_le_pow_right (by decide) hNat
  have hBase := Nat.mul_le_mul_left
    policy.lockoutBaseSeconds hPow
  unfold LockoutPolicy.retryAfter
  omega

/- The next round lasts twice as long, up to the maximum. -/
theorem double_le_retryAfter
    {rounds : Int}
    (hRounds : 0 ≤ rounds) :
    min (2 * policy.retryAfter rounds)
        policy.lockoutMaxSeconds ≤
      policy.retryAfter (rounds + 1) := by
  have hNat : (rounds + 1).toNat = rounds.toNat + 1 := by
    omega
  have hDouble :
      policy.lockoutBaseSeconds * 2 ^ (rounds + 1).toNat =
        2 * (policy.lockoutBaseSeconds *
          2 ^ rounds.toNat) := by
    rw [hNat, Nat.pow_succ, ← Nat.mul_assoc, Nat.mul_comm]
  unfold LockoutPolicy.retryAfter
  rw [hDouble]
  omega

end Durations

------------------------------------------------------------
-- Rounds Over A Run
------------------------------------------------------------

section Rounds

variable {policy : LockoutPolicy}
variable {backend : Backend}
variable {limiter limiter' : Limiter Key}
variable {ipAddress username : String}

/- No round counter is below zero. -/
def Ascent (limiter : Limiter Key) : Prop :=
  ∀ key counter, key.isRounds = true →
    limiter.counters key = some counter →
      0 ≤ counter.count

/- A counted round is not negative. -/
theorem Ascent.refreshed
    (hAscent : Ascent limiter)
    {key : Key}
    (hKey : key.isRounds = true)
    (expiry : Nat) :
    0 ≤ (backend.refreshed limiter key 1 expiry).count := by
  unfold Backend.refreshed Backend.current
  dsimp only
  cases hLive : backend.live limiter key with
  | none => decide
  | some counter =>
      have hStored := (Backend.live_eq_some.mp hLive).1
      have hCount := hAscent key counter hKey hStored
      rw [Option.getD_some]
      omega

/- An attempt keeps the counts so. -/
theorem Ascent.next
    (hAscent : Ascent limiter)
    (attempt : Attempt Key) :
    Ascent (policy.next backend id limiter attempt) := by
  intro key counter hKey hStored
  cases attempt with
  | tick tick =>
      cases tick with
      | pass microseconds =>
          exact hAscent key counter hKey hStored
      | sweep swept =>
          by_cases hSwept : key = swept
          · subst hSwept
            have hLive : backend.live limiter key =
                some counter :=
              (Function.update_self key _ _).symm.trans
                hStored
            exact hAscent key counter hKey
              (Backend.live_eq_some.mp hLive).1
          · have hOld : limiter.counters key =
                some counter :=
              (Function.update_of_ne hSwept _ _).symm.trans
                hStored
            exact hAscent key counter hKey hOld
  | check ip user success =>
      rcases @perform_cases policy backend ip user limiter
          success with
        ⟨hSuccess, hClears⟩ | ⟨_, hSame⟩ | ⟨_, _, hClimbs⟩
      · by_cases hUser : key = policy.userRounds user
        · have hGone := hClears.user
          rw [hUser] at hStored
          cases hGone.symm.trans hStored
        · have hOld := hClears.counters key hKey hUser
          exact hAscent key counter hKey
            (hOld.symm.trans hStored)
      · exact hAscent key counter hKey
          ((hSame.counters key hKey).symm.trans hStored)
      · by_cases hIp : key = policy.ipRounds ip
        · have hCounter := hClimbs.ip.symm.trans
            (hIp ▸ hStored)
          cases hCounter
          exact hAscent.refreshed rfl _
        · by_cases hUser : key = policy.userRounds user
          · have hCounter := hClimbs.user.symm.trans
              (hUser ▸ hStored)
            cases hCounter
            exact hAscent.refreshed rfl _
          · have hOld := hClimbs.others key hKey hIp hUser
            exact hAscent key counter hKey
              (hOld.symm.trans hStored)

/- A counter is kept at a round, until a moment. -/
def Remembers
    (limiter : Limiter Key)
    (key : Key)
    (round : Int)
    (deadline : Nat) : Prop :=
  ∃ counter expiry,
    limiter.counters key = some counter ∧
      round ≤ counter.count ∧
      counter.expiresAt = some expiry ∧ deadline ≤ expiry

variable {key : Key}
variable {round : Int}
variable {deadline : Nat}

/- Until then it is live. -/
theorem Remembers.live
    (hRemembers : Remembers limiter key round deadline)
    (hOpen : backend.now limiter.clock < deadline) :
    ∃ counter, backend.live limiter key = some counter ∧
      limiter.counters key = some counter ∧
      round ≤ counter.count := by
  rcases hRemembers with
    ⟨counter, expiry, hStored, hRound, hExpiry, hDeadline⟩
  refine ⟨counter, ?_, hStored, hRound⟩
  rw [Backend.live_eq_some]
  constructor
  · exact hStored
  · unfold Backend.isExpired
    rw [hExpiry, Option.any_some]
    cases backend with
    | memory =>
        simp only [decide_eq_false_iff_not]
        omega
    | database =>
        simp only [decide_eq_false_iff_not]
        omega
    | redis =>
        simp only [decide_eq_false_iff_not]
        omega

/- More seconds take longer. -/
theorem seconds_mono
    {count count' : Nat}
    (hCount : count ≤ count') :
    backend.seconds count ≤ backend.seconds count' := by
  cases backend with
  | memory => exact Nat.mul_le_mul_right _ hCount
  | database => exact Nat.mul_le_mul_right _ hCount
  | redis => exact Nat.mul_le_mul_right _ hCount

/- A lockout that moves the counter keeps it as long. -/
theorem Remembers.refreshed
    {least duration start : Nat}
    (hRemembers : Remembers limiter key round
      (start + backend.seconds (policy.roundTtl least)))
    (hOpen : backend.now limiter.clock <
      start + backend.seconds (policy.roundTtl least))
    (hStart : start ≤ backend.now limiter.clock)
    (hDuration : least ≤ duration)
    (hStored : limiter'.counters key =
      some (backend.refreshed limiter key 1
        (policy.roundTtl duration))) :
    Remembers limiter' key round
      (start + backend.seconds (policy.roundTtl least)) := by
  rcases hRemembers.live hOpen with
    ⟨counter, hLive, _, hRound⟩
  refine ⟨_, _, hStored, ?_, rfl, ?_⟩
  · unfold Backend.refreshed Backend.current
    rw [hLive]
    dsimp only [Option.getD_some]
    omega
  · have hTtl :
        policy.roundTtl least ≤
          policy.roundTtl duration := by
      unfold LockoutPolicy.roundTtl
      omega
    have hSeconds := @seconds_mono backend _ _ hTtl
    omega

/-
  The round of a lockout is that of its counters at least.
-/
theorem le_rounds_of_live
    {counter : Counter}
    (hLive : backend.live limiter key = some counter)
    (hKey : key = policy.ipRounds ipAddress ∨
      key = policy.userRounds username) :
    counter.count ≤
      policy.rounds backend ipAddress username limiter := by
  unfold LockoutPolicy.rounds
  rcases hKey with rfl | rfl
  · rw [hLive]
    exact le_max_left _ _
  · rw [hLive]
    exact le_max_right _ _

/- An attempt that is not a success of this counter. -/
def Attempt.Keeps
    (policy : LockoutPolicy)
    (key : Key) : Attempt Key → Prop
  | .tick _ => True
  | .check _ username success =>
      success = true → key ≠ policy.userRounds username

/- One attempt keeps what is remembered. -/
theorem Remembers.next
    {least start : Nat}
    {attempt : Attempt Key}
    (hRemembers : Remembers limiter key round
      (start + backend.seconds (policy.roundTtl least)))
    (hKey : key.isRounds = true)
    (hRound : least ≤ policy.retryAfter round)
    (hOpen : backend.now limiter.clock <
      start + backend.seconds (policy.roundTtl least))
    (hStart : start ≤ backend.now limiter.clock)
    (hKeeps : attempt.Keeps policy key) :
    Remembers (policy.next backend id limiter attempt)
      key round
      (start + backend.seconds (policy.roundTtl least)) := by
  rcases hRemembers.live hOpen with
    ⟨counter, hLive, hStored, hCount⟩
  cases attempt with
  | tick tick =>
      cases tick with
      | pass microseconds => exact hRemembers
      | sweep swept =>
          have hSwept : (policy.next backend id limiter
              (.tick (.sweep swept))).counters key =
                limiter.counters key := by
            by_cases hKeys : key = swept
            · subst hKeys
              rw [hStored, ← hLive]
              exact Function.update_self _ _ _
            · exact Function.update_of_ne hKeys _ _
          unfold Remembers
          rw [hSwept]
          exact hRemembers
  | check ip user success =>
      rcases @perform_cases policy backend ip user limiter
          success with
        ⟨hSuccess, hClears⟩ | ⟨_, hSame⟩ |
          ⟨_, duration, hClimbs⟩
      · have hOld := hClears.counters key hKey
          (hKeeps hSuccess)
        unfold Remembers
        change ∃ counter expiry,
          (policy.perform backend id ip user success
            limiter).2.counters key = _ ∧ _
        rw [hOld]
        exact hRemembers
      · unfold Remembers
        change ∃ counter expiry,
          (policy.perform backend id ip user success
            limiter).2.counters key = _ ∧ _
        rw [hSame.counters key hKey]
        exact hRemembers
      · have hLasts :
            (key = policy.ipRounds ip ∨
              key = policy.userRounds user) →
            least ≤ duration := by
          intro hMoved
          have hRounds := le_rounds_of_live hLive hMoved
          have hLonger := retryAfter_mono policy
            (Int.le_trans hCount hRounds)
          rw [hClimbs.lasts]
          omega
        by_cases hIp : key = policy.ipRounds ip
        · exact hRemembers.refreshed hOpen hStart
            (hLasts (Or.inl hIp)) (hIp ▸ hClimbs.ip)
        · by_cases hUser : key = policy.userRounds user
          · exact hRemembers.refreshed hOpen hStart
              (hLasts (Or.inr hUser)) (hUser ▸ hClimbs.user)
          · unfold Remembers
            change ∃ counter expiry,
              (policy.perform backend id ip user success
                limiter).2.counters key = _ ∧ _
            rw [hClimbs.others key hKey hIp hUser]
            exact hRemembers

/- Time does not run back. -/
theorem clock_next
    (attempt : Attempt Key) :
    limiter.clock ≤
      (policy.next backend id limiter attempt).clock := by
  cases attempt with
  | tick tick =>
      cases tick with
      | pass microseconds => exact Nat.le_add_right _ _
      | sweep swept => exact Nat.le_refl _
  | check ip user success =>
      rcases @perform_cases policy backend ip user limiter
          success with
        ⟨_, hClears⟩ | ⟨_, hSame⟩ | ⟨_, _, hClimbs⟩
      · exact hClears.clock.symm.le
      · exact hSame.clock.symm.le
      · exact hClimbs.clock.symm.le

/- The clock does not go back. -/
theorem clock_after
    (attempts : List (Attempt Key)) :
    limiter.clock ≤
      (policy.after backend id attempts limiter).clock := by
  induction attempts generalizing limiter with
  | nil => exact Nat.le_refl _
  | cons attempt attempts ih =>
      exact Nat.le_trans (clock_next attempt) ih

/- A run keeps it, as long as it ends before its expiry. -/
theorem Remembers.after
    {least start : Nat}
    {attempts : List (Attempt Key)}
    (hRemembers : Remembers limiter key round
      (start + backend.seconds (policy.roundTtl least)))
    (hKey : key.isRounds = true)
    (hRound : least ≤ policy.retryAfter round)
    (hStart : start ≤ backend.now limiter.clock)
    (hKeeps : ∀ attempt ∈ attempts,
      attempt.Keeps policy key)
    (hOpen : backend.now
        (policy.after backend id attempts limiter).clock <
      start + backend.seconds (policy.roundTtl least)) :
    Remembers (policy.after backend id attempts limiter) key
      round
      (start + backend.seconds (policy.roundTtl least)) := by
  induction attempts generalizing limiter with
  | nil => exact hRemembers
  | cons attempt attempts ih =>
      have hLater := backend.now_mono
        (@clock_after policy backend limiter
          (attempt :: attempts))
      have hNow := backend.now_mono
        (@clock_next policy backend limiter attempt)
      have hNext := hRemembers.next hKey hRound
        (Nat.lt_of_le_of_lt hLater hOpen) hStart
        (hKeeps attempt List.mem_cons_self)
      exact ih hNext (Nat.le_trans hStart hNow)
        (fun other hOther =>
          hKeeps other (List.mem_cons_of_mem _ hOther))
        hOpen

theorem ascent_after
    (hAscent : Ascent limiter)
    (attempts : List (Attempt Key)) :
    Ascent (policy.after backend id attempts limiter) := by
  induction attempts generalizing limiter with
  | nil => exact hAscent
  | cons attempt attempts ih =>
      exact ih (hAscent.next attempt)

/-
  The round that a lockout came from is kept by a counter.
-/
theorem remembers_of_climbs
    {duration : Nat}
    (hClimbs :
      policy.Climbs backend ipAddress username limiter
      duration limiter') :
    ∃ key,
      (key = policy.ipRounds ipAddress ∨
        key = policy.userRounds username) ∧
      Remembers limiter' key
        (policy.rounds backend ipAddress username
          limiter + 1)
        (backend.now limiter.clock +
          backend.seconds (policy.roundTtl duration)) := by
  have hCount : ∀ key,
      (backend.refreshed limiter key 1
        (policy.roundTtl duration)).count =
      ((backend.live limiter key).map Counter.count).getD 0 +
        1 := by
    intro key
    unfold Backend.refreshed Backend.current
    cases backend.live limiter key <;> rfl
  by_cases hIp :
      ((backend.live limiter
          (policy.userRounds username)).map
        Counter.count).getD 0 ≤
      ((backend.live limiter
          (policy.ipRounds ipAddress)).map
        Counter.count).getD 0
  · refine ⟨_, Or.inl rfl, _, _, hClimbs.ip, ?_, rfl,
      Nat.le_refl _⟩
    rw [hCount]
    unfold LockoutPolicy.rounds
    omega
  · refine ⟨_, Or.inr rfl, _, _, hClimbs.user, ?_, rfl,
      Nat.le_refl _⟩
    rw [hCount]
    unfold LockoutPolicy.rounds
    omega

end Rounds

------------------------------------------------------------
-- Escalation
------------------------------------------------------------

namespace LockoutPolicy

variable (policy : LockoutPolicy)
variable (backend : Backend)

/- No attempt is a success of this identifier. -/
def NeverSucceeds
    {ρ : Type}
    (username : String)
    (attempts : List (Attempt ρ)) : Prop :=
  ∀ ipAddress other,
    Attempt.check ipAddress other true ∈ attempts →
      policy.canonicalIdentifier other ≠
        policy.canonicalIdentifier username

/- Two names of one pair. -/
def SamePair
    (ipAddress username ipAddress' username' : String) :
    Prop :=
  policy.clientIpKey ipAddress' =
      policy.clientIpKey ipAddress ∧
    policy.canonicalIdentifier username' =
      policy.canonicalIdentifier username

/- Without a success the rounds stay. -/
theorem NeverSucceeds.keeps
    {policy : LockoutPolicy}
    {ipAddress username : String}
    {attempts : List (Attempt Key)}
    (hNever : policy.NeverSucceeds username attempts)
    {key : Key}
    (hKey : key = policy.ipRounds ipAddress ∨
      key = policy.userRounds username) :
    ∀ attempt ∈ attempts, attempt.Keeps policy key := by
  intro attempt hAttempt
  cases attempt with
  | tick tick => trivial
  | check ip other success =>
      rintro rfl hSame
      rcases hKey with rfl | rfl
      · cases hSame
      · exact hNever ip other hAttempt
          (Key.userRounds.inj hSame).symm

/- A second lockout, before the round counters expire. -/
theorem double_le_of_trips
    {policy : LockoutPolicy}
    {backend : Backend}
    {limiter : Limiter Key}
    (hAscent : Ascent limiter)
    {between : List (Attempt Key)}
    {ipAddress username ipAddress' username' : String}
    {duration duration' : Nat}
    (hPair : policy.SamePair ipAddress username ipAddress'
      username')
    (hNever : policy.NeverSucceeds username between)
    (hFirst :
      policy.Trips backend id ipAddress username limiter
      duration)
    (hSecond : policy.Trips backend id ipAddress' username'
      (policy.after backend id
        (.check ipAddress username false :: between) limiter)
      duration')
    (hSoon : backend.now
        (policy.after backend id
          (.check ipAddress username false :: between)
          limiter).clock <
      backend.now limiter.clock +
        backend.seconds (policy.roundTtl duration)) :
    min (2 * duration) policy.lockoutMaxSeconds ≤
      duration' := by
  have hClimbs := climbs_of_trips hFirst
  have hClimbs' := climbs_of_trips hSecond
  rcases remembers_of_climbs hClimbs with
    ⟨key, hKey, hRemembers⟩
  have hRounds : key.isRounds = true := by
    rcases hKey with rfl | rfl <;> rfl
  -- The round of the first lockout is not below zero.
  have hNonneg : 0 ≤
      policy.rounds backend ipAddress username limiter := by
    unfold LockoutPolicy.rounds
    cases hLive : backend.live limiter
        (policy.ipRounds ipAddress) with
    | none => exact le_max_left _ _
    | some counter =>
        have hStored := (Backend.live_eq_some.mp hLive).1
        exact Int.le_trans
          (hAscent _ counter rfl hStored) (le_max_left _ _)
  have hDouble := double_le_retryAfter policy hNonneg
  have hRound : duration ≤ policy.retryAfter
      (policy.rounds backend ipAddress username limiter +
        1) := by
    rw [hClimbs.lasts]
    exact retryAfter_mono policy (by omega)
  have hKept := @Remembers.after policy backend _ key _ _ _
    between hRemembers hRounds hRound
    (backend.now_mono hClimbs.clock.symm.le)
    (hNever.keeps hKey) hSoon
  rcases hKept.live hSoon with
    ⟨counter, hLive, _, hCount⟩
  have hKey' : key = policy.ipRounds ipAddress' ∨
      key = policy.userRounds username' := by
    unfold LockoutPolicy.ipRounds LockoutPolicy.userRounds
      at hKey ⊢
    rw [hPair.1, hPair.2]
    exact hKey
  have hLater := le_rounds_of_live hLive hKey'
  have hLonger := retryAfter_mono policy
    (Int.le_trans hCount hLater)
  rw [← hClimbs.lasts] at hDouble
  rw [hClimbs'.lasts]
  exact Nat.le_trans hDouble hLonger

/-
  Every lockout lasts between its two bounds, and one of a
  pair that comes before the round counters of an earlier
  one have expired lasts twice as long, up to the maximum.
-/
theorem escalates
    (clock : Nat)
    (checks : List Bool) :
    (∀ attempts ipAddress username duration,
      policy.Trips backend id ipAddress username
        (policy.after backend id attempts
          (unused clock checks))
        duration →
      min policy.lockoutBaseSeconds
          policy.lockoutMaxSeconds ≤ duration ∧
        duration ≤ policy.lockoutMaxSeconds) ∧
    (∀ before between ipAddress username ipAddress' username'
        duration duration',
      let first := policy.after backend id before
        (unused clock checks)
      let second := policy.after backend id
        (.check ipAddress username false :: between) first
      policy.SamePair ipAddress username ipAddress'
        username' →
      policy.NeverSucceeds username between →
      policy.Trips backend id ipAddress username first
        duration →
      policy.Trips backend id ipAddress' username' second
        duration' →
      backend.now second.clock <
        backend.now first.clock + backend.seconds
          (max duration policy.roundRetentionSeconds) →
      min (2 * duration) policy.lockoutMaxSeconds ≤
        duration') := by
  constructor
  · intro attempts ipAddress username duration hTrips
    rw [(climbs_of_trips hTrips).lasts]
    exact ⟨le_retryAfter policy _,
      retryAfter_le_max policy _⟩
  · intro before between ipAddress username ipAddress'
      username' duration duration' first second hPair hNever
      hFirst hSecond hSoon
    have hUnused : Ascent (unused clock checks) := by
      intro key counter _ hStored
      cases hStored
    exact double_le_of_trips
      (ascent_after hUnused before) hPair hNever hFirst
      hSecond hSoon

end LockoutPolicy

end RateLimit

end CrudAuth
