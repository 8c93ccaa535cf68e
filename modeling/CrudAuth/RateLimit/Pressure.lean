import CrudAuth.RateLimit.AttemptCounters
import Mathlib.Data.List.Count
import Mathlib.Data.Set.Basic

/-
  The failures of an address that stand: those of its
  current window whose user has not logged in from it since,
  and was not asked for a second factor instead.

  A pair's counter takes its expiry from what is left of the
  address's window, rounded to seconds.  It may so live a
  little longer than the window, and then says nothing of
  the next one.

  Main declarations:
    * `Backend.SameWindow`
    * `Backed`
    * `Backed.fail`
    * `Backed.succeed`
    * `Backed.forget`
    * `Enclosed`
-/

namespace CrudAuth

namespace RateLimit

open Concurrency

------------------------------------------------------------
-- Windows
------------------------------------------------------------

/- The counter of an address, under its canonical form. -/
def addressKey (address : String) : Key :=
  .ipAttempts address

/- The counter of an address and a user. -/
def pairKey (address user : String) : Key :=
  .pairAttempts (address ++ ":" ++ user)

/- When a counter expires. -/
def Counter.deadline (counter : Counter) : Nat :=
  counter.expiresAt.getD 0

namespace Backend

/- How much sooner a pair's counter may expire. -/
def early : Backend → Nat
  | .memory => 1000000
  | .database => 1
  | .redis => 500

/- How much later it may. -/
def late : Backend → Nat
  | .memory => 0
  | .database => 999
  | .redis => 500

/- The pair was first counted in the address's window. -/
def SameWindow
    (backend : Backend)
    (pair address : Counter) : Prop :=
  address.deadline < pair.deadline + backend.early

variable {backend : Backend}
variable {limiter : Limiter Key}
variable {key : Key}
variable {counter : Counter}
variable {amount : Int}
variable {expiry : Nat}

/- Rounding costs less than a second. -/
theorem early_add_late (backend : Backend) :
    backend.early + backend.late ≤ backend.seconds 1 := by
  cases backend <;> decide

/- The remaining time is right up to rounding. -/
theorem remaining_bounds
    {clock deadline : Nat}
    (hPositive : 0 < backend.remaining clock deadline) :
    deadline <
        backend.now clock +
          backend.seconds
            (backend.remaining clock deadline) +
          backend.early ∧
      backend.now clock +
          backend.seconds
            (backend.remaining clock deadline) ≤
        deadline + backend.late := by
  cases backend with
  | memory =>
      simp only [remaining, seconds, early, late]
        at hPositive ⊢
      omega
  | database =>
      simp only [remaining, seconds, early, late]
        at hPositive ⊢
      omega
  | redis =>
      simp only [remaining, seconds, early, late]
        at hPositive ⊢
      omega

/- A positive expiry is a second at least. -/
theorem seconds_le_of_pos
    (backend : Backend)
    (hPositive : 0 < expiry) :
    backend.seconds 1 ≤ backend.seconds expiry := by
  cases backend <;> simp only [seconds] <;> omega

/- What is not live any more has met its deadline. -/
theorem deadline_le_now
    (hStored : limiter.counters key = some counter)
    (hExpires : counter.expiresAt.isSome)
    (hNone : backend.live limiter key = none) :
    counter.deadline ≤ backend.now limiter.clock := by
  obtain ⟨deadline, hDeadline⟩ :=
    Option.isSome_iff_exists.mp hExpires
  have hExpired :
      backend.isExpired limiter.clock counter = true := by
    cases hLive :
        backend.isExpired limiter.clock counter with
    | true => rfl
    | false =>
        have hSome := live_eq_some.mpr ⟨hStored, hLive⟩
        rw [hNone] at hSome
        cases hSome
  unfold isExpired at hExpired
  unfold Counter.deadline
  rw [hDeadline] at hExpired ⊢
  cases backend with
  | memory =>
      exact (of_decide_eq_true hExpired).le
  | database => exact of_decide_eq_true hExpired
  | redis =>
      exact (of_decide_eq_true hExpired).le

/- A live counter is increased. -/
theorem incremented_of_live
    (amount : Int)
    (expiry : Nat)
    (hLive : backend.live limiter key = some counter)
    (hExpires : counter.expiresAt.isSome) :
    (backend.incremented limiter key amount expiry).count =
        counter.count + amount ∧
      (backend.incremented limiter key amount
        expiry).expiresAt = counter.expiresAt := by
  unfold incremented current
  rw [hLive]
  refine ⟨rfl, ?_⟩
  obtain ⟨deadline, hDeadline⟩ :=
    Option.isSome_iff_exists.mp hExpires
  change some (counter.expiresAt.getD _) = _
  rw [hDeadline]
  rfl

theorem incremented_of_none
    (amount : Int)
    (expiry : Nat)
    (hNone : backend.live limiter key = none) :
    (backend.incremented limiter key amount expiry).count =
        amount ∧
      (backend.incremented limiter key amount
        expiry).expiresAt =
          some (backend.now limiter.clock +
            backend.seconds expiry) := by
  unfold incremented current
  rw [hNone]
  exact ⟨Int.zero_add amount, rfl⟩

/- The remaining time of a live counter. -/
theorem getTtl_eq :
    (backend.exec id (.getTtl key) limiter).1 =
      ((backend.live limiter key).bind
        Counter.expiresAt).elim 0
          (backend.remaining limiter.clock) := by
  simp only [exec, id_eq]
  cases (backend.live limiter key).bind
    Counter.expiresAt with
  | none => rfl
  | some deadline => rfl

/- A time to live that is left is that of a live counter. -/
theorem remaining_of_getTtl
    (hPositive :
      0 < (backend.exec id (.getTtl key) limiter).1) :
    ∃ counter,
      backend.live limiter key = some counter ∧
      (backend.exec id (.getTtl key) limiter).1 =
        backend.remaining limiter.clock
          counter.deadline := by
  rw [getTtl_eq] at hPositive ⊢
  cases hLive : backend.live limiter key with
  | none =>
      rw [hLive] at hPositive
      exact absurd hPositive (Nat.lt_irrefl 0)
  | some counter =>
      rw [hLive, Option.bind_some] at hPositive
      refine ⟨counter, rfl, ?_⟩
      rw [Option.bind_some]
      unfold Counter.deadline
      cases hDeadline : counter.expiresAt with
      | none =>
          rw [hDeadline] at hPositive
          exact absurd hPositive (Nat.lt_irrefl 0)
      | some deadline => rfl

/- A counted key has a deadline. -/
theorem incremented_expires :
    (backend.incremented limiter key amount
      expiry).expiresAt.isSome :=
  rfl

end Backend

------------------------------------------------------------
-- Counts And Failures
------------------------------------------------------------

/-
  The counters of one address against its standing failures:
  each is backed by the address's count, and what a pair
  would take back is no more than its own.
-/
structure Backed
    (backend : Backend)
    (limiter : Limiter Key)
    (standing : List String)
    (address : String) : Prop where
  expires : ∀ counter,
    limiter.counters (addressKey address) = some counter →
      counter.expiresAt.isSome
  pairExpires : ∀ user own,
    limiter.counters (pairKey address user) = some own →
      own.expiresAt.isSome
  count : ∀ counter,
    backend.live limiter (addressKey address) =
      some counter →
      (standing.length : Int) ≤ counter.count
  pairCount : ∀ user own counter,
    backend.live limiter (pairKey address user) =
      some own →
    backend.live limiter (addressKey address) =
      some counter →
    backend.SameWindow own counter →
      own.count ≤ standing.count user
  window : ∀ user own,
    limiter.counters (pairKey address user) = some own →
      own.deadline ≤
          backend.now limiter.clock + backend.late ∨
        ∃ counter,
          limiter.counters (addressKey address) =
            some counter ∧
          own.deadline ≤ counter.deadline + backend.late

section Kept

variable {backend : Backend}
variable {limiter limiter' : Limiter Key}
variable {standing : List String}
variable {address user : String}

/- An address's key is no pair's. -/
theorem addressKey_ne_pairKey
    {other : String} :
    addressKey address ≠ pairKey other user :=
  nofun

/- A pair's key names its user. -/
theorem pairKey_injective
    {other : String}
    (hKey : pairKey address user = pairKey address other) :
    user = other := by
  have hText := Key.pairAttempts.inj hKey
  have hList := congrArg String.toList hText
  simp only [String.toList_append] at hList
  exact String.toList_injective
    (List.append_cancel_left hList)

/- Where nothing of the address is touched. -/
theorem Backed.congr
    (hBacked : Backed backend limiter standing address)
    (hClock : limiter'.clock = limiter.clock)
    (hAddress :
      limiter'.counters (addressKey address) =
        limiter.counters (addressKey address))
    (hPairs : ∀ user,
      limiter'.counters (pairKey address user) =
        limiter.counters (pairKey address user)) :
    Backed backend limiter' standing address := by
  constructor
  · rw [hAddress]
    exact hBacked.expires
  · intro user
    rw [hPairs user]
    exact hBacked.pairExpires user
  · rw [live_congr hClock hAddress]
    exact hBacked.count
  · intro user
    rw [live_congr hClock hAddress,
      live_congr hClock (hPairs user)]
    exact hBacked.pairCount user
  · intro user
    rw [hPairs user, hAddress, hClock]
    exact hBacked.window user

/- Time passes, or an expired counter is swept away. -/
theorem Backed.tick
    {tick : Backend.Tick Key}
    (hBacked : Backed backend limiter standing address) :
    Backed backend (backend.tick tick limiter) standing
      address := by
  have hStored : ∀ key counter,
      (backend.tick tick limiter).counters key =
        some counter →
      limiter.counters key = some counter := by
    intro key counter hCounter
    cases tick with
    | pass microseconds => exact hCounter
    | sweep swept =>
        by_cases hKey : key = swept
        · subst hKey
          change (Backend.put limiter key _).counters key =
            _ at hCounter
          rw [counters_put_self] at hCounter
          exact (Backend.live_eq_some.mp hCounter).1
        · change (Backend.put limiter swept _).counters key =
            _ at hCounter
          rwa [counters_put_of_ne _ _ hKey] at hCounter
  constructor
  · intro counter hCounter
    exact hBacked.expires counter (hStored _ _ hCounter)
  · intro user own hOwn
    exact hBacked.pairExpires user own (hStored _ _ hOwn)
  · intro counter hLive
    exact hBacked.count counter (Backend.live_of_tick hLive)
  · intro user own counter hOwn hLive
    exact hBacked.pairCount user own counter
      (Backend.live_of_tick hOwn)
      (Backend.live_of_tick hLive)
  · intro user own hOwn
    have hWindow :=
      hBacked.window user own (hStored _ _ hOwn)
    cases tick with
    | pass microseconds =>
        have hNow :
            backend.now limiter.clock ≤
              backend.now (limiter.clock + microseconds) :=
          Backend.now_mono (Nat.le_add_right _ _)
        rcases hWindow with hOver | hOpen
        · exact Or.inl
            (hOver.trans (Nat.add_le_add_right hNow _))
        · exact Or.inr hOpen
    | sweep swept =>
        rcases hWindow with hOver | ⟨counter, hCounter, hLe⟩
        · exact Or.inl hOver
        by_cases hKey : addressKey address = swept
        · subst hKey
          cases hLive :
              backend.live limiter (addressKey address) with
          | none =>
              have hPast := Backend.deadline_le_now hCounter
                (hBacked.expires counter hCounter) hLive
              exact Or.inl
                (hLe.trans (Nat.add_le_add_right hPast _))
          | some live =>
              obtain rfl : counter = live :=
                Option.some.inj (hCounter.symm.trans
                  (Backend.live_eq_some.mp hLive).1)
              refine Or.inr ⟨counter, ?_, hLe⟩
              change (Backend.put limiter _ _).counters _ = _
              rw [counters_put_self, hLive]
        · refine Or.inr ⟨counter, ?_, hLe⟩
          change (Backend.put limiter swept _).counters _ = _
          rw [counters_put_of_ne _ _ hKey, hCounter]

/-
  What a step makes of an address whose counter keeps its
  deadline: only the counts are left to compare.
-/
theorem Backed.of_counts
    {standing' : List String}
    (hBacked : Backed backend limiter standing address)
    (hClock : limiter'.clock = limiter.clock)
    (hAddress : ∀ counter,
      limiter'.counters (addressKey address) =
        some counter →
      ∃ before,
        limiter.counters (addressKey address) =
          some before ∧
        counter.expiresAt = before.expiresAt)
    (hKept : ∀ before,
      limiter.counters (addressKey address) = some before →
      ∃ counter,
        limiter'.counters (addressKey address) =
          some counter ∧
        counter.expiresAt = before.expiresAt)
    (hPairs : ∀ user own,
      limiter'.counters (pairKey address user) = some own →
      ∃ before,
        limiter.counters (pairKey address user) =
          some before ∧
        own.expiresAt = before.expiresAt)
    (hCount : ∀ counter,
      backend.live limiter' (addressKey address) =
        some counter →
        (standing'.length : Int) ≤ counter.count)
    (hPairCount : ∀ user own counter,
      backend.live limiter' (pairKey address user) =
        some own →
      backend.live limiter' (addressKey address) =
        some counter →
      backend.SameWindow own counter →
        own.count ≤ standing'.count user) :
    Backed backend limiter' standing' address where
  expires counter hCounter := by
    obtain ⟨before, hBefore, hExpiry⟩ :=
      hAddress counter hCounter
    rw [hExpiry]
    exact hBacked.expires before hBefore
  pairExpires user own hOwn := by
    obtain ⟨before, hBefore, hExpiry⟩ := hPairs user own hOwn
    rw [hExpiry]
    exact hBacked.pairExpires user before hBefore
  count := hCount
  pairCount := hPairCount
  window user own hOwn := by
    obtain ⟨before, hBefore, hExpiry⟩ := hPairs user own hOwn
    have hDeadline : own.deadline = before.deadline :=
      congrArg (·.getD 0) hExpiry
    rw [hDeadline, hClock]
    rcases hBacked.window user before hBefore with
      hOver | ⟨counter, hCounter, hLe⟩
    · exact Or.inl hOver
    · obtain ⟨counter', hCounter', hSame⟩ :=
        hKept counter hCounter
      refine Or.inr ⟨counter', hCounter', ?_⟩
      have hEq : counter'.deadline = counter.deadline :=
        congrArg (·.getD 0) hSame
      rwa [hEq]

/- The counters of a pair after a failure was counted. -/
theorem pair_cases
    {policy : LockoutPolicy}
    {ipAddress username user : String}
    {own : Counter}
    (hExpires : ∀ user own,
      limiter.counters
        (pairKey (policy.clientIpKey ipAddress) user) =
          some own →
        own.expiresAt.isSome)
    (hCounted : policy.FailureCounted backend ipAddress
      username limiter limiter')
    (hOwn : limiter'.counters
      (pairKey (policy.clientIpKey ipAddress) user) =
        some own) :
    limiter.counters
        (pairKey (policy.clientIpKey ipAddress) user) =
      some own ∨
    user = policy.canonicalIdentifier username ∧
      ((∃ before,
        backend.live limiter
            (pairKey (policy.clientIpKey ipAddress) user) =
          some before ∧
        own.count = before.count + 1 ∧
        own.expiresAt = before.expiresAt) ∨
      ∃ counter,
        limiter'.counters
            (addressKey (policy.clientIpKey ipAddress)) =
          some counter ∧
        own.count = 1 ∧
        own.expiresAt.isSome ∧
        backend.SameWindow own counter ∧
        own.deadline ≤ counter.deadline + backend.late) := by
  by_cases hUser : user = policy.canonicalIdentifier username
  case neg =>
    have hNe :
        pairKey (policy.clientIpKey ipAddress) user ≠
          policy.pairAttempts ipAddress username := by
      intro hKey
      exact hUser (pairKey_injective hKey)
    rw [hCounted.others _ rfl
      (Ne.symm addressKey_ne_pairKey) hNe] at hOwn
    exact Or.inl hOwn
  subst hUser
  rcases hCounted.pair with
    hSame | ⟨expiry, hPositive, hTtl, hIncremented⟩
  · exact Or.inl (hSame.symm.trans hOwn)
  · obtain rfl := Option.some.inj
      (hOwn.symm.trans hIncremented)
    refine Or.inr ⟨rfl, ?_⟩
    cases hLive : backend.live limiter
        (pairKey (policy.clientIpKey ipAddress)
          (policy.canonicalIdentifier username)) with
    | some before =>
        have hStored := (Backend.live_eq_some.mp hLive).1
        have hAfter := Backend.incremented_of_live
          1 expiry hLive
          (hExpires _ _ hStored)
        exact Or.inl
          ⟨before, rfl, hAfter.1, hAfter.2⟩
    | none =>
        have hAfter := Backend.incremented_of_none
          1 expiry hLive
        rw [← hTtl] at hPositive
        obtain ⟨counter, hCounter, hRemaining⟩ :=
          Backend.remaining_of_getTtl hPositive
        have hLeft : expiry =
            backend.remaining limiter'.clock
              counter.deadline :=
          hTtl.symm.trans hRemaining
        have hBounds := Backend.remaining_bounds
          (hRemaining ▸ hPositive)
        rw [← hLeft, hCounted.clock] at hBounds
        have hDeadline :
            (backend.incremented limiter
              (policy.pairAttempts ipAddress username) 1
              expiry).deadline =
                backend.now limiter.clock +
                  backend.seconds expiry :=
          congrArg (·.getD 0) hAfter.2
        refine Or.inr ⟨counter,
          (Backend.live_eq_some.mp hCounter).1, hAfter.1,
          Backend.incremented_expires, ?_, ?_⟩
        · unfold Backend.SameWindow
          rw [hDeadline]
          exact hBounds.1
        · rw [hDeadline]
          exact hBounds.2

section Calls

variable {policy : LockoutPolicy}
variable {ipAddress username : String}

/-
  A failure was counted into the window of `counter`, over
  the failures in `rest`.
-/
theorem Backed.counted
    {rest : List String}
    {counter : Counter}
    (hBacked : Backed backend limiter standing
      (policy.clientIpKey ipAddress))
    (hCounted : policy.FailureCounted backend ipAddress
      username limiter limiter')
    (hAddress : limiter'.counters
      (addressKey (policy.clientIpKey ipAddress)) =
        some counter)
    (hExpires : counter.expiresAt.isSome)
    (hLater : ∀ before,
      limiter.counters
          (addressKey (policy.clientIpKey ipAddress)) =
        some before →
      before.deadline ≤ backend.now limiter.clock ∨
        before.deadline ≤ counter.deadline)
    (hCount : (rest.length : Int) + 1 ≤ counter.count)
    (hPairs : ∀ user own,
      backend.live limiter
          (pairKey (policy.clientIpKey ipAddress) user) =
        some own →
      backend.SameWindow own counter →
        own.count ≤ rest.count user) :
    Backed backend limiter'
      (policy.canonicalIdentifier username :: rest)
      (policy.clientIpKey ipAddress) := by
  have hCases := @pair_cases backend limiter limiter' policy
    ipAddress username
  constructor
  · intro other hOther
    obtain rfl :=
      Option.some.inj (hAddress.symm.trans hOther)
    exact hExpires
  · intro user own hOwn
    rcases hCases hBacked.pairExpires hCounted hOwn with
      hSame | ⟨-, ⟨earlier, hEarlier, -, hSame⟩ |
        ⟨-, -, -, hSome, -⟩⟩
    · exact hBacked.pairExpires user own hSame
    · rw [hSame]
      exact hBacked.pairExpires user earlier
        (Backend.live_eq_some.mp hEarlier).1
    · exact hSome
  · intro other hOther
    obtain rfl := Option.some.inj
      (hAddress.symm.trans
        (Backend.live_eq_some.mp hOther).1)
    simpa only [List.length_cons, Nat.cast_succ] using hCount
  · intro user own other hOwn hOther hSame
    obtain rfl := Option.some.inj
      (hAddress.symm.trans
        (Backend.live_eq_some.mp hOther).1)
    have hMore : rest.count user ≤
        (policy.canonicalIdentifier username ::
          rest).count user :=
      List.count_le_count_cons
    rcases hCases hBacked.pairExpires hCounted
        (Backend.live_eq_some.mp hOwn).1 with
      hOld | ⟨rfl, ⟨earlier, hEarlier, hOne, hExpiry⟩ |
        ⟨-, -, hOne, -⟩⟩
    · have hOldLive : backend.live limiter
          (pairKey (policy.clientIpKey ipAddress) user) =
            some own := by
        refine Backend.live_eq_some.mpr ⟨hOld, ?_⟩
        rw [← hCounted.clock]
        exact (Backend.live_eq_some.mp hOwn).2
      have hBefore := hPairs user own hOldLive hSame
      omega
    · have hEq : own.deadline = earlier.deadline :=
        congrArg (·.getD 0) hExpiry
      unfold Backend.SameWindow at hSame
      rw [hEq] at hSame
      have hBefore := hPairs _ earlier hEarlier hSame
      rw [List.count_cons_self]
      omega
    · rw [hOne, List.count_cons_self]
      omega
  · -- an older window has closed, or is this one
    have hOld : ∀ user own,
        limiter.counters
            (pairKey (policy.clientIpKey ipAddress) user) =
          some own →
        own.deadline ≤
            backend.now limiter'.clock + backend.late ∨
          ∃ counter,
            limiter'.counters
                (addressKey
                  (policy.clientIpKey ipAddress)) =
              some counter ∧
            own.deadline ≤
              counter.deadline + backend.late := by
      intro user own hOwn
      rw [hCounted.clock]
      rcases hBacked.window user own hOwn with
        hOver | ⟨before, hBefore, hLe⟩
      · exact Or.inl hOver
      · rcases hLater before hBefore with hPast | hSame
        · exact Or.inl
            (hLe.trans (Nat.add_le_add_right hPast _))
        · exact Or.inr ⟨counter, hAddress,
            hLe.trans (Nat.add_le_add_right hSame _)⟩
    intro user own hOwn
    rcases hCases hBacked.pairExpires hCounted hOwn with
      hSame | ⟨-, ⟨earlier, hEarlier, -, hExpiry⟩ |
        ⟨other, hOther, -, -, -, hLe⟩⟩
    · exact hOld user own hSame
    · have hEq : own.deadline = earlier.deadline :=
        congrArg (·.getD 0) hExpiry
      rw [hEq]
      exact hOld user earlier
        (Backend.live_eq_some.mp hEarlier).1
    · exact Or.inr ⟨other, hOther, hLe⟩

/- A failure that meets no lock. -/
theorem Backed.fail
    (hBacked : Backed backend limiter standing
      (policy.clientIpKey ipAddress))
    (hCounted : policy.FailureCounted backend ipAddress
      username limiter limiter') :
    Backed backend limiter'
      (policy.canonicalIdentifier username ::
        if (backend.live limiter
            (addressKey
              (policy.clientIpKey ipAddress))).isSome then
          standing
        else [])
      (policy.clientIpKey ipAddress) := by
  cases hLive : backend.live limiter
      (addressKey (policy.clientIpKey ipAddress)) with
  | some before =>
      have hStored := (Backend.live_eq_some.mp hLive).1
      have hAfter := Backend.incremented_of_live
        1 policy.attemptWindowSeconds hLive
        (hBacked.expires before hStored)
      have hDeadline :=
        congrArg (fun expiresAt => expiresAt.getD 0) hAfter.2
      apply hBacked.counted hCounted hCounted.ip
        Backend.incremented_expires
      · intro other hOther
        obtain rfl :=
          Option.some.inj (hStored.symm.trans hOther)
        exact Or.inr hDeadline.ge
      · have hBefore := hBacked.count before hLive
        change _ ≤ (backend.incremented limiter
          (addressKey (policy.clientIpKey ipAddress)) 1
          policy.attemptWindowSeconds).count
        rw [hAfter.1, Option.isSome_some, if_pos rfl]
        exact Int.add_le_add_right hBefore 1
      · intro user own hOwn hSame
        apply hBacked.pairCount user own before hOwn hLive
        unfold Backend.SameWindow Counter.deadline at hSame ⊢
        rwa [← hAfter.2]
  | none =>
      have hAfter := Backend.incremented_of_none
        1 policy.attemptWindowSeconds hLive
      have hDeadline :
          (backend.incremented limiter
            (policy.ipAttempts ipAddress) 1
            policy.attemptWindowSeconds).deadline =
              backend.now limiter.clock +
                backend.seconds
                  policy.attemptWindowSeconds :=
        congrArg (fun expiresAt => expiresAt.getD 0) hAfter.2
      apply hBacked.counted hCounted hCounted.ip
        Backend.incremented_expires
      · intro other hOther
        exact Or.inl (Backend.deadline_le_now hOther
          (hBacked.expires other hOther) hLive)
      · exact hAfter.1.ge
      · -- what outlives the last window is not of this one
        intro user own hOwn hSame
        have hStored := (Backend.live_eq_some.mp hOwn).1
        have hOver : own.deadline ≤
            backend.now limiter.clock + backend.late := by
          rcases hBacked.window user own hStored with
            hOver | ⟨before, hBefore, hLe⟩
          · exact hOver
          · have hPast := Backend.deadline_le_now hBefore
              (hBacked.expires before hBefore) hLive
            exact hLe.trans (Nat.add_le_add_right hPast _)
        unfold Backend.SameWindow at hSame
        rw [hDeadline] at hSame
        have hSecond := Backend.early_add_late backend
        have hSeconds := Backend.seconds_le_of_pos
          backend policy.attemptWindow_pos
        omega

/-
  What the pair has counted is of the window, if anything.
-/
def Backend.Timely
    {ρ : Type}
    (backend : Backend)
    (row : Key → ρ)
    (limiter : Limiter ρ)
    (address user : String) : Prop :=
  ∀ own,
    backend.live limiter (row (pairKey address user)) =
      some own →
    own.count ≠ 0 →
      ∃ counter,
        backend.live limiter (row (addressKey address)) =
          some counter ∧
        backend.SameWindow own counter

/- A list without the entries of one user. -/
theorem length_filter_ne
    (user : String)
    (standing : List String) :
    (standing.filter (· ≠ user)).length +
        standing.count user =
      standing.length := by
  induction standing with
  | nil => rfl
  | cons other standing ih =>
      by_cases hOther : other = user
      · subst hOther
        rw [List.filter_cons_of_neg (by simp),
          List.count_cons_self, List.length_cons]
        omega
      · rw [List.filter_cons_of_pos (by simpa using hOther),
          List.count_cons_of_ne hOther, List.length_cons,
          List.length_cons]
        omega

/- The counters of the other pairs stay as they are. -/
theorem other_pair
    {user : String}
    (hContained : policy.Contained ipAddress username limiter
      limiter')
    (hUser : user ≠ policy.canonicalIdentifier username) :
    limiter'.counters
        (pairKey (policy.clientIpKey ipAddress) user) =
      limiter.counters
        (pairKey (policy.clientIpKey ipAddress) user) := by
  apply hContained.others _ rfl
    (Ne.symm addressKey_ne_pairKey)
  intro hKey
  exact hUser (pairKey_injective hKey)

/- A success takes its own failures back. -/
theorem Backed.succeed
    (hBacked : Backed backend limiter standing
      (policy.clientIpKey ipAddress))
    (hTaken : policy.SuccessTaken backend ipAddress username
      limiter limiter')
    (hTimely : backend.Timely id limiter
      (policy.clientIpKey ipAddress)
      (policy.canonicalIdentifier username)) :
    Backed backend limiter'
      (standing.filter
        (· ≠ policy.canonicalIdentifier username))
      (policy.clientIpKey ipAddress) := by
  have hLength := length_filter_ne
    (policy.canonicalIdentifier username) standing
  have hCount : ∀ user,
      user ≠ policy.canonicalIdentifier username →
        (standing.filter
          (· ≠ policy.canonicalIdentifier username)).count
            user = standing.count user := by
    intro user hUser
    exact List.count_filter (decide_eq_true hUser)
  by_cases hOwn : ∃ own,
      backend.live limiter
          (pairKey (policy.clientIpKey ipAddress)
            (policy.canonicalIdentifier username)) =
        some own ∧
      own.count ≠ 0
  · obtain ⟨own, hLive, hNonzero⟩ := hOwn
    obtain ⟨hNone, hAddress⟩ :=
      hTaken.taken own hLive hNonzero
    obtain ⟨before, hBefore, hSame⟩ :
        ∃ before,
          backend.live limiter
              (addressKey (policy.clientIpKey ipAddress)) =
            some before ∧
            backend.SameWindow own before :=
      hTimely own hLive hNonzero
    have hStored := (Backend.live_eq_some.mp hBefore).1
    have hAfter := Backend.incremented_of_live
      (-own.count) policy.attemptWindowSeconds hBefore
      (hBacked.expires before hStored)
    have hTook := hBacked.pairCount _ own before hLive
      hBefore hSame
    have hOther : ∀ user own',
        limiter'.counters
            (pairKey (policy.clientIpKey ipAddress) user) =
          some own' →
        user ≠ policy.canonicalIdentifier username ∧
          limiter.counters
              (pairKey (policy.clientIpKey ipAddress)
                user) =
            some own' := by
      intro user own' hOwn'
      have hUser :
          user ≠ policy.canonicalIdentifier username := by
        rintro rfl
        have hSome := hNone.symm.trans hOwn'
        cases hSome
      rw [other_pair hTaken.toContained hUser] at hOwn'
      exact ⟨hUser, hOwn'⟩
    apply hBacked.of_counts hTaken.clock
    · intro counter hCounter
      obtain rfl :=
        Option.some.inj (hAddress.symm.trans hCounter)
      exact ⟨before, hStored, hAfter.2⟩
    · intro other hEarlier
      obtain rfl :=
        Option.some.inj (hStored.symm.trans hEarlier)
      exact ⟨_, hAddress, hAfter.2⟩
    · intro user own' hOwn'
      exact ⟨own', (hOther user own' hOwn').2, rfl⟩
    · intro counter hCounter
      obtain rfl := Option.some.inj (hAddress.symm.trans
        (Backend.live_eq_some.mp hCounter).1)
      have hAll := hBacked.count before hBefore
      change _ ≤ (backend.incremented limiter
        (addressKey (policy.clientIpKey ipAddress))
        (-own.count) policy.attemptWindowSeconds).count
      rw [hAfter.1]
      omega
    · intro user own' counter hOwn' hCounter hWindow
      obtain ⟨hUser, hEarlier⟩ := hOther user own'
        (Backend.live_eq_some.mp hOwn').1
      obtain rfl := Option.some.inj (hAddress.symm.trans
        (Backend.live_eq_some.mp hCounter).1)
      have hEarlierLive : backend.live limiter
          (pairKey (policy.clientIpKey ipAddress) user) =
            some own' := by
        refine Backend.live_eq_some.mpr ⟨hEarlier, ?_⟩
        rw [← hTaken.clock]
        exact (Backend.live_eq_some.mp hOwn').2
      rw [hCount user hUser]
      apply hBacked.pairCount user own' before hEarlierLive
        hBefore
      unfold Backend.SameWindow Counter.deadline
        at hWindow ⊢
      rwa [← hAfter.2]
  · have hZero : ∀ own,
        backend.live limiter
            (pairKey (policy.clientIpKey ipAddress)
              (policy.canonicalIdentifier username)) =
          some own →
        own.count = 0 := by
      intro own hLive
      by_contra hNonzero
      exact hOwn ⟨own, hLive, hNonzero⟩
    have hSame := hTaken.kept hZero
    have hKept := hBacked.congr hSame.clock
      (hSame.counters _ rfl)
      (fun user => hSame.counters _ rfl)
    refine ⟨hKept.expires, hKept.pairExpires, ?_, ?_,
      hKept.window⟩
    · intro counter hCounter
      have hAll := hKept.count counter hCounter
      omega
    · intro user own counter hLive hCounter hWindow
      have hAll := hKept.pairCount user own counter hLive
        hCounter hWindow
      by_cases hUser :
          user = policy.canonicalIdentifier username
      · subst hUser
        rw [live_congr hSame.clock (hSame.counters _ rfl)]
          at hLive
        rw [hZero own hLive]
        exact Int.natCast_nonneg _
      · rwa [hCount user hUser]

/- What is taken back keeps its deadline. -/
theorem takenBack_cases
    {key : Key}
    (hTaken : policy.TakenBack backend limiter limiter' key)
    (hExpires : ∀ counter,
      limiter.counters key = some counter →
        counter.expiresAt.isSome) :
    (∃ before after,
      backend.live limiter key = some before ∧
      0 < before.count ∧
      limiter'.counters key = some after ∧
      after.count = before.count - 1 ∧
      after.expiresAt = before.expiresAt) ∨
    (∀ before,
      backend.live limiter key = some before →
        before.count ≤ 0) ∧
      limiter'.counters key = limiter.counters key := by
  by_cases hPositive : ∃ before,
      backend.live limiter key = some before ∧
        0 < before.count
  · obtain ⟨before, hLive, hCount⟩ := hPositive
    have hAfter := Backend.incremented_of_live (-1)
      policy.attemptWindowSeconds hLive
      (hExpires before (Backend.live_eq_some.mp hLive).1)
    exact Or.inl ⟨before, _, hLive, hCount,
      hTaken.1 before hLive hCount, hAfter.1, hAfter.2⟩
  · have hNone : ∀ before,
        backend.live limiter key = some before →
          before.count ≤ 0 := by
      intro before hLive
      by_contra hCount
      exact hPositive ⟨before, hLive, not_le.mp hCount⟩
    exact Or.inr ⟨hNone, hTaken.2 hNone⟩

/- One attempt is taken back, of those that stand. -/
theorem Backed.forget
    (hBacked : Backed backend limiter standing
      (policy.clientIpKey ipAddress))
    (hForgotten : policy.AttemptForgotten backend ipAddress
      username limiter limiter')
    (hStands :
      (backend.live limiter (addressKey
        (policy.clientIpKey ipAddress))).isSome →
        policy.canonicalIdentifier username ∈ standing) :
    Backed backend limiter'
      (standing.erase (policy.canonicalIdentifier username))
      (policy.clientIpKey ipAddress) := by
  have hAddress := takenBack_cases hForgotten.ip
    hBacked.expires
  have hPair := takenBack_cases hForgotten.pair
    (hBacked.pairExpires _)
  have hAddressLive : ∀ counter,
      backend.live limiter'
          (addressKey (policy.clientIpKey ipAddress)) =
        some counter →
      ∃ before,
        backend.live limiter
            (addressKey (policy.clientIpKey ipAddress)) =
          some before ∧
        counter.expiresAt = before.expiresAt := by
    intro counter hLive
    rcases hAddress with
      ⟨before, after, hBefore, -, hAfter, -, hExpiry⟩ |
        ⟨-, hSame⟩
    · obtain rfl := Option.some.inj (hAfter.symm.trans
        (Backend.live_eq_some.mp hLive).1)
      exact ⟨before, hBefore, hExpiry⟩
    · have hOld := @live_congr backend _ _ _
        hForgotten.clock hSame
      exact ⟨counter, hOld.symm.trans hLive, rfl⟩
  apply hBacked.of_counts hForgotten.clock
  · intro counter hCounter
    rcases hAddress with
      ⟨before, after, hBefore, -, hAfter, -, hExpiry⟩ |
        ⟨-, hSame⟩
    · obtain rfl :=
        Option.some.inj (hAfter.symm.trans hCounter)
      exact ⟨before, (Backend.live_eq_some.mp hBefore).1,
        hExpiry⟩
    · exact ⟨counter, hSame.symm.trans hCounter, rfl⟩
  · intro counter hCounter
    rcases hAddress with
      ⟨before, after, hBefore, -, hAfter, -, hExpiry⟩ |
        ⟨-, hSame⟩
    · obtain rfl := Option.some.inj
        ((Backend.live_eq_some.mp hBefore).1.symm.trans
          hCounter)
      exact ⟨after, hAfter, hExpiry⟩
    · exact ⟨counter, hSame.trans hCounter, rfl⟩
  · intro user own hOwn
    by_cases hUser :
        user = policy.canonicalIdentifier username
    case neg =>
      rw [other_pair hForgotten.toContained hUser] at hOwn
      exact ⟨own, hOwn, rfl⟩
    subst hUser
    rcases hPair with
      ⟨before, after, hBefore, -, hAfter, -, hExpiry⟩ |
        ⟨-, hSame⟩
    · obtain rfl :=
        Option.some.inj (hAfter.symm.trans hOwn)
      exact ⟨before, (Backend.live_eq_some.mp hBefore).1,
        hExpiry⟩
    · exact ⟨own, hSame.symm.trans hOwn, rfl⟩
  · intro counter hLive
    obtain ⟨old, hOld, -⟩ := hAddressLive counter hLive
    have hMem := hStands (Option.isSome_of_eq_some hOld)
    have hLength := List.length_pos_of_mem hMem
    rw [List.length_erase_of_mem hMem]
    have hAll := hBacked.count old hOld
    rcases hAddress with
      ⟨before, after, hBefore, -, hAfter, hOne, -⟩ |
        ⟨hNone, -⟩
    · obtain rfl := Option.some.inj (hAfter.symm.trans
        (Backend.live_eq_some.mp hLive).1)
      obtain rfl :=
        Option.some.inj (hBefore.symm.trans hOld)
      omega
    · -- what stands is counted, so the count is positive
      have hZero := hNone old hOld
      omega
  · intro user own counter hOwn hCounter hWindow
    obtain ⟨old, hOld, hExpiry⟩ :=
      hAddressLive counter hCounter
    have hOldWindow : backend.SameWindow own old := by
      unfold Backend.SameWindow Counter.deadline
        at hWindow ⊢
      rwa [← hExpiry]
    by_cases hUser :
        user = policy.canonicalIdentifier username
    case neg =>
      have hSame := other_pair hForgotten.toContained hUser
      have hOwnOld := @live_congr backend _ _ _
        hForgotten.clock hSame
      rw [List.count_erase_of_ne hUser]
      exact hBacked.pairCount user own old
        (hOwnOld.symm.trans hOwn) hOld hOldWindow
    subst hUser
    rw [List.count_erase_self]
    rcases hPair with
      ⟨before, after, hBefore, hPositive, hAfter, hOne,
        hExpiry'⟩ | ⟨hNone, hSame⟩
    · obtain rfl := Option.some.inj (hAfter.symm.trans
        (Backend.live_eq_some.mp hOwn).1)
      unfold Backend.SameWindow Counter.deadline
        at hOldWindow
      rw [hExpiry'] at hOldWindow
      have hAll := hBacked.pairCount _ before old hBefore
        hOld hOldWindow
      omega
    · have hOwnOld := @live_congr backend _ _ _
        hForgotten.clock hSame
      have hZero := hNone own (hOwnOld.symm.trans hOwn)
      omega

end Calls

end Kept

end RateLimit

end CrudAuth
