import CrudAuth.RateLimit.Pressure
import CrudAuth.RateLimit.RowRuns

/-
  Logging in to an account of one's own does not launder the
  failures against others: whatever an address does, its
  counter stays at least at the failures that stand.

  The memory backend gives this for every run.  With the
  other two a pair's counter may outlive the window by up to
  a second, and a success that comes just then takes back
  what the next window never counted.  In the database, two
  long keys may also share a row, and then a success takes
  back what another user's failures added.

  Main declarations:
    * `Visit`
    * `Tally`
    * `LockoutPolicy.visit`
    * `LockoutPolicy.PressureKept`
    * `LockoutPolicy.pressure_kept`
    * `LockoutPolicy.memory_pressure_kept`
-/

namespace CrudAuth

namespace RateLimit

open Concurrency
open Storage (Text)
open DatabaseCounters (zeros)

------------------------------------------------------------
-- Visits
------------------------------------------------------------

/-
  Time passes, or a call of the policy is made.  A challenge
  is a login with the right password of an account that also
  has a second factor: the attempt is recorded first, and
  taken back once the password was checked.
-/
inductive Visit (ρ : Type) where
  | tick (tick : Backend.Tick ρ)
  | check (ipAddress username : String) (success : Bool)
  | challenge
      (ipAddress username : String)
      (ticks : List (Backend.Tick ρ))

/- The limiter, and each address's failures that stand. -/
structure Tally (ρ : Type) where
  limiter : Limiter ρ
  standing : String → List String

namespace LockoutPolicy

variable {ρ : Type} [DecidableEq ρ]
variable (policy : LockoutPolicy)
variable (backend : Backend)
variable (row : Key → ρ)

/- Nothing was counted yet, and nothing stands. -/
def start (clock : Nat) (checks : List Bool) : Tally ρ where
  limiter := unused clock checks
  standing := fun _ => []

/- Whether a failure is answered that the login may go on. -/
def allows
    (ipAddress username : String)
    (limiter : Limiter ρ) : Bool :=
  match (policy.perform backend row ipAddress username false
      limiter).1 with
  | .ok (.verdict allowed _ _) => allowed
  | _ => false

/-
  A failure that meets no lock stands, with those of its
  window.  One that meets a lock is not counted.
-/
def fail
    (ipAddress username : String)
    (tally : Tally ρ) : Tally ρ where
  limiter :=
    (policy.perform backend row ipAddress username false
    tally.limiter).2
  standing :=
    let address := policy.clientIpKey ipAddress
    if policy.activeLockout backend row ipAddress username
        tally.limiter = 0 then
      Function.update tally.standing address
        (policy.canonicalIdentifier username ::
          if (backend.live tally.limiter
              (row (addressKey address))).isSome then
            tally.standing address
          else [])
    else
      tally.standing

/- A success takes back the failures of its own user. -/
def succeed
    (ipAddress username : String)
    (tally : Tally ρ) : Tally ρ where
  limiter :=
    (policy.perform backend row ipAddress username true
    tally.limiter).2
  standing :=
    let address := policy.clientIpKey ipAddress
    Function.update tally.standing address
      ((tally.standing address).filter
        (· ≠ policy.canonicalIdentifier username))

/- One failure of the user is taken back. -/
def forget
    (ipAddress username : String)
    (tally : Tally ρ) : Tally ρ where
  limiter :=
    ((policy.forgetAttempt ipAddress username).run
      (backend.exec row) tally.limiter).2
  standing :=
    let address := policy.clientIpKey ipAddress
    Function.update tally.standing address
      ((tally.standing address).erase
        (policy.canonicalIdentifier username))

/- Time passes, and the limiter sweeps or purges. -/
def wait
    (ticks : List (Backend.Tick ρ))
    (tally : Tally ρ) : Tally ρ :=
  { tally with
    limiter := ticks.foldl
      (fun limiter tick => backend.tick tick limiter)
      tally.limiter }

/- One visit, and what stands after it. -/
def visit (tally : Tally ρ) : Visit ρ → Tally ρ
  | .tick tick => wait backend [tick] tally
  | .check ipAddress username false =>
      policy.fail backend row ipAddress username tally
  | .check ipAddress username true =>
      policy.succeed backend row ipAddress username tally
  | .challenge ipAddress username ticks =>
      let checked := wait backend ticks
        (policy.fail backend row ipAddress username tally)
      if policy.allows backend row ipAddress username
          tally.limiter then
        policy.forget backend row ipAddress username checked
      else
        checked

/- The tally after a run. -/
def tally
    (visits : List (Visit ρ))
    (first : Tally ρ) : Tally ρ :=
  visits.foldl (policy.visit backend row) first

------------------------------------------------------------
-- Conditions
------------------------------------------------------------

/-
  No address, with the separator after it, begins another:
  the texts of their pairs are then never the same.
-/
def Separates (addresses : Set String) : Prop :=
  ∀ address ∈ addresses, ∀ other ∈ addresses,
    (address ++ ":").toList <+: (other ++ ":").toList →
      address = other

/- A visit from one of the addresses. -/
def From (addresses : Set String) : Visit ρ → Prop
  | .tick _ => True
  | .check ipAddress _ _ =>
      policy.clientIpKey ipAddress ∈ addresses
  | .challenge ipAddress _ _ =>
      policy.clientIpKey ipAddress ∈ addresses

/- No success takes back what an earlier window counted. -/
def Timely (tally : Tally ρ) : List (Visit ρ) → Prop
  | [] => True
  | visit :: visits =>
      (∀ ipAddress username,
        visit = .check ipAddress username true →
          backend.Timely row tally.limiter
            (policy.clientIpKey ipAddress)
            (policy.canonicalIdentifier username)) ∧
        Timely (policy.visit backend row tally visit) visits

/- The keys that a visit is recorded under. -/
def Uses (keys : Set Key) : Visit ρ → Prop
  | .tick _ => True
  | .check ipAddress username _ =>
      policy.keys ipAddress username ⊆ keys
  | .challenge ipAddress username _ =>
      policy.keys ipAddress username ⊆ keys

/-
  An address's live counter is at least the number of its
  failures that stand, and of these no more are let through
  than the policy's cap.
-/
def PressureKept
    (addresses : Set String)
    (keys : Set Key)
    (tally : Tally ρ) : Prop :=
  ∀ ipAddress username,
    policy.clientIpKey ipAddress ∈ addresses →
    policy.keys ipAddress username ⊆ keys →
    (∀ counter,
      backend.live tally.limiter
          (row (policy.ipAttempts ipAddress)) =
        some counter →
      ((tally.standing
          (policy.clientIpKey ipAddress)).length : Int) ≤
        counter.count) ∧
    (policy.allows backend row ipAddress username
        tally.limiter = true →
      ((policy.fail backend row ipAddress username
        tally).standing
          (policy.clientIpKey ipAddress)).length ≤
        policy.maxAttempts)

end LockoutPolicy

------------------------------------------------------------
-- One Visit
------------------------------------------------------------

section Visits

variable {policy : LockoutPolicy}
variable {backend : Backend}
variable {addresses : Set String}
variable {tally : Tally Key}
variable {limiter limiter' : Limiter Key}
variable {standing : String → List String}
variable {address other user ipAddress username : String}

/- Two pair keys agree only for one address. -/
theorem eq_of_pairKey_eq
    {otherUser : String}
    (hSeparates : LockoutPolicy.Separates addresses)
    (hAddress : address ∈ addresses)
    (hOther : other ∈ addresses)
    (hKey : pairKey address user = pairKey other otherUser) :
    address = other := by
  have hText :
      (address ++ ":").toList ++ user.toList =
        (other ++ ":").toList ++ otherUser.toList := by
    simpa only [String.toList_append] using
      congrArg String.toList (Key.pairAttempts.inj hKey)
  have hFirst : (address ++ ":").toList <+:
      (other ++ ":").toList ++ otherUser.toList :=
    ⟨user.toList, hText⟩
  have hSecond : (other ++ ":").toList <+:
      (other ++ ":").toList ++ otherUser.toList :=
    List.prefix_append _ _
  rcases List.prefix_or_prefix_of_prefix hFirst hSecond with
    hPrefix | hPrefix
  · exact hSeparates address hAddress other hOther hPrefix
  · exact (hSeparates other hOther address hAddress
      hPrefix).symm

/- The counters of the other addresses stay as they are. -/
theorem LockoutPolicy.Contained.other_address
    (hContained : policy.Contained ipAddress username limiter
      limiter')
    (hSeparates : LockoutPolicy.Separates addresses)
    (hFrom : policy.clientIpKey ipAddress ∈ addresses)
    (hAddress : address ∈ addresses)
    (hOther : address ≠ policy.clientIpKey ipAddress) :
    limiter'.counters (addressKey address) =
        limiter.counters (addressKey address) ∧
      ∀ user,
        limiter'.counters (pairKey address user) =
          limiter.counters (pairKey address user) := by
  constructor
  · apply hContained.others _ rfl
    · intro hKey
      exact hOther (Key.ipAttempts.inj hKey)
    · exact addressKey_ne_pairKey
  · intro user
    apply hContained.others _ rfl
    · exact Ne.symm addressKey_ne_pairKey
    · intro hKey
      exact hOther (eq_of_pairKey_eq hSeparates hAddress
        hFrom hKey)

/- Every address is backed. -/
def AllBacked
    (backend : Backend)
    (addresses : Set String)
    (limiter : Limiter Key)
    (standing : String → List String) : Prop :=
  ∀ address ∈ addresses,
    Backed backend limiter (standing address) address

/- A call from one address leaves the others alone. -/
theorem AllBacked.update
    {failures : List String}
    (hBacked :
      AllBacked backend addresses limiter standing)
    (hSeparates : LockoutPolicy.Separates addresses)
    (hFrom : policy.clientIpKey ipAddress ∈ addresses)
    (hContained : policy.Contained ipAddress username limiter
      limiter')
    (hOwn : Backed backend limiter' failures
      (policy.clientIpKey ipAddress)) :
    AllBacked backend addresses limiter'
      (Function.update standing
        (policy.clientIpKey ipAddress) failures) := by
  intro address hAddress
  by_cases hEq : address = policy.clientIpKey ipAddress
  · subst hEq
    rwa [Function.update_self]
  · rw [Function.update_of_ne hEq]
    have hKept :=
      hContained.other_address hSeparates hFrom hAddress hEq
    exact (hBacked address hAddress).congr hContained.clock
      hKept.1 hKept.2

/- Other keys do not matter to the counts. -/
theorem AllBacked.same
    (hBacked :
      AllBacked backend addresses limiter standing)
    (hSame : Same Key.isAttempts limiter limiter') :
    AllBacked backend addresses limiter' standing :=
  fun address hAddress =>
    (hBacked address hAddress).congr hSame.clock
      (hSame.counters _ rfl)
      (fun _ => hSame.counters _ rfl)

/- Nor does time. -/
theorem AllBacked.wait
    {ticks : List (Backend.Tick Key)}
    (hBacked : AllBacked backend addresses tally.limiter
      tally.standing) :
    AllBacked backend addresses
      (LockoutPolicy.wait backend ticks tally).limiter
      tally.standing := by
  induction ticks generalizing tally with
  | nil => exact hBacked
  | cons tick ticks ih =>
      exact @ih ⟨backend.tick tick tally.limiter,
        tally.standing⟩
        (fun address hAddress =>
          (hBacked address hAddress).tick)

namespace LockoutPolicy

/- A failure is counted, unless locked out. -/
theorem fail_counts
    (policy : LockoutPolicy)
    (backend : Backend)
    (ipAddress username : String)
    (limiter : Limiter Key)
    (hClears : policy.onLoginSuccess = .clearAll) :
    if policy.activeLockout backend id ipAddress username
        limiter = 0 then
      policy.FailureCounted backend ipAddress username
        limiter
        (policy.perform backend id ipAddress username false
          limiter).2
    else
      Same Key.isAttempts limiter
        (policy.perform backend id ipAddress username false
          limiter).2 :=
  recordFailure_counts hClears

/- A success takes its own failures back. -/
theorem succeed_takes
    (policy : LockoutPolicy)
    (backend : Backend)
    (ipAddress username : String)
    (limiter : Limiter Key)
    (hClears : policy.onLoginSuccess = .clearAll) :
    policy.SuccessTaken backend ipAddress username limiter
      (policy.perform backend id ipAddress username true
        limiter).2 :=
  recordSuccess_takes hClears

/- A forgotten attempt is taken back. -/
theorem forget_forgets
    (policy : LockoutPolicy)
    (backend : Backend)
    (ipAddress username : String)
    (limiter : Limiter Key)
    (hClears : policy.onLoginSuccess = .clearAll) :
    policy.AttemptForgotten backend ipAddress username
      limiter
      ((policy.forgetAttempt ipAddress username).run
        (backend.exec id) limiter).2 :=
  forgetAttempt_forgets hClears

end LockoutPolicy

/- A failure keeps every address backed. -/
theorem AllBacked.fail
    (hClears : policy.onLoginSuccess = .clearAll)
    (hSeparates : LockoutPolicy.Separates addresses)
    (hFrom : policy.clientIpKey ipAddress ∈ addresses)
    (hBacked : AllBacked backend addresses tally.limiter
      tally.standing) :
    AllBacked backend addresses
      (policy.fail backend id ipAddress username
        tally).limiter
      (policy.fail backend id ipAddress username
        tally).standing := by
  have hCounts := policy.fail_counts backend ipAddress
    username tally.limiter hClears
  unfold LockoutPolicy.fail
  dsimp only
  by_cases hLocked :
      policy.activeLockout backend id ipAddress username
        tally.limiter = 0
  · rw [if_pos hLocked] at hCounts ⊢
    exact hBacked.update hSeparates hFrom hCounts.toContained
      ((hBacked _ hFrom).fail hCounts)
  · rw [if_neg hLocked] at hCounts ⊢
    exact hBacked.same hCounts

theorem AllBacked.succeed
    (hClears : policy.onLoginSuccess = .clearAll)
    (hSeparates : LockoutPolicy.Separates addresses)
    (hFrom : policy.clientIpKey ipAddress ∈ addresses)
    (hTimely : backend.Timely id tally.limiter
      (policy.clientIpKey ipAddress)
      (policy.canonicalIdentifier username))
    (hBacked : AllBacked backend addresses tally.limiter
      tally.standing) :
    AllBacked backend addresses
      (policy.succeed backend id ipAddress username
        tally).limiter
      (policy.succeed backend id ipAddress username
        tally).standing := by
  have hTaken := policy.succeed_takes backend ipAddress
    username tally.limiter hClears
  exact hBacked.update hSeparates hFrom hTaken.toContained
    ((hBacked _ hFrom).succeed hTaken hTimely)

theorem AllBacked.forget
    (hClears : policy.onLoginSuccess = .clearAll)
    (hSeparates : LockoutPolicy.Separates addresses)
    (hFrom : policy.clientIpKey ipAddress ∈ addresses)
    (hStands :
      (backend.live tally.limiter (addressKey
        (policy.clientIpKey ipAddress))).isSome →
        policy.canonicalIdentifier username ∈
          tally.standing (policy.clientIpKey ipAddress))
    (hBacked : AllBacked backend addresses tally.limiter
      tally.standing) :
    AllBacked backend addresses
      (policy.forget backend id ipAddress username
        tally).limiter
      (policy.forget backend id ipAddress username
        tally).standing := by
  have hForgotten := policy.forget_forgets backend ipAddress
    username tally.limiter hClears
  exact hBacked.update hSeparates hFrom
    hForgotten.toContained
    ((hBacked _ hFrom).forget hForgotten hStands)

/- What is let through met no lock, and is within the cap. -/
theorem counted_of_allows
    (hClears : policy.onLoginSuccess = .clearAll)
    (hAllows : policy.allows backend id ipAddress username
      limiter = true) :
    policy.activeLockout backend id ipAddress username
        limiter = 0 ∧
      (backend.incremented limiter
        (policy.ipAttempts ipAddress) 1
        policy.attemptWindowSeconds).count ≤
          policy.maxAttempts := by
  have hAllowed : ∀ remaining retryAfter,
      (policy.perform backend id ipAddress username false
        limiter).1 =
          .ok (.verdict true remaining retryAfter) →
      _ :=
    recordFailure_allows hClears
  unfold LockoutPolicy.allows at hAllows
  split at hAllows
  · rename_i allowed remaining retryAfter hResult
    subst hAllows
    exact hAllowed remaining retryAfter hResult
  · cases hAllows

/- A failure that is let through stands. -/
theorem mem_standing_of_allows
    (hClears : policy.onLoginSuccess = .clearAll)
    (hAllows : policy.allows backend id ipAddress username
      tally.limiter = true) :
    policy.canonicalIdentifier username ∈
      (policy.fail backend id ipAddress username
        tally).standing (policy.clientIpKey ipAddress) := by
  have hCounted := counted_of_allows hClears hAllows
  unfold LockoutPolicy.fail
  dsimp only
  rw [if_pos hCounted.1, Function.update_self]
  exact List.mem_cons_self

/- One visit keeps every address backed. -/
theorem AllBacked.visit
    {next : Visit Key}
    (hClears : policy.onLoginSuccess = .clearAll)
    (hSeparates : LockoutPolicy.Separates addresses)
    (hFrom : policy.From addresses next)
    (hTimely : ∀ ipAddress username,
      next = .check ipAddress username true →
        backend.Timely id tally.limiter
          (policy.clientIpKey ipAddress)
          (policy.canonicalIdentifier username))
    (hBacked : AllBacked backend addresses tally.limiter
      tally.standing) :
    AllBacked backend addresses
      (policy.visit backend id tally next).limiter
      (policy.visit backend id tally next).standing := by
  cases next with
  | tick tick => exact hBacked.wait
  | check ipAddress username success =>
      cases success with
      | false => exact hBacked.fail hClears hSeparates hFrom
      | true =>
          exact hBacked.succeed hClears hSeparates hFrom
            (hTimely ipAddress username rfl)
  | challenge ipAddress username ticks =>
      have hFailed := @AllBacked.fail policy backend
        addresses tally ipAddress username hClears
        hSeparates hFrom hBacked
      have hChecked := @AllBacked.wait backend addresses
        (policy.fail backend id ipAddress username tally)
        ticks
        hFailed
      unfold LockoutPolicy.visit
      dsimp only
      by_cases hAllows :
          policy.allows backend id ipAddress username
            tally.limiter = true
      · rw [if_pos hAllows]
        apply hChecked.forget hClears hSeparates hFrom
        intro _
        exact mem_standing_of_allows hClears hAllows
      · rw [if_neg hAllows]
        exact hChecked

/- Every run keeps every address backed. -/
theorem AllBacked.run
    {visits : List (Visit Key)}
    (hClears : policy.onLoginSuccess = .clearAll)
    (hSeparates : LockoutPolicy.Separates addresses)
    (hFrom : ∀ visit ∈ visits, policy.From addresses visit)
    (hTimely : policy.Timely backend id tally visits)
    (hBacked : AllBacked backend addresses tally.limiter
      tally.standing) :
    AllBacked backend addresses
      (policy.tally backend id visits tally).limiter
      (policy.tally backend id visits tally).standing := by
  induction visits generalizing tally with
  | nil => exact hBacked
  | cons next visits ih =>
      apply @ih (policy.visit backend id tally next)
      · intro visit hVisit
        exact hFrom visit (List.mem_cons_of_mem _ hVisit)
      · exact hTimely.2
      · exact hBacked.visit hClears hSeparates
          (hFrom next List.mem_cons_self) hTimely.1

/- At the start nothing stands. -/
theorem allBacked_start
    (clock : Nat)
    (checks : List Bool) :
    AllBacked backend addresses
      (LockoutPolicy.unused clock checks)
      (fun _ => []) := by
  intro address _
  have hNone : ∀ key : Key,
      backend.live (LockoutPolicy.unused clock checks) key =
        none :=
    fun _ => rfl
  constructor
  · nofun
  · nofun
  · intro counter hCounter
    cases (hNone _).symm.trans hCounter
  · intro user own counter hOwn
    cases (hNone _).symm.trans hOwn
  · nofun

/- What is backed is kept. -/
theorem pressureKept_of_backed
    {keys : Set Key}
    (hClears : policy.onLoginSuccess = .clearAll)
    (hBacked : AllBacked backend addresses tally.limiter
      tally.standing) :
    policy.PressureKept backend id addresses keys tally := by
  intro ipAddress username hAddress _
  refine ⟨(hBacked _ hAddress).count, fun hAllows => ?_⟩
  have hCounted := counted_of_allows hClears hAllows
  unfold LockoutPolicy.fail
  dsimp only
  rw [if_pos hCounted.1, Function.update_self]
  have hCap := hCounted.2
  change (backend.incremented tally.limiter
    (addressKey (policy.clientIpKey ipAddress)) 1
    policy.attemptWindowSeconds).count ≤ _ at hCap
  change (_ :: if (backend.live tally.limiter
    (addressKey (policy.clientIpKey ipAddress))).isSome
    then _ else _).length ≤ _
  cases hLive : backend.live tally.limiter
      (addressKey (policy.clientIpKey ipAddress)) with
  | some counter =>
      have hAfter := Backend.incremented_of_live 1
        policy.attemptWindowSeconds hLive
        ((hBacked _ hAddress).expires counter
          (Backend.live_eq_some.mp hLive).1)
      have hAll :=
        (hBacked _ hAddress).count counter hLive
      rw [hAfter.1] at hCap
      rw [Option.isSome_some, if_pos rfl,
        List.length_cons]
      omega
  | none => exact policy.maxAttempts_pos

end Visits

------------------------------------------------------------
-- Windows In Memory
------------------------------------------------------------

/-
  In memory, where the time left is cut off, a pair's
  counter is live only while its address's window is open.
-/
def Enclosed (limiter : Limiter Key) (address : String) :
    Prop :=
  ∀ user own,
    Backend.memory.live limiter (pairKey address user) =
      some own →
    ∃ counter,
      Backend.memory.live limiter (addressKey address) =
        some counter ∧
      Backend.memory.SameWindow own counter ∧
      own.deadline ≤ counter.deadline

section Memory

variable {policy : LockoutPolicy}
variable {addresses : Set String}
variable {tally : Tally Key}
variable {limiter limiter' : Limiter Key}
variable {standing : List String}
variable {address ipAddress username : String}
variable {key : Key}
variable {counter : Counter}

/- A counter in its time is live. -/
theorem memory_live
    (hStored : limiter.counters key = some counter)
    (hExpires : counter.expiresAt.isSome)
    (hClock : limiter.clock ≤ counter.deadline) :
    Backend.memory.live limiter key = some counter := by
  obtain ⟨deadline, hDeadline⟩ :=
    Option.isSome_iff_exists.mp hExpires
  refine Backend.live_eq_some.mpr ⟨hStored, ?_⟩
  unfold Counter.deadline at hClock
  unfold Backend.isExpired
  rw [hDeadline] at hClock ⊢
  exact decide_eq_false (not_lt.mpr hClock)

theorem clock_le_deadline
    (hLive :
      Backend.memory.live limiter key = some counter)
    (hExpires : counter.expiresAt.isSome) :
    limiter.clock ≤ counter.deadline := by
  obtain ⟨deadline, hDeadline⟩ :=
    Option.isSome_iff_exists.mp hExpires
  have hFresh := (Backend.live_eq_some.mp hLive).2
  unfold Backend.isExpired at hFresh
  unfold Counter.deadline
  rw [hDeadline] at hFresh ⊢
  exact not_lt.mp (of_decide_eq_false hFresh)

/- Where the deadlines are kept, or are of the window. -/
theorem Enclosed.of_deadlines
    (hEnclosed : Enclosed limiter address)
    (hAfter : Backed .memory limiter' standing address)
    (hAddress : ∀ before,
      Backend.memory.live limiter (addressKey address) =
        some before →
      limiter'.clock ≤ before.deadline →
      ∃ after,
        limiter'.counters (addressKey address) =
          some after ∧
        after.expiresAt = before.expiresAt)
    (hPairs : ∀ user own,
      Backend.memory.live limiter' (pairKey address user) =
        some own →
      (∃ earlier,
        Backend.memory.live limiter (pairKey address user) =
          some earlier ∧
        own.expiresAt = earlier.expiresAt) ∨
      ∃ counter,
        limiter'.counters (addressKey address) =
          some counter ∧
        Backend.memory.SameWindow own counter ∧
        own.deadline ≤ counter.deadline) :
    Enclosed limiter' address := by
  intro user own hLive
  have hOwnClock := clock_le_deadline hLive
    (hAfter.pairExpires user own
      (Backend.live_eq_some.mp hLive).1)
  have hInside : ∃ counter,
      limiter'.counters (addressKey address) =
        some counter ∧
      Backend.memory.SameWindow own counter ∧
      own.deadline ≤ counter.deadline := by
    rcases hPairs user own hLive with
      ⟨earlier, hEarlier, hExpiry⟩ | hNew
    · obtain ⟨before, hBefore, hSame, hLe⟩ :=
        hEnclosed user earlier hEarlier
      have hEq : own.deadline = earlier.deadline :=
        congrArg (·.getD 0) hExpiry
      obtain ⟨after, hStored, hExpiry'⟩ :=
        hAddress before hBefore (by omega)
      have hEq' : after.deadline = before.deadline :=
        congrArg (·.getD 0) hExpiry'
      refine ⟨after, hStored, ?_, by omega⟩
      unfold Backend.SameWindow at hSame ⊢
      omega
    · exact hNew
  obtain ⟨counter, hStored, hSame, hLe⟩ := hInside
  exact ⟨counter,
    memory_live hStored (hAfter.expires counter hStored)
      (hOwnClock.trans hLe),
    hSame, hLe⟩

/- What is enclosed hangs on the counts alone. -/
theorem Enclosed.congr
    (hEnclosed : Enclosed limiter address)
    (hClock : limiter'.clock = limiter.clock)
    (hAddress :
      limiter'.counters (addressKey address) =
        limiter.counters (addressKey address))
    (hPairs : ∀ user,
      limiter'.counters (pairKey address user) =
        limiter.counters (pairKey address user)) :
    Enclosed limiter' address := by
  intro user
  rw [live_congr hClock hAddress,
    live_congr hClock (hPairs user)]
  exact hEnclosed user

/- Time keeps an address enclosed. -/
theorem Enclosed.tick
    {tick : Backend.Tick Key}
    (hEnclosed : Enclosed limiter address)
    (hBacked : Backed .memory limiter standing address) :
    Enclosed (Backend.memory.tick tick limiter) address := by
  apply hEnclosed.of_deadlines hBacked.tick
  · intro before hBefore _
    refine ⟨before, ?_, rfl⟩
    have hStored := (Backend.live_eq_some.mp hBefore).1
    cases tick with
    | pass microseconds => exact hStored
    | sweep swept =>
        change (Backend.put limiter swept _).counters _ = _
        by_cases hKey : addressKey address = swept
        · subst hKey
          rw [counters_put_self, hBefore]
        · rw [counters_put_of_ne _ _ hKey, hStored]
  · intro user own hOwn
    exact Or.inl ⟨own, Backend.live_of_tick hOwn, rfl⟩

theorem Enclosed.fail
    (hEnclosed :
      Enclosed limiter (policy.clientIpKey ipAddress))
    (hBacked : Backed .memory limiter standing
      (policy.clientIpKey ipAddress))
    (hCounted : policy.FailureCounted .memory ipAddress
      username limiter limiter') :
    Enclosed limiter' (policy.clientIpKey ipAddress) := by
  apply hEnclosed.of_deadlines
    (hBacked.fail hCounted)
  · intro before hBefore _
    exact ⟨_, hCounted.ip,
      (Backend.incremented_of_live 1
        policy.attemptWindowSeconds hBefore
        (hBacked.expires before
          (Backend.live_eq_some.mp hBefore).1)).2⟩
  · intro user own hOwn
    obtain ⟨hStored, hFresh⟩ := Backend.live_eq_some.mp hOwn
    rcases pair_cases hBacked.pairExpires hCounted hStored
      with hSame | ⟨-, ⟨earlier, hEarlier, -, hExpiry⟩ |
        ⟨counter, hCounter, -, -, hSame, hLe⟩⟩
    · rw [hCounted.clock] at hFresh
      exact Or.inl ⟨own,
        Backend.live_eq_some.mpr ⟨hSame, hFresh⟩, rfl⟩
    · exact Or.inl ⟨earlier, hEarlier, hExpiry⟩
    · exact Or.inr ⟨counter, hCounter, hSame, hLe⟩

/- A success at an enclosed address is in time. -/
theorem timely_of_enclosed
    {user : String}
    (hEnclosed : Enclosed limiter address) :
    Backend.memory.Timely id limiter address user := by
  intro own hOwn _
  obtain ⟨counter, hCounter, hSame, -⟩ :=
    hEnclosed user own hOwn
  exact ⟨counter, hCounter, hSame⟩

/- It keeps the address enclosed. -/
theorem Enclosed.succeed
    (hEnclosed :
      Enclosed limiter (policy.clientIpKey ipAddress))
    (hBacked : Backed .memory limiter standing
      (policy.clientIpKey ipAddress))
    (hTaken : policy.SuccessTaken .memory ipAddress username
      limiter limiter') :
    Enclosed limiter' (policy.clientIpKey ipAddress) := by
  by_cases hOwn : ∃ own,
      Backend.memory.live limiter
          (pairKey (policy.clientIpKey ipAddress)
            (policy.canonicalIdentifier username)) =
        some own ∧
      own.count ≠ 0
  · obtain ⟨own, hLive, hNonzero⟩ := hOwn
    obtain ⟨hNone, hAddress⟩ :=
      hTaken.taken own hLive hNonzero
    apply hEnclosed.of_deadlines
      (hBacked.succeed hTaken (timely_of_enclosed hEnclosed))
    · intro before hBefore _
      exact ⟨_, hAddress,
        (Backend.incremented_of_live (-own.count)
          policy.attemptWindowSeconds hBefore
          (hBacked.expires before
            (Backend.live_eq_some.mp hBefore).1)).2⟩
    · intro user own' hOwn'
      have hStored := (Backend.live_eq_some.mp hOwn').1
      have hUser :
          user ≠ policy.canonicalIdentifier username := by
        rintro rfl
        cases hNone.symm.trans hStored
      rw [live_congr hTaken.clock
        (other_pair hTaken.toContained hUser)] at hOwn'
      exact Or.inl ⟨own', hOwn', rfl⟩
  · have hSame := hTaken.kept (by
      intro own hLive
      by_contra hNonzero
      exact hOwn ⟨own, hLive, hNonzero⟩)
    exact hEnclosed.congr hSame.clock
      (hSame.counters _ rfl)
      (fun _ => hSame.counters _ rfl)

theorem Enclosed.forget
    (hEnclosed :
      Enclosed limiter (policy.clientIpKey ipAddress))
    (hBacked : Backed .memory limiter standing
      (policy.clientIpKey ipAddress))
    (hForgotten : policy.AttemptForgotten .memory ipAddress
      username limiter limiter')
    (hStands :
      (Backend.memory.live limiter (addressKey
        (policy.clientIpKey ipAddress))).isSome →
        policy.canonicalIdentifier username ∈ standing) :
    Enclosed limiter' (policy.clientIpKey ipAddress) := by
  apply hEnclosed.of_deadlines
    (hBacked.forget hForgotten hStands)
  · intro before hBefore _
    rcases takenBack_cases hForgotten.ip hBacked.expires with
      ⟨other, after, hOther, -, hAfter, -, hExpiry⟩ |
        ⟨-, hSame⟩
    · obtain rfl :=
        Option.some.inj (hOther.symm.trans hBefore)
      exact ⟨after, hAfter, hExpiry⟩
    · exact ⟨before, hSame.trans
        (Backend.live_eq_some.mp hBefore).1, rfl⟩
  · intro user own hOwn
    apply Or.inl
    by_cases hUser :
        user = policy.canonicalIdentifier username
    case neg =>
      rw [live_congr hForgotten.clock
        (other_pair hForgotten.toContained hUser)] at hOwn
      exact ⟨own, hOwn, rfl⟩
    subst hUser
    rcases takenBack_cases hForgotten.pair
        (hBacked.pairExpires _) with
      ⟨before, after, hBefore, -, hAfter, -, hExpiry⟩ |
        ⟨-, hSame⟩
    · obtain rfl := Option.some.inj (hAfter.symm.trans
        (Backend.live_eq_some.mp hOwn).1)
      exact ⟨before, hBefore, hExpiry⟩
    · exact ⟨own,
        (live_congr hForgotten.clock hSame).symm.trans hOwn,
        rfl⟩

/- Every address's pairs stay inside its window. -/
def AllEnclosed
    (addresses : Set String)
    (limiter : Limiter Key) : Prop :=
  ∀ address ∈ addresses, Enclosed limiter address

/- A step at one address leaves the others. -/
theorem AllEnclosed.update
    (hEnclosed : AllEnclosed addresses limiter)
    (hSeparates : LockoutPolicy.Separates addresses)
    (hFrom : policy.clientIpKey ipAddress ∈ addresses)
    (hContained : policy.Contained ipAddress username limiter
      limiter')
    (hOwn : Enclosed limiter'
      (policy.clientIpKey ipAddress)) :
    AllEnclosed addresses limiter' := by
  intro address hAddress
  by_cases hEq : address = policy.clientIpKey ipAddress
  · subst hEq
    exact hOwn
  · have hKept :=
      hContained.other_address hSeparates hFrom hAddress hEq
    exact (hEnclosed address hAddress).congr hContained.clock
      hKept.1 hKept.2

/- Time keeps all addresses enclosed. -/
theorem AllEnclosed.wait
    {ticks : List (Backend.Tick Key)}
    (hBacked : AllBacked .memory addresses tally.limiter
      tally.standing)
    (hEnclosed : AllEnclosed addresses tally.limiter) :
    AllEnclosed addresses
      (LockoutPolicy.wait .memory ticks tally).limiter := by
  induction ticks generalizing tally with
  | nil => exact hEnclosed
  | cons tick ticks ih =>
      apply @ih ⟨Backend.memory.tick tick tally.limiter,
        tally.standing⟩
      · intro address hAddress
        exact (hBacked address hAddress).tick
      · intro address hAddress
        exact (hEnclosed address hAddress).tick
          (hBacked address hAddress)

theorem AllEnclosed.fail
    (hClears : policy.onLoginSuccess = .clearAll)
    (hSeparates : LockoutPolicy.Separates addresses)
    (hFrom : policy.clientIpKey ipAddress ∈ addresses)
    (hBacked : AllBacked .memory addresses tally.limiter
      tally.standing)
    (hEnclosed : AllEnclosed addresses tally.limiter) :
    AllEnclosed addresses
      (policy.fail .memory id ipAddress username
        tally).limiter := by
  have hCounts := policy.fail_counts .memory ipAddress
    username tally.limiter hClears
  change AllEnclosed addresses
    (policy.perform .memory id ipAddress username false
      tally.limiter).2
  by_cases hLocked :
      policy.activeLockout .memory id ipAddress username
        tally.limiter = 0
  · rw [if_pos hLocked] at hCounts
    exact hEnclosed.update hSeparates hFrom
      hCounts.toContained
      ((hEnclosed _ hFrom).fail (hBacked _ hFrom) hCounts)
  · rw [if_neg hLocked] at hCounts
    intro address hAddress
    exact (hEnclosed address hAddress).congr hCounts.clock
      (hCounts.counters _ rfl)
      (fun _ => hCounts.counters _ rfl)

/- One visit keeps the pairs inside. -/
theorem AllEnclosed.visit
    {next : Visit Key}
    (hClears : policy.onLoginSuccess = .clearAll)
    (hSeparates : LockoutPolicy.Separates addresses)
    (hFrom : policy.From addresses next)
    (hBacked : AllBacked .memory addresses tally.limiter
      tally.standing)
    (hEnclosed : AllEnclosed addresses tally.limiter) :
    AllEnclosed addresses
      (policy.visit .memory id tally next).limiter := by
  cases next with
  | tick tick => exact hEnclosed.wait hBacked
  | check ipAddress username success =>
      cases success with
      | false =>
          exact hEnclosed.fail hClears hSeparates hFrom
            hBacked
      | true =>
          have hTaken := policy.succeed_takes .memory
            ipAddress username tally.limiter hClears
          exact hEnclosed.update hSeparates hFrom
            hTaken.toContained
            ((hEnclosed _ hFrom).succeed (hBacked _ hFrom)
              hTaken)
  | challenge ipAddress username ticks =>
      let failed :=
        policy.fail .memory id ipAddress username tally
      let checked := LockoutPolicy.wait .memory ticks failed
      have hFailed : AllBacked .memory addresses
          failed.limiter failed.standing :=
        hBacked.fail hClears hSeparates hFrom
      have hChecked : AllBacked .memory addresses
          checked.limiter checked.standing :=
        hFailed.wait
      have hInside : AllEnclosed addresses checked.limiter :=
        (hEnclosed.fail hClears hSeparates hFrom
          hBacked).wait hFailed
      change AllEnclosed addresses
        (if policy.allows .memory id ipAddress username
            tally.limiter then
          policy.forget .memory id ipAddress username checked
        else
          checked).limiter
      by_cases hAllows :
          policy.allows .memory id ipAddress username
            tally.limiter = true
      · rw [if_pos hAllows]
        have hForgotten := policy.forget_forgets .memory
          ipAddress username checked.limiter hClears
        exact hInside.update hSeparates hFrom
          hForgotten.toContained
          ((hInside _ hFrom).forget (hChecked _ hFrom)
            hForgotten
            (fun _ =>
              mem_standing_of_allows hClears hAllows))
      · rw [if_neg hAllows]
        exact hInside

/- A run in memory is always in time. -/
theorem timely_of_allEnclosed
    {visits : List (Visit Key)}
    (hClears : policy.onLoginSuccess = .clearAll)
    (hSeparates : LockoutPolicy.Separates addresses)
    (hFrom : ∀ visit ∈ visits, policy.From addresses visit)
    (hBacked : AllBacked .memory addresses tally.limiter
      tally.standing)
    (hEnclosed : AllEnclosed addresses tally.limiter) :
    policy.Timely .memory id tally visits := by
  induction visits generalizing tally with
  | nil => trivial
  | cons next visits ih =>
      have hNext := hFrom next List.mem_cons_self
      have hTimely : ∀ ipAddress username,
          next = .check ipAddress username true →
            Backend.memory.Timely id tally.limiter
              (policy.clientIpKey ipAddress)
              (policy.canonicalIdentifier username) := by
        rintro ipAddress username rfl
        exact timely_of_enclosed (hEnclosed _ hNext)
      refine ⟨hTimely, ih ?_ ?_ ?_⟩
      · intro visit hVisit
        exact hFrom visit (List.mem_cons_of_mem _ hVisit)
      · exact hBacked.visit hClears hSeparates hNext hTimely
      · exact hEnclosed.visit hClears hSeparates hNext
          hBacked

end Memory

------------------------------------------------------------
-- Visits On Rows
------------------------------------------------------------

section Rows

variable {ρ : Type} [DecidableEq ρ]
variable {policy : LockoutPolicy}
variable {backend : Backend}
variable {row : Key → ρ}
variable {keys : Set Key}
variable {addresses : Set String}
variable {tally : Tally ρ}
variable {keyed : Tally Key}
variable {ipAddress username : String}

/- What a visit is to the counters of some keys. -/
noncomputable def Visit.under
    (row : Key → ρ)
    (keys : Set Key) : Visit ρ → Visit Key
  | .tick step => .tick (step.under row keys)
  | .check ipAddress username success =>
      .check ipAddress username success
  | .challenge ipAddress username ticks =>
      .challenge ipAddress username
        (ticks.map (Backend.Tick.under row keys))

/- A tally on rows is one on keys: the same stands. -/
structure Tallied
    (row : Key → ρ)
    (keys : Set Key)
    (tally : Tally ρ)
    (keyed : Tally Key) : Prop where
  placed : Placed row keys tally.limiter keyed.limiter
  standing : tally.standing = keyed.standing

omit [DecidableEq ρ] in
/- What is live under a key is live in its row. -/
theorem Tallied.live
    {key : Key}
    (hTallied : Tallied row keys tally keyed)
    (hKey : key ∈ keys) :
    backend.live tally.limiter (row key) =
      backend.live keyed.limiter key :=
  hTallied.placed.live hKey

omit [DecidableEq ρ] in
/- The rows of a call's keys are theirs. -/
theorem rowsAt_call
    (hUses : policy.keys ipAddress username ⊆ keys) :
    RowsAt row keys row id
      (policy.keys ipAddress username) :=
  rowsAt_id.mono hUses

/- The same failures may go on. -/
theorem Tallied.allows_eq
    (hTallied : Tallied row keys tally keyed)
    (hApart : Set.InjOn row keys)
    (hUses : policy.keys ipAddress username ⊆ keys) :
    policy.allows backend row ipAddress username
        tally.limiter =
      policy.allows backend id ipAddress username
        keyed.limiter := by
  unfold LockoutPolicy.allows
  rw [(hTallied.placed.perform backend false hApart
    (rowsAt_call hUses)).1]

/- A failure stands on both, or on neither. -/
theorem Tallied.fail
    (hTallied : Tallied row keys tally keyed)
    (hApart : Set.InjOn row keys)
    (hUses : policy.keys ipAddress username ⊆ keys) :
    Tallied row keys
      (policy.fail backend row ipAddress username tally)
      (policy.fail backend id ipAddress username
        keyed) where
  placed := (hTallied.placed.perform backend false hApart
    (rowsAt_call hUses)).2
  standing := by
    have hAddress :
        addressKey (policy.clientIpKey ipAddress) ∈ keys :=
      hUses (by simp [LockoutPolicy.keys, addressKey,
        LockoutPolicy.ipAttempts])
    unfold LockoutPolicy.fail
    dsimp only
    rw [hTallied.placed.activeLockout backend
      (rowsAt_call hUses), hTallied.live hAddress,
      hTallied.standing]
    rfl

/- A success takes the same back on both. -/
theorem Tallied.succeed
    (hTallied : Tallied row keys tally keyed)
    (hApart : Set.InjOn row keys)
    (hUses : policy.keys ipAddress username ⊆ keys) :
    Tallied row keys
      (policy.succeed backend row ipAddress username tally)
      (policy.succeed backend id ipAddress username
        keyed) where
  placed := (hTallied.placed.perform backend true hApart
    (rowsAt_call hUses)).2
  standing := by
    unfold LockoutPolicy.succeed
    dsimp only
    rw [hTallied.standing]

/- So does taking one failure back. -/
theorem Tallied.forget
    (hTallied : Tallied row keys tally keyed)
    (hApart : Set.InjOn row keys)
    (hUses : policy.keys ipAddress username ⊆ keys) :
    Tallied row keys
      (policy.forget backend row ipAddress username tally)
      (policy.forget backend id ipAddress username
        keyed) where
  placed := (hTallied.placed.run backend [] hApart
    (rowsAt_call hUses)
    (LockoutPolicy.forgetAttempt_within subset_rfl)).2
  standing := by
    unfold LockoutPolicy.forget
    dsimp only
    rw [hTallied.standing]

/- Time passes on both. -/
theorem Tallied.wait
    {ticks : List (Backend.Tick ρ)}
    (hTallied : Tallied row keys tally keyed)
    (hApart : Set.InjOn row keys) :
    Tallied row keys
      (LockoutPolicy.wait backend ticks tally)
      (LockoutPolicy.wait backend
        (ticks.map (Backend.Tick.under row keys))
        keyed) := by
  induction ticks generalizing tally keyed with
  | nil => exact hTallied
  | cons tick ticks ih =>
      exact @ih
        ⟨backend.tick tick tally.limiter, tally.standing⟩
        ⟨backend.tick (tick.under row keys) keyed.limiter,
          keyed.standing⟩
        ⟨hTallied.placed.tick backend tick hApart,
          hTallied.standing⟩

/- One visit on the rows is one on the keys. -/
theorem Tallied.visit
    {next : Visit ρ}
    (hTallied : Tallied row keys tally keyed)
    (hApart : Set.InjOn row keys)
    (hUses : policy.Uses keys next) :
    Tallied row keys
      (policy.visit backend row tally next)
      (policy.visit backend id keyed
        (next.under row keys)) := by
  cases next with
  | tick tick =>
      exact hTallied.wait hApart
  | check ipAddress username success =>
      cases success with
      | false => exact hTallied.fail hApart hUses
      | true => exact hTallied.succeed hApart hUses
  | challenge ipAddress username ticks =>
      have hFailed :
          Tallied row keys
            (policy.fail backend row ipAddress username
              tally)
            (policy.fail backend id ipAddress username
              keyed) :=
        hTallied.fail hApart hUses
      have hChecked :
          Tallied row keys
            (LockoutPolicy.wait backend ticks
              (policy.fail backend row ipAddress username
                tally))
            (LockoutPolicy.wait backend
              (ticks.map (Backend.Tick.under row keys))
              (policy.fail backend id ipAddress username
                keyed)) :=
        hFailed.wait hApart
      simp only [LockoutPolicy.visit, Visit.under]
      rw [hTallied.allows_eq hApart hUses]
      split
      · exact hChecked.forget hApart hUses
      · exact hChecked

/- A run on the rows is one on the keys. -/
theorem Tallied.run
    {visits : List (Visit ρ)}
    (hTallied : Tallied row keys tally keyed)
    (hApart : Set.InjOn row keys)
    (hUses : ∀ visit ∈ visits, policy.Uses keys visit) :
    Tallied row keys
      (policy.tally backend row visits tally)
      (policy.tally backend id
        (visits.map (Visit.under row keys)) keyed) := by
  induction visits generalizing tally keyed with
  | nil => exact hTallied
  | cons next visits ih =>
      refine ih (hTallied.visit hApart ?_) ?_
      · exact hUses next List.mem_cons_self
      · intro visit hVisit
        exact hUses visit (List.mem_cons_of_mem _ hVisit)

/- Visits in time on the rows are so on the keys. -/
theorem Tallied.timely
    {visits : List (Visit ρ)}
    (hTallied : Tallied row keys tally keyed)
    (hApart : Set.InjOn row keys)
    (hUses : ∀ visit ∈ visits, policy.Uses keys visit)
    (hTimely : policy.Timely backend row tally visits) :
    policy.Timely backend id keyed
      (visits.map (Visit.under row keys)) := by
  induction visits generalizing tally keyed with
  | nil => trivial
  | cons next visits ih =>
      have hNext := hUses next List.mem_cons_self
      refine ⟨?_, ih (hTallied.visit hApart hNext) ?_
        hTimely.2⟩
      · intro ipAddress username hVisit
        obtain rfl : next =
            .check ipAddress username true := by
          cases next with
          | tick tick => cases hVisit
          | check ip user success =>
              cases hVisit
              rfl
          | challenge ip user ticks => cases hVisit
        have hPair : pairKey (policy.clientIpKey ipAddress)
            (policy.canonicalIdentifier username) ∈ keys :=
          hNext (by simp [LockoutPolicy.keys, pairKey,
            LockoutPolicy.pairAttempts])
        have hAddress :
            addressKey (policy.clientIpKey ipAddress) ∈
              keys :=
          hNext (by simp [LockoutPolicy.keys, addressKey,
            LockoutPolicy.ipAttempts])
        intro own hOwn hNonzero
        rw [id, ← hTallied.live hPair] at hOwn
        rw [id, ← hTallied.live hAddress]
        exact hTimely.1 ipAddress username rfl own hOwn
          hNonzero
      · intro visit hVisit
        exact hUses visit (List.mem_cons_of_mem _ hVisit)

omit [DecidableEq ρ] in
/- The visits come from the same addresses. -/
theorem from_under
    {visits : List (Visit ρ)}
    (hFrom : ∀ visit ∈ visits,
      policy.From addresses visit) :
    ∀ visit ∈ visits.map (Visit.under row keys),
      policy.From addresses visit := by
  intro visit hVisit
  obtain ⟨original, hOriginal, rfl⟩ :=
    List.mem_map.mp hVisit
  have hAddress := hFrom original hOriginal
  cases original with
  | tick tick => trivial
  | check ip user success => exact hAddress
  | challenge ip user ticks => exact hAddress

/- What is kept on the keys is kept on the rows. -/
theorem Tallied.pressureKept
    (hTallied : Tallied row keys tally keyed)
    (hApart : Set.InjOn row keys)
    (hKept :
      policy.PressureKept backend id addresses keys keyed) :
    policy.PressureKept backend row addresses keys
      tally := by
  intro ipAddress username hAddress hUses
  obtain ⟨hCount, hAllowed⟩ :=
    hKept ipAddress username hAddress hUses
  have hKey : policy.ipAttempts ipAddress ∈ keys :=
    hUses (by simp [LockoutPolicy.keys])
  rw [hTallied.live hKey,
    hTallied.allows_eq hApart hUses, hTallied.standing,
    (hTallied.fail hApart hUses).standing]
  exact ⟨hCount, hAllowed⟩

omit [DecidableEq ρ] in
/- Nothing has been counted on either. -/
theorem tallied_start
    (clock : Nat)
    (checks : List Bool) :
    Tallied row keys (LockoutPolicy.start clock checks)
      (LockoutPolicy.start clock checks) :=
  ⟨.empty clock checks, rfl⟩

end Rows

------------------------------------------------------------
-- Every Run
------------------------------------------------------------

namespace LockoutPolicy

/-
  Whatever the order of failures, successes and challenges,
  and whatever time passes between, the pressure on every
  address is kept, if no two keys in use share a row and no
  success comes out of its window.
-/
theorem pressure_kept
    {ρ : Type}
    [DecidableEq ρ]
    (policy : LockoutPolicy)
    (backend : Backend)
    (row : Key → ρ)
    (hClears : policy.onLoginSuccess = .clearAll)
    (addresses : Set String)
    (hSeparates : Separates addresses)
    (keys : Set Key)
    (hApart : Set.InjOn row keys)
    (clock : Nat)
    (checks : List Bool)
    (visits : List (Visit ρ))
    (hFrom : ∀ visit ∈ visits, policy.From addresses visit)
    (hUses : ∀ visit ∈ visits, policy.Uses keys visit)
    (hTimely :
      policy.Timely backend row (start clock checks)
        visits) :
    policy.PressureKept backend row addresses keys
      (policy.tally backend row visits
        (start clock checks)) := by
  have hStart := @tallied_start ρ row keys clock checks
  have hTimely' := hStart.timely hApart hUses hTimely
  have hBacked := AllBacked.run hClears hSeparates
    (from_under hFrom) hTimely'
    (allBacked_start clock checks)
  exact (hStart.run hApart hUses).pressureKept hApart
    (pressureKept_of_backed hClears hBacked)

/- Four failures are allowed, in ninety seconds. -/
def spraying : LockoutPolicy where
  maxAttempts := 4
  attemptWindowSeconds := 90
  lockoutBaseSeconds := 15
  lockoutMaxSeconds := 1200
  roundRetentionSeconds := 700
  onLoginSuccess := .clearAll
  maxAttempts_pos := by decide
  attemptWindow_pos := by decide
  lockoutBase_pos := by decide
  lockoutMax_pos := by decide
  roundRetention_pos := by decide
  clientIpKey := id
  canonicalIdentifier := id

/- A login of one's own between two failures. -/
def sprayed (ρ : Type) : List (Visit ρ) :=
  [.check "203.0.113.7" "victim" false,
    .check "203.0.113.7" "own" false,
    .tick (.pass 1000000),
    .check "203.0.113.7" "own" true,
    .challenge "203.0.113.7" "other" [.pass 1000]]

/- The keys it uses. -/
def sprayedKeys : Set Key :=
  spraying.keys "203.0.113.7" "victim" ∪
    spraying.keys "203.0.113.7" "own" ∪
    spraying.keys "203.0.113.7" "other"

/- A single address begins no other. -/
theorem separates_one (address : String) :
    Separates {address} := by
  rintro _ rfl _ rfl _
  rfl

/- The visits come from one address. -/
theorem sprayed_from
    {ρ : Type} :
    ∀ visit ∈ sprayed ρ,
      spraying.From {"203.0.113.7"} visit := by
  simp [sprayed, From, spraying]

theorem sprayed_uses :
    ∀ visit ∈ sprayed Text,
      spraying.Uses sprayedKeys visit := by
  have hVictim :
      spraying.keys "203.0.113.7" "victim" ⊆
        sprayedKeys := fun _ hKey => Or.inl (Or.inl hKey)
  have hOwn :
      spraying.keys "203.0.113.7" "own" ⊆ sprayedKeys :=
    fun _ hKey => Or.inl (Or.inr hKey)
  have hOther :
      spraying.keys "203.0.113.7" "other" ⊆ sprayedKeys :=
    fun _ hKey => Or.inr hKey
  simp only [sprayed, List.forall_mem_cons]
  exact ⟨hVictim, hOwn, trivial, hOwn, hOther,
    fun _ hVisit => by cases hVisit⟩

/- None of them is too long for its column. -/
theorem injOn_sprayed : Set.InjOn zeros.row sprayedKeys := by
  apply DatabaseCounters.injOn_row_of_fits
  rintro key ((hKey | hKey) | hKey) <;>
    rcases hKey with
      rfl | rfl | rfl | rfl | rfl | rfl | hLast <;>
    first
      | decide +kernel
      | (rw [show key = _ from hLast]; decide +kernel)

/- The sprayed run is in time. -/
theorem sprayed_timely :
    spraying.Timely .database zeros.row (start 0 [])
      (sprayed Text) := by
  have hNever : ∀ visit : Visit Text,
      (∀ ipAddress username,
        visit ≠ .check ipAddress username true) →
      ∀ (tally : Tally Text) ipAddress username,
        visit = .check ipAddress username true →
          Backend.database.Timely zeros.row tally.limiter
            (spraying.clientIpKey ipAddress)
            (spraying.canonicalIdentifier username) :=
    fun _ hNe _ ipAddress username hVisit =>
      absurd hVisit (hNe ipAddress username)
  refine ⟨hNever _ (by simp) _, hNever _ (by simp) _,
    hNever _ (by simp) _, ?_, hNever _ (by simp) _, trivial⟩
  intro ipAddress username hVisit own hOwn _
  cases hVisit
  obtain rfl : ⟨1, some 90000⟩ = own :=
    Option.some.inj (Eq.trans (by decide +kernel) hOwn)
  refine ⟨⟨2, some 90000⟩, by decide +kernel, ?_⟩
  exact Nat.lt_succ_self 90000

/- A database whose column none of the keys outgrows. -/
theorem sprayed_kept :
    spraying.PressureKept .database zeros.row
      {"203.0.113.7"} sprayedKeys
      (spraying.tally .database zeros.row (sprayed Text)
        (start 0 [])) :=
  pressure_kept spraying .database zeros.row rfl _
    (separates_one _) sprayedKeys injOn_sprayed 0 []
    (sprayed Text) sprayed_from sprayed_uses sprayed_timely

/- In memory, every run keeps it. -/
theorem memory_pressure_kept
    (policy : LockoutPolicy)
    (hClears : policy.onLoginSuccess = .clearAll)
    (addresses : Set String)
    (hSeparates : Separates addresses)
    (clock : Nat)
    (checks : List Bool)
    (visits : List (Visit Key))
    (hFrom : ∀ visit ∈ visits,
      policy.From addresses visit) :
    policy.PressureKept .memory id addresses Set.univ
      (policy.tally .memory id visits
        (start clock checks)) := by
  have hNone : AllEnclosed addresses
      (unused clock checks) := by
    intro address _ user own hOwn
    cases hOwn
  have hTimely := @timely_of_allEnclosed policy addresses
    (start clock checks) visits hClears hSeparates
    hFrom (allBacked_start clock checks) hNone
  exact pressureKept_of_backed hClears
    (AllBacked.run hClears hSeparates hFrom hTimely
      (allBacked_start clock checks))

/- The same run, kept in memory. -/
theorem memory_sprayed_kept :
    spraying.PressureKept .memory id {"203.0.113.7"}
      Set.univ
      (spraying.tally .memory id (sprayed Key)
        (start 0 [])) :=
  memory_pressure_kept spraying rfl _ (separates_one _) 0 []
    (sprayed Key) sprayed_from

example :
    (spraying.tally .memory id (sprayed Key)
        (start 0 [])).standing "203.0.113.7" = ["victim"] ∧
      (Backend.memory.live
        (spraying.tally .memory id (sprayed Key)
          (start 0 [])).limiter
        (spraying.ipAttempts "203.0.113.7")).map
          Counter.count = some 1 := by
  decide

end LockoutPolicy

end RateLimit

end CrudAuth
