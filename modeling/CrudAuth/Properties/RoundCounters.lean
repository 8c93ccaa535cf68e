import CrudAuth.RateLimit.RowRuns

/-
  Lockouts of one pair escalate wherever the counters of a
  run are kept in rows of their own.  In the database the
  rounds of a long identifier share the row of the text they
  are stored as, and a success of an identifier with that
  text forgets them.

  Main declarations:
    * `LockoutPolicy.Bounded`
    * `LockoutPolicy.Doubles`
    * `LockoutPolicy.escalates_of_injOn`
    * `LockoutPolicy.Shared.not_escalates`
-/

namespace CrudAuth

namespace RateLimit

open Concurrency
open Storage (Text databaseKeyMaxLength)
open DatabaseCounters (zeros)

------------------------------------------------------------
-- Bounds
------------------------------------------------------------

section Bounds

variable {ρ : Type} [DecidableEq ρ]
variable {policy : LockoutPolicy}
variable {backend : Backend}
variable {row : Key → ρ}
variable {limiter : Limiter ρ}
variable {ipAddress username : String}

/- A lockout lasts as some round says. -/
theorem lockOut_lasts :
    Program.Ends (I := interface) (backend.exec row)
      (policy.lockOut ipAddress username) limiter
      fun result _ => ∃ rounds,
        result = .ok
          (.verdict false (some 0)
            (policy.retryAfter rounds)) :=
  ⟨_, rfl⟩

/- Counting a pair announces nothing. -/
theorem countPair_returns :
    Program.Ends (I := interface) (backend.exec row)
      (policy.countPair ipAddress username) limiter
      fun _ _ => True :=
  trivial

/- So does whatever a call that meets no lock announces. -/
theorem recordFailure_lasts
    {duration : Nat} :
    Program.Ends (I := interface) (backend.exec row)
      (policy.recordFailure ipAddress username) limiter
      fun result _ =>
        policy.activeLockout backend row ipAddress username
            limiter = 0 →
        result = .ok (.verdict false (some 0) duration) →
        ∃ rounds, duration = policy.retryAfter rounds := by
  unfold LockoutPolicy.recordFailure
  simp only [Program.bind_eq]
  apply ends_step
  apply ends_step
  change Program.Ends (I := interface) (backend.exec row)
    (if 0 < policy.activeLockout backend row ipAddress
        username limiter then _ else _) limiter _
  split
  case isTrue hLocked =>
    intro hFree
    exact absurd hFree hLocked.ne'
  case isFalse =>
    apply ends_step
    apply ends_step
    apply Program.Ends.bind countPair_returns
    · intro _ counted _
      split
      · intro _ hResult
        cases hResult
      · apply Program.Ends.mono lockOut_lasts
        rintro result last ⟨rounds, rfl⟩ _ hResult
        cases hResult
        exact ⟨rounds, rfl⟩
    · intro error
      cases error

end Bounds

------------------------------------------------------------
-- Escalation
------------------------------------------------------------

namespace LockoutPolicy

variable {ρ : Type} [DecidableEq ρ]

/- Every lockout lasts between the two bounds. -/
def Bounded
    (policy : LockoutPolicy)
    (backend : Backend)
    (row : Key → ρ)
    (clock : Nat)
    (checks : List Bool) : Prop :=
  ∀ attempts ipAddress username duration,
    policy.Trips backend row ipAddress username
      (policy.after backend row attempts
        (unused clock checks))
      duration →
    min policy.lockoutBaseSeconds
        policy.lockoutMaxSeconds ≤ duration ∧
      duration ≤ policy.lockoutMaxSeconds

/-
  In every run whose calls use these keys: a lockout of a
  pair that comes before the round counters of an earlier
  one have expired lasts twice as long, up to the maximum.
-/
def Doubles
    (policy : LockoutPolicy)
    (backend : Backend)
    (row : Key → ρ)
    (keys : Set Key)
    (clock : Nat)
    (checks : List Bool) : Prop :=
  ∀ before between ipAddress username ipAddress' username'
      duration duration',
    let first := policy.after backend row before
      (unused clock checks)
    let second := policy.after backend row
      (.check ipAddress username false :: between) first
    (∀ attempt ∈ before ++ between,
      attempt.Uses policy keys) →
    policy.keys ipAddress username ⊆ keys →
    policy.SamePair ipAddress username ipAddress'
      username' →
    policy.NeverSucceeds username between →
    policy.Trips backend row ipAddress username first
      duration →
    policy.Trips backend row ipAddress' username' second
      duration' →
    backend.now second.clock <
      backend.now first.clock + backend.seconds
        (max duration policy.roundRetentionSeconds) →
    min (2 * duration) policy.lockoutMaxSeconds ≤
      duration'

variable (policy : LockoutPolicy)
variable (backend : Backend)
variable (row : Key → ρ)

/- Wherever the counters are kept, the bounds hold. -/
theorem bounded_durations
    (clock : Nat)
    (checks : List Bool) :
    policy.Bounded backend row clock checks := by
  intro attempts ipAddress username duration hTrips
  have hLasts := @recordFailure_lasts ρ _ policy backend row
    (policy.after backend row attempts (unused clock checks))
    ipAddress username duration
  obtain ⟨rounds, rfl⟩ := hLasts hTrips.1 hTrips.2
  exact ⟨le_retryAfter policy _,
    retryAfter_le_max policy _⟩

variable {policy : LockoutPolicy}
variable {backend : Backend}
variable {row : Key → ρ}

/- Two names of one pair have the same keys. -/
theorem SamePair.keys_eq
    {ipAddress username ipAddress' username' : String}
    (hPair : policy.SamePair ipAddress username ipAddress'
      username') :
    policy.keys ipAddress' username' =
      policy.keys ipAddress username := by
  unfold keys ipAttempts userAttempts pairAttempts ipLock
    userLock LockoutPolicy.ipRounds LockoutPolicy.userRounds
  rw [hPair.1, hPair.2]

omit [DecidableEq ρ] in
/- The successes of a run are those of its keys. -/
theorem NeverSucceeds.under
    {keys : Set Key}
    {username : String}
    {attempts : List (Attempt ρ)}
    (hNever : policy.NeverSucceeds username attempts) :
    policy.NeverSucceeds username
      (attempts.map (Attempt.under row keys)) := by
  intro ipAddress other hMem
  obtain ⟨attempt, hAttempt, hUnder⟩ :=
    List.mem_map.mp hMem
  cases attempt with
  | tick step => cases hUnder
  | check ip user success =>
      cases hUnder
      exact hNever ipAddress other hAttempt

/- Where no two keys share a row, lockouts double. -/
theorem doubles_of_injOn
    {keys : Set Key}
    (hApart : Set.InjOn row keys)
    (clock : Nat)
    (checks : List Bool) :
    policy.Doubles backend row keys clock checks := by
  intro before between ipAddress username ipAddress'
    username' duration duration' first second hUses hKeys
    hPair hNever hFirst hSecond hSoon
  have hBefore : Placed row keys first
      (policy.after backend id
        (before.map (Attempt.under row keys))
        (unused clock checks)) :=
    (Placed.empty clock checks).after hApart
      fun attempt hMem =>
        hUses attempt (List.mem_append_left _ hMem)
  have hBetween := @Placed.after _ _ policy backend row keys
    first _ (.check ipAddress username false :: between)
    hBefore hApart ?_
  · have hKeys' :
        policy.keys ipAddress' username' ⊆ keys :=
      hPair.keys_eq ▸ hKeys
    refine (escalates policy backend clock checks).2
      (before.map (Attempt.under row keys))
      (between.map (Attempt.under row keys))
      ipAddress username ipAddress' username'
      duration duration' hPair hNever.under
      ((hBefore.trips_iff hApart
        (rowsAt_id.mono hKeys)).mp hFirst)
      ((hBetween.trips_iff hApart
        (rowsAt_id.mono hKeys')).mp hSecond) ?_
    have hSoon' := hSoon
    rw [hBetween.clock, hBefore.clock] at hSoon'
    exact hSoon'
  · intro attempt hMem
    rcases List.mem_cons.mp hMem with rfl | hMem
    · exact hKeys
    · exact hUses attempt (List.mem_append_right _ hMem)

/-
  Every lockout lasts between its two bounds, and where no
  two keys of a run share a row, one of a pair that comes
  before the round counters of an earlier one have expired
  lasts twice as long, up to the maximum.
-/
theorem escalates_of_injOn
    (policy : LockoutPolicy)
    (backend : Backend)
    (row : Key → ρ)
    (keys : Set Key)
    (hApart : Set.InjOn row keys)
    (clock : Nat)
    (checks : List Bool) :
    policy.Bounded backend row clock checks ∧
      policy.Doubles backend row keys clock checks :=
  ⟨bounded_durations policy backend row clock checks,
    doubles_of_injOn hApart clock checks⟩

end LockoutPolicy

------------------------------------------------------------
-- A Long Identifier And Its Stored Form
------------------------------------------------------------

namespace LockoutPolicy

/- One attempt is allowed; lockouts start at ten seconds. -/
def strict : LockoutPolicy where
  maxAttempts := 1
  attemptWindowSeconds := 100
  lockoutBaseSeconds := 10
  lockoutMaxSeconds := 1000
  roundRetentionSeconds := 500
  onLoginSuccess := .clearUserOnly
  maxAttempts_pos := by decide
  attemptWindow_pos := by decide
  lockoutBase_pos := by decide
  lockoutMax_pos := by decide
  roundRetention_pos := by decide
  clientIpKey := id
  canonicalIdentifier := id

/- A short identifier has failed once. -/
def failedOnce : Limiter Text :=
  strict.after .database zeros.row [.check "a" "u" false]
    (unused 0 [])

/- It fails again, and waits. -/
def failedTwice : Limiter Text :=
  strict.after .database zeros.row
    [.check "a" "u" false, .tick (.pass 11000000)]
    failedOnce

/- The keys of the short identifier all fit. -/
theorem injOn_zeros :
    Set.InjOn zeros.row (strict.keys "a" "u") := by
  apply DatabaseCounters.injOn_row_of_fits
  intro key hKey
  rcases hKey with
    rfl | rfl | rfl | rfl | rfl | rfl | hLast
  · decide +kernel
  · decide +kernel
  · decide +kernel
  · decide +kernel
  · decide +kernel
  · decide +kernel
  · obtain rfl : key = .userRounds "u" := hLast
    decide +kernel

/- The first lock lasts ten seconds. -/
theorem trips_once :
    strict.Trips .database zeros.row "a" "u" failedOnce
      10 :=
  ⟨by decide +kernel, by decide +kernel⟩

theorem trips_twice :
    strict.Trips .database zeros.row "a" "u" failedTwice
      20 :=
  ⟨by decide +kernel, by decide +kernel⟩

/- Its second lockout lasts twice as long as its first. -/
theorem escalates_third :
    strict.Bounded .database zeros.row 0 [] ∧
      strict.Trips .database zeros.row "a" "u" failedTwice
        20 ∧
      min (2 * 10) strict.lockoutMaxSeconds ≤ 20 := by
  have hEscalates := escalates_of_injOn strict .database
    zeros.row (strict.keys "a" "u") injOn_zeros 0 []
  have hUses : ∀ attempt ∈
      [.check "a" "u" false] ++ [.tick (.pass 11000000)],
      Attempt.Uses strict (strict.keys "a" "u")
        (attempt : Attempt Text) := by
    intro attempt hMem
    rcases List.mem_cons.mp hMem with rfl | hMem
    · exact subset_rfl
    · obtain rfl := List.mem_singleton.mp hMem
      trivial
  have hNever : strict.NeverSucceeds "u"
      [(.tick (.pass 11000000) : Attempt Text)] := by
    intro ip other hMem
    cases List.mem_singleton.mp hMem
  have hSoon : Backend.database.now failedTwice.clock <
      Backend.database.now failedOnce.clock +
        Backend.database.seconds
          (max 10 strict.roundRetentionSeconds) := by
    decide +kernel
  refine ⟨hEscalates.1, trips_twice, ?_⟩
  exact hEscalates.2 [.check "a" "u" false]
    [.tick (.pass 11000000)] "a" "u" "a" "u" 10 20 hUses
    subset_rfl ⟨rfl, rfl⟩ hNever trips_once trips_twice
    hSoon

namespace Shared

/- Its rounds are too long for the column by one letter. -/
def long : String :=
  String.ofList (List.replicate 238 'a')

/- What the rounds of the long identifier are stored for. -/
def short (digest : Text → Text) : String :=
  String.ofList (List.replicate 172 'a' ++
    '#' :: digest (Key.userRounds long).text)

/- A database with an empty prefix. -/
def database (digest : Text → Text) :
    DatabaseCounters.Config where
  keyPrefix := []
  digest := digest
  dialect := .upsertsReturning

variable {digest : Text → Text}

theorem toList_long :
    long.toList = List.replicate 238 'a' :=
  String.toList_ofList

theorem toList_short :
    (short digest).toList = List.replicate 172 'a' ++
      '#' :: digest (Key.userRounds long).text :=
  String.toList_ofList

/- How long the two identifiers are. -/
theorem length_long : long.toList.length = 238 := by
  rw [toList_long, List.length_replicate]

/- The shortened username fits a column. -/
theorem length_short
    (hDigest : ∀ text, (digest text).length = 64) :
    (short digest).toList.length = 237 := by
  rw [toList_short, List.length_append,
    List.length_replicate, List.length_cons, hDigest]

/- A text that fits is stored as it is. -/
theorem row_of_fits
    {key : Key}
    (hFits : key.kind.head.length + key.name.length ≤
      databaseKeyMaxLength) :
    (database digest).row key = key.text := by
  apply Storage.storedKey_of_fits
  change key.text.length ≤ databaseKeyMaxLength
  rwa [Key.text, List.length_append]

/- The rounds of both are kept in one row. -/
theorem row_long
    (hDigest : ∀ text, (digest text).length = 64) :
    (database digest).row (.userRounds long) =
      (Key.userRounds (short digest)).text := by
  have hLong : databaseKeyMaxLength <
      (Key.userRounds long).text.length := by
    change databaseKeyMaxLength <
      ("login:rounds:user:".toList ++ long.toList).length
    rw [List.length_append, length_long]
    decide
  have hKept : (Key.userRounds long).text.take 190 =
      "login:rounds:user:".toList ++
        List.replicate 172 'a' := by
    change ("login:rounds:user:".toList ++
      long.toList).take 190 = _
    rw [toList_long, List.take_append,
      List.take_of_length_le (by decide),
      List.take_replicate]
    rfl
  change Storage.storedKey digest
    (Key.userRounds long).text = _
  rw [Storage.storedKey_of_long hDigest hLong,
    Storage.keptLength, hKept]
  change _ = "login:rounds:user:".toList ++
    (short digest).toList
  rw [toList_short, List.append_assoc, List.append_assoc]
  rfl

/- Both identifiers, and a short name for each. -/
def spelling (digest : Text → Text) : Equiv.Perm String :=
  (Equiv.swap "s" (short digest)).trans
    (Equiv.swap "l" long)

/- A key, for the identifier a short name stands for. -/
def spelled (digest : Text → Text) : Key → Key
  | .userAttempts user =>
    .userAttempts (spelling digest user)
  | .userLock user => .userLock (spelling digest user)
  | .userRounds user => .userRounds (spelling digest user)
  | key => key

/- Where the counter of a short name is kept. -/
def place (digest : Text → Text) (key : Key) : Text :=
  (spelled digest key).text

/- The rows of a call: the rounds are those of `short`. -/
def rowFor (name : String) : Key → Key
  | .userAttempts _ => .userAttempts name
  | .userLock _ => .userLock name
  | .userRounds _ => .userRounds "s"
  | key => key

/- Each key has its own place. -/
theorem place_injective :
    Function.Injective (place digest) := by
  intro key key' hSame
  have hSpelled := Key.text_injective hSame
  cases key <;> cases key' <;> simp_all [spelled]

/- Texts of different lengths are different. -/
theorem ne_of_length
    {text text' : String}
    (hLength : text.toList.length ≠ text'.toList.length) :
    text ≠ text' := by
  rintro rfl
  exact hLength rfl

/- What the two short names stand for. -/
theorem spelling_long
    (hDigest : ∀ text, (digest text).length = 64) :
    spelling digest "l" = long := by
  have hShort : "l" ≠ short digest := by
    apply ne_of_length
    rw [length_short hDigest]
    decide
  unfold spelling
  rw [Equiv.trans_apply,
    Equiv.swap_apply_of_ne_of_ne (by decide) hShort,
    Equiv.swap_apply_left]

/- The spelled username is the shortened one. -/
theorem spelling_short
    (hDigest : ∀ text, (digest text).length = 64) :
    spelling digest "s" = short digest := by
  have hName : short digest ≠ "l" := by
    apply ne_of_length
    rw [length_short hDigest]
    decide
  have hLong : short digest ≠ long := by
    apply ne_of_length
    rw [length_short hDigest, length_long]
    decide
  unfold spelling
  rw [Equiv.trans_apply, Equiv.swap_apply_left,
    Equiv.swap_apply_of_ne_of_ne hName hLong]

/- The rows of a call are where its short name has them. -/
theorem rowsAt
    {ipAddress name user : String}
    (hDigest : ∀ text, (digest text).length = 64)
    (hUser : spelling digest name = user)
    (hIp : ipAddress.toList.length = 1)
    (hLength : user.toList.length ≤ 238)
    (hRounds : (database digest).row (.userRounds user) =
      (Key.userRounds (short digest)).text) :
    RowsAt (place digest) Set.univ (database digest).row
      (rowFor name) (strict.keys ipAddress user) := by
  intro key hKey
  refine ⟨Set.mem_univ _, ?_⟩
  have hPair : (ipAddress ++ ":" ++ user).toList.length ≤
      240 := by
    rw [String.toList_append, String.toList_append,
      List.length_append, List.length_append, hIp]
    have hColon : ":".toList.length = 1 := by decide
    omega
  -- each of the other kinds leaves room for its name
  have hFits : ∀ (kind : Key.Kind) (count : Nat),
      kind.head.length + count ≤ databaseKeyMaxLength →
      ∀ key : Key, key.kind = kind →
        key.name.length ≤ count →
          (database digest).row key = key.text := by
    rintro kind count hRoom key rfl hName
    exact row_of_fits (by omega)
  rcases hKey with
    rfl | rfl | rfl | rfl | rfl | rfl | hLast
  · exact hFits .ipAttempts 1 (by decide) _ rfl hIp.le
  · change _ = (Key.userAttempts (spelling digest name)).text
    rw [hUser]
    exact hFits .userAttempts 238 (by decide) _ rfl hLength
  · exact hFits .pairAttempts 240 (by decide) _ rfl hPair
  · exact hFits .ipLock 1 (by decide) _ rfl hIp.le
  · change _ = (Key.userLock (spelling digest name)).text
    rw [hUser]
    exact hFits .userLock 238 (by decide) _ rfl hLength
  · exact hFits .ipRounds 1 (by decide) _ rfl hIp.le
  · obtain rfl : key = .userRounds user := hLast
    change _ = (Key.userRounds (spelling digest "s")).text
    rw [spelling_short hDigest]
    exact hRounds

/- The rounds of `short` are its own row. -/
theorem row_short
    (hDigest : ∀ text, (digest text).length = 64) :
    (database digest).row (.userRounds (short digest)) =
      (Key.userRounds (short digest)).text := by
  apply row_of_fits
  change "login:rounds:user:".toList.length +
    (short digest).toList.length ≤ _
  rw [length_short hDigest]
  decide

/- Two failures and a lockout, and one from elsewhere. -/
def before : List (Attempt Text) :=
  [.check "1" long false, .check "1" long false,
    .tick (.pass 11000000)]

/- The stored form of the identifier signs in. -/
def between (digest : Text → Text) : List (Attempt Text) :=
  [.check "1" (short digest) true, .tick (.pass 21000000)]

/- The same calls, under the short names. -/
def failed : Limiter Key :=
  (strict.perform .database (rowFor "l") "1" long false
    (strict.perform .database (rowFor "l") "1" long false
      (LockoutPolicy.unused 0 [])).2).2

/- Eleven seconds after the second of them. -/
def waited : Limiter Key :=
  Backend.database.tick (.pass 11000000) failed

/- A third one locks, and the stored form signs in. -/
def signedIn (digest : Text → Text) : Limiter Key :=
  (strict.perform .database (rowFor "s") "1" (short digest)
    true
    (strict.perform .database (rowFor "l") "2" long false
      waited).2).2

/- Twenty-one seconds later. -/
def waitedAgain (digest : Text → Text) : Limiter Key :=
  Backend.database.tick (.pass 21000000) (signedIn digest)

/- What the second lockout of the pair goes by. -/
def settled : Limiter Key where
  counters
    | .ipAttempts _ => some ⟨1, some 111000⟩
    | .userAttempts _ => some ⟨3, some 100000⟩
    | .ipLock _ => some ⟨1, some 31000⟩
    | .userLock _ => some ⟨1, some 31000⟩
    | .ipRounds _ => some ⟨1, some 511000⟩
    | _ => none
  clock := 32000000
  checks := []

/- The rows of the pair. -/
def pairRows : Set Key :=
  Set.image (rowFor "l") (strict.keys "2" long)

/- The time at which the username signs in. -/
theorem signedIn_clock :
    (signedIn digest).clock = 11000000 :=
  rfl

theorem waitedAgain_clock :
    (waitedAgain digest).clock = 32000000 :=
  congrArg (· + 21000000) signedIn_clock

/- It goes by nothing else. -/
theorem placed_settled :
    Placed id pairRows (waitedAgain digest) settled where
  clock := waitedAgain_clock
  checks := rfl
  counters := by
    rintro _ ⟨key, hKey, rfl⟩
    rcases hKey with
      rfl | rfl | rfl | rfl | rfl | rfl | hLast
    · rfl
    · rfl
    · rfl
    · rfl
    · rfl
    · rfl
    · obtain rfl : key = .userRounds long := hLast
      rfl

/- The first of the two lasts twenty seconds. -/
theorem trips_first :
    strict.Trips .database (rowFor "l") "2" long waited 20 :=
  ⟨rfl, rfl⟩

/- The second one lasts no longer than the first. -/
theorem trips_settled :
    strict.Trips .database (rowFor "l") "2" long settled
      20 :=
  ⟨rfl, rfl⟩

theorem trips_second :
    strict.Trips .database (rowFor "l") "2" long
      (waitedAgain digest) 20 := by
  refine (placed_settled.trips_iff
    Function.injective_id.injOn ?_).mpr trips_settled
  intro key hKey
  exact ⟨⟨key, hKey, rfl⟩, rfl⟩

variable (hDigest : ∀ text, (digest text).length = 64)

include hDigest

/- The rows of calls with the long identifier. -/
theorem rowsAt_long
    (ipAddress : String)
    (hIp : ipAddress.toList.length = 1) :
    RowsAt (place digest) Set.univ (database digest).row
      (rowFor "l") (strict.keys ipAddress long) :=
  rowsAt hDigest (spelling_long hDigest) hIp length_long.le
    (row_long hDigest)

/- The rows of calls with its stored form. -/
theorem rowsAt_short
    (ipAddress : String)
    (hIp : ipAddress.toList.length = 1) :
    RowsAt (place digest) Set.univ (database digest).row
      (rowFor "s") (strict.keys ipAddress (short digest)) :=
  rowsAt hDigest (spelling_short hDigest) hIp
    (by rw [length_short hDigest]; decide)
    (row_short hDigest)

/- The first lockout comes after the first wait. -/
theorem placed_before :
    Placed (place digest) Set.univ
      (strict.after .database (database digest).row before
        (LockoutPolicy.unused 0 []))
      waited := by
  have hPlace :=
    (@place_injective digest).injOn (s := Set.univ)
  have hOnce := ((Placed.empty 0 []).perform .database false
    hPlace (rowsAt_long hDigest "1" (by decide))).2
  have hTwice := (hOnce.perform .database false hPlace
    (rowsAt_long hDigest "1" (by decide))).2
  unfold before
  rw [LockoutPolicy.after_cons, LockoutPolicy.after_cons,
    LockoutPolicy.after_cons, LockoutPolicy.after_nil]
  exact hTwice.pass .database 11000000

/- The second one comes after a login in between. -/
theorem placed_between :
    Placed (place digest) Set.univ
      (strict.after .database (database digest).row
        (.check "2" long false :: between digest)
        (strict.after .database (database digest).row before
          (LockoutPolicy.unused 0 [])))
      (waitedAgain digest) := by
  have hPlace :=
    (@place_injective digest).injOn (s := Set.univ)
  have hTripped := ((placed_before hDigest).perform .database
    false hPlace (rowsAt_long hDigest "2" (by decide))).2
  have hSigned := (hTripped.perform .database true hPlace
    (rowsAt_short hDigest "1" (by decide))).2
  unfold between
  rw [LockoutPolicy.after_cons, LockoutPolicy.after_cons,
    LockoutPolicy.after_cons, LockoutPolicy.after_nil]
  exact hSigned.pass .database 21000000

/- Nobody of the long name has signed in. -/
theorem neverSucceeds_between :
    strict.NeverSucceeds long (between digest) := by
  intro ip other hMem hSame
  obtain ⟨rfl, rfl⟩ :
      ip = "1" ∧ other = short digest := by
    simpa [between] using hMem
  have hLengths := congrArg
    (fun text : String => text.toList.length) hSame
  change (short digest).toList.length =
    long.toList.length at hLengths
  rw [length_short hDigest, length_long] at hLengths
  cases hLengths

/- The second lockout lasts no longer than the first. -/
theorem not_doubles :
    ¬ strict.Doubles .database (database digest).row
      Set.univ 0 [] := by
  intro hDoubles
  have hPlace :=
    (@place_injective digest).injOn (s := Set.univ)
  have hFirst := placed_before hDigest
  have hSecond := placed_between hDigest
  have hUses : ∀ attempt ∈ before ++ between digest,
      attempt.Uses strict Set.univ := by
    intro attempt _
    cases attempt with
    | tick step => trivial
    | check ip user success => exact Set.subset_univ _
  have hLonger := hDoubles before (between digest)
    "2" long "2" long 20 20 hUses (Set.subset_univ _)
    ⟨rfl, rfl⟩ (neverSucceeds_between hDigest)
    ((hFirst.trips_iff hPlace
      (rowsAt_long hDigest "2" (by decide))).mpr trips_first)
    ((hSecond.trips_iff hPlace
      (rowsAt_long hDigest "2" (by decide))).mpr
        trips_second) ?_
  · exact absurd hLonger (by decide)
  · rw [hFirst.clock, hSecond.clock, waitedAgain_clock]
    decide

omit hDigest

/-
  With no digest do lockouts double for every identifier: a
  login under the stored form of a long one forgets its
  rounds.
-/
theorem not_escalates :
    ¬ ∃ digest : Text → Text,
      (∀ text, (digest text).length = 64) ∧
        strict.Bounded .database (database digest).row
          0 [] ∧
        strict.Doubles .database (database digest).row
          Set.univ 0 [] := by
  rintro ⟨digest, hDigest, -, hDoubles⟩
  exact not_doubles hDigest hDoubles

end Shared

end LockoutPolicy

end RateLimit

end CrudAuth
