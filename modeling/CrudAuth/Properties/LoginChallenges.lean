import CrudAuth.Invariants.Challenges
import CrudAuth.Scenario
import Mathlib.Order.Interval.Finset.Nat

/-
  Login challenges: how many codes one lets a client try,
  and how many credentials it can end in.

  Main declarations:
    * `Runtime.counted`
    * `handle_counted`
    * `issuesTo?`
    * `afterPassword`
    * `ChallengeOnce`
    * `challengeOnce_of_tidy`
-/

namespace CrudAuth

open Concurrency Program

variable {ι : Type} [DecidableEq ι]
variable {runtime : Runtime}
variable {request : Request}
variable {requests : ι → Request}
variable {past : List Act}
variable {condition : Condition ι interface World}
variable {start state : World}
variable {history later earlier : List (Ev ι)}
variable {config : Config ι interface World HttpError Unit}
variable {mfa : MfaConfig}
variable {thread : ι}
variable {token : Nat}
variable {code : Code}
variable {presented : Option Nat}
variable {id : UserId}

------------------------------------------------------------
-- The Attempt Cap
------------------------------------------------------------

namespace Runtime

variable (runtime)

/- The attempt on a challenge was within its cap. -/
def Uncapped
    (request : Request)
    (past : List Act) : Prop :=
  match request with
  | .mfaVerify token _ _ =>
      ∃ (mfa : MfaConfig) (challenge : MfaChallenge),
        runtime.mfa = some mfa ∧
        (⟨.challengeAttempt token, some challenge⟩ : Act) ∈
          past ∧
        challenge.attempts ≤ mfa.maxCodeAttempts
  | _ => True

/- No account is loaded before the attempt is counted. -/
def counted (request : Request) : Contract interface where
  rule past op :=
    match op with
    | .select _ => runtime.Uncapped request past
    | _ => True
  answer _ _ := True

variable {runtime}

/- Within the cap, nothing more is owed. -/
theorem counted_of_uncapped
    {α : Type}
    {program : Flow α}
    (hUncapped : runtime.Uncapped request past) :
    Obeys (runtime.counted request) past program
      fun _ _ => True := by
  apply obeys_of_free
  intro past' op hSuffix
  cases op with
  | select selector =>
      cases request with
      | mfaVerify token code presented =>
          rcases hUncapped with
            ⟨mfa, challenge, hMfa, hAttempt, hCap⟩
          exact ⟨mfa, challenge, hMfa,
            hSuffix.subset hAttempt, hCap⟩
      | _ => trivial
  | _ => trivial

/- A challenge is counted before its code is. -/
theorem completeChallenge_counted
    (hMfa : runtime.mfa = some mfa) :
    Obeys (runtime.counted (.mfaVerify token code presented))
      past (runtime.completeChallenge mfa token code
        presented)
      fun _ _ => True := by
  unfold completeChallenge
  refine obeys_step trivial fun pending _ => ?_
  cases pending with
  | none => trivial
  | some pending =>
  dsimp only
  split
  · trivial
  · refine obeys_step trivial fun attempted _ => ?_
    cases attempted with
    | none => trivial
    | some challenge =>
    dsimp only
    split
    · exact obeys_step trivial fun _ _ => trivial
    · rename_i hCap
      apply counted_of_uncapped
      exact ⟨mfa, challenge, hMfa, List.mem_cons_self,
        Nat.le_of_not_lt hCap⟩

/- Only the second step of a login is counted at all. -/
theorem serve_counted :
    Obeys (runtime.counted request) past
      (runtime.serve request) fun _ _ => True := by
  cases request with
  | mfaVerify token code presented =>
      simp only [serve, withMfa]
      split
      · rename_i mfa hMfa
        exact completeChallenge_counted hMfa
      · trivial
  | _ => exact counted_of_uncapped trivial

/- So it is by every request. -/
theorem handle_counted (request : Request) :
    Obeys (runtime.counted request) []
      (runtime.handle request) fun _ _ => True := by
  refine obeys_step trivial fun _ _ => ?_
  have hServed :
      Obeys (runtime.counted request)
        [⟨.arrive request, ()⟩]
        (runtime.serve request).attempt fun _ _ => True :=
    Obeys.attempt serve_counted fun _ _ _ _ => trivial
  refine Obeys.bind hServed ?_ fun _ _ _ _ => trivial
  intro past' result _ _
  cases result with
  | ok response =>
      exact obeys_call trivial fun _ _ => trivial
  | error error =>
      exact obeys_call trivial fun _ _ => trivial

end Runtime

/- A call of `complete_challenge` got as far as its code. -/
def ReachesCheck
    (runtime : Runtime)
    (requests : ι → Request)
    (token : Nat)
    (history : List (Ev ι))
    (thread : ι) : Prop :=
  ∃ code presented id,
    requests thread = .mfaVerify token code presented ∧
    runtime.Entitled (requests thread) (own thread history)
      id

/- The attempt that such a call has made. -/
theorem attempt_of_check
    (hReachable :
      runtime.Reachable requests condition start config)
    (hMfa : runtime.mfa = some mfa)
    (hCheck : ReachesCheck runtime requests token
      config.history thread) :
    ∃ challenge : MfaChallenge,
      (⟨thread, .challengeAttempt token, some challenge⟩ :
        Ev ι) ∈ config.history ∧
      challenge.attempts ≤ mfa.maxCodeAttempts := by
  rcases hCheck with
    ⟨code, presented, id, hRequest, hEntitled⟩
  rw [hRequest] at hEntitled
  rcases hEntitled with ⟨shown, user, hSeen, -⟩
  rcases hSeen with ⟨older, hOlder, -⟩
  rcases own_split hOlder with
    ⟨later, earlier, hHistory, -⟩
  have hTrace : Trace machine
      (fun thread => runtime.counted (requests thread))
      condition start [] config.state config.history :=
    hReachable.trace
      (fun thread =>
        Runtime.handle_counted (requests thread))
      (fun _ _ _ => trivial)
  rw [hHistory] at hTrace
  rcases hTrace.at_event with ⟨-, -, hRule, -⟩
  have hUncapped :
      runtime.Uncapped (requests thread)
        (own thread earlier) :=
    hRule
  rw [hRequest] at hUncapped
  rcases hUncapped with
    ⟨mfa', challenge, hMfa', hAttempt, hCap⟩
  obtain rfl : mfa = mfa' :=
    Option.some.inj (hMfa.symm.trans hMfa')
  refine ⟨challenge, ?_, hCap⟩
  rw [hHistory]
  exact (suffix_of_split later _ earlier).subset
    (mem_own_iff.mp hAttempt)

/- An attempt is counted, and by no other call the same. -/
theorem attempt_pos
    (hRuns : runtime.Runs requests condition start []
      state history)
    {challenge : MfaChallenge}
    (hAttempt :
      (⟨thread, .challengeAttempt token, some challenge⟩ :
        Ev ι) ∈ history) :
    1 ≤ challenge.attempts := by
  rcases hRuns.at_member hAttempt with
    ⟨before, -, -, -, -, -, hRet⟩
  rcases live_of_attempt hRet with
    ⟨stored, -, -, hCount, -⟩
  omega

/- No two attempts count alike. -/
theorem attempts_injective
    (hStart : start.Tidy)
    (hRuns : runtime.Runs requests condition start []
      state history)
    {thread' : ι}
    {challenge challenge' : MfaChallenge}
    (hAttempt :
      (⟨thread, .challengeAttempt token, some challenge⟩ :
        Ev ι) ∈ history)
    (hAttempt' :
      (⟨thread', .challengeAttempt token, some challenge'⟩ :
        Ev ι) ∈ history)
    (hCount : challenge.attempts = challenge'.attempts) :
    thread = thread' := by
  rcases order_of_members hAttempt hAttempt' with
    ⟨later, between, earlier, rfl⟩ |
      ⟨later, between, earlier, rfl⟩ | hSame
  · have := attempts_increase hStart hRuns
    omega
  · have := attempts_increase hStart hRuns
    omega
  · exact congrArg Event.thread hSame

/-
  Every call that reaches its check has a count of its own.
-/
theorem calls_le_cap
    (hStart : start.Tidy)
    (hReachable :
      runtime.Reachable requests condition start config)
    (hMfa : runtime.mfa = some mfa)
    (calls : Finset ι)
    (hChecks : ∀ thread ∈ calls,
      ReachesCheck runtime requests token config.history
        thread) :
    calls.card ≤ mfa.maxCodeAttempts := by
  have hRuns := Runtime.runs_of_reachable hReachable
  have hAttempts (thread : calls) :=
    attempt_of_check hReachable hMfa
      (hChecks thread.val thread.property)
  choose challenge hAttempt hCap using hAttempts
  have hInto (thread : calls) :
      (challenge thread).attempts ∈
        Finset.Icc 1 mfa.maxCodeAttempts := by
    rw [Finset.mem_Icc]
    exact ⟨attempt_pos hRuns (hAttempt thread), hCap thread⟩
  have hCard :
      (Finset.univ : Finset calls).card ≤
        (Finset.Icc 1 mfa.maxCodeAttempts).card := by
    apply Finset.card_le_card_of_injOn
      (fun thread => (challenge thread).attempts)
    · intro thread _
      exact hInto thread
    · intro thread _ thread' _ hCount
      exact Subtype.ext
        (attempts_injective hStart hRuns (hAttempt thread)
          (hAttempt thread') hCount)
  simpa using hCard

------------------------------------------------------------
-- Issued Credentials
------------------------------------------------------------

/-
  The account that `complete_login` hands a credential of:
  a session is stored, or tokens are sent.
-/
def issuesTo? : Op → Option UserId
  | .sessionCreate _ data _ => some data.userId
  | .respond (.signedIn (.tokens access _) _) =>
      some access.sub
  | _ => none

/- Credentials are issued to whom the rule lets sign in. -/
theorem signsIn_of_issues
    {op : Op}
    (hRule : runtime.rule request past op)
    (hIssues : issuesTo? op = some id) :
    ∃ user,
      lastRead past = some user ∧
        user.id = id ∧
        runtime.SignsIn request past id ∧
        runtime.Unchallenged request user := by
  cases op with
  | sessionCreate key data ttl =>
      obtain rfl := Option.some.inj hIssues
      rcases hRule with
        ⟨-, user, hRead, hSignsIn, hUnchallenged, hId, -⟩
      rw [hId]
      exact ⟨user, hRead, rfl, hSignsIn, hUnchallenged⟩
  | respond response =>
      cases response with
      | signedIn issued codes =>
          cases issued with
          | tokens access refresh =>
              obtain rfl := Option.some.inj hIssues
              rcases hRule with
                ⟨user, hRead, hSignsIn, hUnchallenged, hSub,
                  -⟩
              rw [hSub]
              exact ⟨user, hRead, rfl, hSignsIn,
                hUnchallenged⟩
          | session id key => cases hIssues
      | _ => cases hIssues
  | _ => cases hIssues

/- The second step of a login has taken its challenge. -/
theorem taken_of_issues
    {event : Ev ι}
    (hStart : start.Tidy)
    (hRuns : runtime.Runs requests condition start [] state
      (later ++ event :: earlier))
    (hRequest :
      requests event.thread =
        .mfaVerify token code presented)
    (hIssues : issuesTo? event.op = some id) :
    ∃ newer older taken,
      earlier =
        newer ++
          ⟨event.thread, .challengeTake token,
            some taken⟩ :: older ∧
      taken.accountId = id ∧
      Accepted (requests event.thread)
        (own event.thread older) id := by
  rcases hRuns.at_event with ⟨before, hBefore, hRule, -⟩
  rcases signsIn_of_issues hRule hIssues with
    ⟨-, -, -, hSignsIn, -⟩
  rw [hRequest] at hSignsIn
  rcases hSignsIn with ⟨hEntitled, taken, hTaken⟩
  rcases hEntitled with ⟨shown, user, hSeen, hAccount, -⟩
  have hTaken' := mem_own_iff.mp hTaken
  have hShown :
      (⟨event.thread, .challengeAttempt token,
        some shown⟩ : Ev ι) ∈ earlier := by
    rcases hSeen with ⟨older, hOlder, hMem⟩
    exact mem_own_iff.mp (hOlder.subset
      (List.mem_cons_of_mem _ hMem))
  have hSame :=
    account_of_taken hStart hBefore hShown hTaken'
  rcases List.append_of_mem hTaken' with
    ⟨newer, older, rfl⟩
  refine ⟨newer, older, taken, rfl, hSame.symm.trans
    hAccount,
    ?_⟩
  rcases hBefore.at_event with ⟨-, -, hTakeRule, -⟩
  rcases hTakeRule with
    ⟨_, _, reader, _, hSameRequest, -, hReader, hAccepted, -⟩
  have hReaderId : reader.id = id := by
    rw [hRequest] at hReader
    rcases hReader with
      ⟨shown', user', hSeen', hAccount', -⟩
    have hShown' :
        (⟨event.thread, .challengeAttempt token,
          some shown'⟩ : Ev ι) ∈
          newer ++
            ⟨event.thread, .challengeTake token,
              some taken⟩ :: older := by
      rcases hSeen' with ⟨oldest, hOldest, hMem⟩
      apply (suffix_of_split newer _ older).subset
      exact mem_own_iff.mp (hOldest.subset
        (List.mem_cons_of_mem _ hMem))
    have hSame' :=
      account_of_taken hStart hBefore hShown' hTaken'
    exact hAccount'.symm.trans (hSame'.trans
      (hSame.symm.trans hAccount))
  rw [← hReaderId]
  exact hAccepted

/- A challenge is consumed before its deadline. -/
theorem inTime_of_taken
    {challenge taken : MfaChallenge}
    {deadline : Nat}
    (hDescends : Descends token challenge deadline state
      history)
    (hTaken : (World.exec (.challengeTake token) state).1 =
      some taken) :
    state.clock < deadline := by
  rcases live_of_taken hTaken.symm with ⟨record, hLive, -⟩
  rcases challenge?_eq_some.mp hLive with ⟨hStored, hLt⟩
  rw [hDescends.deadline record hStored] at hLt
  exact hLt

------------------------------------------------------------
-- The First Step
------------------------------------------------------------

/- What `password_login` does with an accepted password. -/
def afterPassword
    (runtime : Runtime)
    (transport : TransportName)
    (ip identifier : String)
    (options : LoginOptions)
    (presented : Option Nat)
    (user : User) : Flow Response := do
  match runtime.mfa with
  | none =>
      let issued ← runtime.completeLogin transport presented
        user options
      return .signedIn issued none
  | some mfa =>
      match ← runtime.challengeLogin mfa user transport ip
          identifier options with
      | some (token, setup) => return .challenged token setup
      | none =>
          let issued ← runtime.completeLogin transport
            presented user options
          return .signedIn issued none

/-
  An enrolled account is challenged, whatever is answered.
-/
theorem challenged_of_enrolled
    (hMfa : runtime.mfa = some mfa)
    {user : User}
    (hEnrolled : user.isEnrolled = true)
    (transport : TransportName)
    (ip identifier : String)
    (options : LoginOptions)
    (presented : Option Nat) :
    Obeys anything past
      (afterPassword runtime transport ip identifier options
        presented user)
      fun past' result =>
        ∃ (token : Nat) (challenge : MfaChallenge),
          result = .ok (.challenged token none) ∧
          challenge.accountId = user.id ∧
          past' =
            ⟨.challengeCreate token challenge
                mfa.challengeTtlSeconds, ()⟩ ::
              ⟨.fresh, token⟩ :: past := by
  unfold afterPassword Runtime.challengeLogin
  rw [hMfa]
  simp only [hEnrolled, Bool.not_true, Bool.false_and,
    Bool.false_eq_true, if_false, if_true]
  refine obeys_step trivial fun token _ => ?_
  refine obeys_step trivial fun _ _ => ?_
  exact ⟨token, _, rfl, rfl, rfl⟩

------------------------------------------------------------
-- One Challenge, One Credential
------------------------------------------------------------

/- Whether a request is the first step of a login. -/
def Request.isLogin : Request → Bool
  | .login _ _ _ _ _ _ => true
  | _ => false

/-
  At most the allowed number of calls on a challenge reach
  the check of their code, it is consumed at most once and
  before its TTL has run out, only the call that consumed
  it issues a credential, and that one had its code
  accepted before.  A login to an enrolled account issues
  none: it is answered with a challenge.
-/
structure ChallengeOnce
    (runtime : Runtime)
    (requests : ι → Request)
    (condition : Condition ι interface World)
    (start : World) : Prop where
  bounded : ∀ config mfa token (calls : Finset ι),
    runtime.Reachable requests condition start config →
    runtime.mfa = some mfa →
    (∀ thread ∈ calls,
      ReachesCheck runtime requests token config.history
        thread) →
    calls.card ≤ mfa.maxCodeAttempts
  consumedOnce : ∀ config later between earlier thread
      thread' token (taken taken' : MfaChallenge),
    runtime.Reachable requests condition start config →
    config.history ≠
      later ++
        ⟨thread', .challengeTake token, some taken'⟩ ::
          (between ++
            ⟨thread, .challengeTake token, some taken⟩ ::
              earlier)
  inTime : ∀ config config' creator taker token challenge
      ttl next taken,
    runtime.Reachable requests condition start config →
    config.pool creator =
      .perform (.challengeCreate token challenge ttl) next →
    condition config.state config.history creator
      (.challengeCreate token challenge ttl) →
    Reaches machine condition
      (config.advance machine creator
        (.challengeCreate token challenge ttl) next)
      config' →
    config'.next? taker = some (.challengeTake token) →
    (World.exec (.challengeTake token) config'.state).1 =
      some taken →
    config'.state.clock < config.state.clock + ttl
  issued : ∀ config later earlier (event : Ev ι) token code
      presented id,
    runtime.Reachable requests condition start config →
    config.history = later ++ event :: earlier →
    requests event.thread =
      .mfaVerify token code presented →
    issuesTo? event.op = some id →
    ∃ newer older taken,
      earlier =
        newer ++
          ⟨event.thread, .challengeTake token,
            some taken⟩ :: older ∧
      taken.accountId = id ∧
      Accepted (requests event.thread)
        (own event.thread older) id
  single : ∀ config (event event' : Ev ι) token code code'
      presented presented' id id',
    runtime.Reachable requests condition start config →
    event ∈ config.history →
    event' ∈ config.history →
    requests event.thread =
      .mfaVerify token code presented →
    requests event'.thread =
      .mfaVerify token code' presented' →
    issuesTo? event.op = some id →
    issuesTo? event'.op = some id' →
    event.thread = event'.thread
  named : ∀ config later earlier thread id key codes,
    runtime.Reachable requests condition start config →
    config.history =
      later ++
        ⟨thread, .respond
          (.signedIn (.session id key) codes),
          ()⟩ :: earlier →
    ∃ (data : SessionData) (ttl : Nat),
      (⟨thread, .sessionCreate key data ttl, ()⟩ : Ev ι) ∈
        earlier ∧
      data.userId = id
  unenrolled : ∀ config later earlier (event : Ev ι) id,
    runtime.Reachable requests condition start config →
    config.history = later ++ event :: earlier →
    runtime.mfa.isSome = true →
    (requests event.thread).isLogin = true →
    issuesTo? event.op = some id →
    ∃ user,
      lastRead (own event.thread earlier) = some user ∧
        user.id = id ∧
        user.isEnrolled = false
  challenged : ∀ mfa past user transport ip identifier
      password options presented,
    runtime.mfa = some mfa →
    user.isEnrolled = true →
    runtime.passwordLogin transport ip identifier password
        options presented =
      (runtime.authenticatePassword ip identifier password
        runtime.mfa.isNone).bind
        (afterPassword runtime transport ip identifier
          options presented) ∧
    Obeys anything past
      (afterPassword runtime transport ip identifier options
        presented user)
      fun past' result =>
        ∃ (token : Nat) (challenge : MfaChallenge),
          result = .ok (.challenged token none) ∧
          challenge.accountId = user.id ∧
          past' =
            ⟨.challengeCreate token challenge
                mfa.challengeTtlSeconds, ()⟩ ::
              ⟨.fresh, token⟩ :: past

/- Two calls that took one challenge are one call. -/
theorem taker_unique
    (hStart : start.Tidy)
    (hRuns : runtime.Runs requests condition start []
      state history)
    {thread' : ι}
    {taken taken' : MfaChallenge}
    (hTaken :
      (⟨thread, .challengeTake token, some taken⟩ : Ev ι) ∈
        history)
    (hTaken' :
      (⟨thread', .challengeTake token, some taken'⟩ :
        Ev ι) ∈ history) :
    thread = thread' := by
  rcases order_of_members hTaken hTaken' with
    ⟨later, between, earlier, rfl⟩ |
      ⟨later, between, earlier, rfl⟩ | hSame
  · exact (not_taken_twice hStart hRuns).elim
  · exact (not_taken_twice hStart hRuns).elim
  · exact congrArg Event.thread hSame

/- A login through a challenge has taken it. -/
theorem taker_of_issues
    (hStart : start.Tidy)
    (hRuns : runtime.Runs requests condition start []
      state history)
    {event : Ev ι}
    (hEvent : event ∈ history)
    (hRequest :
      requests event.thread =
        .mfaVerify token code presented)
    (hIssues : issuesTo? event.op = some id) :
    ∃ taken : MfaChallenge,
      (⟨event.thread, .challengeTake token, some taken⟩ :
        Ev ι) ∈ history := by
  rcases List.append_of_mem hEvent with
    ⟨later, earlier, rfl⟩
  rcases taken_of_issues hStart hRuns hRequest hIssues with
    ⟨newer, older, taken, rfl, -⟩
  exact ⟨taken, by simp⟩

/- What holds of challenges along every run. -/
theorem challengeOnce_of_tidy
    (runtime : Runtime)
    (requests : ι → Request)
    (condition : Condition ι interface World)
    {start : World}
    (hStart : start.Tidy) :
    ChallengeOnce runtime requests condition start := by
  constructor
  · intro config mfa token calls hReachable hMfa hChecks
    exact calls_le_cap hStart hReachable hMfa calls hChecks
  · intro config later between earlier thread thread' token
      taken taken' hReachable hHistory
    have hRuns := Runtime.runs_of_reachable hReachable
    rw [hHistory] at hRuns
    exact not_taken_twice hStart hRuns
  · intro config config' creator taker token challenge ttl
      next taken hReachable hPool hAllowed hReaches hNext
      hTaken
    have hRuns := Runtime.runs_of_reachable hReachable
    have hRule := Runtime.rule_of_next hReachable
      (Config.next?_eq_some.mpr ⟨next, hPool⟩)
    have hCreated :
        runtime.Reachable requests condition start
          (config.advance machine creator
            (.challengeCreate token challenge ttl) next) :=
      .perform hReachable hPool hAllowed
    have hDescends := descends_along
      (Runtime.runs_of_reaches hCreated hReaches)
      (descends_of_created hRuns hRule.1)
    exact inTime_of_taken hDescends hTaken
  · intro config later earlier event token code presented id
      hReachable hHistory hRequest hIssues
    have hRuns := Runtime.runs_of_reachable hReachable
    rw [hHistory] at hRuns
    exact taken_of_issues hStart hRuns hRequest hIssues
  · intro config event event' token code code' presented
      presented' id id' hReachable hEvent hEvent' hRequest
      hRequest' hIssues hIssues'
    have hRuns := Runtime.runs_of_reachable hReachable
    rcases taker_of_issues hStart hRuns hEvent hRequest
        hIssues with
      ⟨taken, hTaken⟩
    rcases taker_of_issues hStart hRuns hEvent' hRequest'
        hIssues' with
      ⟨taken', hTaken'⟩
    exact taker_unique hStart hRuns hTaken hTaken'
  · intro config later earlier thread id key codes hReachable
      hHistory
    have hRuns := Runtime.runs_of_reachable hReachable
    rw [hHistory] at hRuns
    rcases hRuns.at_event with ⟨-, -, hRule, -⟩
    rcases hRule with ⟨-, data, ttl, hCreated, hUser⟩
    exact ⟨data, ttl, mem_own_iff.mp hCreated, hUser⟩
  · intro config later earlier event id hReachable hHistory
      hMfa hLogin hIssues
    have hRuns := Runtime.runs_of_reachable hReachable
    rw [hHistory] at hRuns
    rcases hRuns.at_event with ⟨-, -, hRule, -⟩
    rcases signsIn_of_issues hRule hIssues with
      ⟨user, hRead, hId, -, hUnchallenged⟩
    refine ⟨user, hRead, hId, ?_⟩
    cases hRequest : requests event.thread with
    | login =>
        rw [hRequest] at hUnchallenged
        exact hUnchallenged hMfa
    | _ => simp [hRequest, Request.isLogin] at hLogin
  · intro mfa past user transport ip identifier password
      options presented hMfa hEnrolled
    exact ⟨rfl, challenged_of_enrolled hMfa hEnrolled
      transport ip identifier options presented⟩

/- A login to the enrolled account, then two codes for it. -/
def loginRace : Nat → Request
  | 0 => .login .session "ip" "ada" "old" {} none
  | _ => .mfaVerify 100 (.digits "55") none

/- The second call gets in between, the first signs in. -/
theorem one_call_signs_in :
    (∃ event ∈
      (Scenario.mfaRuntime.scheduled loginRace anyStep
        (Scenario.world [Scenario.enrolled])
        (Scenario.steps 0 8 ++ Scenario.steps 2 3 ++
          Scenario.steps 1 14) (by decide)).history,
      issuesTo? event.op = some 1) ∧
    ChallengeOnce Scenario.mfaRuntime loginRace anyStep
      (Scenario.world [Scenario.enrolled]) :=
  ⟨⟨_, List.mem_of_getElem? (i := 0) rfl, rfl⟩,
    challengeOnce_of_tidy Scenario.mfaRuntime loginRace
      anyStep (Scenario.tidy _)⟩

end CrudAuth
