import CrudAuth.Invariants.Epochs
import CrudAuth.Properties.PasswordWrites

/-
  A password change and the logins that were checked
  against the password before it: what is left of them once
  the change has been answered?

  Main declarations:
    * `SteadyLogins`
    * `Overtaken`
    * `epoch_of_part`
    * `EvictsLogins`
    * `evictsLogins_of_steady`
-/

namespace CrudAuth

open Concurrency

variable {ι : Type} [DecidableEq ι]
variable {runtime : Runtime}
variable {request : Request}
variable {requests : ι → Request}
variable {condition : Condition ι interface World}
variable {past : List Act}
variable {start state world : World}
variable {history later earlier : List (Ev ι)}
variable {id : UserId}
variable {user user' : User}
variable {thread login change : ι}

------------------------------------------------------------
-- Logins And Their Second Steps
------------------------------------------------------------

/- The two requests a password login consists of. -/
def Request.signsIn : Request → Bool
  | .login _ _ _ _ _ _ => true
  | .mfaVerify _ _ _ => true
  | _ => false

/- A login reads its row once. -/
theorem readsOnce_of_signsIn
    (hSignsIn : request.signsIn = true) :
    request.readsOnce = true := by
  cases request <;> simp_all [Request.signsIn,
    Request.readsOnce]

/- The operations after which a login counts on its row. -/
def countsOnRow : Op → Bool
  | .refresh _ => true
  | .challengeTake _ => true
  | _ => false

/-
  When a login rereads its row, or takes its challenge, the
  stored epoch is the one its copy shows.
-/
def SteadyLogins
    (requests : ι → Request) :
    Condition ι interface World :=
  fun state history thread op =>
    (requests thread).signsIn = true →
      countsOnRow op = true →
      ∀ user ∈ lastRead (own thread history),
      ∀ row ∈ state.row? user.id,
        row.tokenVersion = user.tokenVersion

instance :
    ∀ (state : World) (history : List (Ev ι))
      (thread : ι) (op : Op),
      Decidable
        (SteadyLogins requests state history thread op) :=
  fun state history thread op =>
    inferInstanceAs (Decidable
      ((requests thread).signsIn = true →
        countsOnRow op = true →
        ∀ user ∈ lastRead (own thread history),
        ∀ row ∈ state.row? user.id,
          row.tokenVersion = user.tokenVersion))

/-
  A thread is part of a login: the login itself, or the
  second step of a challenge the login has created.
-/
def PartOf
    (requests : ι → Request)
    (history : List (Ev ι))
    (login thread : ι) : Prop :=
  thread = login ∨
    ∃ key challenge ttl code presented,
      (⟨login, .challengeCreate key challenge ttl, ()⟩ :
        Ev ι) ∈ history ∧
      requests thread = .mfaVerify key code presented

/-
  A login read the account before `change` committed its
  new password, and `change` was answered before `later`.
-/
structure Overtaken
    (requests : ι → Request)
    (history : List (Ev ι))
    (login change : ι)
    (user : User)
    (later : List (Ev ι)) : Prop where
  isLogin : ∃ transport ip identifier password options
      presented,
    requests login =
      .login transport ip identifier password options
        presented
  isChange :
    (∃ token newPassword,
      requests change = .resetPassword token newPassword) ∨
    ∃ credential current newPassword,
      requests change =
        .changePassword credential current newPassword
  checked : ∃ selector newer older,
    history =
      newer ++ ⟨login, .select selector, some user⟩ ::
        older ∧
    ∀ event ∈ older, event.thread = change →
      writesPassword user.id event.action = false
  written : ∃ event ∈ history,
    event.thread = change ∧
      writesPassword user.id event.action = true
  answered : ∃ response earlier,
    history =
      later ++ ⟨change, .respond response, ()⟩ :: earlier ∧
    (response = .passwordReset ∨
      response = .passwordChanged)

/- The credential a request is authenticated by. -/
def Request.credential? : Request → Option Credential
  | .refresh token => some (.bearer token)
  | .me credential => some credential
  | .setPassword credential _ => some credential
  | .changePassword credential _ _ => some credential
  | .totpSetup credential _ => some credential
  | .totpConfirm credential _ => some credential
  | .totpDisable credential _ => some credential
  | .regenerate credential _ => some credential
  | .elevate credential _ => some credential
  | .requestEmailChange credential _ _ => some credential
  | _ => none

/-
  Whoever arrives after the answer and presents the
  credential is refused.
-/
def Dead
    (requests : ι → Request)
    (history later : List (Ev ι))
    (credential : Credential) : Prop :=
  ∀ visitor response,
    (requests visitor).credential? = some credential →
    (⟨visitor, .arrive (requests visitor), ()⟩ : Ev ι) ∈
      later →
    (⟨visitor, .respond response, ()⟩ : Ev ι) ∈ history →
    ∃ error, response = .refused error

/-
  Once a password change is answered, no credential of a
  login that was checked before it is good, however late it
  was issued, but for the session the change has kept; and
  no challenge of the login can be completed.
-/
structure EvictsLogins
    (runtime : Runtime)
    (requests : ι → Request)
    (condition : Condition ι interface World)
    (start : World) : Prop where
  tokens : ∀ config login change user later thread access
      refresh codes,
    runtime.Reachable requests condition start config →
    Overtaken requests config.history login change user
      later →
    PartOf requests config.history login thread →
    (⟨thread,
        .respond (.signedIn (.tokens access refresh) codes),
        ()⟩ : Ev ι) ∈ config.history →
    Dead requests config.history later (.bearer access) ∧
      Dead requests config.history later (.bearer refresh)
  sessions : ∀ config login change user later thread key
      data ttl,
    runtime.Reachable requests condition start config →
    Overtaken requests config.history login change user
      later →
    PartOf requests config.history login thread →
    (⟨thread, .sessionCreate key data ttl, ()⟩ : Ev ι) ∈
      config.history →
    (requests change).keptSession ≠ some key →
    Dead requests config.history later (.session key)
  challenges : ∀ config login change user later key
      challenge ttl,
    runtime.Reachable requests condition start config →
    Overtaken requests config.history login change user
      later →
    (⟨login, .challengeCreate key challenge ttl, ()⟩ :
      Ev ι) ∈ config.history →
    ∀ event ∈ later, event.op ≠ Op.challengeTake key

------------------------------------------------------------
-- The Epoch Of A Login
------------------------------------------------------------

/- All copies of a login show one epoch of one row. -/
theorem epoch_of_copies
    {first second : Act}
    (hRuns : runtime.Runs requests (SteadyLogins requests)
      start [] state history)
    (hSignsIn : (requests thread).signsIn = true)
    (hFirst : first ∈ own thread history)
    (hUser : copyOf first = some user)
    (hSecond : second ∈ own thread history)
    (hUser' : copyOf second = some user') :
    user.id = user'.id ∧
      user.tokenVersion = user'.tokenVersion := by
  have hShared := shared_along
    (fun first second : User =>
      first.id = second.id ∧
        first.tokenVersion = second.tokenVersion)
    (fun _ => ⟨rfl, rfl⟩)
    (fun _ _ _ hFirst hSecond =>
      ⟨hFirst.1.trans hSecond.1, hFirst.2.trans hSecond.2⟩)
    hRuns (readsOnce_of_signsIn hSignsIn)
    (fun _ _ _ row hSteady hRead hRow =>
      ⟨World.id_of_row? hRow,
        hSteady hSignsIn rfl _ hRead row hRow⟩)
  rcases hShared first hFirst user hUser with
    ⟨selected, hSelected, hId, hVersion⟩
  rcases hShared second hSecond user' hUser' with
    ⟨selected', hSelected', hId', hVersion'⟩
  obtain rfl : selected = selected' := by
    simpa [hSelected] using hSelected'
  exact ⟨hId.trans hId'.symm, hVersion.trans hVersion'.symm⟩

/-
  The copies of the login and of its second step show the
  epoch the password was checked under.
-/
theorem epoch_of_part
    {checked read : Act}
    (hVersioned : runtime.hasTokenVersion = true)
    (hTidy : start.Tidy)
    (hRuns : runtime.Runs requests (SteadyLogins requests)
      start [] state history)
    (hLogin : (requests login).signsIn = true)
    (hPart : PartOf requests history login thread)
    (hChecked : checked ∈ own login history)
    (hUser : copyOf checked = some user)
    (hRead : read ∈ own thread history)
    (hUser' : copyOf read = some user')
    (hEntitled : runtime.Entitled (requests thread)
      (own thread history) user'.id) :
    user'.id = user.id ∧
      user'.tokenVersion = user.tokenVersion := by
  rcases hPart with
    rfl | ⟨key, challenge, ttl, code, presented, hCreated,
      hRequest⟩
  · exact epoch_of_copies hRuns hLogin hRead hUser' hChecked
      hUser
  · have hSignsIn : (requests thread).signsIn = true := by
      rw [hRequest]
      rfl
    rw [hRequest] at hEntitled
    rcases hEntitled with
      ⟨shown, found, hSeen, hAccount, -, hShown⟩
    have hFound := hSeen.later_mem
    rcases hSeen with ⟨older, hOlder, hAttempt⟩
    have hAttempted := hOlder.subset
      (List.mem_cons_of_mem _ hAttempt)
    rw [mem_own_iff] at hAttempted
    rcases challenge_of_attempt hTidy hRuns hCreated
        hAttempted with
      ⟨hSameAccount, hSameVersion⟩
    have hOwn : user'.id = shown.accountId ∧
        user'.tokenVersion = shown.tokenVersion := by
      have hSame := epoch_of_copies hRuns hSignsIn hRead
        hUser' hFound rfl
      rw [Runtime.tokenVersion, if_pos hVersioned] at hShown
      exact ⟨hAccount.symm, hSame.2.trans hShown⟩
    have hBound : challenge.accountId = user.id ∧
        challenge.tokenVersion = user.tokenVersion := by
      rcases hRuns.at_member hCreated with
        ⟨before, older', hSuffix, -, hRule, -⟩
      rcases hRule with
        ⟨-, holder, hHolder, -, hAccount', hVersion'⟩
      rcases mem_of_lastRead hHolder with
        ⟨action, hAction, hCopy⟩
      have hSame := epoch_of_copies hRuns hLogin
        ((own_suffix login hSuffix).subset hAction) hCopy
        hChecked hUser
      rw [Runtime.tokenVersion, if_pos hVersioned]
        at hVersion'
      exact ⟨hAccount'.trans hSame.1,
        hVersion'.trans hSame.2⟩
    exact ⟨hOwn.1.trans (hSameAccount.trans hBound.1),
      hOwn.2.trans (hSameVersion.trans hBound.2)⟩

------------------------------------------------------------
-- The Answered Change
------------------------------------------------------------

/- The login of such a run signs in. -/
omit [DecidableEq ι] in
theorem Overtaken.signsIn
    (hOvertaken :
      Overtaken requests history login change user later) :
    (requests login).signsIn = true := by
  rcases hOvertaken.isLogin with
    ⟨transport, ip, identifier, password, options,
      presented, hLogin⟩
  rw [hLogin]
  rfl

/- Its change of password reads once. -/
omit [DecidableEq ι] in
theorem Overtaken.readsOnce
    (hOvertaken :
      Overtaken requests history login change user later) :
    (requests change).readsOnce = true := by
  rcases hOvertaken.isChange with
    ⟨token, newPassword, hChange⟩ |
      ⟨credential, current, newPassword, hChange⟩
  · rw [hChange]
    rfl
  · rw [hChange]
    rfl

/- Sparing nobody is sparing at most one. -/
theorem evicted_but
    (hEvicted : runtime.Evicted past id none)
    (excluded : Option Nat) :
    runtime.Evicted past id excluded := by
  refine ⟨hEvicted.1, fun hVersioned hSessions => ?_⟩
  rcases hEvicted.2 hVersioned hSessions with
    ⟨ids, hSeen, hCleared⟩
  exact ⟨ids, hSeen, fun key hKey _ =>
    hCleared key hKey (by simp)⟩

/- The change has evicted the account it was checked on. -/
theorem evicted_of_overtaken
    (hRuns : runtime.Runs requests condition start []
      state history)
    (hOvertaken :
      Overtaken requests history login change user later) :
    ∃ response earlier,
      history =
        later ++ ⟨change, .respond response, ()⟩ ::
          earlier ∧
      runtime.Evicted (own change earlier) user.id
        (requests change).keptSession := by
  rcases hOvertaken.answered with
    ⟨response, earlier, hHistory, hResponse⟩
  refine ⟨response, earlier, hHistory, ?_⟩
  have hAnswer :
      ∃ holder,
        lastRead (own change earlier) = some holder ∧
        runtime.Evicted (own change earlier) holder.id
          (requests change).keptSession := by
    rw [hHistory] at hRuns
    rcases hRuns.at_event with ⟨before, -, hRule, -⟩
    rcases hResponse with rfl | rfl
    · rcases hRule with ⟨holder, hRead, -, hEvicted⟩
      exact ⟨holder, hRead, evicted_but hEvicted _⟩
    · rcases hRule with ⟨holder, hRead, -, hEvicted⟩
      exact ⟨holder, hRead, hEvicted⟩
  rcases hAnswer with ⟨holder, hRead, hEvicted⟩
  have hSuffix : earlier <:+ history := by
    rw [hHistory]
    exact suffix_of_split _ _ _
  rcases mem_of_lastRead hRead with
    ⟨action, hAction, hCopy⟩
  rcases hOvertaken.written with
    ⟨⟨writer, op, ret⟩, hWritten, rfl, hWrites⟩
  have hLoaded :
      ∃ action ∈ own writer history, ∃ loaded,
        copyOf action = some loaded ∧
          loaded.id = user.id := by
    cases op with
    | commit loaded data =>
        simp only [writesPassword, Event.action,
          Bool.and_eq_true, beq_iff_eq] at hWrites
        rcases hRuns.at_member hWritten with
          ⟨before, older, hOlder, -, ⟨hLast, -⟩, -⟩
        rcases mem_of_lastRead hLast with
          ⟨action, hMem, hLoaded⟩
        refine ⟨action, ?_, loaded, hLoaded, hWrites.2.1⟩
        exact (own_suffix _ hOlder).subset hMem
    | _ => simp [writesPassword, Event.action] at hWrites
  rcases hLoaded with ⟨read, hMem, loaded, hLoaded, hId⟩
  have hSame : holder.id = loaded.id :=
    id_of_copies hRuns hOvertaken.readsOnce
      ((own_suffix _ hSuffix).subset hAction) hCopy hMem
      hLoaded
  rw [hSame, hId] at hEvicted
  exact hEvicted

/- The login had read the row when the epoch was bumped. -/
theorem read_before_bump
    {older : List (Ev ι)}
    (hRuns : runtime.Runs requests condition start []
      state history)
    (hOvertaken :
      Overtaken requests history login change user later)
    (hBump :
      (⟨change, .incrementVersion user.id, ()⟩ :: older) <:+
        history) :
    ∃ selector between oldest,
      older =
        between ++ ⟨login, .select selector, some user⟩ ::
          oldest := by
  rcases hOvertaken.checked with
    ⟨selector, newer, oldest, hChecked, hUnwritten⟩
  rcases hBump with ⟨newest, hSplit⟩
  rcases order_of_splits (hSplit.trans hChecked) with
    ⟨between, hOlder, -⟩ | ⟨between, hOldest, -⟩ |
      ⟨hSame, -⟩
  · exact ⟨selector, between, oldest, hOlder⟩
  · rw [← hSplit] at hRuns
    rcases hRuns.at_event with ⟨before, -, hRule, -⟩
    rcases hRule with
      ⟨-, loaded, data, hCommit, hId, hPassword⟩
    rw [mem_own_iff] at hCommit
    have hMem :
        (⟨change, .commit loaded data, true⟩ : Ev ι) ∈
          oldest := by
      rw [hOldest]
      exact List.mem_append_right _
        (List.mem_cons_of_mem _ hCommit)
    have hNone := hUnwritten _ hMem rfl
    simp [writesPassword, Event.action, hId, hPassword]
      at hNone
  · cases hSame

/- From the bump on, the stored epoch is a later one. -/
theorem passed_of_overtaken
    {moment : World}
    {suffix older : List (Ev ι)}
    (hStart : start.WellFormed)
    (hRuns : runtime.Runs requests condition start []
      state history)
    (hOvertaken :
      Overtaken requests history login change user later)
    (hMoment : runtime.Runs requests condition start []
      moment suffix)
    (hBump :
      (⟨change, .incrementVersion user.id, ()⟩ :: older) <:+
        suffix)
    (hSuffix : suffix <:+ history) :
    ∃ row,
      moment.row? user.id = some row ∧
        user.tokenVersion < row.tokenVersion := by
  rcases read_before_bump hRuns hOvertaken
      (hBump.trans hSuffix) with
    ⟨selector, between, oldest, rfl⟩
  exact version_lt_of_read hStart hMoment rfl rfl hBump

------------------------------------------------------------
-- Answers To A Visitor
------------------------------------------------------------

/- Only a request that was let in is not refused. -/
theorem entitled_of_response
    {credential : Credential}
    {response : Response}
    (hRuns : runtime.Runs requests condition start []
      state history)
    (hCredential :
      (requests thread).credential? = some credential)
    (hResponse :
      (⟨thread, .respond response, ()⟩ : Ev ι) ∈ history)
    (hAccepted : ∀ error, response ≠ .refused error) :
    ∃ id, runtime.Entitled (requests thread)
      (own thread history) id := by
  have hMono {older : List (Ev ι)}
      (hOlder : older <:+ history)
      {id : UserId}
      (hEntitled : runtime.Entitled (requests thread)
        (own thread older) id) :
      ∃ id, runtime.Entitled (requests thread)
        (own thread history) id :=
    ⟨id, hEntitled.mono (own_suffix thread hOlder)⟩
  rcases hRuns.at_member hResponse with
    ⟨before, older, hOlder, hBefore, hRule, -⟩
  have hAnswered :
      runtime.Answered (requests thread) (own thread older)
        response :=
    hRule
  cases response with
  | refused error => exact absurd rfl (hAccepted error)
  | signedIn issued codes =>
      cases issued with
      | session id key => exact hMono hOlder hAnswered.1.1
      | tokens access refresh =>
          rcases hAnswered with ⟨holder, -, hSignsIn, -⟩
          exact hMono hOlder hSignsIn.1
  | challenged key setup =>
      rcases hAnswered with ⟨challenge, ttl, hCreated⟩
      rw [mem_own_iff] at hCreated
      rcases hBefore.at_member hCreated with
        ⟨middle, oldest, hOldest, -, hCreate, -⟩
      rcases hCreate with ⟨-, holder, -, hEntitled, -⟩
      exact hMono (hOldest.trans hOlder) hEntitled
  | refreshed access => exact hMono hOlder hAnswered
  | principal id => exact hMono hOlder hAnswered
  | passwordReset =>
      rcases hAnswered with ⟨holder, -, hEntitled, -⟩
      exact hMono hOlder hEntitled
  | passwordChanged =>
      rcases hAnswered with ⟨holder, -, hEntitled, -⟩
      exact hMono hOlder hEntitled
  | accepted =>
      cases hRequest : requests thread with
      | requestReset value =>
          simp [hRequest, Request.credential?]
            at hCredential
      | requestVerification value =>
          simp [hRequest, Request.credential?]
            at hCredential
      | _ =>
          rw [hRequest] at hAnswered hMono
          rcases hAnswered with ⟨id, hEntitled⟩
          exact hMono hOlder hEntitled
  | passwordSet =>
      rcases hAnswered with ⟨id, hEntitled⟩
      exact hMono hOlder hEntitled
  | totpSetup secret =>
      rcases hAnswered with ⟨id, hEntitled⟩
      exact hMono hOlder hEntitled
  | recoveryCodes codes =>
      rcases hAnswered with ⟨id, hEntitled⟩
      exact hMono hOlder hEntitled
  | totpDisabled =>
      rcases hAnswered with ⟨id, hEntitled⟩
      exact hMono hOlder hEntitled
  | elevated until' =>
      rcases hAnswered with ⟨id, hEntitled⟩
      exact hMono hOlder hEntitled
  | verified =>
      rcases hAnswered with ⟨id, hEntitled⟩
      exact hMono hOlder hEntitled
  | emailChanged =>
      rcases hAnswered with ⟨id, hEntitled⟩
      exact hMono hOlder hEntitled
  | fieldChanged =>
      rcases hAnswered with ⟨id, hEntitled⟩
      exact hMono hOlder hEntitled

/- What let in the holder of a bearer token. -/
theorem bearer_of_entitled
    {token : Jwt}
    (hEntitled : runtime.Entitled request past id)
    (hCredential :
      request.credential? = some (.bearer token)) :
    ∃ found : User,
      (⟨.select (.byId token.sub), some found⟩ : Act) ∈
        past ∧
      token.ver = runtime.tokenVersion found := by
  have hSigned
      (hAuthenticated :
        runtime.Authenticated past (.bearer token) id) :
      ∃ found : User,
        (⟨.select (.byId token.sub), some found⟩ : Act) ∈
          past ∧
        token.ver = runtime.tokenVersion found := by
    rcases hAuthenticated with
      ⟨-, found, hFound, -, -, -, hVersion⟩
    exact ⟨found, hFound, hVersion⟩
  cases request with
  | refresh presented =>
      obtain rfl : presented = token := by
        simpa [Request.credential?] using hCredential
      rcases hEntitled with
        ⟨-, found, hFound, -, -, hVersion⟩
      exact ⟨found, hFound, hVersion⟩
  | login => cases hCredential
  | mfaVerify => cases hCredential
  | requestReset => cases hCredential
  | resetPassword => cases hCredential
  | requestVerification => cases hCredential
  | confirmVerification => cases hCredential
  | confirmEmailChange => cases hCredential
  | oauthCallback => cases hCredential
  | changeField => cases hCredential
  | _ =>
      obtain rfl := Option.some.inj hCredential
      exact hSigned hEntitled

/- What let in the holder of a session cookie. -/
theorem session_of_entitled
    {key : Nat}
    (hEntitled : runtime.Entitled request past id)
    (hCredential :
      request.credential? = some (.session key)) :
    runtime.Authenticated past (.session key) id := by
  cases request with
  | refresh => cases hCredential
  | login => cases hCredential
  | mfaVerify => cases hCredential
  | requestReset => cases hCredential
  | resetPassword => cases hCredential
  | requestVerification => cases hCredential
  | confirmVerification => cases hCredential
  | confirmEmailChange => cases hCredential
  | oauthCallback => cases hCredential
  | changeField => cases hCredential
  | _ =>
      obtain rfl := Option.some.inj hCredential
      exact hEntitled

------------------------------------------------------------
-- Dead Credentials
------------------------------------------------------------

/- A bearer token of a left epoch is dead. -/
theorem dead_of_version
    {token : Jwt}
    {older : List (Ev ι)}
    {response : Response}
    (hVersioned : runtime.hasTokenVersion = true)
    (hStart : start.WellFormed)
    (hRuns : runtime.Runs requests condition start []
      state history)
    (hOvertaken :
      Overtaken requests history login change user later)
    (hHistory : history =
      later ++ ⟨change, .respond response, ()⟩ :: earlier)
    (hBump :
      (⟨change, .incrementVersion user.id, ()⟩ :: older) <:+
        earlier)
    (hSub : token.sub = user.id)
    (hVersion : token.ver = user.tokenVersion) :
    Dead requests history later (.bearer token) := by
  intro visitor answer hCredential hArrived hResponse
  by_contra hAccepted
  rw [not_exists] at hAccepted
  rcases entitled_of_response hRuns hCredential hResponse
      hAccepted with
    ⟨id, hEntitled⟩
  rcases bearer_of_entitled hEntitled hCredential with
    ⟨found, hSelected, hFound⟩
  have hRuns' := hRuns
  rw [hHistory] at hRuns' hSelected
  rcases arrived_after hRuns' hArrived hSelected with
    ⟨newer, between, rfl⟩
  rw [List.append_assoc, List.cons_append] at hRuns'
  rcases hRuns'.at_event with
    ⟨moment, hMoment, -, -, hRet, -⟩
  have hSuffix :
      between ++ ⟨change, .respond response, ()⟩ ::
        earlier <:+ history := by
    rw [hHistory, List.append_assoc, List.cons_append]
    exact suffix_of_split _ _ _
  rcases passed_of_overtaken hStart hRuns hOvertaken hMoment
      (hBump.trans ((List.suffix_cons _ _).trans
        (List.suffix_append _ _))) hSuffix with
    ⟨row, hRow, hLess⟩
  have hSame : some found = moment.row? token.sub := hRet
  rw [hSub, hRow] at hSame
  obtain rfl := Option.some.inj hSame
  rw [hVersion, Runtime.tokenVersion, if_pos hVersioned]
    at hFound
  omega

/- A session that is gone from the answer on is dead. -/
theorem dead_of_gone
    {key : Nat}
    {answer : Ev ι}
    (hRuns : runtime.Runs requests condition start []
      state (later ++ answer :: earlier))
    (hGone : ∀ moment newer,
      runtime.Runs requests condition start [] moment
        (newer ++ answer :: earlier) →
      moment.session? key = none) :
    Dead requests (later ++ answer :: earlier) later
      (.session key) := by
  intro visitor response hCredential hArrived hResponse
  by_contra hAccepted
  rw [not_exists] at hAccepted
  rcases entitled_of_response hRuns hCredential hResponse
      hAccepted with
    ⟨id, hEntitled⟩
  rcases session_of_entitled hEntitled hCredential with
    ⟨-, data, change, found, ⟨older, hOlder, hModified⟩, -⟩
  have hMem :=
    hOlder.subset (List.mem_cons_of_mem _ hModified)
  rcases arrived_after hRuns hArrived hMem with
    ⟨newer, between, rfl⟩
  rw [List.append_assoc, List.cons_append] at hRuns
  rcases hRuns.at_event with
    ⟨moment, hMoment, -, -, hRet, -⟩
  have hShown :
      some data =
        (World.exec (.sessionModify key change)
          moment).1 :=
    hRet
  simp only [World.exec] at hShown
  rw [hGone moment between hMoment] at hShown
  cases hShown

/- So is one that is bound to a left epoch. -/
theorem dead_of_stale
    {key : Nat}
    (hVersioned : runtime.hasTokenVersion = true)
    (hRuns : runtime.Runs requests condition start []
      state history)
    (hStale : Stale user key state history) :
    Dead requests history later (.session key) := by
  intro visitor response hCredential _ hResponse
  by_contra hAccepted
  rw [not_exists] at hAccepted
  rcases entitled_of_response hRuns hCredential hResponse
      hAccepted with
    ⟨id, hEntitled⟩
  exact hStale.refuses hVersioned
    (session_of_entitled hEntitled hCredential)

/-
  A session of the login was there when the change read the
  index, or it is bound to the epoch the change has ended.
-/
theorem dead_of_session
    {key : Nat}
    {data : SessionData}
    {ttl : Nat}
    {response : Response}
    (hVersioned : runtime.hasTokenVersion = true)
    (hSessions : runtime.sessions.isSome = true)
    (hStart : start.WellFormed)
    (hTidy : start.Tidy)
    (hRuns : runtime.Runs requests condition start []
      state history)
    (hOvertaken :
      Overtaken requests history login change user later)
    (hHistory : history =
      later ++ ⟨change, .respond response, ()⟩ :: earlier)
    (hEvicted : runtime.Evicted (own change earlier) user.id
      (requests change).keptSession)
    (hCreated :
      (⟨thread, .sessionCreate key data ttl, ()⟩ : Ev ι) ∈
        history)
    (hOwner : data.userId = user.id)
    (hVersion : data.tokenVersion = some user.tokenVersion)
    (hKept : (requests change).keptSession ≠ some key) :
    Dead requests history later (.session key) := by
  rcases hEvicted.2 hVersioned hSessions with
    ⟨ids, ⟨older, hListing, hBump⟩, hCleared⟩
  rcases own_split hListing with
    ⟨since, listed, hEarlier, rfl⟩
  have hAnswered : earlier <:+ history := by
    rw [hHistory]
    exact suffix_of_split _ _ _
  have hAtListing :
      (⟨change, .userSessions user.id, ids⟩ :: listed) <:+
        earlier :=
    ⟨since, hEarlier.symm⟩
  rcases List.append_of_mem hCreated with
    ⟨newer, before, hCreation⟩
  rcases hAtListing.trans hAnswered with ⟨newest, hSplit⟩
  rcases order_of_splits (hSplit.trans hCreation) with
    ⟨between, hListed, -⟩ | ⟨between, hBefore, -⟩ |
      ⟨hSame, -⟩
  · rw [hHistory] at hRuns ⊢
    refine dead_of_gone hRuns ?_
    intro moment newer hMoment
    have hReached :
        earlier <:+
          newer ++ ⟨change, .respond response, ()⟩ ::
            earlier :=
      (List.suffix_cons _ _).trans (List.suffix_append _ _)
    have hMember :
        (⟨thread, .sessionCreate key data ttl, ()⟩ : Ev ι) ∈
          listed := by
      rw [hListed]
      exact List.mem_append_right _ List.mem_cons_self
    rw [← hOwner] at hAtListing hCleared
    refine session_gone_of_evicted hTidy hMoment
      (hAtListing.trans hReached) hMember ?_
    intro hKey
    rcases hCleared key hKey (Ne.symm hKept) with
      hRead | ⟨owner, hDeleted⟩
    · exact Or.inl
        (hRead.mono (own_suffix change hReached))
    · exact Or.inr ⟨owner,
        hDeleted.mono (own_suffix change hReached)⟩
  · have hRuns' := hRuns
    rw [hCreation] at hRuns'
    rcases hRuns'.at_event with
      ⟨moment, hMoment, hRule, -, -, -, hAfter⟩
    rw [← hCreation] at hAfter
    rw [mem_own_iff] at hBump
    rcases List.append_of_mem hBump with
      ⟨inner, oldest, hListed⟩
    have hInner :
        (⟨change, .incrementVersion user.id, ()⟩ ::
          oldest) <:+ listed :=
      ⟨inner, hListed.symm⟩
    have hAtBump :
        (⟨change, .incrementVersion user.id, ()⟩ ::
          oldest) <:+ before := by
      rw [hBefore]
      exact hInner.trans ((List.suffix_cons _ _).trans
        (List.suffix_append _ _))
    have hOlder : before <:+ history := by
      rw [hCreation]
      exact suffix_of_split _ _ _
    have hPassed := passed_of_overtaken hStart hRuns
      hOvertaken hMoment hAtBump hOlder
    exact dead_of_stale hVersioned hRuns
      (stale_of_created hVersioned hTidy hMoment hRule.1
        hPassed hOwner hVersion hAfter)
  · cases hSame

------------------------------------------------------------
-- Whole Runs
------------------------------------------------------------

/- A part of an overtaken login reads the epoch it was in. -/
theorem epoch_of_overtaken
    {config : Config ι interface World HttpError Unit}
    {holder : User}
    {older : List (Ev ι)}
    (hVersioned : runtime.hasTokenVersion = true)
    (hTidy : start.Tidy)
    (hReachable : runtime.Reachable requests
      (SteadyLogins requests) start config)
    (hOvertaken : Overtaken requests config.history login
      change user later)
    (hPart : PartOf requests config.history login thread)
    (hOlder : older <:+ config.history)
    (hRead : lastRead (own thread older) = some holder)
    (hEntitled : runtime.Entitled (requests thread)
      (own thread older) holder.id) :
    holder.id = user.id ∧
      holder.tokenVersion = user.tokenVersion := by
  have hRuns := Runtime.runs_of_reachable hReachable
  rcases hOvertaken.checked with
    ⟨selector, newer, oldest, hHistory, -⟩
  have hChecked :
      (⟨.select selector, some user⟩ : Act) ∈
        own login config.history := by
    rw [mem_own_iff, hHistory]
    exact List.mem_append_right _ List.mem_cons_self
  rcases mem_of_lastRead hRead with
    ⟨action, hAction, hCopy⟩
  exact epoch_of_part hVersioned hTidy hRuns
    hOvertaken.signsIn hPart hChecked rfl
    ((own_suffix thread hOlder).subset hAction) hCopy
    (hEntitled.mono (own_suffix thread hOlder))

/-
  Where logins never reread a row whose epoch has moved,
  an answered change leaves nothing of the logins that were
  checked before it.
-/
theorem evictsLogins_of_steady
    (runtime : Runtime)
    (requests : ι → Request)
    (start : World)
    (hVersioned : runtime.hasTokenVersion = true)
    (hStart : start.WellFormed)
    (hTidy : start.Tidy) :
    EvictsLogins runtime requests (SteadyLogins requests)
      start := by
  refine ⟨?_, ?_, ?_⟩
  · intro config login change user later thread access
      refresh codes hReachable hOvertaken hPart hIssued
    have hRuns := Runtime.runs_of_reachable hReachable
    rcases evicted_of_overtaken hRuns hOvertaken with
      ⟨response, earlier, hHistory, hEvicted⟩
    have hBump := hEvicted.1 hVersioned
    rw [mem_own_iff] at hBump
    rcases List.append_of_mem hBump with
      ⟨since, oldest, hEarlier⟩
    rcases hRuns.at_member hIssued with
      ⟨moment, older, hOlder, -, hRule, -⟩
    rcases hRule with
      ⟨holder, hRead, hSignsIn, -, hSub, hVer, hSub',
        hVer'⟩
    rcases epoch_of_overtaken hVersioned hTidy hReachable
        hOvertaken hPart hOlder hRead hSignsIn.1 with
      ⟨hId, hVersion⟩
    rw [Runtime.tokenVersion, if_pos hVersioned]
      at hVer hVer'
    exact ⟨
      dead_of_version hVersioned hStart hRuns hOvertaken
        hHistory ⟨since, hEarlier.symm⟩ (hSub.trans hId)
        (hVer.trans hVersion),
      dead_of_version hVersioned hStart hRuns hOvertaken
        hHistory ⟨since, hEarlier.symm⟩ (hSub'.trans hId)
        (hVer'.trans hVersion)⟩
  · intro config login change user later thread key data ttl
      hReachable hOvertaken hPart hCreated hKept
    have hRuns := Runtime.runs_of_reachable hReachable
    rcases evicted_of_overtaken hRuns hOvertaken with
      ⟨response, earlier, hHistory, hEvicted⟩
    rcases hRuns.at_member hCreated with
      ⟨moment, older, hOlder, -, hRule, -⟩
    rcases hRule with
      ⟨-, holder, hRead, hSignsIn, -, hOwner, hVersion⟩
    rcases epoch_of_overtaken hVersioned hTidy hReachable
        hOvertaken hPart hOlder hRead hSignsIn.1 with
      ⟨hId, hSame⟩
    rw [Runtime.tokenVersion, if_pos hVersioned, hSame]
      at hVersion
    by_cases hSessions : runtime.sessions.isSome = true
    · exact dead_of_session hVersioned hSessions hStart
        hTidy hRuns hOvertaken hHistory hEvicted hCreated
        (hOwner.trans hId) hVersion hKept
    · intro visitor answer hCredential _ hAnswer
      by_contra hAccepted
      rw [not_exists] at hAccepted
      rcases entitled_of_response hRuns hCredential hAnswer
          hAccepted with
        ⟨id, hEntitled⟩
      exact hSessions
        (session_of_entitled hEntitled hCredential).1
  · intro config login change user later key challenge ttl
      hReachable hOvertaken hCreated event hEvent hOp
    have hRuns := Runtime.runs_of_reachable hReachable
    rcases evicted_of_overtaken hRuns hOvertaken with
      ⟨response, earlier, hHistory, hEvicted⟩
    have hBump := hEvicted.1 hVersioned
    rw [mem_own_iff] at hBump
    rcases List.append_of_mem hBump with
      ⟨since, oldest, hEarlier⟩
    rcases event with ⟨thread, op, ret⟩
    obtain rfl : op = .challengeTake key := hOp
    rcases List.append_of_mem hEvent with
      ⟨newer, between, rfl⟩
    have hSplit := hHistory
    rw [List.append_assoc, List.cons_append] at hSplit
    have hOlder :
        between ++ ⟨change, .respond response, ()⟩ ::
          earlier <:+ config.history := by
      rw [hSplit]
      exact suffix_of_split _ _ _
    have hRuns' := hRuns
    rw [hSplit] at hRuns'
    rcases hRuns'.at_event with
      ⟨moment, hMoment, hRule, hSteady, -⟩
    rcases hRule with
      ⟨code, presented, holder, selected, hRequest, hRead,
        hEntitled, -⟩
    have hPart :
        PartOf requests config.history login thread :=
      Or.inr ⟨key, challenge, ttl, code, presented, hCreated,
        hRequest⟩
    rcases epoch_of_overtaken hVersioned hTidy hReachable
        hOvertaken hPart hOlder hRead hEntitled with
      ⟨hId, hVersion⟩
    have hInner :
        (⟨change, .incrementVersion user.id, ()⟩ ::
          oldest) <:+ earlier :=
      ⟨since, hEarlier.symm⟩
    rcases passed_of_overtaken hStart hRuns hOvertaken
        hMoment (hInner.trans ((List.suffix_cons _ _).trans
          (List.suffix_append _ _))) hOlder with
      ⟨row, hRow, hLess⟩
    have hSignsIn : (requests thread).signsIn = true := by
      rw [hRequest]
      rfl
    have hSame := hSteady hSignsIn rfl holder hRead row
      (hId ▸ hRow)
    omega

------------------------------------------------------------
-- A Second Step And A Reset
------------------------------------------------------------

/- A login in two steps, a reset, and two visits. -/
def loginAndReset : Nat → Request
  | 0 =>
      .login .session "ip" "ada@example.org" "old" {} none
  | 1 => .mfaVerify 100 (.digits "55") none
  | 2 =>
      .resetPassword (Scenario.resetToken Scenario.member)
        "new"
  | 3 => .me (.session 102)
  | _ => .me (.session 101)

/- One enrolled account. -/
def enrolledStart : World :=
  Scenario.world [Scenario.enrolled]

/- The login finishes, and the reset comes after it. -/
def finishedFirst : List (Choice Nat Nat) :=
  Scenario.steps 0 7 ++ Scenario.steps 1 15 ++
    Scenario.steps 2 13 ++ Scenario.steps 4 3

/- Where the undisturbed login has ended. -/
def finishedConfig :
    Config Nat interface World HttpError Unit :=
  Scenario.mfaRuntime.scheduled loginAndReset
    (SteadyLogins loginAndReset) enrolledStart finishedFirst
    (by decide)

/- The login's step comes after the reset. -/
theorem finished_overtaken :
    Overtaken loginAndReset finishedConfig.history 0 2
      Scenario.enrolled (finishedConfig.history.take 3) where
  isLogin := ⟨_, _, _, _, _, _, rfl⟩
  isChange := Or.inl ⟨_, _, rfl⟩
  checked :=
    ⟨.byField .email "ada@example.org", _, _,
      (List.take_append_drop 35 _).symm, by decide⟩
  written := by
    have hCommit :
        finishedConfig.history[10]? =
          some ⟨2, .commit
            { Scenario.enrolled with
              totpLastStep := some 34 }
            { hashedPassword := some (.bcrypt "new" 102) },
            true⟩ :=
      rfl
    exact ⟨_, List.mem_of_getElem? hCommit, rfl, rfl⟩
  answered :=
    ⟨.passwordReset, _, (List.take_append_drop 3 _).symm,
      Or.inl rfl⟩

/- The second request is part of the login. -/
theorem second_step_part
    {history : List (Ev Nat)}
    {place ttl : Nat}
    {challenge : MfaChallenge}
    (hCreated : history[place]? =
      some ⟨0, .challengeCreate 100 challenge ttl, ()⟩) :
    PartOf loginAndReset history 0 1 :=
  Or.inr ⟨100, challenge, ttl, .digits "55", none,
    List.mem_of_getElem? hCreated, rfl⟩

/- The reset signs out the session of a finished login. -/
theorem finished_login_refused :
    Dead loginAndReset finishedConfig.history
      (finishedConfig.history.take 3) (.session 101) := by
  have hCreated :
      finishedConfig.history[32]? =
        some ⟨0, .challengeCreate 100
          { accountId := 1
            tokenVersion := 0
            transport := .session
            setup := false
            lockoutIdentifier := "ada@example.org"
            ipAddress := "ip"
            options := {} } 300, ()⟩ :=
    rfl
  have hSession :
      finishedConfig.history[17]? =
        some ⟨1, .sessionCreate 101
          { userId := 1
            createdAt := 1000
            lastActivity := 1000
            rememberMe := false
            loginType := none
            tokenVersion := some 0 } 1800, ()⟩ :=
    rfl
  exact (evictsLogins_of_steady Scenario.mfaRuntime
    loginAndReset enrolledStart rfl
    (Scenario.seasoned rfl (by decide)
      (by decide)).wellFormed
    (Scenario.tidy _)).sessions _ 0 2 Scenario.enrolled _ 1
    101 _ _
    (Runtime.reachable_scheduled Scenario.mfaRuntime
      loginAndReset (SteadyLogins loginAndReset)
      enrolledStart finishedFirst (by decide))
    finished_overtaken (second_step_part hCreated)
    (List.mem_of_getElem? hSession) (by decide)

/- The reset lands between a checked code and its step. -/
def resetBetween : List (Choice Nat Nat) :=
  Scenario.steps 0 7 ++ Scenario.steps 1 6 ++
    Scenario.steps 2 11 ++ Scenario.steps 1 9 ++
    Scenario.steps 3 6

/- Where the reset has come in between. -/
def betweenConfig :
    Config Nat interface World HttpError Unit :=
  Scenario.mfaRuntime.scheduled loginAndReset anyStep
    enrolledStart resetBetween (by decide)

/- The reset falls between the two steps. -/
theorem between_overtaken :
    Overtaken loginAndReset betweenConfig.history 0 2
      Scenario.enrolled
      (betweenConfig.history.take 15) where
  isLogin := ⟨_, _, _, _, _, _, rfl⟩
  isChange := Or.inl ⟨_, _, rfl⟩
  checked :=
    ⟨.byField .email "ada@example.org", _, _,
      (List.take_append_drop 36 _).symm, by decide⟩
  written := by
    have hCommit :
        betweenConfig.history[20]? =
          some ⟨2, .commit Scenario.enrolled
            { hashedPassword := some (.bcrypt "new" 101) },
            true⟩ :=
      rfl
    exact ⟨_, List.mem_of_getElem? hCommit, rfl, rfl⟩
  answered :=
    ⟨.passwordReset, _, (List.take_append_drop 15 _).symm,
      Or.inl rfl⟩

/- The session is bound to the epoch after the reset. -/
theorem not_evictsLogins_of_reset :
    ¬ EvictsLogins Scenario.mfaRuntime loginAndReset anyStep
      enrolledStart := by
  intro hEvicts
  have hCreated :
      betweenConfig.history[33]? =
        some ⟨0, .challengeCreate 100
          { accountId := 1
            tokenVersion := 0
            transport := .session
            setup := false
            lockoutIdentifier := "ada@example.org"
            ipAddress := "ip"
            options := {} } 300, ()⟩ :=
    rfl
  have hSession :
      betweenConfig.history[7]? =
        some ⟨1, .sessionCreate 102
          { userId := 1
            createdAt := 1000
            lastActivity := 1000
            rememberMe := false
            loginType := none
            tokenVersion := some 1 } 1800, ()⟩ :=
    rfl
  have hArrived :
      (betweenConfig.history.take 15)[5]? =
        some ⟨3, .arrive (loginAndReset 3), ()⟩ :=
    rfl
  have hAnswer :
      betweenConfig.history[0]? =
        some ⟨3, .respond (.principal 1), ()⟩ :=
    rfl
  have hDead := hEvicts.sessions _ 0 2 Scenario.enrolled _ 1
    102 _ _
    (Runtime.reachable_scheduled Scenario.mfaRuntime
      loginAndReset anyStep enrolledStart resetBetween
      (by decide))
    between_overtaken (second_step_part hCreated)
    (List.mem_of_getElem? hSession) (by decide)
  rcases hDead 3 _ rfl (List.mem_of_getElem? hArrived)
      (List.mem_of_getElem? hAnswer) with
    ⟨error, hRefused⟩
  cases hRefused

end CrudAuth
