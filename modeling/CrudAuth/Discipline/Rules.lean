import CrudAuth.Routes
import CrudAuth.World.Steps

/-
  What every handler keeps to, whatever the other requests
  do meanwhile: which copy a write starts from, what
  entitles the request to the account it writes, and where
  each random value comes from.

  Main declarations:
    * `lastRead`
    * `Seen`
    * `Entitled`
    * `Write`
    * `Runtime.rule`
    * `Runtime.contract`
-/

namespace CrudAuth

open Concurrency

------------------------------------------------------------
-- Own Actions
------------------------------------------------------------

/- The row copy an action brought, if any. -/
def copyOf : Act → Option User
  | ⟨.select _, ret⟩ => ret
  | ⟨.refresh _, ret⟩ => ret
  | ⟨.insert _, ret⟩ => ret
  | _ => none

/- The row copy a SELECT brought, refreshes left out. -/
def selectedBy : Act → Option User
  | ⟨.select _, ret⟩ => ret
  | _ => none

/- The newest copy of a row. -/
def lastRead (past : List Act) : Option User :=
  past.findSome? copyOf

/- The newest copy of a row that was selected. -/
def lastSelected (past : List Act) : Option User :=
  past.findSome? selectedBy

/- A random value drawn by the action just before. -/
def Drawn (past : List Act) (value : Nat) : Prop :=
  past.head? = some ⟨.fresh, value⟩

/- Both actions were made, `earlier` before `later`. -/
def Seen (past : List Act) (later earlier : Act) : Prop :=
  ∃ older, (later :: older) <:+ past ∧ earlier ∈ older

/- What was seen stays seen. -/
theorem Seen.mono
    {past past' : List Act}
    {later earlier : Act}
    (hSeen : Seen past later earlier)
    (hSuffix : past <:+ past') :
    Seen past' later earlier := by
  rcases hSeen with ⟨older, hOlder, hEarlier⟩
  exact ⟨older, hOlder.trans hSuffix, hEarlier⟩

/- The latest step has seen every earlier one. -/
theorem seen_cons
    {past : List Act}
    {earlier : Act}
    (hEarlier : earlier ∈ past)
    (later : Act) :
    Seen (later :: past) later earlier :=
  ⟨past, List.suffix_rfl, hEarlier⟩

/- The later step is part of the past. -/
theorem Seen.later_mem
    {past : List Act}
    {later earlier : Act}
    (hSeen : Seen past later earlier) :
    later ∈ past := by
  rcases hSeen with ⟨older, hOlder, -⟩
  exact hOlder.subset List.mem_cons_self

/- The row copies are the same as before. -/
structure Kept (past past' : List Act) : Prop where
  read : lastRead past' = lastRead past
  selected : lastSelected past' = lastSelected past

/- `user` was reread, of the row that `user₀` is. -/
structure Reread
    (past past' : List Act)
    (user₀ user : User) : Prop where
  id : user.id = user₀.id
  read : lastRead past' = some user
  selected : lastSelected past' = lastSelected past

namespace Kept

variable {past past' past'' : List Act}

theorem refl : Kept past past :=
  ⟨rfl, rfl⟩

theorem trans
    (hFirst : Kept past past')
    (hSecond : Kept past' past'') :
    Kept past past'' :=
  ⟨hSecond.read.trans hFirst.read,
    hSecond.selected.trans hFirst.selected⟩

/- An action that brings no row keeps the copies. -/
theorem cons
    {action : Act}
    (hCopy : copyOf action = none)
    (hSelected : selectedBy action = none) :
    Kept past (action :: past) := by
  refine ⟨?_, ?_⟩
  · rw [lastRead, List.findSome?_cons, hCopy, lastRead]
  · rw [lastSelected, List.findSome?_cons, hSelected,
      lastSelected]

end Kept

namespace Reread

variable {past past' past'' : List Act}
variable {user₀ user user' : User}

theorem refl (hRead : lastRead past = some user) :
    Reread past past user user :=
  ⟨rfl, hRead, rfl⟩

theorem trans
    (hFirst : Reread past past' user₀ user)
    (hSecond : Reread past' past'' user user') :
    Reread past past'' user₀ user' :=
  ⟨hSecond.id.trans hFirst.id, hSecond.read,
    hSecond.selected.trans hFirst.selected⟩

theorem keep
    (hFirst : Reread past past' user₀ user)
    (hSecond : Kept past' past'') :
    Reread past past'' user₀ user :=
  ⟨hFirst.id, hSecond.read.trans hFirst.read,
    hSecond.selected.trans hFirst.selected⟩

end Reread

/- A row read again after steps that keep it. -/
theorem Kept.reread
    {past past' past'' : List Act}
    {user₀ user : User}
    (hFirst : Kept past past')
    (hSecond : Reread past' past'' user₀ user) :
    Reread past past'' user₀ user :=
  ⟨hSecond.id, hSecond.read,
    hSecond.selected.trans hFirst.selected⟩

------------------------------------------------------------
-- Entitlement
------------------------------------------------------------

/- Whether a request finds a row at most once. -/
def Request.readsOnce : Request → Bool
  | .requestEmailChange _ _ _ => false
  | .confirmEmailChange _ => false
  | .oauthCallback _ _ => false
  | _ => true

namespace Runtime

variable (runtime : Runtime)

/- A credential was checked against the row it names. -/
def Authenticated
    (past : List Act)
    (credential : Credential)
    (id : UserId) : Prop :=
  match credential with
  | .session key =>
      runtime.sessions.isSome = true ∧
      ∃ (data : SessionData) (change : SessionChange)
        (user : User),
        Seen past ⟨.select (.byId data.userId), some user⟩
          ⟨.sessionModify key change, some data⟩ ∧
        data.userId = id ∧
        user.isActive = true ∧
        (data.tokenVersion = none ∨
          data.tokenVersion =
            some (runtime.tokenVersion user))
  | .bearer token =>
      runtime.bearer.isSome = true ∧
      ∃ user : User,
        (⟨.select (.byId token.sub), some user⟩ : Act) ∈
          past ∧
        token.sub = id ∧
        user.isActive = true ∧
        token.tokenType = .access ∧
        token.ver = runtime.tokenVersion user

/- A token was checked against the row it names. -/
def Redeemed
    (past : List Act)
    (token : SignedToken)
    (purpose : Purpose)
    (id : UserId) : Prop :=
  ∃ user : User,
    (⟨.select (.byId token.sub), some user⟩ : Act) ∈
      past ∧
    token.sub = id ∧
    user.isActive = true ∧
    token.state = runtime.stateFingerprint purpose user

/- A provider identity was resolved to an account. -/
def Resolved
    (past : List Act)
    (info : OAuthUserInfo)
    (id : UserId) : Prop :=
  (∃ user : User,
    (⟨.select
        (.byOauth info.provider info.providerUserId),
      some user⟩ : Act) ∈ past ∧
    user.id = id) ∨
  (∃ (email : String) (user : User),
    info.email = some email ∧
    info.emailVerified = true ∧
    (⟨.select
        (.byField .email (runtime.canonicalEmail email)),
      some user⟩ : Act) ∈ past ∧
    user.id = id) ∨
  (∃ row user : User,
    (⟨.insert row, some user⟩ : Act) ∈ past ∧
    user.id = id)

/-
  What lets a request act on an account: a check it has
  made, on a copy of the account's row.
-/
def Entitled
    (request : Request)
    (past : List Act)
    (id : UserId) : Prop :=
  match request with
  | .login _ _ _ password _ _ =>
      ∃ (selector : Selector) (user : User),
        (⟨.select selector, some user⟩ : Act) ∈ past ∧
        user.id = id ∧
        user.isActive = true ∧
        runtime.accepts password user.hashedPassword = true
  | .mfaVerify token _ _ =>
      ∃ (challenge : MfaChallenge) (user : User),
        Seen past
          ⟨.select (.byId challenge.accountId), some user⟩
          ⟨.challengeAttempt token, some challenge⟩ ∧
        challenge.accountId = id ∧
        user.isActive = true ∧
        runtime.tokenVersion user = challenge.tokenVersion
  | .refresh token =>
      runtime.bearer.isSome = true ∧
      ∃ user : User,
        (⟨.select (.byId token.sub), some user⟩ : Act) ∈
          past ∧
        token.sub = id ∧
        user.isActive = true ∧
        token.ver = runtime.tokenVersion user
  | .me credential =>
    runtime.Authenticated past credential id
  | .setPassword credential _ =>
      runtime.Authenticated past credential id
  | .changePassword credential _ _ =>
      runtime.Authenticated past credential id
  | .totpSetup credential _ =>
      runtime.Authenticated past credential id
  | .totpConfirm credential _ =>
      runtime.Authenticated past credential id
  | .totpDisable credential _ =>
      runtime.Authenticated past credential id
  | .regenerate credential _ =>
      runtime.Authenticated past credential id
  | .elevate credential _ =>
      runtime.Authenticated past credential id
  | .requestEmailChange credential _ _ =>
      runtime.Authenticated past credential id
  | .resetPassword token _ =>
      runtime.Redeemed past token .reset id
  | .confirmVerification token =>
      runtime.Redeemed past token .verify id
  | .confirmEmailChange token =>
      runtime.Redeemed past token .change id
  | .oauthCallback info _ => runtime.Resolved past info id
  | .changeField target _ _ => target = id
  | .requestReset _ => False
  | .requestVerification _ => False

variable {runtime}

/- A credential that was authenticated. -/
theorem Authenticated.mono
    {past past' : List Act}
    {credential : Credential}
    {id : UserId}
    (hSigned : runtime.Authenticated past credential id)
    (hSuffix : past <:+ past') :
    runtime.Authenticated past' credential id := by
  cases credential with
  | session key =>
      rcases hSigned with
        ⟨hSessions, data, change, user, hSeen, hRest⟩
      exact ⟨hSessions, data, change, user,
        hSeen.mono hSuffix, hRest⟩
  | bearer token =>
      rcases hSigned with
        ⟨hBearer, user, hSelected, hRest⟩
      exact ⟨hBearer, user, hSuffix.subset hSelected,
        hRest⟩

/- A token that was redeemed. -/
theorem Redeemed.mono
    {past past' : List Act}
    {token : SignedToken}
    {purpose : Purpose}
    {id : UserId}
    (hRedeemed : runtime.Redeemed past token purpose id)
    (hSuffix : past <:+ past') :
    runtime.Redeemed past' token purpose id := by
  rcases hRedeemed with ⟨user, hSelected, hRest⟩
  exact ⟨user, hSuffix.subset hSelected, hRest⟩

/- An identity that was resolved. -/
theorem Resolved.mono
    {past past' : List Act}
    {info : OAuthUserInfo}
    {id : UserId}
    (hResolved : runtime.Resolved past info id)
    (hSuffix : past <:+ past') :
    runtime.Resolved past' info id := by
  rcases hResolved with
    ⟨user, hSelected, hId⟩ |
      ⟨email, user, hEmail, hVerified, hSelected, hId⟩ |
      ⟨row, user, hInserted, hId⟩
  · exact Or.inl ⟨user, hSuffix.subset hSelected, hId⟩
  · exact Or.inr (Or.inl
      ⟨email, user, hEmail, hVerified,
        hSuffix.subset hSelected, hId⟩)
  · exact Or.inr (Or.inr
      ⟨row, user, hSuffix.subset hInserted, hId⟩)

/- A check once made stays made. -/
theorem Entitled.mono
    {request : Request}
    {past past' : List Act}
    {id : UserId}
    (hEntitled : runtime.Entitled request past id)
    (hSuffix : past <:+ past') :
    runtime.Entitled request past' id := by
  cases request with
  | login transport ip identifier password options
      presented =>
      rcases hEntitled with ⟨selector, user, hMem, hRest⟩
      exact ⟨selector, user, hSuffix.subset hMem, hRest⟩
  | mfaVerify token code presented =>
      rcases hEntitled with ⟨challenge, user, hSeen, hRest⟩
      exact ⟨challenge, user, hSeen.mono hSuffix, hRest⟩
  | refresh token =>
      rcases hEntitled with ⟨hBearer, user, hMem, hRest⟩
      exact ⟨hBearer, user, hSuffix.subset hMem, hRest⟩
  | me credential =>
      exact Authenticated.mono hEntitled hSuffix
  | setPassword credential newPassword =>
      exact Authenticated.mono hEntitled hSuffix
  | changePassword credential current newPassword =>
      exact Authenticated.mono hEntitled hSuffix
  | totpSetup credential password =>
      exact Authenticated.mono hEntitled hSuffix
  | totpConfirm credential code =>
      exact Authenticated.mono hEntitled hSuffix
  | totpDisable credential code =>
      exact Authenticated.mono hEntitled hSuffix
  | regenerate credential code =>
      exact Authenticated.mono hEntitled hSuffix
  | elevate credential proof =>
      exact Authenticated.mono hEntitled hSuffix
  | requestEmailChange credential newEmail password =>
      exact Authenticated.mono hEntitled hSuffix
  | resetPassword token newPassword =>
      exact Redeemed.mono hEntitled hSuffix
  | confirmVerification token =>
      exact Redeemed.mono hEntitled hSuffix
  | confirmEmailChange token =>
      exact Redeemed.mono hEntitled hSuffix
  | oauthCallback info presented =>
      exact Resolved.mono hEntitled hSuffix
  | changeField target field value => exact hEntitled
  | requestReset value => exact hEntitled
  | requestVerification value => exact hEntitled

variable (runtime)

/-
  What lets a request sign in: the check it has made and,
  for the second step of a login, the challenge taken.
-/
def SignsIn
    (request : Request)
    (past : List Act)
    (id : UserId) : Prop :=
  runtime.Entitled request past id ∧
  match request with
  | .mfaVerify token _ _ =>
      ∃ challenge : MfaChallenge,
        (⟨.challengeTake token, some challenge⟩ : Act) ∈
          past
  | _ => True

variable {runtime}

/- An account that signs in. -/
theorem SignsIn.mono
    {request : Request}
    {past past' : List Act}
    {id : UserId}
    (hSignsIn : runtime.SignsIn request past id)
    (hSuffix : past <:+ past') :
    runtime.SignsIn request past' id := by
  rcases hSignsIn with ⟨hEntitled, hTaken⟩
  refine ⟨hEntitled.mono hSuffix, ?_⟩
  cases request with
  | mfaVerify token code presented =>
      rcases hTaken with ⟨challenge, hTaken⟩
      exact ⟨challenge, hSuffix.subset hTaken⟩
  | _ => trivial

end Runtime

------------------------------------------------------------
-- Codes
------------------------------------------------------------

/- The second factor a request submits. -/
def Request.code? : Request → Option Code
  | .mfaVerify _ code _ => some code
  | .totpConfirm _ code => some code
  | .totpDisable _ code => some code
  | .regenerate _ code => some code
  | .elevate _ (.code code) => some code
  | _ => none

/- What spending a recovery code leaves of a set. -/
def without
    (stored : Option (List RecoveryCode))
    (code : RecoveryCode) : Patch :=
  codesPatch ((stored.getD []).filter (· ≠ code))

/-
  The code of a request was accepted for an account: its
  time step was claimed, or the code itself was spent.
-/
def Accepted
    (request : Request)
    (past : List Act)
    (id : UserId) : Prop :=
  ∃ code ∈ request.code?,
    match code with
    | .digits _ =>
        ∃ step, (⟨.claimStep id step, true⟩ : Act) ∈ past
    | .recovery recovery =>
        ∃ stored : Option (List RecoveryCode),
          recovery ∈ stored.getD [] ∧
          (⟨.updateIf id (.mfaRecoveryCodes stored)
              (without stored recovery), true⟩ : Act) ∈
            past

/- A code that was accepted. -/
theorem Accepted.mono
    {request : Request}
    {past past' : List Act}
    {id : UserId}
    (hAccepted : Accepted request past id)
    (hSuffix : past <:+ past') :
    Accepted request past' id := by
  rcases hAccepted with ⟨code, hCode, hRest⟩
  refine ⟨code, hCode, ?_⟩
  cases code with
  | digits digits =>
      rcases hRest with ⟨step, hClaimed⟩
      exact ⟨step, hSuffix.subset hClaimed⟩
  | recovery recovery =>
      rcases hRest with ⟨stored, hMem, hSpent⟩
      exact ⟨stored, hMem, hSuffix.subset hSpent⟩

namespace Runtime

variable (runtime : Runtime)

/- A copy shows the secret of its authenticator. -/
def HoldsSecret (user : User) (secret : Secret) : Prop :=
  (user.isEnrolled = true ∧
      user.totpSecretEncrypted = some (.bare secret)) ∨
    runtime.pendingSecret user = some secret

/- The code of a request belongs to a time step. -/
def Matches
    (request : Request)
    (past : List Act)
    (id : UserId)
    (step : Nat) : Prop :=
  ∃ (config : MfaConfig) (user : User) (secret : Secret)
    (digits : String) (now : Nat),
    runtime.mfa = some config ∧
    request.code? = some (.digits digits) ∧
    past.head? = some ⟨.now, now⟩ ∧
    lastRead past = some user ∧
    user.id = id ∧
    runtime.HoldsSecret user secret ∧
    config.matchingStep secret digits now = some step

/- A password login completes only without a factor. -/
def Unchallenged
    (request : Request)
    (user : User) : Prop :=
  match request with
  | .login _ _ _ _ _ _ =>
      runtime.mfa.isSome = true → user.isEnrolled = false
  | _ => True

end Runtime

------------------------------------------------------------
-- Writes
------------------------------------------------------------

/- The kind of token a request mints. -/
def Request.mints : Request → Option Purpose
  | .requestReset _ => some .reset
  | .requestVerification _ => some .verify
  | .requestEmailChange _ _ _ => some .change
  | _ => none

/- The session a password change keeps on purpose. -/
def Request.keptSession : Request → Option Nat
  | .changePassword (.session key) _ _ => some key
  | _ => none

namespace Runtime

variable (runtime : Runtime)

/-
  The check of the stored hash that a new password of this
  request rests on.
-/
def Authorizes
    (request : Request)
    (loaded : User) : Prop :=
  match request with
  | .login _ _ _ password _ _ =>
      runtime.accepts password loaded.hashedPassword = true
  | .changePassword _ current _ =>
      runtime.verifyPassword current
        loaded.hashedPassword = true
  | .setPassword _ _ =>
      loaded.hashedPassword.isUnusablePassword = true
  | .resetPassword token _ =>
      token.state =
        runtime.stateFingerprint .reset loaded
  | _ => False

/- The updates a request makes from the copy `loaded`. -/
inductive Write
    (request : Request)
    (past : List Act)
    (loaded : User) : Patch → Prop
  | password
      {form : String}
      {salt : Nat}
      (hDrawn : Drawn past salt)
      (hAuthorized : runtime.Authorizes request loaded) :
      Write request past loaded
        { hashedPassword := some (.bcrypt form salt) }
  | pending
      {secret : Secret}
      (hDrawn : Drawn past secret)
      (hNotEnrolled : loaded.isEnrolled = false) :
      Write request past loaded
        (runtime.pendingPatch loaded secret)
  | disable
      {credential : Credential}
      {code : Code}
      (hRequest : request = .totpDisable credential code)
      (hAccepted : Accepted request past loaded.id) :
      Write request past loaded disablePatch
  | codes
      {batch count : Nat}
      (hDrawn : Drawn past batch)
      (hCount : 0 < count)
      (hEnrolled : loaded.isEnrolled = true)
      (hAccepted : Accepted request past loaded.id) :
      Write request past loaded
        (codesPatch (recoveryBatch batch count))
  | emailVerified :
      Write request past loaded
        { emailVerified := some true }
  | factorVerified :
      Write request past loaded
        { factorVerified := some true }
  | email
      {token : SignedToken}
      {newEmail : String}
      (hRequest : request = .confirmEmailChange token)
      (hNew :
        token.newEmail.map runtime.canonicalEmail =
          some newEmail) :
      Write request past loaded
        (runtime.canonical
          { email := some (some newEmail)
            emailVerified := some true })
  | link
      {info : OAuthUserInfo}
      {presented : Option Nat}
      (hRequest : request = .oauthCallback info presented)
      (hVerified : loaded.emailVerified = true) :
      Write request past loaded (linkPatch info)
  | claim
      {info : OAuthUserInfo}
      {presented : Option Nat}
      {suffix : Nat}
      (hRequest : request = .oauthCallback info presented)
      (hUnverified : loaded.emailVerified = false)
      (hDrawn : Drawn past suffix) :
      Write request past loaded (claimPatch info suffix)
  | field
      {field : Field}
      {value : Option String}
      (hRequest :
        request = .changeField loaded.id field value) :
      Write request past loaded
        (runtime.canonical (fieldPatch field value))

/- The compare-and-set updates of a request. -/
inductive Swap
    (request : Request)
    (past : List Act)
    (id : UserId) : Guard → Patch → Prop
  | enable
      {selected : User}
      {secret : Secret}
      {now batch count : Nat}
      (hDrawn :
        [⟨.now, now⟩, ⟨.fresh, batch⟩] <+: past)
      (hAccepted : Accepted request past id)
      (hSelected : lastSelected past = some selected)
      (hId : selected.id = id)
      (hPending :
        runtime.pendingSecret selected = some secret) :
      Swap request past id (.totpConfirmedAt none)
        (enablePatch secret now (recoveryBatch batch count))
  | spend
      {stored : Option (List RecoveryCode)}
      {code : RecoveryCode}
      (hSubmitted :
        request.code? = some (.recovery code))
      (hCode : code ∈ stored.getD []) :
      Swap request past id (.mfaRecoveryCodes stored)
        (without stored code)

/- A token was minted from a copy that was read. -/
def Minted
    (request : Request)
    (past : List Act)
    (intent : DeliveryIntent)
    (token : SignedToken) : Prop :=
  request.mints = some token.state.purpose ∧
  ∃ (action : Act) (user : User),
    action ∈ past ∧
    copyOf action = some user ∧
    token.sub = user.id ∧
    token.state =
      runtime.stateFingerprint token.state.purpose user ∧
    match token.state.purpose with
    | .change =>
        runtime.Entitled request past user.id ∧
        ∃ credential newEmail password,
          request =
            .requestEmailChange credential newEmail
              password ∧
          runtime.verifyPassword password
            user.hashedPassword = true
    | .verify => intent.recipient =
      runtime.recoveryValue user
    | .reset => intent.recipient = runtime.recoveryValue user

------------------------------------------------------------
-- Responses
------------------------------------------------------------

/- A session key was read dead, or deleted. -/
def Cleared
    (past : List Act)
    (id : UserId)
    (ids : List Nat)
    (key : Nat) : Prop :=
  Seen past ⟨.sessionGet key, none⟩
      ⟨.userSessions id, ids⟩ ∨
    ∃ owner, Seen past ⟨.sessionDelete key owner, ()⟩
      ⟨.userSessions id, ids⟩

/-
  The epoch was bumped, and then every indexed session
  cleared but the excluded one.
-/
def Evicted
    (past : List Act)
    (id : UserId)
    (excluded : Option Nat) : Prop :=
  (runtime.hasTokenVersion = true →
    (⟨.incrementVersion id, ()⟩ : Act) ∈ past) ∧
  (runtime.hasTokenVersion = true →
    runtime.sessions.isSome = true →
    ∃ ids : List Nat,
      Seen past ⟨.userSessions id, ids⟩
        ⟨.incrementVersion id, ()⟩ ∧
      ∀ key ∈ ids,
        some key ≠ excluded → Cleared past id ids key)

/- What a response says about the request it answers. -/
def Answered
    (request : Request)
    (past : List Act) : Response → Prop
  | .refused _ => True
  | .signedIn (.tokens access refresh) _ =>
      ∃ user,
        lastRead past = some user ∧
        runtime.SignsIn request past user.id ∧
        runtime.Unchallenged request user ∧
        access.sub = user.id ∧
        access.ver = runtime.tokenVersion user ∧
        refresh.sub = user.id ∧
        refresh.ver = runtime.tokenVersion user
  | .signedIn (.session id key) _ =>
      runtime.SignsIn request past id ∧
      ∃ (data : SessionData) (ttl : Nat),
        (⟨.sessionCreate key data ttl, ()⟩ : Act) ∈ past ∧
        data.userId = id
  | .challenged token _ =>
      ∃ (challenge : MfaChallenge) (ttl : Nat),
        (⟨.challengeCreate token challenge ttl, ()⟩ :
          Act) ∈ past
  | .refreshed access =>
      runtime.Entitled request past access.sub
  | .principal id => runtime.Entitled request past id
  | .passwordReset =>
      ∃ user,
        lastRead past = some user ∧
        runtime.Entitled request past user.id ∧
        runtime.Evicted past user.id none
  | .passwordChanged =>
      ∃ user,
        lastRead past = some user ∧
        runtime.Entitled request past user.id ∧
        runtime.Evicted past user.id request.keptSession
  | .accepted =>
      match request with
      | .requestReset _ => True
      | .requestVerification _ => True
      | _ => ∃ id, runtime.Entitled request past id
  | .passwordSet => ∃ id, runtime.Entitled request past id
  | .totpSetup _ => ∃ id, runtime.Entitled request past id
  | .recoveryCodes _ =>
      ∃ id, runtime.Entitled request past id
  | .elevated _ => ∃ id, runtime.Entitled request past id
  | .totpDisabled => ∃ id, runtime.Entitled request past id
  | .verified => ∃ id, runtime.Entitled request past id
  | .emailChanged => ∃ id, runtime.Entitled request past id
  | .fieldChanged => ∃ id, runtime.Entitled request past id

------------------------------------------------------------
-- The Contract
------------------------------------------------------------

/- Which operations a handler of `request` performs. -/
def rule
    (request : Request)
    (past : List Act) : Op → Prop
  | .arrive arrived => past = [] ∧ arrived = request
  | .respond response =>
      runtime.Answered request past response
  | .select _ =>
      request.readsOnce = true → lastSelected past = none
  | .refresh id =>
      ∃ user, lastRead past = some user ∧ user.id = id
  | .commit loaded data =>
      lastRead past = some loaded ∧
      runtime.Entitled request past loaded.id ∧
      runtime.Write request past loaded data
  | .incrementVersion id =>
      runtime.hasTokenVersion = true ∧
      ∃ (loaded : User) (data : Patch),
        (⟨.commit loaded data, true⟩ : Act) ∈ past ∧
        loaded.id = id ∧
        data.hashedPassword.isSome = true
  | .claimStep id step =>
      runtime.Matches request past id step
  | .updateIf id guard data =>
      runtime.Entitled request past id ∧
      (∃ user, lastRead past = some user ∧ user.id = id) ∧
      runtime.Swap request past id guard data
  | .sessionCreate key data _ =>
      Drawn past key ∧
      ∃ user,
        lastRead past = some user ∧
        runtime.SignsIn request past user.id ∧
        runtime.Unchallenged request user ∧
        data.userId = user.id ∧
        data.tokenVersion =
          some (runtime.tokenVersion user)
  | .sessionModify key (.rebind version) =>
      runtime.sessions.isSome = true ∧
      ∃ user,
        lastRead past = some user ∧
        version = runtime.tokenVersion user ∧
        request.keptSession = some key ∧
        runtime.Entitled request past user.id
  | .sessionModify key (.touch _ _) =>
      ∃ data : SessionData,
        (⟨.sessionGet key, some data⟩ : Act) ∈ past
  | .sessionModify key (.stamp elevatedUntil) =>
      ∃ proof user,
        request = .elevate (.session key) proof ∧
        lastRead past = some user ∧
        runtime.Entitled request past user.id ∧
        (elevatedUntil.isSome = true →
          ∀ code, proof = .code code →
            Accepted request past user.id)
  | .sessionDelete key owner =>
      ∃ data : SessionData,
        (⟨.sessionGet key, some data⟩ : Act) ∈ past ∧
        data.userId = owner
  | .unindex id key =>
      ∃ ids : List Nat,
        key ∈ ids ∧
        Seen past ⟨.sessionGet key, none⟩
          ⟨.userSessions id, ids⟩
  | .challengeCreate key challenge _ =>
      Drawn past key ∧
      ∃ user,
        lastRead past = some user ∧
        runtime.Entitled request past user.id ∧
        challenge.accountId = user.id ∧
        challenge.tokenVersion = runtime.tokenVersion user
  | .challengeTake key =>
      ∃ code presented user selected,
        request = .mfaVerify key code presented ∧
        lastRead past = some user ∧
        runtime.Entitled request past user.id ∧
        Accepted request past user.id ∧
        lastSelected past = some selected ∧
        selected.id = user.id ∧
        (selected.isEnrolled = true ∨
          (runtime.pendingSecret selected).isSome = true)
  | .deliver intent =>
      ∀ token ∈ intent.token,
        runtime.Minted request past intent token
  | .insert row =>
      request.readsOnce = false ∧
      row.totpSecretEncrypted = none ∧
      row.mfaRecoveryCodes = none ∧
      ∃ suffix, row.hashedPassword = .unusable suffix ∧
        (⟨.fresh, suffix⟩ : Act) ∈ past
  | _ => True

/- The contract every handler keeps. -/
def contract (request : Request) : Contract interface where
  rule := runtime.rule request
  answer := answers

end Runtime

end CrudAuth
