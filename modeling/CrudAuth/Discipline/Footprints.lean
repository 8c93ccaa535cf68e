import CrudAuth.Concurrency.Footprint
import CrudAuth.Routes

/-
  Which flows may store or elevate a session, and which may
  commit a row: a sign-in stores one, sudo elevates one,
  and everything else leaves both alone.

  Main declarations:
    * `Op.LeavesProofs`
    * `Op.Passive`
    * `currentUser_passive`
    * `getOrCreateUser_leaves`
    * `challengeLogin_leaves`
-/

namespace CrudAuth

open Concurrency Program

------------------------------------------------------------
-- Operations
------------------------------------------------------------

/- No session is stored, and none is elevated. -/
def Op.LeavesProofs : Op → Prop
  | .sessionCreate _ _ _ => False
  | .sessionModify _ (.stamp (some _)) => False
  | _ => True

/- Nor is a row committed. -/
def Op.Passive : Op → Prop
  | .commit _ _ => False
  | .sessionCreate _ _ _ => False
  | .sessionModify _ (.stamp (some _)) => False
  | _ => True

/- A passive operation leaves the proofs alone. -/
theorem Op.Passive.leaves
    {op : Op}
    (hPassive : op.Passive) :
    op.LeavesProofs := by
  unfold LeavesProofs
  split
  · cases hPassive
  · cases hPassive
  · trivial

/- A flow that stores, elevates and commits nothing. -/
abbrev Passive {α : Type} (flow : Flow α) : Prop :=
  Only (I := interface) Op.Passive flow

/- A flow that stores and elevates no session. -/
abbrev LeavesProofs {α : Type} (flow : Flow α) : Prop :=
  Only (I := interface) Op.LeavesProofs flow

/- So does a flow of passive operations. -/
theorem Passive.leaves
    {α : Type}
    {flow : Flow α}
    (hPassive : Passive flow) :
    LeavesProofs flow :=
  Only.mono hPassive fun _ hOp => hOp.leaves

------------------------------------------------------------
-- Sessions
------------------------------------------------------------

namespace Sessions

variable (config : SessionConfig)

theorem terminateSession_passive (key : Nat) :
    Passive (terminateSession key) := by
  refine only_step trivial fun found => ?_
  cases found with
  | none => trivial
  | some session => exact ⟨trivial, fun _ => trivial⟩

/- Sessions are loaded one by one. -/
theorem loadSessions_passive
    (userId : UserId)
    (keys : List Nat) :
    Passive (loadSessions userId keys) := by
  induction keys with
  | nil => trivial
  | cons key keys ih =>
      refine only_step trivial fun found => ?_
      cases found with
      | none => exact ⟨trivial, fun _ => ih⟩
      | some session => exact ih.bind fun _ => trivial

/- The list of an account's sessions is read. -/
theorem userSessions_passive (userId : UserId) :
    Passive (userSessions userId) :=
  ⟨trivial, fun keys => loadSessions_passive userId keys⟩

/- Sessions are deleted one by one. -/
theorem terminateEach_passive
    (excluded : Option Nat)
    (sessions : List (Nat × SessionData)) :
    Passive (terminateEach excluded sessions) := by
  induction sessions with
  | nil => trivial
  | cons pair sessions ih =>
      unfold terminateEach
      split
      · exact ⟨trivial, fun _ => ih⟩
      · exact ih

/- All sessions of an account are deleted. -/
theorem terminateAllUserSessions_passive
    (userId : UserId)
    (exclude : Option Nat) :
    Passive (terminateAllUserSessions userId exclude) :=
  (userSessions_passive userId).bind
    (terminateEach_passive exclude)

/- The oldest sessions make room. -/
theorem enforceSessionLimit_passive (userId : UserId) :
    Passive (enforceSessionLimit config userId) := by
  apply (userSessions_passive userId).bind
  intro active
  split
  · exact terminateEach_passive none _
  · trivial

/- The session that a login presents is deleted. -/
theorem replacePresented_passive (presented : Option Nat) :
    Passive (replacePresented presented) := by
  cases presented with
  | none => trivial
  | some old =>
      exact (terminateSession_passive old).bind
        fun _ => trivial

/- A session is checked and touched. -/
theorem validateSession_passive (key : Nat) :
    Passive (validateSession config key) := by
  refine only_step trivial fun found => ?_
  cases found with
  | none => trivial
  | some session =>
      refine only_step trivial fun now => ?_
      split
      · exact ⟨trivial, fun _ => trivial⟩
      · split
        · exact ⟨trivial, fun _ => trivial⟩
        · exact ⟨trivial, fun _ => trivial⟩

/- A session follows the epoch of its account. -/
theorem setTokenVersion_passive (key version : Nat) :
    Passive (setTokenVersion key version) :=
  ⟨trivial, fun _ => trivial⟩

end Sessions

namespace Runtime

variable (runtime : Runtime)

------------------------------------------------------------
-- Rows
------------------------------------------------------------

/- A row is looked up. -/
theorem getByField_passive
    (field : Field)
    (value : String) :
    Passive (runtime.getByField field value) := by
  cases field <;> exact ⟨trivial, fun _ => trivial⟩

/- The login fields are tried in turn. -/
theorem resolveLoginAmong_passive
    (identifier : String)
    (fields : List Field) :
    Passive
      (runtime.resolveLoginAmong identifier fields) := by
  induction fields with
  | nil => trivial
  | cons field fields ih =>
      apply (runtime.getByField_passive field
        identifier).bind
      intro found
      cases found with
      | none => exact ih
      | some user => trivial

/- A row is read again. -/
theorem refreshRow_passive (id : UserId) :
    Passive (refreshRow id) := by
  refine only_step trivial fun found => ?_
  cases found <;> trivial

/- A write to a row proves nothing. -/
theorem update?_leaves (user : User) (data : Patch) :
    LeavesProofs (runtime.update? user data) := by
  refine ⟨trivial, fun committed => ?_⟩
  cases committed with
  | false => trivial
  | true =>
      exact (refreshRow_passive user.id).leaves.bind
        fun _ => trivial

theorem update_leaves (user : User) (data : Patch) :
    LeavesProofs (runtime.update user data) := by
  apply (runtime.update?_leaves user data).bind
  intro updated
  cases updated <;> trivial

/- The epoch moves on. -/
theorem incrementTokenVersion_passive (user : User) :
    Passive (runtime.incrementTokenVersion user) := by
  unfold incrementTokenVersion
  split
  · exact ⟨trivial, fun _ => refreshRow_passive user.id⟩
  · trivial

/- A step is claimed. -/
theorem claimTotpStep_passive (user : User) (step : Nat) :
    Passive (claimTotpStep user step) :=
  ⟨trivial, fun _ =>
    (refreshRow_passive user.id).bind fun _ => trivial⟩

/- A guarded write is passive. -/
theorem updateIfUnchanged_passive
    (user : User)
    (guard : Guard)
    (values : Patch) :
    Passive (updateIfUnchanged user guard values) :=
  ⟨trivial, fun _ =>
    (refreshRow_passive user.id).bind fun _ => trivial⟩

/- The recovery address is marked. -/
theorem markRecoveryVerified_leaves (user : User) :
    LeavesProofs (runtime.markRecoveryVerified user) := by
  unfold markRecoveryVerified
  split
  · trivial
  · exact runtime.update_leaves user _
  · exact runtime.update_leaves user _

------------------------------------------------------------
-- Authentication
------------------------------------------------------------

/- A session is authenticated. -/
theorem authenticateSession_passive
    (config : SessionConfig)
    (key : Nat) :
    Passive (runtime.authenticateSession config key) := by
  apply (Sessions.validateSession_passive config key).bind
  intro found
  cases found with
  | none => trivial
  | some session =>
      refine only_step trivial fun row => ?_
      cases row with
      | none => trivial
      | some user =>
          dsimp only
          split
          · trivial
          · split <;> trivial

/- A bearer token is authenticated. -/
theorem authenticateBearer_passive (token : Jwt) :
    Passive (runtime.authenticateBearer token) := by
  refine only_step trivial fun now => ?_
  split
  · trivial
  · split
    · trivial
    · refine only_step trivial fun row => ?_
      cases row with
      | none => trivial
      | some user =>
          dsimp only
          split
          · trivial
          · split <;> trivial

/- A credential of either kind is authenticated. -/
theorem authenticate_passive (credential : Credential) :
    Passive (runtime.authenticate credential) := by
  unfold authenticate
  split
  · exact runtime.authenticateSession_passive _ _
  · trivial
  · exact runtime.authenticateBearer_passive _
  · trivial

theorem currentUser_passive (credential : Credential) :
    Passive (runtime.currentUser credential) := by
  apply (runtime.authenticate_passive credential).bind
  intro found
  cases found <;> trivial

/- Tokens are signed. -/
theorem issueTokens_passive
    (config : BearerConfig)
    (user : User)
    (requested : List String) :
    Passive (runtime.issueTokens config user requested) :=
  ⟨trivial, fun _ => trivial⟩

/- A refresh token is exchanged. -/
theorem refreshAccess_passive (token : Jwt) :
    Passive (runtime.refreshAccess token) := by
  unfold refreshAccess
  split
  · trivial
  · refine only_step trivial fun now => ?_
    split
    · trivial
    · refine only_step trivial fun row => ?_
      cases row with
      | none => trivial
      | some user =>
          dsimp only
          split
          · trivial
          · split
            · trivial
            · exact ⟨trivial, fun _ => trivial⟩

------------------------------------------------------------
-- Passwords
------------------------------------------------------------

/- A password is hashed. -/
theorem getPasswordHash_passive (plain : String) :
    Passive (runtime.getPasswordHash plain) :=
  ⟨trivial, fun _ => trivial⟩

theorem verifyAndUpdatePassword_passive
    (plain : String)
    (hash : StoredHash) :
    Passive
      (runtime.verifyAndUpdatePassword plain hash) := by
  unfold verifyAndUpdatePassword
  split
  · trivial
  · split
    · trivial
    · exact (runtime.getPasswordHash_passive plain).bind
        fun _ => trivial

/- A password is checked against a hash. -/
theorem checkLoginPassword_passive
    (plain : String)
    (hash : StoredHash) :
    Passive (runtime.checkLoginPassword plain hash) := by
  apply (runtime.verifyAndUpdatePassword_passive plain
    hash).bind
  rintro ⟨verified, newHash⟩
  cases verified with
  | true => trivial
  | false =>
      dsimp only
      split
      · exact (runtime.getPasswordHash_passive plain).bind
          fun _ => trivial
      · trivial

/- The throttles hear of a success. -/
theorem recordLoginSuccess_passive (ip identifier : String) :
    Passive (runtime.recordLoginSuccess ip identifier) := by
  unfold recordLoginSuccess
  split
  · exact ⟨trivial, fun _ => trivial⟩
  · trivial

/- They hear of an attempt. -/
theorem countLoginAttempt_passive (ip identifier : String) :
    Passive (runtime.countLoginAttempt ip identifier) := by
  unfold countLoginAttempt
  split
  · exact ⟨trivial, fun _ => trivial⟩
  · trivial

/- A login is accepted, and its hash upgraded. -/
theorem acceptLogin_leaves
    (user : User)
    (newHash : Option StoredHash)
    (ip identifier : String)
    (recordSuccess : Bool) :
    LeavesProofs
      (runtime.acceptLogin user newHash ip identifier
        recordSuccess) := by
  have hCounted (user : User) :
      LeavesProofs (do
        if recordSuccess then
          runtime.recordLoginSuccess ip identifier
        else if runtime.lockout then
          call (.forgetAttempt ip identifier)
        return user : Flow User) := by
    split
    · exact (runtime.recordLoginSuccess_passive ip
        identifier).leaves.bind fun _ => trivial
    · split
      · exact ⟨trivial, fun _ => trivial⟩
      · trivial
  cases newHash with
  | none => exact hCounted user
  | some hash =>
      exact (runtime.update_leaves user _).bind hCounted

/- A password login proves nothing by itself. -/
theorem authenticatePassword_leaves
    (ip identifier password : String)
    (recordSuccess : Bool) :
    LeavesProofs
      (runtime.authenticatePassword ip identifier password
        recordSuccess) := by
  apply (runtime.countLoginAttempt_passive ip
    identifier).leaves.bind
  intro counted
  cases counted with
  | some retryAfter => trivial
  | none =>
      apply (runtime.resolveLoginAmong_passive identifier
        _).leaves.bind
      intro found
      apply (runtime.checkLoginPassword_passive password
        _).leaves.bind
      rintro ⟨verified, newHash⟩
      cases found with
      | none => trivial
      | some user =>
          dsimp only
          split
          · trivial
          · split
            · trivial
            · exact runtime.acceptLogin_leaves user newHash
                ip identifier recordSuccess

------------------------------------------------------------
-- Codes
------------------------------------------------------------

/- A code is compared with its step. -/
theorem acceptTotp_passive
    (config : MfaConfig)
    (user : User)
    (secret : Secret)
    (code : Code) :
    Passive (config.acceptTotp user secret code) := by
  cases code with
  | recovery recovery => trivial
  | digits digits =>
      refine only_step trivial fun now => ?_
      split
      · trivial
      · exact claimTotpStep_passive user _

/- A code is verified, and its step claimed. -/
theorem verifyTotp_passive
    (config : MfaConfig)
    (user : User)
    (code : Code) :
    Passive (config.verifyTotp user code) := by
  unfold MfaConfig.verifyTotp
  split
  · split
    · exact acceptTotp_passive config user _ code
    · trivial
    · trivial
    · trivial
  · trivial

/- A recovery code is spent, in several attempts. -/
theorem consumeRecoveryCode_passive
    (code : RecoveryCode)
    (attempts : Nat)
    (user : User) :
    Passive
      (MfaConfig.consumeRecoveryCode code attempts
        user) := by
  induction attempts generalizing user with
  | zero => trivial
  | succ attempts ih =>
      unfold MfaConfig.consumeRecoveryCode
      dsimp only
      split
      · apply (updateIfUnchanged_passive user _ _).bind
        rintro ⟨spent, user⟩
        cases spent with
        | true => trivial
        | false => exact ih user
      · trivial

/- A code of either kind is verified. -/
theorem verifyCode_passive
    (config : MfaConfig)
    (user : User)
    (code : Code) :
    Passive (config.verifyCode user code) := by
  unfold MfaConfig.verifyCode
  split
  · exact verifyTotp_passive config user _
  · split
    · exact consumeRecoveryCode_passive _ _ user
    · trivial

------------------------------------------------------------
-- Enrollment
------------------------------------------------------------

/- A pending secret is stored. -/
theorem storePending_leaves (user : User) (secret : Secret) :
    LeavesProofs (runtime.storePending user secret) :=
  runtime.update_leaves user _

/- A pending secret is used again or drawn. -/
theorem pendingOrNewSecret_leaves (user : User) :
    LeavesProofs (runtime.pendingOrNewSecret user) := by
  unfold pendingOrNewSecret
  split
  · trivial
  · exact ⟨trivial, fun secret =>
      (runtime.storePending_leaves user secret).bind
        fun _ => trivial⟩

/- A secret is enabled by a guarded write. -/
theorem enable_passive
    (config : MfaConfig)
    (user : User)
    (secret : Secret) :
    Passive (enable config user secret) := by
  refine ⟨trivial, fun batch => ⟨trivial, fun now => ?_⟩⟩
  apply (updateIfUnchanged_passive user _ _).bind
  rintro ⟨enabled, user⟩
  cases enabled <;> trivial

/- An enrollment is confirmed. -/
theorem confirmSetup_passive
    (config : MfaConfig)
    (user : User)
    (code : Code) :
    Passive (runtime.confirmSetup config user code) := by
  unfold confirmSetup
  split
  · trivial
  · split
    · trivial
    · apply (acceptTotp_passive config user _ code).bind
      rintro ⟨accepted, user⟩
      cases accepted with
      | false => trivial
      | true =>
          apply (enable_passive config user _).bind
          rintro ⟨codes, user⟩
          cases codes <;> trivial

/- New recovery codes are stored. -/
theorem regenerateRecoveryCodes_leaves
    (config : MfaConfig)
    (user : User) :
    LeavesProofs
      (runtime.regenerateRecoveryCodes config user) := by
  unfold regenerateRecoveryCodes
  split
  · exact ⟨trivial, fun batch =>
      (runtime.update_leaves user _).bind fun _ => trivial⟩
  · trivial

------------------------------------------------------------
-- Login Challenges
------------------------------------------------------------

/- A challenge is stored. -/
theorem createChallenge_passive
    (config : MfaConfig)
    (user : User)
    (transport : TransportName)
    (ip identifier : String)
    (options : LoginOptions)
    (setup : Option Secret) :
    Passive
      (runtime.createChallenge config user transport ip
        identifier options setup) :=
  ⟨trivial, fun _ => ⟨trivial, fun _ => trivial⟩⟩

/- A login is answered with a challenge. -/
theorem challengeLogin_leaves
    (config : MfaConfig)
    (user : User)
    (transport : TransportName)
    (ip identifier : String)
    (options : LoginOptions) :
    LeavesProofs
      (runtime.challengeLogin config user transport ip
        identifier options) := by
  unfold challengeLogin
  split
  · exact (runtime.recordLoginSuccess_passive ip
      identifier).leaves.bind fun _ => trivial
  · split
    · exact (runtime.createChallenge_passive config user
        transport ip identifier options
          none).leaves.bind fun _ => trivial
    · apply (runtime.pendingOrNewSecret_leaves user).bind
      rintro ⟨secret, user⟩
      exact (runtime.createChallenge_passive config user
        transport ip identifier options
          (some secret)).leaves.bind fun _ => trivial

/- A code is checked for a challenge. -/
theorem checkChallengeCode_passive
    (config : MfaConfig)
    (challenge : MfaChallenge)
    (user : User)
    (code : Code) :
    Passive
      (runtime.checkChallengeCode config challenge user
        code) := by
  unfold checkChallengeCode
  split
  · dsimp only
    split
    · trivial
    · exact (acceptTotp_passive config user _ code).bind
        fun _ => trivial
  · exact (verifyCode_passive config user code).bind
      fun _ => trivial

/- A setup inside a login is enabled. -/
theorem enableSetup_passive
    (config : MfaConfig)
    (user : User)
    (secret : Option Secret) :
    Passive (enableSetup config user secret) := by
  cases secret with
  | none => trivial
  | some secret => exact enable_passive config user secret

------------------------------------------------------------
-- Accounts
------------------------------------------------------------

/- The other sessions of an account end. -/
theorem evictOthers_passive
    (user : User)
    (current : Option Nat) :
    Passive (runtime.evictOthers user current) := by
  unfold evictOthers
  split
  · cases current with
    | none =>
        exact Sessions.terminateAllUserSessions_passive
          user.id none
    | some key =>
        exact (Sessions.setTokenVersion_passive key _).bind
          fun _ =>
            Sessions.terminateAllUserSessions_passive
              user.id (some key)
  · trivial

/- A new password is written. -/
theorem applyChange_leaves
    (user : User)
    (newPassword : String)
    (current : Option Nat) :
    LeavesProofs
      (runtime.applyChange user newPassword current) := by
  refine ⟨trivial, fun salt => ?_⟩
  apply (runtime.update_leaves user _).bind
  intro user
  apply (runtime.incrementTokenVersion_passive
    user).leaves.bind
  intro user
  exact (runtime.evictOthers_passive user current).leaves

/- A password is changed, the check included. -/
theorem changePassword_leaves
    (principal : Principal)
    (currentPassword newPassword : String) :
    LeavesProofs
      (runtime.changePassword principal currentPassword
        newPassword) := by
  unfold changePassword
  dsimp only
  split
  · trivial
  · split
    · trivial
    · split
      · trivial
      · exact runtime.applyChange_leaves _ newPassword _

/- The authenticator is removed. -/
theorem totpDisable_leaves
    (config : MfaConfig)
    (principal : Principal)
    (code : Code) :
    LeavesProofs
      (runtime.totpDisable config principal code) := by
  unfold totpDisable
  split
  · trivial
  · apply (verifyCode_passive config _ code).leaves.bind
    rintro ⟨accepted, user⟩
    cases accepted with
    | false => trivial
    | true =>
        exact (runtime.update_leaves user _).bind
          fun _ => trivial

/- The recovery codes are replaced. -/
theorem regenerate_leaves
    (config : MfaConfig)
    (principal : Principal)
    (code : Code) :
    LeavesProofs
      (runtime.regenerate config principal code) := by
  apply (verifyCode_passive config _ code).leaves.bind
  rintro ⟨accepted, user⟩
  cases accepted with
  | false => trivial
  | true =>
      exact runtime.regenerateRecoveryCodes_leaves
        config user

------------------------------------------------------------
-- Email
------------------------------------------------------------

variable (flows : EmailFlows)

/- A link is redeemed. -/
theorem redeemToken_passive
    (token : SignedToken)
    (purpose : Purpose) :
    Passive (runtime.redeemToken token purpose) := by
  refine only_step trivial fun now => ?_
  split
  · trivial
  · refine only_step trivial fun row => ?_
    cases row with
    | none => trivial
    | some user =>
        dsimp only
        split <;> trivial

theorem consume_passive (token : SignedToken) (ttl : Nat) :
    Passive (consume flows token ttl) := by
  unfold consume
  split
  · exact ⟨trivial, fun _ => trivial⟩
  · trivial

/- A link for the recovery address is minted. -/
theorem requestRecoveryVerification_passive
    (value : String) :
    Passive
      (runtime.requestRecoveryVerification flows value) := by
  unfold requestRecoveryVerification
  split
  · trivial
  · refine only_step trivial fun within => ?_
    cases within with
    | false => trivial
    | true =>
        apply (runtime.getByField_passive _ value).bind
        intro found
        cases found with
        | none => trivial
        | some user =>
            dsimp only
            split
            · trivial
            · exact ⟨trivial, fun _ =>
                ⟨trivial, fun _ => trivial⟩⟩

/- The recovery address is verified. -/
theorem confirmRecoveryVerification_leaves
    (token : SignedToken) :
    LeavesProofs
      (runtime.confirmRecoveryVerification flows token) := by
  apply (runtime.redeemToken_passive token _).leaves.bind
  intro user
  apply (consume_passive flows token _).leaves.bind
  intro consumed
  cases consumed with
  | false => trivial
  | true =>
      simp only [if_true]
      split
      · exact (runtime.markRecoveryVerified_leaves user).bind
          fun _ => trivial
      · trivial

/- A link for a new password is minted. -/
theorem requestPasswordReset_passive (value : String) :
    Passive (runtime.requestPasswordReset flows value) := by
  unfold requestPasswordReset
  split
  · trivial
  · refine only_step trivial fun within => ?_
    cases within with
    | false => trivial
    | true =>
        apply (runtime.getByField_passive _ value).bind
        intro found
        cases found with
        | none => trivial
        | some user =>
            dsimp only
            split
            · trivial
            · exact ⟨trivial, fun _ =>
                ⟨trivial, fun _ => trivial⟩⟩

theorem terminateSessions_passive
    (userId : UserId)
    (exclude : Option Nat) :
    Passive (runtime.terminateSessions userId exclude) := by
  unfold terminateSessions
  split
  · trivial
  · exact Sessions.terminateAllUserSessions_passive userId
      exclude

/- A password is reset through its link. -/
theorem resetPassword_leaves
    (token : SignedToken)
    (newPassword : String) :
    LeavesProofs
      (runtime.resetPassword flows token newPassword) := by
  apply (runtime.redeemToken_passive token _).leaves.bind
  intro user
  split
  · trivial
  · apply (consume_passive flows token _).leaves.bind
    intro consumed
    cases consumed with
    | false => trivial
    | true =>
        refine ⟨trivial, fun salt => ?_⟩
        apply (runtime.update_leaves user _).bind
        intro user
        apply (runtime.incrementTokenVersion_passive
          user).leaves.bind
        intro user
        exact (runtime.terminateSessions_passive user.id
          none).leaves

/- A link for a new address is minted. -/
theorem requestEmailChange_passive
    (user : User)
    (newEmail password : String) :
    Passive
      (runtime.requestEmailChange flows user newEmail
        password) := by
  unfold requestEmailChange
  split
  · trivial
  · dsimp only
    split
    · trivial
    · refine only_step trivial fun within => ?_
      cases within with
      | false => trivial
      | true =>
          refine only_step trivial fun found => ?_
          cases found with
          | some other => trivial
          | none =>
              exact ⟨trivial, fun _ =>
                ⟨trivial, fun _ => trivial⟩⟩

/- The address is changed through its link. -/
theorem confirmEmailChange_leaves (token : SignedToken) :
    LeavesProofs
      (runtime.confirmEmailChange flows token) := by
  apply (runtime.redeemToken_passive token _).leaves.bind
  intro user
  split
  · trivial
  · trivial
  · refine only_step trivial fun found => ?_
    cases found with
    | some other => trivial
    | none =>
        apply (consume_passive flows token _).leaves.bind
        intro consumed
        cases consumed with
        | false => trivial
        | true =>
            apply (runtime.update?_leaves user _).bind
            intro updated
            cases updated with
            | none => trivial
            | some row =>
                dsimp only
                split
                · exact ⟨trivial, fun _ => trivial⟩
                · trivial

------------------------------------------------------------
-- OAuth
------------------------------------------------------------

variable (info : OAuthUserInfo)

/- An identity is linked to a row. -/
theorem link_leaves (user : User) :
    LeavesProofs (runtime.link user info) := by
  unfold link
  split
  · trivial
  · split
    · exact runtime.update_leaves user _
    · refine ⟨trivial, fun suffix => ?_⟩
      apply (runtime.update_leaves user _).bind
      intro user
      apply (runtime.incrementTokenVersion_passive
        user).leaves.bind
      intro user
      exact (runtime.terminateSessions_passive user.id
        none).leaves.bind fun _ => trivial

/- Names are tried in turn. -/
theorem firstFree_passive (candidates : List String) :
    Passive (runtime.firstFree candidates) := by
  induction candidates with
  | nil => trivial
  | cons candidate candidates ih =>
      refine only_step trivial fun found => ?_
      cases found with
      | none => trivial
      | some user => exact ih

theorem uniqueUsername_passive (base : String) :
    Passive (runtime.uniqueUsername base) := by
  apply (runtime.firstFree_passive _).bind
  intro found
  cases found with
  | some username => trivial
  | none => exact ⟨trivial, fun _ => trivial⟩

/- An account is created for an identity. -/
theorem createUser_passive (email : String) :
    Passive (runtime.createUser info email) := by
  apply (runtime.uniqueUsername_passive _).bind
  intro username
  refine ⟨trivial, fun suffix => ⟨trivial, fun row => ?_⟩⟩
  cases row with
  | some user => exact refreshRow_passive user.id
  | none =>
      refine ⟨trivial, fun random => ⟨trivial,
        fun retried => ?_⟩⟩
      cases retried with
      | some user => exact refreshRow_passive user.id
      | none => trivial

/- The account of an identity is found or made. -/
theorem getOrCreateUser_leaves :
    LeavesProofs (runtime.getOrCreateUser info) := by
  refine only_step trivial fun linked => ?_
  cases linked with
  | some user =>
      dsimp only
      split <;> trivial
  | none =>
      dsimp only
      split
      · trivial
      · split
        · trivial
        · refine only_step trivial fun found => ?_
          cases found with
          | some existing =>
              dsimp only
              split
              · exact runtime.link_leaves info existing
              · trivial
          | none =>
              exact (runtime.createUser_passive info
                _).leaves

/- The application changes a field. -/
theorem changeField_leaves
    (id : UserId)
    (field : Field)
    (value : Option String) :
    LeavesProofs (runtime.changeField id field value) := by
  refine only_step trivial fun found => ?_
  cases found with
  | none => trivial
  | some user =>
      apply (runtime.update?_leaves user _).bind
      intro updated
      cases updated <;> trivial

end Runtime

end CrudAuth
