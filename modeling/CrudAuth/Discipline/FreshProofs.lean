import CrudAuth.Discipline.Footprints
import CrudAuth.Discipline.Rules

/-
  What handlers do about fresh proofs: a new session says
  when it was stored, a session is elevated for one window
  by a request of its own that has checked its proof, and
  an account without a password gets its first credential
  from a session that was seen fresh, one with a password
  from a request that sends it.

  Main declarations:
    * `Request.gate?`
    * `Runtime.ProvenBy`
    * `Runtime.proofs`
    * `handle_proofs`
-/

namespace CrudAuth

open Concurrency Program

------------------------------------------------------------
-- Proofs
------------------------------------------------------------

/-
  The routes that add a lasting credential to an account:
  a first password, or an authenticator.
-/
def Request.gate? : Request → Option Credential
  | .setPassword credential _ => some credential
  | .totpSetup credential _ => some credential
  | _ => none

namespace Runtime

variable (runtime : Runtime)

/- The password of an elevation is that of the last copy. -/
def ProvesPassword
    (past : List Act) : Reauthentication → Prop
  | .password password =>
      ∃ user,
        lastRead past = some user ∧
        runtime.verifyPassword password
          user.hashedPassword = true
  | .code _ => True

/- An elevation lasts for a window from its own reading. -/
def Elevates
    (request : Request)
    (past : List Act)
    (key until' : Nat) : Prop :=
  ∃ config proof now,
    runtime.sudoConfig = some config ∧
    request = .elevate (.session key) proof ∧
    (⟨.now, now⟩ : Act) ∈ past ∧
    until' = now + config.windowSeconds ∧
    runtime.ProvesPassword past proof

/- The session was read, and fresh at the next reading. -/
def ProvenBy (past : List Act) (key : Nat) : Prop :=
  0 < runtime.freshSignInSeconds ∧
  ∃ (session : SessionData) (now : Nat),
    Seen past ⟨.now, now⟩
      ⟨.sessionGet key, some session⟩ ∧
    (runtime.sudoConfig.isSome = true ∧
        (∃ until' ∈ session.elevatedUntil, now < until') ∨
      now ≤ session.createdAt + runtime.freshSignInSeconds)

/- A setup was sent the password of the account. -/
def SentPassword
    (request : Request)
    (loaded : User) : Prop :=
  ∃ credential password,
    request = .totpSetup credential (some password) ∧
    runtime.verifyPassword password loaded.hashedPassword =
      true

/-
  A new credential rests on the caller's session where the
  account has no password, and on its password otherwise.
-/
def Gated
    (request : Request)
    (past : List Act)
    (loaded : User) : Prop :=
  ∀ credential ∈ request.gate?,
    if loaded.hashedPassword.isUnusablePassword then
      ∃ key,
        credential = .session key ∧
          runtime.ProvenBy past key
    else
      runtime.SentPassword request loaded

/- What a request may store that counts as a fresh proof. -/
def proofs (request : Request) : Contract interface where
  rule := fun past op =>
    match op with
    | .sessionCreate _ data _ =>
        data.elevatedUntil = none ∧
        (⟨.now, data.createdAt⟩ : Act) ∈ past
    | .sessionModify key (.stamp (some until')) =>
        runtime.Elevates request past key until'
    | .commit loaded _ => runtime.Gated request past loaded
    | _ => True
  answer := fun _ _ => True

variable {runtime}
variable {request : Request}
variable {past past' : List Act}
variable {credential : Credential}
variable {user : User}
variable {key : Nat}
variable {α β : Type}

/- A proof stays in the past. -/
theorem ProvenBy.mono
    (hProven : runtime.ProvenBy past key)
    (hSuffix : past <:+ past') :
    runtime.ProvenBy past' key := by
  rcases hProven with ⟨hOn, session, now, hSeen, hFresh⟩
  exact ⟨hOn, session, now, hSeen.mono hSuffix, hFresh⟩

/- A request without a gate needs no proof. -/
theorem gated_of_ungated
    (hGate : request.gate? = none) :
    runtime.Gated request past user := by
  intro credential hCredential
  rw [hGate] at hCredential
  cases hCredential

/- An account with a password is proven by it. -/
theorem gated_of_password
    (hUsable :
      user.hashedPassword.isUnusablePassword = false)
    (hSent : runtime.SentPassword request user) :
    runtime.Gated request past user := by
  intro credential _
  rw [hUsable]
  exact hSent

/- One without is proven by its session. -/
theorem gated_of_proven
    (hUnusable :
      user.hashedPassword.isUnusablePassword = true)
    (hGate : request.gate? = some (.session key))
    (hProven : runtime.ProvenBy past key) :
    runtime.Gated request past user := by
  intro credential hCredential
  rw [hGate] at hCredential
  obtain rfl := Option.some.inj hCredential
  rw [hUnusable]
  exact ⟨key, rfl, hProven⟩

------------------------------------------------------------
-- Flows That Prove Nothing
------------------------------------------------------------

/- A passive operation is always allowed. -/
theorem rule_of_passive
    {op : Op}
    (hPassive : op.Passive) :
    (runtime.proofs request).rule past op := by
  simp only [proofs]
  split
  · cases hPassive
  · cases hPassive
  · cases hPassive
  · trivial

/- So is one that leaves the proofs, without a gate. -/
theorem rule_of_leaves
    {op : Op}
    (hGate : request.gate? = none)
    (hLeaves : op.LeavesProofs) :
    (runtime.proofs request).rule past op := by
  simp only [proofs]
  split
  · cases hLeaves
  · cases hLeaves
  · exact gated_of_ungated hGate
  · trivial

/- A passive flow obeys. -/
theorem obeys_of_passive
    {flow : Flow α}
    (hPassive : Passive flow) :
    Obeys (runtime.proofs request) past flow
      fun _ _ => True :=
  Only.obeys hPassive fun _ _ _ hOp => rule_of_passive hOp

theorem obeys_of_leaves
    {flow : Flow α}
    (hGate : request.gate? = none)
    (hLeaves : LeavesProofs flow) :
    Obeys (runtime.proofs request) past flow
      fun _ _ => True :=
  Only.obeys hLeaves fun _ _ _ hOp =>
    rule_of_leaves hGate hOp

/- A passive part, and what follows it. -/
theorem bind_of_passive
    {flow : Flow α}
    {rest : α → Flow β}
    (hPassive : Passive flow)
    (hRest : ∀ value past',
      past <:+ past' →
      Obeys (runtime.proofs request) past' (rest value)
        fun _ _ => True) :
    Obeys (runtime.proofs request) past (flow.bind rest)
      fun _ _ => True :=
  (obeys_of_passive hPassive).bind
    (fun past' value hSuffix _ => hRest value past' hSuffix)
    fun _ _ _ _ => trivial

/- A part that leaves the proofs, and the rest. -/
theorem bind_of_leaves
    {flow : Flow α}
    {rest : α → Flow β}
    (hGate : request.gate? = none)
    (hLeaves : LeavesProofs flow)
    (hRest : ∀ value past',
      Obeys (runtime.proofs request) past' (rest value)
        fun _ _ => True) :
    Obeys (runtime.proofs request) past (flow.bind rest)
      fun _ _ => True :=
  (obeys_of_leaves hGate hLeaves).bind
    (fun past' value _ _ => hRest value past')
    fun _ _ _ _ => trivial

/- The value of a route does not matter here. -/
theorem proofs_respond
    {flow : Flow α}
    {respond : α → β}
    (hFlow :
      Obeys (runtime.proofs request) past flow
        fun _ _ => True) :
    Obeys (runtime.proofs request) past
      (flow.bind fun value => .done (respond value))
      fun _ _ => True :=
  hFlow.bind (fun _ _ _ _ => trivial) fun _ _ _ _ => trivial

------------------------------------------------------------
-- Signing In
------------------------------------------------------------

/- A session is created, and none is stamped. -/
theorem createSession_proofs
    (config : SessionConfig)
    (presented : Option Nat)
    (userId : UserId)
    (rememberMe : Bool)
    (loginType : Option String)
    (version : Nat) :
    Obeys (runtime.proofs request) past
      (Sessions.createSession config presented userId
        rememberMe loginType version)
      fun _ _ => True := by
  apply bind_of_passive
    (Sessions.replacePresented_passive presented)
  intro _ past₁ _
  apply bind_of_passive
    (Sessions.enforceSessionLimit_passive config userId)
  intro _ past₂ _
  refine ⟨trivial, fun now _ => ⟨trivial, fun key _ => ?_⟩⟩
  refine ⟨⟨rfl, ?_⟩, fun _ _ => trivial⟩
  simp

/- A login stamps no session. -/
theorem completeLogin_proofs
    (transport : TransportName)
    (presented : Option Nat)
    (user : User)
    (options : LoginOptions) :
    Obeys (runtime.proofs request) past
      (runtime.completeLogin transport presented user
        options)
      fun _ _ => True := by
  unfold completeLogin
  split
  · exact proofs_respond (createSession_proofs _ presented
      user.id options.rememberMe options.loginType _)
  · exact obeys_of_passive
      (runtime.issueTokens_passive _ user options.scopes)
  · trivial
  · trivial

theorem passwordLogin_proofs
    (hGate : request.gate? = none)
    (transport : TransportName)
    (ip identifier password : String)
    (options : LoginOptions)
    (presented : Option Nat) :
    Obeys (runtime.proofs request) past
      (runtime.passwordLogin transport ip identifier
        password options presented)
      fun _ _ => True := by
  apply bind_of_leaves hGate
    (runtime.authenticatePassword_leaves ip identifier
      password _)
  intro user past₁
  have hIssued (past : List Act) :
      Obeys (runtime.proofs request) past
        (do
          let issued ← runtime.completeLogin transport
            presented user options
          return .signedIn issued none : Flow Response)
        fun _ _ => True :=
    proofs_respond (completeLogin_proofs transport presented
      user options)
  split
  · exact hIssued past₁
  · apply bind_of_leaves hGate
      (runtime.challengeLogin_leaves _ user transport ip
        identifier options)
    intro challenge past₂
    cases challenge with
    | some pair => trivial
    | none => exact hIssued past₂

theorem finishChallenge_proofs
    (config : MfaConfig)
    (challenge : MfaChallenge)
    (secret : Option Secret)
    (presented : Option Nat)
    (user : User) :
    Obeys (runtime.proofs request) past
      (runtime.finishChallenge config challenge secret
        presented user)
      fun _ _ => True := by
  apply bind_of_passive
    (enableSetup_passive config user secret)
  rintro ⟨codes, user⟩ past₁ _
  apply bind_of_passive
    (runtime.recordLoginSuccess_passive challenge.ipAddress
      challenge.lockoutIdentifier)
  intro _ past₂ _
  exact proofs_respond (completeLogin_proofs
    challenge.transport presented user challenge.options)

theorem completeChallenge_proofs
    (config : MfaConfig)
    (token : Nat)
    (code : Code)
    (presented : Option Nat) :
    Obeys (runtime.proofs request) past
      (runtime.completeChallenge config token code presented)
      fun _ _ => True := by
  unfold completeChallenge
  refine obeys_step trivial fun pending _ => ?_
  cases pending with
  | none => trivial
  | some pending =>
  dsimp only
  split
  · trivial
  refine obeys_step trivial fun attempted _ => ?_
  cases attempted with
  | none => trivial
  | some challenge =>
  dsimp only
  split
  · exact obeys_step trivial fun _ _ => trivial
  apply bind_of_passive
    (runtime.countLoginAttempt_passive challenge.ipAddress
      challenge.lockoutIdentifier)
  intro counted past₁ _
  cases counted with
  | some retryAfter =>
      exact obeys_step trivial fun _ _ => trivial
  | none =>
  refine obeys_step trivial fun row _ => ?_
  cases row with
  | none => exact obeys_step trivial fun _ _ => trivial
  | some user =>
  dsimp only
  split
  · exact obeys_step trivial fun _ _ => trivial
  apply bind_of_passive
    (runtime.checkChallengeCode_passive config challenge
      user code)
  rintro ⟨secret, accepted, user⟩ past₂ _
  cases accepted with
  | false =>
      split
      · split
        · exact obeys_step trivial fun _ _ => trivial
        · trivial
      · rename_i hAccepted
        exact absurd rfl hAccepted
  | true =>
  refine obeys_step trivial fun taken _ => ?_
  cases taken with
  | none => trivial
  | some taken =>
      exact finishChallenge_proofs config challenge secret
        presented user

theorem oauthCallback_proofs
    (hGate : request.gate? = none)
    (info : OAuthUserInfo)
    (presented : Option Nat) :
    Obeys (runtime.proofs request) past
      (runtime.oauthCallback info presented)
      fun _ _ => True := by
  apply bind_of_leaves hGate
    (runtime.getOrCreateUser_leaves info)
  intro user past₁
  have hFinished (past : List Act) :
      Obeys (runtime.proofs request) past
        (runtime.finishOauth user presented)
        fun _ _ => True :=
    proofs_respond (completeLogin_proofs .session presented
      user oauthOptions)
  split
  · trivial
  · split
    · exact hFinished past₁
    · apply bind_of_leaves hGate
        (runtime.challengeLogin_leaves _ user .session ""
          (oauthIdentifier user) oauthOptions)
      intro challenge past₂
      cases challenge with
      | some pair => trivial
      | none => exact hFinished past₂

------------------------------------------------------------
-- Gates
------------------------------------------------------------

/- The principal is the row last read, and its session. -/
theorem currentUser_proofs (credential : Credential) :
    Obeys (runtime.proofs request) past
      (runtime.currentUser credential)
      (Returns fun past' principal =>
        lastRead past' = some principal.user ∧
        ∀ key, principal.sessionId = some key →
          credential = .session key) := by
  have hFound :
      Obeys (runtime.proofs request) past
        (runtime.authenticate credential)
        (Returns fun past' found =>
          ∀ principal : Principal, found = some principal →
            lastRead past' = some principal.user ∧
            ∀ key, principal.sessionId = some key →
              credential = .session key) := by
    unfold authenticate
    split
    · rename_i key config _
      refine (obeys_of_passive
        (Sessions.validateSession_passive config key)).bind
          ?_ fun _ error _ _ => returns_error error
      intro past₁ found _ _
      cases found with
      | none => simp
      | some session =>
          refine obeys_step trivial fun row _ => ?_
          cases row with
          | none => simp
          | some user =>
              dsimp only
              split
              · simp
              · split
                · simp
                · rw [obeys_pure, returns_ok]
                  rintro _ ⟨⟩
                  refine ⟨rfl, fun key' hKey => ?_⟩
                  rw [Option.some.inj hKey]
    · simp
    · rename_i token _ _
      refine obeys_step trivial fun now _ => ?_
      split
      · simp
      · split
        · simp
        · refine obeys_step trivial fun row _ => ?_
          cases row with
          | none => simp
          | some user =>
              dsimp only
              split
              · simp
              · split
                · simp
                · rw [obeys_pure, returns_ok]
                  rintro _ ⟨⟩
                  exact ⟨rfl, fun key hKey => by cases hKey⟩
    · simp
  refine hFound.andThen ?_
  intro past₁ found _ hPrincipal
  cases found with
  | none => simp
  | some principal =>
      rw [obeys_pure, returns_ok]
      exact hPrincipal principal rfl

/- The session was elevated when the clock was read. -/
theorem isElevated_proofs (key : Nat) :
    Obeys (runtime.proofs request) past (isElevated key)
      (Returns fun past' elevated => elevated = true →
        ∃ (session : SessionData) (now : Nat),
          Seen past' ⟨.now, now⟩
            ⟨.sessionGet key, some session⟩ ∧
          ∃ until' ∈ session.elevatedUntil, now <
            until') := by
  refine obeys_step trivial fun found _ => ?_
  cases found with
  | none => simp
  | some session =>
      refine obeys_step trivial fun now _ => ?_
      rw [obeys_pure, returns_ok]
      intro hElevated
      refine ⟨session, now, seen_cons List.mem_cons_self _,
        ?_⟩
      cases hUntil : session.elevatedUntil with
      | none => simp [hUntil] at hElevated
      | some until' =>
          rw [hUntil] at hElevated
          exact ⟨until', rfl, of_decide_eq_true hElevated⟩

/- A session found young is one that was read so. -/
theorem signedInWithin_proofs (key : Nat) :
    Obeys (runtime.proofs request) past
      (runtime.signedInWithin key)
      (Returns fun past' within => within = true →
        ∃ (session : SessionData) (now : Nat),
          Seen past' ⟨.now, now⟩
            ⟨.sessionGet key, some session⟩ ∧
          now ≤ session.createdAt +
            runtime.freshSignInSeconds) := by
  refine obeys_step trivial fun found _ => ?_
  cases found with
  | none => simp
  | some session =>
      refine obeys_step trivial fun now _ => ?_
      rw [obeys_pure, returns_ok]
      intro hWithin
      exact ⟨session, now, seen_cons List.mem_cons_self _,
        of_decide_eq_true hWithin⟩

/- A principal that passes has a session seen fresh. -/
theorem signedInRecently_proofs (principal : Principal) :
    Obeys (runtime.proofs request) past
      (runtime.signedInRecently principal)
      (Returns fun past' recent => recent = true →
        ∃ key,
          principal.sessionId = some key ∧
            runtime.ProvenBy past' key) := by
  unfold signedInRecently
  split
  · rename_i key config hKey _
    split
    · simp
    · rename_i hOn
      have hPositive : 0 < runtime.freshSignInSeconds :=
        Nat.pos_of_ne_zero hOn
      have hHolds :
          Obeys (runtime.proofs request) past
            (runtime.holdsSudo key)
            (Returns fun past' holds => holds = true →
              runtime.ProvenBy past' key) := by
        unfold holdsSudo
        split
        · rename_i hSudo
          apply (isElevated_proofs key).mono
          intro past' result _ hElevated value hValue hTrue
          rcases hElevated value hValue hTrue with
            ⟨session, now, hSeen, hUntil⟩
          exact ⟨hPositive, session, now, hSeen,
            Or.inl ⟨hSudo, hUntil⟩⟩
        · simp
      apply hHolds.andThen
      intro past₁ holds _ hHolds
      cases holds with
      | true =>
          simp only [if_true, obeys_pure, returns_ok]
          intro _
          exact ⟨key, hKey, hHolds rfl⟩
      | false =>
          apply (runtime.signedInWithin_proofs key).mono
          intro past' result _ hWithin value hValue hTrue
          rcases hWithin value hValue hTrue with
            ⟨session, now, hSeen, hLate⟩
          exact ⟨key, hKey, hPositive, session, now, hSeen,
            Or.inr hLate⟩
  · simp
  · simp

/- A row is committed where its gate has been passed. -/
theorem update_proofs
    {data : Patch}
    (hGated : runtime.Gated request past user) :
    Obeys (runtime.proofs request) past
      (runtime.update user data) fun _ _ => True := by
  have hUpdated :
      Obeys (runtime.proofs request) past
        (runtime.update? user data) fun _ _ => True := by
    refine obeys_step hGated fun committed _ => ?_
    cases committed with
    | false => trivial
    | true =>
        exact bind_of_passive (refreshRow_passive user.id)
          fun _ _ _ => trivial
  apply hUpdated.bind
  · intro _ updated _ _
    cases updated <;> trivial
  · intro _ _ _ _
    trivial

/- A setup behind its gate. -/
theorem beginSetup_proofs
    (hGated : ∀ past', past <:+ past' →
      runtime.Gated request past' user) :
    Obeys (runtime.proofs request) past
      (runtime.beginSetup user) fun _ _ => True := by
  unfold beginSetup
  split
  · trivial
  · refine obeys_step trivial fun secret _ => ?_
    apply (update_proofs
      (hGated _ (List.suffix_cons _ _))).bind
    · intro _ _ _ _
      trivial
    · intro _ _ _ _
      trivial

/- A first password takes a recent sign-in. -/
theorem setPassword_proofs
    {principal : Principal}
    {newPassword : String}
    (hRequest :
      request = .setPassword credential newPassword)
    (hSession : ∀ key, principal.sessionId = some key →
      credential = .session key) :
    Obeys (runtime.proofs request) past
      (runtime.setPassword principal newPassword)
      fun _ _ => True := by
  unfold setPassword
  dsimp only
  split
  · trivial
  · rename_i hUsable
    have hUnusable :
        principal.user.hashedPassword.isUnusablePassword =
          true := by
      simpa using hUsable
    apply (signedInRecently_proofs principal).bind
    · intro past₁ recent _ hRecent
      rw [returns_ok] at hRecent
      cases recent with
      | false => trivial
      | true =>
          rcases hRecent rfl with ⟨key, hKey, hProven⟩
          have hGate :
              request.gate? = some (.session key) := by
            rw [hRequest, ← hSession key hKey]
            rfl
          split
          · rename_i hRefused
            exact absurd hRefused (by simp)
          · split
            · trivial
            · apply bind_of_passive
                (runtime.getPasswordHash_passive newPassword)
              intro hash past₂ hSuffix
              apply (update_proofs (gated_of_proven hUnusable
                hGate (hProven.mono hSuffix))).bind
              · intro _ _ _ _
                trivial
              · intro _ _ _ _
                trivial
    · intro _ _ _ _
      trivial

/- A setup takes a password or a recent sign-in. -/
theorem totpSetup_proofs
    {principal : Principal}
    {password : Option String}
    (hRequest : request = .totpSetup credential password)
    (hSession : ∀ key, principal.sessionId = some key →
      credential = .session key) :
    Obeys (runtime.proofs request) past
      (runtime.totpSetup principal password)
      fun _ _ => True := by
  unfold totpSetup
  dsimp only
  split
  · rename_i hUnusable
    apply (signedInRecently_proofs principal).bind
    · intro past₁ recent _ hRecent
      rw [returns_ok] at hRecent
      cases recent with
      | false => trivial
      | true =>
          rcases hRecent rfl with ⟨key, hKey, hProven⟩
          have hGate :
              request.gate? = some (.session key) := by
            rw [hRequest, ← hSession key hKey]
            rfl
          exact beginSetup_proofs fun past' hSuffix =>
            gated_of_proven hUnusable hGate
              (hProven.mono hSuffix)
    · intro _ _ _ _
      trivial
  · rename_i hUsable
    split
    · rename_i hVerified
      rcases (Option.any_eq_true _ _).mp hVerified with
        ⟨sent, rfl, hSent⟩
      exact beginSetup_proofs fun _ _ =>
        gated_of_password (Bool.eq_false_iff.mpr hUsable)
          ⟨credential, sent, hRequest, hSent⟩
    · trivial

------------------------------------------------------------
-- Sudo
------------------------------------------------------------

/- A password that is verified is that of the last copy. -/
theorem verifySudo_proofs
    {proof : Reauthentication}
    (hRead : lastRead past = some user) :
    Obeys (runtime.proofs request) past
      (runtime.verifySudo user proof)
      (Returns fun past' result => result.1 = true →
        runtime.ProvesPassword past' proof) := by
  cases proof with
  | password password =>
      simp only [verifySudo, obeys_pure, returns_ok]
      intro hVerified
      exact ⟨user, hRead, hVerified⟩
  | code code =>
      have hFlow :
          Passive
            (runtime.verifySudo user (.code code)) := by
        simp only [verifySudo]
        split
        · exact verifyTotp_passive _ user code
        · trivial
      apply (obeys_of_passive hFlow).mono
      intro _ _ _ _ _ _ _
      trivial

/- Locking stamps no session. -/
theorem lock_passive
    {γ : Type}
    (config : SudoConfig)
    (key : Nat)
    (userId : UserId) :
    Passive (Sudo.lock config key userId : Flow γ) :=
  ⟨trivial, fun _ => ⟨trivial, fun _ => trivial⟩⟩

/- A session is stamped on a proof. -/
theorem stampSession_proofs
    {config : SudoConfig}
    {proof : Reauthentication}
    (hSudo : runtime.sudoConfig = some config)
    (hRequest : request = .elevate (.session key) proof)
    (hProves : ∀ now : Nat,
      runtime.ProvesPassword (⟨.now, now⟩ :: past) proof) :
    Obeys (runtime.proofs request) past
      (Sudo.stampSession config key) fun _ _ => True := by
  refine obeys_step trivial fun now _ => ?_
  refine obeys_step ⟨config, proof, now, hSudo, hRequest,
    List.mem_cons_self, rfl, hProves now⟩ fun stamped _ => ?_
  cases stamped <;> trivial

/- An elevation stamps on a proof only. -/
theorem elevateSession_proofs
    {config : SudoConfig}
    {proof : Reauthentication}
    (hSudo : runtime.sudoConfig = some config)
    (hRequest : request = .elevate (.session key) proof)
    (hRead : lastRead past = some user) :
    Obeys (runtime.proofs request) past
      (runtime.elevateSession config key user proof)
      fun _ _ => True := by
  refine obeys_step trivial fun ttl _ => ?_
  split
  · trivial
  · refine obeys_step trivial fun attempt _ => ?_
    split
    · exact obeys_of_passive
        (lock_passive config key user.id)
    · have hLast :
          lastRead (⟨.sudoAttempt user.id, attempt⟩ ::
            ⟨.sudoTtl user.id, ttl⟩ :: past) = some user :=
        hRead
      apply (verifySudo_proofs hLast).bind
      · intro past₁ result _ hVerified
        rw [returns_ok] at hVerified
        rcases result with ⟨verified, user₁⟩
        dsimp only at hVerified ⊢
        split
        · rename_i hTrue
          refine obeys_step trivial fun _ _ => ?_
          apply stampSession_proofs hSudo hRequest
          intro now
          cases proof with
          | password password => exact hVerified hTrue
          | code code => trivial
        · split
          · exact obeys_of_passive
              (lock_passive config key user₁.id)
          · trivial
      · intro _ _ _ _
        trivial

/- So does the route that elevates. -/
theorem elevate_proofs
    {config : SudoConfig}
    {proof : Reauthentication}
    {principal : Principal}
    (hSudo : runtime.sudoConfig = some config)
    (hRequest : request = .elevate credential proof)
    (hRead : lastRead past = some principal.user)
    (hSession : ∀ key, principal.sessionId = some key →
      credential = .session key) :
    Obeys (runtime.proofs request) past
      (runtime.elevate config principal proof)
      fun _ _ => True := by
  unfold elevate
  split
  · trivial
  · split
    · trivial
    · rename_i key hKey
      exact elevateSession_proofs hSudo
        (by rw [hRequest, hSession key hKey]) hRead

------------------------------------------------------------
-- Handlers
------------------------------------------------------------

/- The routes that need the second factor. -/
theorem withMfa_proofs
    {serve : MfaConfig → Flow Response}
    (hServe : ∀ config,
      Obeys (runtime.proofs request) past (serve config)
        fun _ _ => True) :
    Obeys (runtime.proofs request) past
      (runtime.withMfa serve) fun _ _ => True := by
  unfold withMfa
  split
  · exact hServe _
  · trivial

theorem withEmails_proofs
    {serve : EmailFlows → Flow Response}
    (hServe : ∀ flows,
      Obeys (runtime.proofs request) past (serve flows)
        fun _ _ => True) :
    Obeys (runtime.proofs request) past
      (runtime.withEmails serve) fun _ _ => True := by
  unfold withEmails
  split
  · exact hServe _
  · trivial

/- A route behind `current_user`, whoever the caller is. -/
theorem behind_anyone
    {rest : Principal → Flow Response}
    (hRest : ∀ past' principal,
      Obeys (runtime.proofs request) past'
        (rest principal) fun _ _ => True) :
    Obeys (runtime.proofs request) past
      (Program.bind (runtime.currentUser credential) rest)
      fun _ _ => True :=
  bind_of_passive (runtime.currentUser_passive credential)
    fun principal past' _ => hRest past' principal

/- A route that goes by the caller's row and session. -/
theorem behind_principal
    {rest : Principal → Flow Response}
    (hRest : ∀ past' principal,
      lastRead past' = some principal.user →
      (∀ key, principal.sessionId = some key →
        credential = .session key) →
      Obeys (runtime.proofs request) past'
        (rest principal) fun _ _ => True) :
    Obeys (runtime.proofs request) past
      (Program.bind (runtime.currentUser credential) rest)
      fun _ _ => True := by
  apply (currentUser_proofs credential).bind
  · intro past₁ principal _ hPrincipal
    rw [returns_ok] at hPrincipal
    exact hRest past₁ principal hPrincipal.1 hPrincipal.2
  · intro _ _ _ _
    trivial

/- Every route stamps on a proof only. -/
theorem serve_proofs (request : Request) :
    Obeys (runtime.proofs request) past
      (runtime.serve request) fun _ _ => True := by
  cases request with
  | login transport ip identifier password options
      presented =>
      exact passwordLogin_proofs rfl transport ip identifier
        password options presented
  | mfaVerify token code presented =>
      exact withMfa_proofs fun config =>
        completeChallenge_proofs config token code presented
  | refresh token =>
      exact proofs_respond (obeys_of_passive
        (runtime.refreshAccess_passive token))
  | me credential => exact behind_anyone fun _ _ => trivial
  | setPassword credential newPassword =>
      apply behind_principal
      intro past' principal _ hSession
      exact proofs_respond (setPassword_proofs rfl hSession)
  | changePassword credential current newPassword =>
      apply behind_anyone
      intro past' principal
      exact proofs_respond (obeys_of_leaves rfl
        (runtime.changePassword_leaves principal current
          newPassword))
  | totpSetup credential password =>
      apply withMfa_proofs
      intro config
      apply behind_principal
      intro past' principal _ hSession
      exact proofs_respond (totpSetup_proofs rfl hSession)
  | totpConfirm credential code =>
      apply withMfa_proofs
      intro config
      apply behind_anyone
      intro past' principal
      exact proofs_respond (obeys_of_passive
        (runtime.confirmSetup_passive config principal.user
          code))
  | totpDisable credential code =>
      apply withMfa_proofs
      intro config
      apply behind_anyone
      intro past' principal
      exact proofs_respond (obeys_of_leaves rfl
        (runtime.totpDisable_leaves config principal code))
  | regenerate credential code =>
      apply withMfa_proofs
      intro config
      apply behind_anyone
      intro past' principal
      exact proofs_respond (obeys_of_leaves rfl
        (runtime.regenerate_leaves config principal code))
  | elevate credential proof =>
      simp only [serve, withSudo]
      split
      · rename_i config hSudo
        apply behind_principal
        intro past' principal hRead hSession
        exact proofs_respond
          (elevate_proofs hSudo rfl hRead hSession)
      · trivial
  | requestReset value =>
      apply withEmails_proofs
      intro flows
      exact proofs_respond (obeys_of_passive
        (runtime.requestPasswordReset_passive flows value))
  | resetPassword token newPassword =>
      apply withEmails_proofs
      intro flows
      exact proofs_respond (obeys_of_leaves rfl
        (runtime.resetPassword_leaves flows token
          newPassword))
  | requestVerification value =>
      apply withEmails_proofs
      intro flows
      exact proofs_respond (obeys_of_passive
        (runtime.requestRecoveryVerification_passive flows
          value))
  | confirmVerification token =>
      apply withEmails_proofs
      intro flows
      exact proofs_respond (obeys_of_leaves rfl
        (runtime.confirmRecoveryVerification_leaves flows
          token))
  | requestEmailChange credential newEmail password =>
      apply withEmails_proofs
      intro flows
      apply behind_anyone
      intro past' principal
      exact proofs_respond (obeys_of_passive
        (runtime.requestEmailChange_passive flows
          principal.user newEmail password))
  | confirmEmailChange token =>
      apply withEmails_proofs
      intro flows
      exact proofs_respond (obeys_of_leaves rfl
        (runtime.confirmEmailChange_leaves flows token))
  | oauthCallback info presented =>
      exact oauthCallback_proofs rfl info presented
  | changeField id field value =>
      exact obeys_of_leaves rfl
        (runtime.changeField_leaves id field value)

/- A whole handler, its errors turned into refusals. -/
theorem handle_proofs (request : Request) :
    Obeys (runtime.proofs request) []
      (runtime.handle request) fun _ _ => True := by
  refine obeys_step trivial fun _ _ => ?_
  have hServed :
      Obeys (runtime.proofs request)
        [⟨.arrive request, ()⟩]
        (runtime.serve request).attempt fun _ _ => True :=
    Obeys.attempt (serve_proofs request)
      fun _ _ _ _ => trivial
  refine Obeys.bind hServed ?_ fun _ _ _ _ => trivial
  intro past' result _ _
  cases result with
  | ok response =>
      exact obeys_call trivial fun _ _ => trivial
  | error error =>
      exact obeys_call trivial fun _ _ => trivial

end Runtime

end CrudAuth
