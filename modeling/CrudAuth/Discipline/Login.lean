import CrudAuth.Discipline.Mfa

/-
  Password logins and refresh requests keep the contract.

  Main declarations:
    * `authenticatePassword_obeys`
    * `passwordLogin_obeys`
    * `refreshAccess_obeys`
-/

namespace CrudAuth

open Concurrency
open Concurrency.Program

namespace Runtime

variable {runtime : Runtime}
variable {request : Request}
variable {past : List Act}
variable {user : User}

------------------------------------------------------------
-- Hashing
------------------------------------------------------------

/- A new hash is made with the value drawn last. -/
theorem getPasswordHash_obeys (plain : String) :
    Obeys (runtime.contract request) past
      (runtime.getPasswordHash plain)
      (Returns fun past' hash =>
        Kept past past' ∧
        past <:+ past' ∧
        ∃ salt,
          hash =
            .bcrypt (runtime.normalizePassword plain) salt ∧
          Drawn past' salt) := by
  refine obeys_step trivial fun salt _ => ?_
  simp only [obeys_pure, returns_ok]
  exact ⟨Kept.cons rfl rfl, List.suffix_cons _ _, salt,
    rfl, rfl⟩

/- What a password check leaves behind. -/
def Checked
    (runtime : Runtime)
    (plain : String)
    (hash : StoredHash)
    (past past' : List Act)
    (result : Bool × Option StoredHash) : Prop :=
  Kept past past' ∧
  past <:+ past' ∧
  (result.1 = true → runtime.accepts plain hash = true) ∧
  ∀ newHash, result.2 = some newHash →
    ∃ form salt,
      newHash = .bcrypt form salt ∧ Drawn past' salt

/- A verdict on a password is one of the hashes. -/
theorem verifyAndUpdatePassword_obeys
    (plain : String)
    (hash : StoredHash) :
    Obeys (runtime.contract request) past
      (runtime.verifyAndUpdatePassword plain hash)
      (Returns fun past' result =>
        runtime.Checked plain hash past past' result) := by
  unfold verifyAndUpdatePassword
  split
  · simp only [obeys_pure, returns_ok]
    exact ⟨Kept.refl, List.suffix_rfl, by simp, by simp⟩
  · rename_i matched hMatched
    have hAccepts : runtime.accepts plain hash = true := by
      simp [accepts, verifyPassword, hMatched]
    split
    · simp only [obeys_pure, returns_ok]
      exact ⟨Kept.refl, List.suffix_rfl,
        fun _ => hAccepts, by simp⟩
    · refine Obeys.andThen (getPasswordHash_obeys plain) ?_
      rintro past' newHash _
        ⟨hKept, hSuffix, salt, rfl, hDrawn⟩
      simp only [obeys_pure, returns_ok]
      refine ⟨hKept, hSuffix, fun _ => hAccepts, ?_⟩
      rintro _ ⟨rfl⟩
      exact ⟨_, salt, rfl, hDrawn⟩

/- So is the verdict that a login asks for. -/
theorem checkLoginPassword_obeys
    (plain : String)
    (hash : StoredHash) :
    Obeys (runtime.contract request) past
      (runtime.checkLoginPassword plain hash)
      (Returns fun past' result =>
        runtime.Checked plain hash past past' result) := by
  refine Obeys.andThen
    (verifyAndUpdatePassword_obeys plain hash) ?_
  rintro past₁ ⟨verified, newHash⟩ _ hChecked
  cases verified with
  | true =>
      simp only [obeys_pure, returns_ok]
      exact hChecked
  | false =>
      dsimp only
      split
      · rename_i hLegacy
        have hAccepts :
            runtime.accepts plain hash = true := by
          simp [accepts, hLegacy]
        refine Obeys.andThen
          (getPasswordHash_obeys plain) ?_
        rintro past₂ rehash _
          ⟨hKept, hSuffix, salt, rfl, hDrawn⟩
        simp only [obeys_pure, returns_ok]
        refine ⟨hChecked.1.trans hKept,
          hChecked.2.1.trans hSuffix, fun _ => hAccepts, ?_⟩
        rintro _ ⟨rfl⟩
        exact ⟨_, salt, rfl, hDrawn⟩
      · simp only [obeys_pure, returns_ok]
        exact hChecked

------------------------------------------------------------
-- Password Login
------------------------------------------------------------

/- A lookup is one SELECT. -/
theorem getByField_obeys
    {field : Field}
    {value : String}
    (hFirst :
      request.readsOnce = true →
        lastSelected past = none) :
    Obeys (runtime.contract request) past
      (runtime.getByField field value)
      (Returns fun past' result =>
        ∃ selector : Selector,
          past' = ⟨.select selector, result⟩ :: past) := by
  cases field with
  | email =>
      refine obeys_call hFirst fun ret _ => ?_
      intro result hResult
      obtain rfl : ret = result := by simpa using hResult
      exact ⟨_, rfl⟩
  | username =>
      refine obeys_call hFirst fun ret _ => ?_
      intro result hResult
      obtain rfl : ret = result := by simpa using hResult
      exact ⟨_, rfl⟩
  | column name =>
      refine obeys_call hFirst fun ret _ => ?_
      intro result hResult
      obtain rfl : ret = result := by simpa using hResult
      exact ⟨_, rfl⟩

/- The account found is the row last read. -/
theorem resolveLoginAmong_obeys
    {identifier : String}
    {fields : List Field}
    (hFirst : lastSelected past = none) :
    Obeys (runtime.contract request) past
      (runtime.resolveLoginAmong identifier fields)
      (Returns fun past' result =>
        ∀ user, result = some user →
          lastRead past' = some user ∧
          ∃ selector : Selector,
            (⟨.select selector, some user⟩ : Act) ∈
              past') := by
  induction fields generalizing past with
  | nil => simp [resolveLoginAmong]
  | cons field fields ih =>
      refine Obeys.andThen
        (getByField_obeys fun _ => hFirst) ?_
      rintro past' found _ ⟨selector, rfl⟩
      cases found with
      | some user =>
          simp only [obeys_pure, returns_ok,
            Option.some.injEq]
          rintro _ rfl
          exact ⟨rfl, selector, List.mem_cons_self⟩
      | none => exact ih hFirst

/- The rehash of a login rests on its password check. -/
theorem acceptLogin_obeys
    {transport : TransportName}
    {ip identifier password : String}
    {options : LoginOptions}
    {presented : Option Nat}
    {newHash : Option StoredHash}
    {recordSuccess : Bool}
    (hRequest :
      request = .login transport ip identifier password
        options presented)
    (hRead : lastRead past = some user)
    (hEntitled : runtime.Entitled request past user.id)
    (hAccepts :
      runtime.accepts password user.hashedPassword = true)
    (hNewHash : ∀ hash, newHash = some hash →
      ∃ form salt,
        hash = .bcrypt form salt ∧ Drawn past salt) :
    Obeys (runtime.contract request) past
      (runtime.acceptLogin user newHash ip identifier
        recordSuccess)
      (Returns fun past' user' =>
        lastRead past' = some user' ∧
        runtime.Entitled request past' user'.id) := by
  have hLast {past' : List Act} {user' : User}
      (hRead' : lastRead past' = some user')
      (hEntitled' :
        runtime.Entitled request past' user'.id) :
      Obeys (runtime.contract request) past'
        (do
          if recordSuccess then
            runtime.recordLoginSuccess ip identifier
          else if runtime.lockout then
            call (.forgetAttempt ip identifier)
          return user' : Flow User)
        (Returns fun past'' user'' =>
          lastRead past'' = some user'' ∧
          runtime.Entitled request past'' user''.id) := by
    split
    · refine Obeys.andThen
        (recordLoginSuccess_obeys ip identifier) ?_
      intro past'' _ hSuffix hKept
      simp only [obeys_pure, returns_ok]
      exact ⟨hKept.read.trans hRead',
        hEntitled'.mono hSuffix⟩
    · split
      · refine obeys_step trivial fun _ _ => ?_
        simp only [obeys_pure, returns_ok]
        exact ⟨hRead',
          hEntitled'.mono (List.suffix_cons _ _)⟩
      · simp only [obeys_pure, returns_ok]
        exact ⟨hRead', hEntitled'⟩
  cases newHash with
  | none => exact hLast hRead hEntitled
  | some hash =>
      rcases hNewHash hash rfl with
        ⟨form, salt, rfl, hDrawn⟩
      have hAuthorized :
          runtime.Authorizes request user := by
        subst hRequest
        exact hAccepts
      have hWrite :
          runtime.Write request past user
            (runtime.canonical
              { hashedPassword :=
                  some (.bcrypt form salt) }) :=
        .password hDrawn hAuthorized
      refine Obeys.andThen
        (update_obeys hRead hEntitled hWrite) ?_
      rintro past' user' hSuffix ⟨hReread, -⟩
      refine hLast hReread.read ?_
      rw [hReread.id]
      exact hEntitled.mono hSuffix

/- Who is let in has given the password. -/
theorem authenticatePassword_obeys
    {transport : TransportName}
    {ip identifier password : String}
    {options : LoginOptions}
    {presented : Option Nat}
    {recordSuccess : Bool}
    (hRequest :
      request = .login transport ip identifier password
        options presented)
    (hFirst : lastSelected past = none) :
    Obeys (runtime.contract request) past
      (runtime.authenticatePassword ip identifier password
        recordSuccess)
      (Returns fun past' user =>
        lastRead past' = some user ∧
        runtime.Entitled request past' user.id) := by
  refine Obeys.andThen
    (countLoginAttempt_obeys ip identifier) ?_
  intro past₁ refused _ hKept₁
  cases refused with
  | some retryAfter => simp
  | none =>
  refine Obeys.andThen
    (resolveLoginAmong_obeys
      (hKept₁.selected.trans hFirst)) ?_
  intro past₂ found hSuffix₂ hFound
  cases found with
  | none =>
      refine Obeys.andThen
        (checkLoginPassword_obeys password _) ?_
      simp
  | some user =>
  rcases hFound user rfl with ⟨hRead₂, selector, hSelected⟩
  refine Obeys.andThen
    (checkLoginPassword_obeys password _) ?_
  rintro past₃ ⟨verified, newHash⟩ _
    ⟨hKept₃, hSuffix₃, hAccepts, hNewHash⟩
  dsimp only at hAccepts hNewHash ⊢
  split
  · simp
  · rename_i hVerified
    have hAccepts' := hAccepts (by simpa using hVerified)
    split
    · simp
    · rename_i hActive
      have hEntitled :
          runtime.Entitled request past₃ user.id := by
        subst hRequest
        exact ⟨selector, user, hSuffix₃.subset hSelected,
          rfl, by simpa using hActive, hAccepts'⟩
      exact acceptLogin_obeys hRequest
        (hKept₃.read.trans hRead₂) hEntitled hAccepts'
        hNewHash

/- Only the second step of a login has to take anything. -/
theorem signsIn_of_login
    {transport : TransportName}
    {ip identifier password : String}
    {options : LoginOptions}
    {presented : Option Nat}
    {id : UserId}
    (hRequest :
      request = .login transport ip identifier password
        options presented)
    (hEntitled : runtime.Entitled request past id) :
    runtime.SignsIn request past id := by
  subst hRequest
  exact ⟨hEntitled, trivial⟩

/- A password login, up to its answer. -/
theorem passwordLogin_obeys
    {transport : TransportName}
    {ip identifier password : String}
    {options : LoginOptions}
    {presented : Option Nat}
    (hRequest :
      request = .login transport ip identifier password
        options presented)
    (hFirst : lastSelected past = none) :
    Obeys (runtime.contract request) past
      (runtime.passwordLogin transport ip identifier
        password options presented)
      (Returns fun past' response =>
        runtime.Answered request past' response) := by
  refine Obeys.andThen
    (authenticatePassword_obeys hRequest hFirst) ?_
  rintro past₁ user _ ⟨hRead, hEntitled⟩
  have hComplete {past' : List Act}
      (hUnchallenged : runtime.Unchallenged request user)
      (hRead' : lastRead past' = some user)
      (hEntitled' :
        runtime.Entitled request past' user.id) :
      Obeys (runtime.contract request) past'
        (do
          let issued ← runtime.completeLogin transport
            presented user options
          return .signedIn issued none : Flow Response)
        (Returns fun past'' response =>
          runtime.Answered request past'' response) := by
    have hSignsIn := signsIn_of_login hRequest hEntitled'
    refine Obeys.andThen
      (completeLogin_obeys hRead' hSignsIn
        hUnchallenged) ?_
    rintro past'' issued hSuffix ⟨hKept, hIssued⟩
    simp only [obeys_pure, returns_ok]
    exact answered_signedIn (hKept.read.trans hRead')
      hSignsIn hUnchallenged hSuffix hIssued
  cases hMfa : runtime.mfa with
  | none =>
      refine hComplete ?_ hRead hEntitled
      subst hRequest
      simp [Unchallenged, hMfa]
  | some config =>
      refine Obeys.andThen
        (challengeLogin_obeys hRead hEntitled) ?_
      intro past₂ challenge hSuffix₂ hChallenge
      cases challenge with
      | none =>
          rcases hChallenge with ⟨hKept, hNotEnrolled⟩
          refine hComplete ?_ (hKept.read.trans hRead)
            (hEntitled.mono hSuffix₂)
          subst hRequest
          exact fun _ => hNotEnrolled
      | some created =>
          rcases created with ⟨token, setup⟩
          simp only [obeys_pure, returns_ok]
          exact hChallenge

------------------------------------------------------------
-- Refreshing
------------------------------------------------------------

/- A refresh token is traded for an access token. -/
theorem refreshAccess_obeys
    {token : Jwt}
    (hRequest : request = .refresh token)
    (hFirst : lastSelected past = none) :
    Obeys (runtime.contract request) past
      (runtime.refreshAccess token)
      (Returns fun past' access =>
        runtime.Entitled request past' access.sub) := by
  unfold refreshAccess
  split
  · simp
  · rename_i config hBearer
    refine obeys_step trivial fun now _ => ?_
    split
    · simp
    · refine obeys_step (fun _ => hFirst)
        fun found hAnswer => ?_
      cases found with
      | none => simp
      | some user =>
          have hId : user.id = token.sub := by
            simpa [World.matchesSelector] using
              hAnswer user rfl
          dsimp only
          split
          · simp
          · rename_i hActive
            split
            · simp
            · rename_i hVersion
              refine obeys_step trivial fun minted _ => ?_
              simp only [obeys_pure, returns_ok]
              subst hRequest
              exact ⟨by simp [hBearer], user,
                List.mem_cons_of_mem _ List.mem_cons_self,
                hId.symm, by simpa using hActive,
                not_not.mp hVersion⟩

end Runtime

end CrudAuth
