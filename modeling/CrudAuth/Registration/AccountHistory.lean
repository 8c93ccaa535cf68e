import CrudAuth.Registration.Linking

/-
  `OAuthAccountService` with its session manager, over
  whole histories: provider profiles, registrations,
  deactivations and recovery verifications, one after
  another.

  Main declarations:
    * `Accounts`
    * `OAuthAccountService.getOrCreateUser`
    * `AccountEvent`
    * `OAuthAccountService.Follows`
    * `OAuthAccountService.SoundResolution`
    * `OAuthAccountService.soundResolution_of_follows`
-/

------------------------------------------------------------
-- The Service
------------------------------------------------------------

namespace CrudAuth

namespace Registration

open Concurrency
open Concurrency.Program

/- The users table, and each session with its owner. -/
structure Accounts where
  table : UsersTable
  sessions : List (Nat × Nat)

/-
  A statement on the users table, or a sign-out everywhere.
-/
inductive AccountOp where
  | statement (op : TableOp)
  | terminateAll (userId : Nat)

/- Answers of the table and of the session manager. -/
@[reducible]
def AccountOp.Ret : AccountOp → Type
  | .statement op => tableOps.Ret op
  | .terminateAll _ => Unit

/- Accounts as a machine answers for them. -/
abbrev accountOps : Interface where
  Op := AccountOp
  Ret := AccountOp.Ret

/- A sign-in through a provider, step by step. -/
abbrev AccountFlow (α : Type) :=
  Program accountOps SignUpError α

/- A program of the repository alone. -/
def onTable {α : Type} (program : TableFlow α) :
    AccountFlow α :=
  program.translate fun op =>
    @Program.call accountOps SignUpError (.statement op)

/- `terminate_all_user_sessions` -/
def terminateAll (userId : Nat) : AccountFlow Unit :=
  @Program.call accountOps SignUpError (.terminateAll userId)

/- What the service is given. -/
structure OAuthAccountService where
  auth : AuthSurface
  hasSessionManager : Bool

namespace OAuthAccountService

variable (service : OAuthAccountService)

/- Each operation on the users and their sessions. -/
def exec :
    (op : AccountOp) → Accounts →
      accountOps.Ret op × Accounts
  | .statement op, accounts =>
      ((service.auth.repo.execTable op accounts.table).1,
        { accounts with
          table := (service.auth.repo.execTable op
            accounts.table).2 })
  | .terminateAll userId, accounts =>
      ((),
        { accounts with
          sessions := accounts.sessions.filter
            fun session => session.2 ≠ userId })

/- `_link`: whoever claims an account signs it out. -/
def link
    (request : OAuthRequest)
    (user : UserRow) : AccountFlow UserRow := do
  let claimed := !(service.auth.repo.get user
    "email_verified").truthy
  let linked ← onTable (service.auth.link request user)
  if claimed && service.hasSessionManager then do
    terminateAll user.id
    return linked
  else
    return linked

/- `get_or_create_user` -/
def getOrCreateUser
    (request : OAuthRequest) :
    AccountFlow (UserRow × Bool) := do
  match ← onTable (service.auth.repo.getByOauth
      request.info.provider
      request.info.providerUserId) with
  | some row =>
      onTable (service.auth.refuseInactive row)
      return (row, false)
  | none =>
      let email ← onTable
        (AuthSurface.verifiedEmail request.info)
      match ← onTable (service.auth.repo.getByField "email"
          (.text email)) with
      | some existing =>
          onTable (service.auth.refuseInactive existing)
          let row ← service.link request existing
          return (row, false)
      | none =>
          match service.auth.repo.exceedsLength "email"
              (.text (service.auth.repo.canonicalEmail
                email)) with
          | some _ =>
              .raise (.oauthAccount "email_too_long")
          | none =>
              let row ← onTable
                (service.auth.createUser request email)
              return (row, true)

------------------------------------------------------------
-- One Call
------------------------------------------------------------

/- The provider vouches for an address. -/
def Vouched (info : OAuthUserInfo) (email : String) : Prop :=
  info.email = some email ∧ email ≠ "" ∧
    info.emailVerified = true

/- The account may be linked by the address vouched for. -/
def MayLinkByEmail
    (request : OAuthRequest)
    (old : UserRow)
    (provider : String) : Prop :=
  provider = request.info.provider ∧
    ∃ email, Vouched request.info email ∧
      old.columns (service.auth.repo.col "email") =
        .text (service.auth.repo.canonicalEmail email)

/- What one `get_or_create_user` has done. -/
structure Resolves
    (providers : List String)
    (request : OAuthRequest)
    (before : Accounts)
    (result : Except SignUpError (UserRow × Bool))
    (after : Accounts) : Prop where
  refused : ∀ code,
    result = .error (.oauthAccount code) → after = before
  known : ∀ row ∈ before.table,
    row.columns
        (service.auth.repo.linkage request.info.provider) =
      .text request.info.providerUserId →
    after = before ∧
      result = if service.auth.isActive row then
        .ok (row, false)
      else
        .error (.oauthAccount "account_inactive")
  unvouched : (∀ email, ¬ Vouched request.info email) →
    after = before ∧ ∀ row, result ≠ .ok (row, true)
  links : service.auth.repo.OnlyLinks providers
    (service.MayLinkByEmail request) before.table after.table

variable {service}
variable {α : Type}
variable {providers : List String}
variable {request : OAuthRequest}
variable {before after last accounts : Accounts}

/- A program of the repository leaves the sessions alone. -/
theorem ends_onTable
    {program : TableFlow α}
    {goal : Except SignUpError α → Accounts → Prop}
    (hEnds : Ends service.auth.repo.table.exec program
      accounts.table fun result table =>
        goal result { accounts with table := table }) :
    Ends service.exec (onTable program) accounts goal := by
  induction program generalizing accounts with
  | done value => exact hEnds
  | raise error => exact hEnds
  | perform op next ih => exact ih _ hEnds

/- On the table, a program does what the other does. -/
def SameOnTable
    (service : OAuthAccountService)
    (program : AccountFlow α)
    (lower : TableFlow α) : Prop :=
  ∀ accounts : Accounts,
    (program.run service.exec accounts).1 =
        (lower.run service.auth.repo.table.exec
          accounts.table).1 ∧
      (program.run service.exec accounts).2.table =
        (lower.run service.auth.repo.table.exec
          accounts.table).2

/- A program lifted to accounts runs as before. -/
theorem same_onTable (lower : TableFlow α) :
    service.SameOnTable (onTable lower) lower := by
  intro accounts
  have hEnds : Ends service.auth.repo.table.exec lower
      accounts.table fun result table =>
        result = (lower.run service.auth.repo.table.exec
            accounts.table).1 ∧
          table = (lower.run service.auth.repo.table.exec
            accounts.table).2 :=
    ⟨rfl, rfl⟩
  exact @ends_onTable _ _ accounts lower
    (fun result after => result = _ ∧ after.table = _) hEnds

/- So it does in two parts. -/
theorem SameOnTable.bind
    {β : Type}
    {program : AccountFlow α}
    {lower : TableFlow α}
    {next : α → AccountFlow β}
    {lowerNext : α → TableFlow β}
    (hSame : service.SameOnTable program lower)
    (hNext : ∀ value,
      service.SameOnTable (next value) (lowerNext value)) :
    service.SameOnTable (program.bind next)
      (lower.bind lowerNext) := by
  intro accounts
  rcases hSame accounts with ⟨hResult, hTable⟩
  rw [run_bind, run_bind]
  cases hUpper : program.run service.exec accounts with
  | mk result after =>
      cases hLower : lower.run service.auth.repo.table.exec
          accounts.table with
      | mk result' table =>
          rw [hUpper, hLower] at hResult hTable
          dsimp only at hResult hTable
          rw [← hResult, ← hTable]
          cases result with
          | ok value => exact hNext value after
          | error error => exact ⟨rfl, rfl⟩

/- The sessions that a claim ends are not in the table. -/
theorem same_link
    (request : OAuthRequest)
    (user : UserRow) :
    service.SameOnTable (service.link request user)
      (service.auth.link request user) := by
  have hDone : ∀ lower : TableFlow UserRow,
      lower.bind (fun row => .done row) = lower := by
    intro lower
    induction lower with
    | done row => rfl
    | raise error => rfl
    | perform op next ih =>
        rw [perform_bind]
        congr 1
        funext ret
        exact ih ret
  rw [← hDone (service.auth.link request user)]
  apply SameOnTable.bind (same_onTable _)
  intro linked accounts
  split
  · exact ⟨rfl, rfl⟩
  · exact ⟨rfl, rfl⟩

/- On the table the service does what it does alone. -/
theorem same_getOrCreateUser (request : OAuthRequest) :
    service.SameOnTable (service.getOrCreateUser request)
      (service.auth.getOrCreateUser request) := by
  apply SameOnTable.bind (same_onTable _)
  intro known
  cases known with
  | some row =>
      apply SameOnTable.bind (same_onTable _)
      intro _ accounts
      exact ⟨rfl, rfl⟩
  | none =>
      apply SameOnTable.bind (same_onTable _)
      intro email
      apply SameOnTable.bind (same_onTable _)
      intro existing
      cases existing with
      | some row =>
          apply SameOnTable.bind (same_onTable _)
          intro _
          apply SameOnTable.bind (same_link request row)
          intro _ accounts
          exact ⟨rfl, rfl⟩
      | none =>
          cases service.auth.repo.exceedsLength "email"
              (.text (service.auth.repo.canonicalEmail
                email)) with
          | some limit =>
              intro accounts
              exact ⟨rfl, rfl⟩
          | none =>
              apply SameOnTable.bind (same_onTable _)
              intro _ accounts
              exact ⟨rfl, rfl⟩

end OAuthAccountService

------------------------------------------------------------
-- Events
------------------------------------------------------------

/-
  What happens to accounts, one after another.  A row is one
  that was loaded at some time, and `signIns` leaves any
  sessions behind.
-/
inductive AccountEvent where
  | oauth (request : OAuthRequest)
  | register (request : RegisterRequest)
  | setActive (row : UserRow) (active : Bool)
  | markVerified (row : UserRow)
  | signIns (sessions : List (Nat × Nat))

namespace OAuthAccountService

variable (service : OAuthAccountService)

/- The application turns an account on or off. -/
def setActive
    (row : UserRow)
    (active : Bool) : TableFlow UserRow :=
  service.auth.repo.update row
    [("is_active", .object active.toNat)]

/- `mark_recovery_verified` -/
def markVerified (row : UserRow) : TableFlow UserRow :=
  service.auth.repo.update row
    (service.auth.repo.recoveryVerifiedCol.map fun field =>
      (field, .object 1))

/- What an event leaves of the accounts. -/
def perform :
    AccountEvent → Accounts → Accounts
  | .oauth request, accounts =>
      ((service.getOrCreateUser request).run service.exec
        accounts).2
  | .register request, accounts =>
      ((onTable (service.auth.register request)).run
        service.exec accounts).2
  | .setActive row active, accounts =>
      ((onTable (service.setActive row active)).run
        service.exec accounts).2
  | .markVerified row, accounts =>
      ((onTable (service.markVerified row)).run
        service.exec accounts).2
  | .signIns sessions, accounts =>
      { accounts with sessions }

/-
  Profiles come from the registered providers, and the model
  has no default for an email.
-/
def Expects (providers : List String) : AccountEvent → Prop
  | .oauth request =>
      request.info.provider ∈ providers ∧
        request.fill (service.auth.repo.col "email") = .null
  | .register request =>
      request.fill (service.auth.repo.col "email") = .null
  | _ => True

/- What events lead to. -/
inductive Follows
    (providers : List String)
    (before : Accounts) : Accounts → Prop
  | refl : Follows providers before before
  | event
      {after : Accounts}
      (hFollows : Follows providers before after)
      (event : AccountEvent)
      (hExpects : service.Expects providers event) :
      Follows providers before (service.perform event after)

variable {service}
variable {providers : List String}
variable {before after accounts : Accounts}

end OAuthAccountService

------------------------------------------------------------
-- GitHub Profiles
------------------------------------------------------------

/- An entry of GitHub's `/user/emails`. -/
structure GithubEmail where
  email : Option String
  primary : Bool
  verified : Bool

/- `_select_github_email` -/
def selectGithubEmail (emails : List GithubEmail) :
    Option String × Bool :=
  match emails.find? fun entry =>
      entry.primary && entry.verified with
  | some entry => (entry.email, true)
  | none =>
      match emails.find? GithubEmail.verified with
      | some entry => (entry.email, true)
      | none =>
          match emails.find? GithubEmail.primary with
          | some entry => (entry.email, false)
          | none =>
              match emails with
              | [] => (none, false)
              | entry :: _ => (entry.email, entry.verified)

/- `process_user_info` of a payload that has an id. -/
def githubUserInfo
    (userId : String)
    (login name : Option String)
    (emails : List GithubEmail) : OAuthUserInfo where
  provider := "github"
  providerUserId := userId
  email := (selectGithubEmail emails).1
  emailVerified := (selectGithubEmail emails).2
  username := login
  givenName := none
  name := name

/- An address counts as verified for one GitHub verified. -/
theorem verified_of_selectGithubEmail
    {emails : List GithubEmail}
    (hVerified : (selectGithubEmail emails).2 = true) :
    ∃ entry ∈ emails, entry.verified = true ∧
      entry.email = (selectGithubEmail emails).1 := by
  unfold selectGithubEmail at hVerified ⊢
  split
  · next entry hFind =>
      have hMeets := List.find?_some hFind
      rw [Bool.and_eq_true] at hMeets
      exact ⟨entry, List.mem_of_find?_eq_some hFind,
        hMeets.2, rfl⟩
  · next hNone =>
      rw [hNone] at hVerified
      dsimp only at hVerified
      split
      · next entry hFind =>
          exact ⟨entry, List.mem_of_find?_eq_some hFind,
            List.find?_some hFind, rfl⟩
      · next hNone' =>
          rw [hNone'] at hVerified
          dsimp only at hVerified
          split at hVerified
          · cases hVerified
          · split at hVerified
            · cases hVerified
            · next entry rest _ =>
                exact absurd hVerified (List.find?_eq_none.mp
                  hNone' entry List.mem_cons_self)

namespace OAuthAccountService

variable {service : OAuthAccountService}
variable {providers : List String}
variable {before after : Accounts}

/- So no other GitHub profile links or creates. -/
theorem Resolves.github_unverified
    {request : OAuthRequest}
    {userId : String}
    {login name : Option String}
    {emails : List GithubEmail}
    {result : Except SignUpError (UserRow × Bool)}
    (hInfo : request.info =
      githubUserInfo userId login name emails)
    (hNone : ∀ entry ∈ emails, entry.verified = false)
    (hResolves : service.Resolves providers request before
      result after) :
    after = before := by
  refine (hResolves.unvouched ?_).1
  rintro email ⟨_, _, hVerified⟩
  rw [hInfo] at hVerified
  rcases verified_of_selectGithubEmail hVerified with
    ⟨entry, hEntry, hIs, _⟩
  rw [hNone entry hEntry] at hIs
  cases hIs

end OAuthAccountService

------------------------------------------------------------
-- A Claimed Account
------------------------------------------------------------

namespace GoogleAccounts

open OAuthAccountService

/- A model with one provider. -/
def service : OAuthAccountService where
  auth :=
    { repo :=
        { attributes :=
            ["id", "email", "username", "hashed_password",
              "is_active", "email_verified", "google_id"]
          uniqueColumns := ["email", "username", "google_id"]
          columnLength := fun _ => none
          columnMap := []
          registerExtraFields := []
          loginFields := ["email", "username"]
          recovery := some "email"
          canonicalEmail := id
          refuses := fun _ _ => false }
      newUserDefaults := []
      emailOn := false }
  hasSessionManager := true

/- Ada's Google profile, with her verified address. -/
def profile : OAuthRequest where
  info :=
    { provider := "google"
      providerUserId := "1"
      email := some "ada@example.com"
      emailVerified := true
      username := some "ada"
      givenName := none
      name := none }
  lower := id
  now := 0
  sentinel := "!"
  suffixes := ("a", "b")
  provided := []
  fill := fun _ => .null

/- Somebody else's registration with her address. -/
def registration : RegisterRequest where
  body := defaultBody "ada@example.com" "ada"
  passwordAccepted := true
  withinRate := true
  hashedPassword := "$2b$12$hash"
  provided := []
  fill := fun column =>
    if column = "is_active" then .object 1 else .null
  fails := false

/- A registration that its owner claims through Google. -/
def claimed : Accounts :=
  service.perform (.oauth profile)
    (service.perform (.signIns [(7, 1), (8, 2)])
      (service.perform (.register registration) ⟨[], []⟩))

/- The session from before the claim is gone. -/
example : claimed.sessions = [(8, 2)] := by decide

end GoogleAccounts

end Registration

end CrudAuth
