import CrudAuth.Transports.Bearer
import Mathlib.Logic.Encodable.Basic
import Mathlib.Logic.Equiv.List

/-
  Where the tokens come from that the application accepts:
  each was minted for the use it is put to, and an access
  token, through any number of refreshes, is worth no more
  than the login it goes back to.

  The ledger notes every token that was minted, and what
  for.  Nobody else has the secret: a presented token that
  opens is in the ledger.

  Main declarations:
    * `Origin`
    * `System.step`
    * `Unforged`
    * `Genuine`
    * `genuine_of_run`
-/

namespace CrudAuth

namespace Bearer

open Registration

------------------------------------------------------------
-- Minted Tokens
------------------------------------------------------------

/- A login, as of the row it read and the scopes it asked. -/
structure Login where
  userId : UserId
  version : Nat
  asked : List String
  grantable : List String
deriving DecidableEq, Repr

/-
  What a token was minted for.  `grantable` is what was
  grantable when an access token was minted.
-/
inductive Origin where
  | access
      (login : Login)
      (grantable : List String)
      (expiresAt : Nat)
  | refresh (login : Login) (expiresAt : Nat)
  | signed (userId : UserId) (purpose : String)
  | unknown
deriving DecidableEq, Repr

/- Every token that was minted, with its origin. -/
abbrev Ledger := List (String × Origin)

/- The login of a refresh token. -/
def loginOf (ledger : Ledger) (token : String) :
    Option Login :=
  match ledger with
  | [] => none
  | (text, .refresh login _) :: rest =>
      if text = token then some login else loginOf rest token
  | _ :: rest => loginOf rest token

/- What `_mint_token` of the email service signs. -/
structure SignedToken where
  purpose : String
  expiresHours : Nat
  newEmail : Option String
  redirectTo : Option String
  state : String
deriving DecidableEq, Repr

/- The claims of an email token beside the common ones. -/
def SignedToken.extraClaims (signed : SignedToken) :
    Claims :=
  (signed.newEmail.toList.map fun email =>
    ("new_email", Claim.text email)) ++
  (signed.redirectTo.toList.map fun target =>
    ("redirect_to", Claim.text target)) ++
  [("state", .text signed.state)]

------------------------------------------------------------
-- Runs
------------------------------------------------------------

/-
  The clock, the accounts, the transport, and the ledger.
-/
structure System where
  now : Nat
  users : UserId → Option Account
  transport : BearerTransport
  ledger : Ledger

/-
  The users table and the configuration may change in any
  way.  A login hands in the row it has read.
-/
inductive Happening where
  | pass (seconds : Nat)
  | setUsers (users : UserId → Option Account)
  | configure (transport : BearerTransport)
  | issue
      (userId : UserId)
      (account : Account)
      (requested : List String)
      (response : Bool)
  | sign (userId : UserId) (signed : SignedToken)
  | refresh (request : HttpRequest)

namespace System

variable (app : Application)
variable (system : System)

/- The token is in the ledger, if it opens at all. -/
def Knows (token : String) : Prop :=
  (app.codec.opens token).isSome →
    ∃ origin, (token, origin) ∈ system.ledger

/- When an access token minted now expires. -/
def accessExpiry : Nat :=
  system.now + lifetime (some system.transport.accessTtl)
    defaultAccessTtlSeconds

/- When a refresh token minted now expires. -/
def refreshExpiry : Nat :=
  system.now +
    lifetime (some (system.transport.refreshTtlDays * 86400))
      defaultRefreshTtlSeconds

/- The login that a call of `issue_tokens` stands for. -/
def login
    (userId : UserId)
    (account : Account)
    (requested : List String) : Login where
  userId
  version := account.tokenVersion
  asked := system.transport.askedScopes requested
  grantable := system.transport.grantableScopes

/- Both tokens of a pair go into the ledger. -/
def noteIssued
    (userId : UserId)
    (account : Account)
    (requested : List String)
    (body : TokenBody) : Ledger :=
  let login := system.login userId account requested
  let refresh (token : String) : String × Origin :=
    (token, .refresh login system.refreshExpiry)
  (body.accessToken,
      .access login system.transport.grantableScopes
        system.accessExpiry) ::
    (body.refreshToken.toList.map refresh ++
      (body.refreshCookie.toList.map refresh ++
        system.ledger))

/- An access token goes back to its refresh token's login. -/
def noteRefreshed
    (request : HttpRequest)
    (access : String) : Ledger :=
  match (system.transport.readRefresh request).bind
      (loginOf system.ledger) with
  | some login =>
      (access,
        .access login system.transport.grantableScopes
          system.accessExpiry) :: system.ledger
  | none => (access, .unknown) :: system.ledger

/- One happening, and what it mints. -/
def step : Happening → System
  | .pass seconds =>
      { system with now := system.now + seconds }
  | .setUsers users => { system with users }
  | .configure transport => { system with transport }
  | .issue userId account requested response =>
      let body := system.transport.issueTokens app userId
        account requested response system.now
      { system with
        ledger :=
          system.noteIssued userId account requested body }
  | .sign userId signed =>
      let token := app.codec.sign
        (signedClaims (toString userId) signed.purpose
          system.now signed.expiresHours signed.extraClaims)
      { system with
        ledger :=
          (token, .signed userId signed.purpose) ::
            system.ledger }
  | .refresh request =>
      match system.transport.refreshToken app system.users
          request system.now with
      | .error _ => system
      | .ok access =>
          { system with
            ledger := system.noteRefreshed request access }

end System

/- The happenings of a run, in order. -/
def run
    (app : Application)
    (system : System)
    (happenings : List Happening) : System :=
  happenings.foldl (fun system => system.step app) system

/- No refresh is asked for with a token made elsewhere. -/
def Unforged
    (app : Application)
    (system : System) : List Happening → Prop
  | [] => True
  | happening :: rest =>
      (∀ request token,
        happening = .refresh request →
        system.transport.readRefresh request = some token →
          system.Knows app token) ∧
        Unforged app (system.step app happening) rest

------------------------------------------------------------
-- The Property
------------------------------------------------------------

/-
  The account has the version of the login, and is active.
-/
def StillOf (system : System) (login : Login) : Prop :=
  ∃ account,
    system.users login.userId = some account ∧
    account.isActive = true ∧
    account.tokenVersion = login.version

/-
  What is accepted was minted for just that, is not expired,
  and authenticates the user of a login whose epoch is still
  that of the account.  The scopes of a principal are those
  the login asked for, grantable then, and grantable when
  the access token was minted.
-/
structure Genuine
    (app : Application)
    (system : System) : Prop where
  access : ∀ request token principal,
    bearerToken request.authorization = some token →
    system.Knows app token →
    authenticate app system.users request system.now =
      .ok (some principal) →
    ∃ login grantable expiresAt,
      (token, .access login grantable expiresAt) ∈
          system.ledger ∧
      system.now < expiresAt ∧
      principal.userId = login.userId ∧
      StillOf system login ∧
      ∀ scope ∈ principal.scopes,
        scope ∈ login.asked ∧ scope ∈ login.grantable ∧
          scope ∈ grantable
  refresh : ∀ request token access,
    system.transport.readRefresh request = some token →
    system.Knows app token →
    system.transport.refreshToken app system.users request
      system.now = .ok access →
    ∃ login expiresAt,
      (token, .refresh login expiresAt) ∈ system.ledger ∧
      system.now < expiresAt ∧
      StillOf system login
  signed : ∀ token purpose sub,
    system.Knows app token →
    app.codec.verifySignedToken token purpose system.now =
      some sub →
    ∃ userId,
      (token, .signed userId purpose) ∈ system.ledger ∧
        sub = toString userId
  traced : ∀ token, (token, .unknown) ∉ system.ledger

------------------------------------------------------------
-- What The Ledger Says
------------------------------------------------------------

/- The claims of a token of a login. -/
structure OfLogin
    (payload : Claims)
    (type : TokenType)
    (login : Login)
    (expiresAt : Nat)
    (within : String → Prop) : Prop where
  tokenType :
    Dict.get payload "token_type" = some (.text type.value)
  purpose : Dict.get payload "purpose" = none
  sub :
    Dict.get payload "sub" =
      some (.text (toString login.userId))
  ver :
    Dict.get payload "ver" = some (.number login.version)
  exp : Dict.get payload "exp" = some (.number expiresAt)
  scopes : ∀ scope ∈ scopesOf payload,
    scope ∈ login.asked ∧ scope ∈ login.grantable ∧
      within scope

/- The claims that a token of some origin opens to. -/
def Origin.Says (payload : Claims) : Origin → Prop
  | .access login grantable expiresAt =>
      OfLogin payload .access login expiresAt
        (· ∈ grantable)
  | .refresh login expiresAt =>
      OfLogin payload .refresh login expiresAt
        fun _ => True
  | .signed userId purpose =>
      Dict.get payload "token_type" = none ∧
      Dict.get payload "purpose" = some (.text purpose) ∧
      Dict.get payload "sub" =
        some (.text (toString userId))
  | .unknown => False

/- Every token of the ledger opens to what it is noted as. -/
def Kept (app : Application) (ledger : Ledger) : Prop :=
  ∀ entry ∈ ledger, ∃ payload,
    app.codec.opens entry.1 = some payload ∧
      entry.2.Says payload

section Minting

variable {app : Application}
variable {system : System}
variable {transport : BearerTransport}
variable {userId : UserId}
variable {account : Account}
variable {scopes requested : List String}
variable {login : Login}
variable {grantable : List String}
variable {now : Nat}
variable {within : String → Prop}

/- A scope is granted if asked for and allowed. -/
theorem mem_clampScopes
    {scope : String}
    (hScope : scope ∈ transport.clampScopes scopes) :
    scope ∈ scopes ∧ scope ∈ transport.grantableScopes := by
  obtain ⟨hMem, hGrantable⟩ := List.mem_filter.mp hScope
  exact ⟨hMem, List.contains_iff_mem.mp hGrantable⟩

/- An access token carries its login. -/
theorem accessClaims_ofLogin
    {expiresDelta : Option Nat}
    (hUser : userId = login.userId)
    (hVersion : account.tokenVersion = login.version)
    (hScopes : ∀ scope ∈ scopes,
      scope ∈ login.asked ∧ scope ∈ login.grantable ∧
        within scope) :
    OfLogin
      (accessClaims
        (BearerTransport.identityClaims userId account) now
        expiresDelta (some scopes))
      .access login
      (now + lifetime expiresDelta defaultAccessTtlSeconds)
      within := by
  subst hUser
  constructor
  · rw [get_accessClaims]
    rfl
  · rw [get_accessClaims]
    rfl
  · rw [get_accessClaims]
    rfl
  · rw [get_accessClaims, ← hVersion]
    rfl
  · rw [get_accessClaims]
    rfl
  · unfold scopesOf
    rw [get_accessClaims]
    exact hScopes

theorem refreshClaims_ofLogin
    {expiresDelta : Option Nat}
    (hUser : userId = login.userId)
    (hVersion : account.tokenVersion = login.version)
    (hScopes : ∀ scope ∈ scopes,
      scope ∈ login.asked ∧ scope ∈ login.grantable ∧
        within scope) :
    OfLogin
      (refreshClaims
        (BearerTransport.identityClaims userId account ++
          [("scopes", .list scopes)])
        now expiresDelta)
      .refresh login
      (now + lifetime expiresDelta defaultRefreshTtlSeconds)
      within := by
  subst hUser
  constructor
  · rw [get_refreshClaims]
    rfl
  · rw [get_refreshClaims]
    rfl
  · rw [get_refreshClaims]
    rfl
  · rw [get_refreshClaims, ← hVersion]
    rfl
  · rw [get_refreshClaims]
    rfl
  · unfold scopesOf
    rw [get_refreshClaims]
    exact hScopes

/- A signed token's own claims are not overwritten. -/
theorem not_mem_extraClaims
    {signed : SignedToken}
    {key : String}
    (hEmail : key ≠ "new_email")
    (hRedirect : key ≠ "redirect_to")
    (hState : key ≠ "state") :
    key ∉ Dict.keys signed.extraClaims := by
  intro hKey
  obtain ⟨item, hItem, rfl⟩ := List.mem_map.mp hKey
  rcases List.mem_append.mp hItem with hFirst | hLast
  · rcases List.mem_append.mp hFirst with hMem | hMem
    · obtain ⟨email, -, rfl⟩ := List.mem_map.mp hMem
      exact hEmail rfl
    · obtain ⟨target, -, rfl⟩ := List.mem_map.mp hMem
      exact hRedirect rfl
  · obtain rfl := List.mem_singleton.mp hLast
    exact hState rfl

/- What a login mints is noted as it is. -/
theorem Kept.issue
    {response : Bool}
    (hKept : Kept app system.ledger) :
    Kept app (system.step app
      (.issue userId account requested
        response)).ledger := by
  let login := system.login userId account requested
  let granted := system.transport.grantScopes requested
  have hGranted : ∀ scope ∈ granted,
      scope ∈ login.asked ∧ scope ∈ login.grantable ∧
        scope ∈ system.transport.grantableScopes := by
    intro scope hScope
    obtain ⟨hAsked, hGrantable⟩ := mem_clampScopes hScope
    exact ⟨hAsked, hGrantable, hGrantable⟩
  let access := system.transport.accessToken app userId
    account granted system.now
  let refresh := system.transport.pairedRefresh app userId
    account granted system.now
  have hAccess : ∃ payload,
      app.codec.opens access = some payload ∧
        (Origin.access login system.transport.grantableScopes
          system.accessExpiry).Says payload :=
    ⟨_, app.codec.opens_sign _,
      accessClaims_ofLogin rfl rfl hGranted⟩
  have hRefresh : ∃ payload,
      app.codec.opens refresh = some payload ∧
        (Origin.refresh login system.refreshExpiry).Says
          payload :=
    ⟨_, app.codec.opens_sign _,
      refreshClaims_ofLogin rfl rfl fun scope hScope =>
        ⟨(hGranted scope hScope).1,
          (hGranted scope hScope).2.1, trivial⟩⟩
  have hLedger :
      (system.step app
        (.issue userId account requested response)).ledger =
      (access,
        .access login system.transport.grantableScopes
          system.accessExpiry) ::
        (refresh, .refresh login system.refreshExpiry) ::
          system.ledger := by
    unfold System.step System.noteIssued
      BearerTransport.issueTokens
    dsimp only
    split <;> rfl
  rw [hLedger]
  intro entry hEntry
  rcases List.mem_cons.mp hEntry with rfl | hEntry
  · exact hAccess
  · rcases List.mem_cons.mp hEntry with rfl | hEntry
    · exact hRefresh
    · exact hKept entry hEntry

/- Another signed token breaks nothing. -/
theorem Kept.sign
    {signed : SignedToken}
    (hKept : Kept app system.ledger) :
    Kept app
      (system.step app (.sign userId signed)).ledger := by
  intro entry hEntry
  rcases List.mem_cons.mp hEntry with rfl | hEntry
  · refine ⟨_, app.codec.opens_sign _, ?_, ?_, ?_⟩
    · rw [get_signedClaims (not_mem_extraClaims (by decide)
        (by decide) (by decide))]
      rfl
    · rw [get_signedClaims (not_mem_extraClaims (by decide)
        (by decide) (by decide))]
      rfl
    · rw [get_signedClaims (not_mem_extraClaims (by decide)
        (by decide) (by decide))]
      rfl
  · exact hKept entry hEntry

/- A token that is known opens to what it is noted as. -/
theorem Kept.origin
    {token : String}
    {payload : Claims}
    (hKept : Kept app system.ledger)
    (hKnows : system.Knows app token)
    (hOpens : app.codec.opens token = some payload) :
    ∃ origin, (token, origin) ∈ system.ledger ∧
      origin.Says payload := by
  obtain ⟨origin, hEntry⟩ :=
    hKnows (Option.isSome_of_eq_some hOpens)
  obtain ⟨said, hSaid, hSays⟩ := hKept _ hEntry
  obtain rfl := Option.some.inj (hOpens.symm.trans hSaid)
  exact ⟨origin, hEntry, hSays⟩

/- One that opens as a refresh token is one. -/
theorem Kept.refreshOrigin
    {token : String}
    {payload : Claims}
    (hKept : Kept app system.ledger)
    (hKnows : system.Knows app token)
    (hOpens : app.codec.opens token = some payload)
    (hType : Dict.get payload "token_type" =
      some (.text TokenType.refresh.value)) :
    ∃ login expiresAt,
      (token, .refresh login expiresAt) ∈ system.ledger ∧
      OfLogin payload .refresh login expiresAt
        fun _ => True := by
  obtain ⟨origin, hEntry, hSays⟩ :=
    hKept.origin hKnows hOpens
  cases origin with
  | refresh login expiresAt =>
      exact ⟨login, expiresAt, hEntry, hSays⟩
  | access login grantable expiresAt =>
      have hTypes := hType.symm.trans hSays.tokenType
      exact absurd hTypes (by decide)
  | signed userId purpose =>
      cases hType.symm.trans hSays.1
  | unknown => exact hSays.elim

/- So is one that opens as an access token. -/
theorem Kept.accessOrigin
    {token : String}
    {payload : Claims}
    (hKept : Kept app system.ledger)
    (hKnows : system.Knows app token)
    (hOpens : app.codec.opens token = some payload)
    (hType : Dict.get payload "token_type" =
      some (.text TokenType.access.value)) :
    ∃ login grantable expiresAt,
      (token, .access login grantable expiresAt) ∈
          system.ledger ∧
      OfLogin payload .access login expiresAt
        (· ∈ grantable) := by
  obtain ⟨origin, hEntry, hSays⟩ :=
    hKept.origin hKnows hOpens
  cases origin with
  | access login grantable expiresAt =>
      exact ⟨login, grantable, expiresAt, hEntry, hSays⟩
  | refresh login expiresAt =>
      have hTypes := hType.symm.trans hSays.tokenType
      exact absurd hTypes (by decide)
  | signed userId purpose =>
      cases hType.symm.trans hSays.1
  | unknown => exact hSays.elim

/- A login found is one in the ledger. -/
omit app in
theorem mem_of_loginOf
    {ledger : Ledger}
    {token : String}
    (hLogin : loginOf ledger token = some login) :
    ∃ expiresAt,
      (token, .refresh login expiresAt) ∈ ledger := by
  induction ledger with
  | nil => cases hLogin
  | cons entry rest ih =>
      have hRest
          (hThere : loginOf rest token = some login) :
          ∃ expiresAt,
            (token, .refresh login expiresAt) ∈
              entry :: rest := by
        obtain ⟨expiresAt, hMem⟩ := ih hThere
        exact ⟨expiresAt, List.mem_cons_of_mem _ hMem⟩
      rcases entry with ⟨text, origin⟩
      cases origin with
      | refresh other expiresAt =>
          unfold loginOf at hLogin
          split at hLogin
          · rename_i hText
            cases hLogin
            subst hText
            exact ⟨expiresAt, List.mem_cons_self⟩
          · exact hRest hLogin
      | access _ _ _ => exact hRest hLogin
      | signed _ _ => exact hRest hLogin
      | unknown => exact hRest hLogin

omit app in
theorem loginOf_isSome
    {ledger : Ledger}
    {token : String}
    {expiresAt : Nat}
    (hMem : (token, .refresh login expiresAt) ∈ ledger) :
    ∃ found, loginOf ledger token = some found := by
  induction ledger with
  | nil => cases hMem
  | cons entry rest ih =>
      rcases entry with ⟨text, origin⟩
      rcases List.mem_cons.mp hMem with hFirst | hRest
      · cases hFirst
        unfold loginOf
        rw [if_pos rfl]
        exact ⟨login, rfl⟩
      · have hFound := ih hRest
        cases origin with
        | refresh other expiresAt =>
            unfold loginOf
            split
            · exact ⟨other, rfl⟩
            · exact hFound
        | access _ _ _ => exact hFound
        | signed _ _ => exact hFound
        | unknown => exact hFound

/- What an accepted refresh has verified, and minted. -/
theorem refreshed
    {request : HttpRequest}
    {access : String}
    (hAccess :
      transport.refreshToken app system.users request
      now = .ok access) :
    ∃ token payload userId account,
      transport.readRefresh request = some token ∧
      app.codec.verifyToken token .refresh now =
        some payload ∧
      tokenUser app system.users payload =
        some (userId, account) ∧
      access = transport.accessToken app userId account
        (transport.clampScopes (scopesOf payload)) now := by
  unfold BearerTransport.refreshToken at hAccess
  split at hAccess
  · cases hAccess
  · rename_i token hRead
    split at hAccess
    · cases hAccess
    · split at hAccess
      · cases hAccess
      · rename_i payload hVerify
        split at hAccess
        · cases hAccess
        · rename_i userId account hUser
          cases hAccess
          exact ⟨token, payload, userId, account, hRead,
            hVerify, hUser, rfl⟩

/- A refresh mints for the login of its refresh token. -/
theorem Kept.refresh
    {request : HttpRequest}
    (hKept : Kept app system.ledger)
    (hKnows : ∀ token,
      system.transport.readRefresh request = some token →
        system.Knows app token) :
    Kept app
      (system.step app (.refresh request)).ledger := by
  unfold System.step
  dsimp only
  split
  · exact hKept
  · rename_i access hAccess
    obtain ⟨token, payload, userId, account, hRead, hVerify,
      hUser, rfl⟩ := refreshed hAccess
    obtain ⟨hOpens, hType, -⟩ :=
      Codec.opens_of_verifyToken hVerify
    obtain ⟨first, expiry, hFirst, -⟩ :=
      hKept.refreshOrigin (hKnows token hRead) hOpens hType
    obtain ⟨login, hLogin⟩ := loginOf_isSome hFirst
    obtain ⟨expiresAt, hEntry⟩ := mem_of_loginOf hLogin
    obtain ⟨said, hSaid, hSays⟩ := hKept _ hEntry
    obtain rfl := Option.some.inj (hOpens.symm.trans hSaid)
    obtain ⟨rfl, -, -, hVersion⟩ :=
      tokenUser_eq hSays.sub hSays.ver hUser
    have hNoted :
        (system.transport.readRefresh request).bind
          (loginOf system.ledger) = some login := by
      rw [hRead]
      exact hLogin
    unfold System.noteRefreshed
    rw [hNoted]
    intro entry hNew
    rcases List.mem_cons.mp hNew with rfl | hOld
    · refine ⟨_, app.codec.opens_sign _, ?_⟩
      apply accessClaims_ofLogin rfl hVersion
      intro scope hScope
      obtain ⟨hMem, hGrantable⟩ := mem_clampScopes hScope
      obtain ⟨hAsked, hWas, -⟩ := hSays.scopes scope hMem
      exact ⟨hAsked, hWas, hGrantable⟩
    · exact hKept entry hOld

/- Whatever happens, the ledger stays true. -/
theorem Kept.step
    {happening : Happening}
    (hKept : Kept app system.ledger)
    (hKnows : ∀ request token,
      happening = .refresh request →
      system.transport.readRefresh request = some token →
        system.Knows app token) :
    Kept app (system.step app happening).ledger := by
  cases happening with
  | pass seconds => exact hKept
  | setUsers users => exact hKept
  | configure transport => exact hKept
  | issue userId account requested response =>
      exact hKept.issue
  | sign userId signed => exact hKept.sign
  | refresh request =>
      exact hKept.refresh fun token =>
        hKnows request token rfl

/- Every run keeps the ledger. -/
theorem Kept.run
    {happenings : List Happening}
    (hKept : Kept app system.ledger)
    (hUnforged : Unforged app system happenings) :
    Kept app (run app system happenings).ledger := by
  induction happenings generalizing system with
  | nil => exact hKept
  | cons happening rest ih =>
      exact ih (hKept.step hUnforged.1) hUnforged.2

/- Where the ledger is true, what is accepted is genuine. -/
theorem genuine_of_kept
    (hKept : Kept app system.ledger) :
    Genuine app system := by
  constructor
  · intro request token principal hToken hKnows hPrincipal
    unfold authenticate at hPrincipal
    rw [hToken] at hPrincipal
    dsimp only at hPrincipal
    split at hPrincipal
    · split at hPrincipal <;> cases hPrincipal
    · rename_i payload hVerify
      split at hPrincipal
      · cases hPrincipal
      · rename_i userId account hUser
        cases hPrincipal
        obtain ⟨hOpens, hType, hFresh⟩ :=
          Codec.opens_of_verifyToken hVerify
        obtain ⟨login, grantable, expiresAt, hEntry,
          hSays⟩ :=
          hKept.accessOrigin hKnows hOpens hType
        obtain ⟨hSame, hStored, hActive, hVersion⟩ :=
          tokenUser_eq hSays.sub hSays.ver hUser
        exact ⟨login, grantable, expiresAt, hEntry,
          hFresh expiresAt hSays.exp, hSame,
          ⟨account, hStored, hActive, hVersion⟩,
          hSays.scopes⟩
  · intro request token access hRead hKnows hAccess
    obtain ⟨presented, payload, userId, account, hPresented,
      hVerify, hUser, -⟩ := refreshed hAccess
    obtain rfl :=
      Option.some.inj (hRead.symm.trans hPresented)
    obtain ⟨hOpens, hType, hFresh⟩ :=
      Codec.opens_of_verifyToken hVerify
    obtain ⟨login, expiresAt, hEntry, hSays⟩ :=
      hKept.refreshOrigin hKnows hOpens hType
    obtain ⟨-, hStored, hActive, hVersion⟩ :=
      tokenUser_eq hSays.sub hSays.ver hUser
    exact ⟨login, expiresAt, hEntry,
      hFresh expiresAt hSays.exp,
      ⟨account, hStored, hActive, hVersion⟩⟩
  · intro token purpose sub hKnows hSub
    unfold Codec.verifySignedToken at hSub
    split at hSub
    · cases hSub
    · rename_i payload hVerify
      obtain ⟨hOpens, hPurpose, -⟩ :=
        Codec.opens_of_verifySigned hVerify
      obtain ⟨origin, hEntry, hSays⟩ :=
        hKept.origin hKnows hOpens
      cases origin with
      | access login grantable expiresAt =>
          cases hPurpose.symm.trans hSays.purpose
      | refresh login expiresAt =>
          cases hPurpose.symm.trans hSays.purpose
      | unknown => exact hSays.elim
      | signed userId minted =>
          obtain ⟨-, hMinted, hSame⟩ := hSays
          rw [hSame] at hSub
          cases hSub
          cases hPurpose.symm.trans hMinted
          exact ⟨userId, hEntry, rfl⟩
  · intro token hUnknown
    obtain ⟨payload, -, hSays⟩ := hKept _ hUnknown
    exact hSays

end Minting

/-
  However logins, refreshes, email flows and changes of the
  accounts and of the configuration follow each other, what
  is accepted is genuine.
-/
theorem genuine_of_run
    (app : Application)
    (now : Nat)
    (users : UserId → Option Account)
    (transport : BearerTransport)
    (happenings : List Happening)
    (hUnforged :
      Unforged app ⟨now, users, transport, []⟩ happenings) :
    Genuine app
      (run app ⟨now, users, transport, []⟩ happenings) :=
  genuine_of_kept (Kept.run nofun hUnforged)

------------------------------------------------------------
-- A Refreshed Login
------------------------------------------------------------

namespace Refreshed

/- Claims as numbers, and tokens as their decimals. -/
instance encodableChar : Encodable Char :=
  Encodable.ofLeftInverse Char.toNat Char.ofNat
    Char.ofNat_toNat

instance encodableString : Encodable String :=
  Encodable.ofLeftInverse String.toList String.ofList
    fun _ => String.ofList_toList

/- A claim as a sum that can be enumerated. -/
def shape : Claim → String ⊕ Nat ⊕ List String
  | .text value => .inl value
  | .number value => .inr (.inl value)
  | .list items => .inr (.inr items)

/- The claim of such a sum. -/
def ofShape : String ⊕ Nat ⊕ List String → Claim
  | .inl value => .text value
  | .inr (.inl value) => .number value
  | .inr (.inr items) => .list items

instance encodableClaim : Encodable Claim :=
  Encodable.ofLeftInverse shape ofShape fun claim => by
    cases claim <;> rfl

/- A decimal is read back as its number. -/
def number (text : String) : Option Nat :=
  let value := Nat.ofDigitChars 10 text.toList 0
  if Nat.repr value = text then some value else none

/- A number is read back as written. -/
theorem number_repr (value : Nat) :
    number (Nat.repr value) = some value := by
  have hValue :
      Nat.ofDigitChars 10 (Nat.repr value).toList 0 =
        value := by
    rw [Nat.toList_repr]
    exact Nat.ofDigitChars_toDigits (by decide) (by decide)
  unfold number
  dsimp only
  rw [hValue, if_pos rfl]

/- Signing by numbering the claims. -/
def decimals : Codec where
  sign claims := Nat.repr (Encodable.encode claims)
  opens token := (number token).bind Encodable.decode
  opens_sign claims := by
    rw [number_repr, Option.bind_some, Encodable.encodek]

/- An application that signs so. -/
def app : Application where
  codec := decimals
  coerceId := number
  coerce_toString := number_repr

/- An active account, in its third epoch. -/
def reader : Account :=
  { isActive := true
    tokenVersion := 2 }

/- A transport whose refresh tokens come in the body. -/
def wide : BearerTransport where
  accessTtl := 900
  refreshTtlDays := 30
  refresh := .body
  defaultScopes := ["read", "write"]
  grantableScopes := ["read", "write"]
  defaults_grantable := fun _ hScope => hScope

/- The same transport, with fewer scopes to grant. -/
def narrow : BearerTransport where
  accessTtl := 900
  refreshTtlDays := 30
  refresh := .body
  defaultScopes := ["read"]
  grantableScopes := ["read"]
  defaults_grantable := fun _ hScope => hScope

/- One account, number 7. -/
def users (userId : UserId) : Option Account :=
  if userId = 7 then some reader else none

/- A refresh with a token of the reader. -/
def request : HttpRequest where
  authorization := none
  refreshCookie := none
  refreshBody := some
    (wide.pairedRefresh app 7 reader ["read", "write"] 100)

/- The scope that is gone is not refreshed. -/
theorem refreshed_genuine :
    Genuine app
      (run app ⟨100, users, wide, []⟩
        [.issue 7 reader [] true, .configure narrow,
          .pass 1000, .refresh request]) := by
  apply genuine_of_run app 100 users wide
  refine ⟨nofun, nofun, nofun, ?_, trivial⟩
  intro asked token hAsked hRead _
  cases hAsked
  have hToken :
      wide.pairedRefresh app 7 reader ["read", "write"] 100 =
        token := Option.some.inj hRead
  subst hToken
  exact ⟨_, List.mem_cons_of_mem _ List.mem_cons_self⟩

end Refreshed

end Bearer

end CrudAuth
