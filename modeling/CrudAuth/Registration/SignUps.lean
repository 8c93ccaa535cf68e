import CrudAuth.Registration.Addresses
import CrudAuth.Registration.OAuthAccounts

/-
  Sign-ups running against one users table, each statement
  a step of its own, and where login identifiers lead.

  Main declarations:
    * `SignUp`
    * `SignUp.program`
    * `SignUp.obeys`
    * `AuthSurface.reachesOwn_of_sparing`
-/

namespace CrudAuth

namespace Registration

open Concurrency
open Concurrency.Program

------------------------------------------------------------
-- Requests
------------------------------------------------------------

/- A `/register` request, or an OAuth callback. -/
inductive SignUp where
  | register (request : RegisterRequest)
  | oauth (request : OAuthRequest)

/- What a sign-up answers. -/
inductive SignUpAnswer where
  | registered (response : RegisterResponse)
  | signedIn (row : UserRow) (created : Bool)

/- A sign-up, as the statements it makes. -/
def SignUp.program
    (auth : AuthSurface) :
    SignUp → TableFlow SignUpAnswer
  | .register request =>
      (auth.register request).bind fun response =>
        .done (.registered response)
  | .oauth request =>
      (auth.getOrCreateUser request).bind fun result =>
        .done (.signedIn result.1 result.2)

/- The users table starts empty. -/
def AuthSurface.opening
    {ι : Type}
    (auth : AuthSurface)
    (requests : ι → SignUp) :
    Config ι tableOps UsersTable SignUpError
      SignUpAnswer where
  state := []
  history := []
  pool thread := (requests thread).program auth

namespace UserRepository

variable (repo : UserRepository)

/- Programs insert canonical emails only. -/
def inserts : Contract tableOps where
  rule _ op := repo.CanonicalInsert op
  answer _ _ := True

/- Nothing is owed at the end. -/
def whatever {α : Type} :
    List (Action tableOps) →
      Except SignUpError α → Prop :=
  fun _ _ => True

variable {repo}
variable {α β : Type}
variable {past : List (Action tableOps)}
variable {program : TableFlow α}
variable {next : α → TableFlow β}
variable {data : Data}

/- A part of a sign-up, and then the rest. -/
theorem obeys_bind
    (hProgram :
      program.Obeys repo.inserts past whatever)
    (hNext : ∀ past value,
      (next value).Obeys repo.inserts past whatever) :
    (program.bind next).Obeys repo.inserts past
      whatever := by
  apply hProgram.bind
  · intro past' value _ _
    exact hNext past' value
  · intro past' error _ _
    trivial

/- Reading one row inserts nothing. -/
theorem oneOrNone_obeys
    (rows : List UserRow) :
    (oneOrNone rows).Obeys repo.inserts past
      whatever := by
  unfold oneOrNone
  split
  · trivial
  · trivial
  · trivial

theorem selectOne_obeys
    (column : String)
    (value : Value) :
    (selectOne column value).Obeys repo.inserts past
      whatever := by
  constructor
  · trivial
  · intro rows _
    exact oneOrNone_obeys rows

theorem getByField_obeys
    (logical : String)
    (value : Value) :
    (repo.getByField logical value).Obeys repo.inserts past
      whatever :=
  selectOne_obeys _ _

theorem updateRow_obeys
    (row : UserRow)
    (columns : Data) :
    (updateRow row columns).Obeys repo.inserts past
      whatever := by
  constructor
  · trivial
  · intro stored _
    cases stored with
    | none => trivial
    | some row => trivial

theorem incrementTokenVersion_obeys
    (row : UserRow) :
    (repo.incrementTokenVersion row).Obeys repo.inserts past
      whatever := by
  unfold incrementTokenVersion
  split
  · split
    · exact updateRow_obeys _ _
    · trivial
  · trivial

/- An entry of the data reaches its column. -/
theorem get_columnsOf_ne_none
    {key : String}
    (hKey : key ∈ data.keys)
    (hHas : repo.has key = true) :
    (repo.columnsOf data).get (repo.col key) ≠ none := by
  rw [get_columnsOf]
  intro hNone
  rw [Option.map_eq_none_iff, List.getLast?_eq_none_iff]
    at hNone
  have hIn :
      key ∈ Dict.keys (Dict.restrict
        (fun name => decide
          (repo.has name = true ∧
            repo.col name = repo.col key)) data) :=
    Dict.mem_keys_restrict hKey
      (decide_eq_true ⟨hHas, rfl⟩)
  rw [hNone] at hIn
  cases hIn

/- An insert of an email stores it canonically. -/
theorem canonicalInsert_of_email
    (hIdempotent : ∀ text,
      repo.canonicalEmail (repo.canonicalEmail text) =
        repo.canonicalEmail text)
    (hHas : "email" ∈ repo.loginFields →
      repo.has "email" = true)
    (hKey : "email" ∈ repo.loginFields →
      "email" ∈ data.keys)
    (fill : String → Value) :
    repo.CanonicalInsert
      (.insert (repo.createKwargs data) fill) := by
  intro hEmail
  rw [get_createKwargs]
  have hSome := get_columnsOf_ne_none (hKey hEmail)
    (hHas hEmail)
  rcases Option.ne_none_iff_exists'.mp hSome with
    ⟨value, hValue⟩
  rw [hValue]
  refine ⟨repo.canonicalValue value, ?_, ?_⟩
  · simp
  · cases value with
    | null => rfl
    | object code => rfl
    | text string =>
        unfold canonicalValue
        dsimp only
        rw [hIdempotent]

end UserRepository

/-
  A configuration the constructor accepts: every login field
  is a unique column, and a unique column is an attribute of
  the model.  Canonicalizing an email twice changes nothing.
-/
structure AuthSurface.Accepted (auth : AuthSurface) :
    Prop where
  loginUnique : ∀ field ∈ auth.repo.loginFields,
    auth.repo.col field ∈ auth.repo.uniqueColumns
  uniqueAttributes : ∀ column ∈ auth.repo.uniqueColumns,
    column ∈ auth.repo.attributes
  canonicalTwice : ∀ text,
    auth.repo.canonicalEmail
        (auth.repo.canonicalEmail text) =
      auth.repo.canonicalEmail text

namespace AuthSurface

open UserRepository

variable {auth : AuthSurface}
variable {past : List (Action tableOps)}

/- A surface that logs in by address has it. -/
theorem Accepted.hasEmail
    (hAccepted : auth.Accepted)
    (hEmail : "email" ∈ auth.repo.loginFields) :
    auth.repo.has "email" = true :=
  decide_eq_true (hAccepted.uniqueAttributes _
    (hAccepted.loginUnique _ hEmail))

/- An insert carries its canonical address. -/
theorem create_obeys
    (hAccepted : auth.Accepted)
    {data : Data}
    {fill : String → Value}
    (hKey : "email" ∈ auth.repo.loginFields →
      "email" ∈ data.keys) :
    (auth.repo.create? data fill).Obeys auth.repo.inserts
      past whatever := by
  constructor
  · exact canonicalInsert_of_email hAccepted.canonicalTwice
      hAccepted.hasEmail hKey fill
  · intro stored _
    trivial

/- The caller's own keys are written. -/
theorem mem_createData
    {own defaults provided : Data}
    {key : String}
    (hKey : key ∈ own.keys) :
    key ∈
      (auth.repo.createData own defaults provided).keys :=
  Dict.mem_keys_update (Dict.mem_keys_update hKey)

------------------------------------------------------------
-- Registration
------------------------------------------------------------

/- What is popped has the fields popped. -/
theorem keys_popFields
    {fields : List String}
    {data loginValues left : Data}
    (hPop :
      popFields fields data = some (loginValues, left)) :
    loginValues.keys = fields := by
  induction fields generalizing data loginValues left with
  | nil =>
      unfold popFields at hPop
      rw [← (Prod.mk.inj (Option.some.inj hPop)).1]
      rfl
  | cons field rest ih =>
      unfold popFields at hPop
      cases hGet : data.get field with
      | none =>
          rw [hGet] at hPop
          cases hPop
      | some value =>
          rw [hGet] at hPop
          dsimp only at hPop
          rw [Option.map_eq_some_iff] at hPop
          rcases hPop with ⟨popped, hRest, hPair⟩
          have hKeys := ih hRest
          rw [← (Prod.mk.inj hPair).1]
          unfold Dict.keys at hKeys ⊢
          rw [List.map_cons, hKeys]

/- Answering on an existing account inserts nothing. -/
theorem onExistingAmong_obeys
    (values : Data) :
    (auth.onExistingAmong values).Obeys auth.repo.inserts
      past whatever := by
  induction values generalizing past with
  | nil => trivial
  | cons item rest ih =>
      apply obeys_bind (getByField_obeys _ _)
      intro past found
      cases found with
      | none => exact ih
      | some row =>
          dsimp only
          split
          · split
            · trivial
            · trivial
          · split
            · trivial
            · trivial

theorem anyTaken_obeys
    (values : Data) :
    (auth.anyTaken values).Obeys auth.repo.inserts past
      whatever := by
  induction values generalizing past with
  | nil => trivial
  | cons item rest ih =>
      apply obeys_bind (getByField_obeys _ _)
      intro past found
      cases found with
      | none => exact ih
      | some row => trivial

/- The insert of a registration. -/
theorem insertUser_obeys
    (hAccepted : auth.Accepted)
    {request : RegisterRequest}
    {loginValues data : Data}
    (hKeys : loginValues.keys = auth.repo.loginFields) :
    (auth.insertUser request loginValues data).Obeys
      auth.repo.inserts past whatever := by
  apply obeys_bind
  · apply create_obeys hAccepted
    intro hEmail
    apply mem_createData
    apply Dict.mem_keys_update
    apply Dict.mem_keys_update
    rw [hKeys]
    exact hEmail
  · intro past stored
    cases stored with
    | none => exact onExistingAmong_obeys _
    | some row =>
        dsimp only
        split
        · trivial
        · trivial

/- An enrollment, the duplicate included. -/
theorem enroll_obeys
    (hAccepted : auth.Accepted)
    {request : RegisterRequest}
    {loginValues data : Data}
    (hKeys : loginValues.keys = auth.repo.loginFields) :
    (auth.enroll request loginValues data).Obeys
      auth.repo.inserts past whatever := by
  unfold enroll
  split
  · trivial
  · exact insertUser_obeys hAccepted hKeys

/- A registration. -/
theorem register_obeys
    (hAccepted : auth.Accepted)
    (request : RegisterRequest) :
    (auth.register request).Obeys auth.repo.inserts past
      whatever := by
  unfold register
  split
  · trivial
  · split
    · trivial
    · rename_i loginValues data hPop
      unfold registerValues
      dsimp only
      split
      · trivial
      · split
        · trivial
        · apply obeys_bind (anyTaken_obeys _)
          intro past taken
          cases taken with
          | true => exact onExistingAmong_obeys _
          | false =>
              exact enroll_obeys hAccepted
                (keys_popFields hPop)

------------------------------------------------------------
-- OAuth Accounts
------------------------------------------------------------

/- Names are only read. -/
theorem uniqueUsernameAmong_obeys
    (base suffix : String)
    (numbers : List Nat) :
    (auth.uniqueUsernameAmong base suffix numbers).Obeys
      auth.repo.inserts past whatever := by
  induction numbers generalizing past with
  | nil => trivial
  | cons number rest ih =>
      apply obeys_bind
      · apply obeys_bind (getByField_obeys _ _)
        intro past found
        trivial
      · intro past taken
        cases taken with
        | true => exact ih
        | false => trivial

theorem uniqueUsername_obeys
    (base suffix : String) :
    (auth.uniqueUsername base suffix).Obeys
      auth.repo.inserts past whatever := by
  apply obeys_bind
  · apply obeys_bind (getByField_obeys _ _)
    intro past found
    trivial
  · intro past taken
    cases taken with
    | true => exact uniqueUsernameAmong_obeys _ _ _
    | false => trivial

/- An account made by a provider. -/
theorem createUser_obeys
    (hAccepted : auth.Accepted)
    (request : OAuthRequest)
    (email : String) :
    (auth.createUser request email).Obeys
      auth.repo.inserts past whatever := by
  apply obeys_bind (uniqueUsername_obeys _ _)
  intro past username
  have hKey : "email" ∈ Dict.keys
      (auth.repo.createData
        (auth.createUserData request email username)
        auth.newUserDefaults request.provided) := by
    apply mem_createData
    unfold createUserData Dict.keys
    simp
  apply obeys_bind (create_obeys hAccepted fun _ => hKey)
  intro past stored
  cases stored with
  | some row => trivial
  | none =>
      apply obeys_bind
      · apply create_obeys hAccepted
        intro _
        exact Dict.mem_keys_set (.inr hKey)
      · intro past again
        cases again with
        | some row => trivial
        | none => trivial

/- Refusing an account inserts nothing. -/
theorem refuseInactive_obeys
    (row : UserRow) :
    (auth.refuseInactive row).Obeys auth.repo.inserts past
      whatever := by
  unfold refuseInactive
  split
  · trivial
  · trivial

theorem link_obeys
    (request : OAuthRequest)
    (row : UserRow) :
    (auth.link request row).Obeys auth.repo.inserts past
      whatever := by
  unfold link
  split
  · trivial
  · apply obeys_bind (updateRow_obeys _ _)
    intro past row
    split
    · exact incrementTokenVersion_obeys _
    · trivial

theorem verifiedEmail_obeys
    (info : OAuthUserInfo) :
    (verifiedEmail info).Obeys auth.repo.inserts past
      whatever := by
  unfold verifiedEmail
  split
  · trivial
  · split
    · trivial
    · split
      · trivial
      · trivial

/- A sign-in through a provider. -/
theorem getOrCreateUser_obeys
    (hAccepted : auth.Accepted)
    (request : OAuthRequest) :
    (auth.getOrCreateUser request).Obeys auth.repo.inserts
      past whatever := by
  unfold getOrCreateUser
  apply obeys_bind
  · unfold getByOauth
    split
    · exact selectOne_obeys _ _
    · trivial
  · intro past found
    cases found with
    | some row =>
        apply obeys_bind (refuseInactive_obeys row)
        intro past _
        trivial
    | none =>
        apply obeys_bind (verifiedEmail_obeys _)
        intro past email
        apply obeys_bind (getByField_obeys _ _)
        intro past existing
        cases existing with
        | some row =>
            apply obeys_bind (refuseInactive_obeys row)
            intro past _
            apply obeys_bind (link_obeys request row)
            intro past _
            trivial
        | none =>
            dsimp only
            split
            · trivial
            · apply obeys_bind
                (createUser_obeys hAccepted request email)
              intro past _
              trivial

------------------------------------------------------------
-- Runs
------------------------------------------------------------

/- Every sign-up there is. -/
theorem program_obeys
    (hAccepted : auth.Accepted)
    (signUp : SignUp) :
    (signUp.program auth).Obeys auth.repo.inserts past
      whatever := by
  cases signUp with
  | register request =>
      apply obeys_bind (register_obeys hAccepted request)
      intro past _
      trivial
  | oauth request =>
      apply obeys_bind
        (getOrCreateUser_obeys hAccepted request)
      intro past _
      trivial

variable {ι : Type} [DecidableEq ι]
variable {requests : ι → SignUp}
variable {config :
  Config ι tableOps UsersTable SignUpError SignUpAnswer}

/- Every write keeps its row apart from the others. -/
def sparing (repo : UserRepository) :
    Condition ι tableOps UsersTable :=
  fun table _ _ op => repo.SparesOthers table op

/- The table stays addressed through every such run. -/
theorem addressed_of_sparing
    (hAccepted : auth.Accepted)
    (hReaches : Reaches auth.repo.table
      (sparing auth.repo) (auth.opening requests) config) :
    auth.repo.Addressed config.state := by
  have hObeys : ∀ thread,
      ((auth.opening requests).pool thread).Obeys
        auth.repo.inserts [] whatever :=
    fun thread => program_obeys hAccepted (requests thread)
  have hTrace :
      Trace auth.repo.table (fun _ => auth.repo.inserts)
        (sparing auth.repo) [] [] config.state
        config.history :=
    hReaches.trace hObeys (fun _ _ _ => trivial)
  apply hTrace.invariant
    (fun table _ => auth.repo.Addressed table)
  · constructor
    · exact List.nodup_nil
    · intro column _ row hRow
      cases hRow
    · intro _ row hRow
      cases hRow
    · intro row hRow
      cases hRow
  · intro table history thread op _ hRule hSpares hTable
    exact hTable.exec hRule hSpares
  · intro table history tick
    exact tick.elim

/-
  In every state of every run whose writes keep their row
  apart, each login value resolves to the row that holds it.
-/
theorem reachesOwn_of_sparing
    (hAccepted : auth.Accepted)
    (hReaches : Reaches auth.repo.table
      (sparing auth.repo) (auth.opening requests) config) :
    auth.repo.ReachesOwn config.state :=
  (addressed_of_sparing hAccepted hReaches).reachesOwn
    hAccepted.loginUnique

instance
    (repo : UserRepository)
    (table : UsersTable)
    (history : List (Event ι tableOps))
    (thread : ι)
    (op : tableOps.Op) :
    Decidable
      (@sparing ι repo table history thread op) :=
  decidableSparesOthers repo table op

------------------------------------------------------------
-- A Username Like an Email
------------------------------------------------------------

/- The default identity, on a model with both columns. -/
def plainAuth : AuthSurface where
  repo :=
    { attributes :=
        ["id", "email", "username", "hashed_password"]
      uniqueColumns := ["email", "username"]
      columnLength := fun _ => none
      columnMap := []
      registerExtraFields := []
      loginFields := ["email", "username"]
      recovery := some "email"
      canonicalEmail := id
      refuses := fun _ _ => false }
  newUserDefaults := []
  emailOn := false

/- A registration over the form. -/
def registering (email username : String) : SignUp :=
  .register
    { body := defaultBody email username
      passwordAccepted := true
      withinRate := true
      hashedPassword := "$2b$12$hash"
      provided := []
      fill := fun _ => .null
      fails := false }

/- The sample surface is accepted. -/
theorem accepted_plainAuth : plainAuth.Accepted where
  loginUnique := by decide
  uniqueAttributes := by decide
  canonicalTwice := fun _ => rfl

/- Alice, and somebody whose username is her email. -/
def honest : Bool → SignUp
  | false => registering "alice@example.com" "alice"
  | true => registering "bob@example.com" "bob"

/- Bob takes Alice's email for his username. -/
def posing : Bool → SignUp
  | false => registering "alice@example.com" "alice"
  | true => registering "bob@example.com" "alice@example.com"

/- Both requests, one after the other. -/
def inTurn :
    List (Choice Bool plainAuth.repo.table.Tick) :=
  List.replicate 3 (.thread false) ++
    List.replicate 3 (.thread true)

theorem honest_ends :
    (Config.run plainAuth.repo.table
      (sparing plainAuth.repo)
      (plainAuth.opening honest) inTurn).isSome = true := by
  decide

theorem posing_ends :
    (Config.run plainAuth.repo.table anyStep
      (plainAuth.opening posing) inTurn).isSome = true := by
  decide

/- The honest run reaches every account. -/
theorem reachesOwn_honest :
    plainAuth.repo.ReachesOwn
      ((Config.run plainAuth.repo.table
        (sparing plainAuth.repo)
        (plainAuth.opening honest) inTurn).get
          honest_ends).state :=
  reachesOwn_of_sparing accepted_plainAuth
    (Reaches.of_run (Option.some_get honest_ends).symm)

/- The id that a resolved identifier leads to. -/
def resolvedId
    (result :
      Except SignUpError (Option UserRow) × UsersTable) :
    Option Nat :=
  match result.1 with
  | .ok found => found.map UserRow.id
  | .error _ => none

/- The second account's username leads to the first one. -/
theorem not_reachesOwn_posing :
    ¬ ∀ config,
      Reaches plainAuth.repo.table anyStep
          (plainAuth.opening posing) config →
        plainAuth.repo.ReachesOwn config.state := by
  intro hAlways
  have hOwn := hAlways _
    (Reaches.of_run (Option.some_get posing_ends).symm)
  have hSecond := hOwn _
    (List.mem_of_getElem? (i := 1) rfl) "username"
    (by decide) (by decide)
  exact absurd (congrArg resolvedId hSecond) (by decide)

end AuthSurface

end Registration

end CrudAuth
