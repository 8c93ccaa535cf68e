import CrudAuth.Registration.Columns

/-
  What a sign-up can write: never a column crudauth owns,
  as long as no name it is given is the linkage column of a
  provider outside the logical contract.

  Main declarations:
    * `UserRepository.DistinctColumns`
    * `UserRepository.SignUpSafe`
    * `UserRepository.signUpSafe_iff`
-/

namespace CrudAuth

namespace Registration

namespace UserRepository

variable (repo : UserRepository)

------------------------------------------------------------
-- Owned Columns
------------------------------------------------------------

/- Every name the library or the map resolves. -/
def logicalNames (providers : List String) : List String :=
  logicalFields ++ repo.recoveryVerifiedCol ++
    repo.columnMap.keys ++ providers.map providerId

/- The map keeps logical fields on columns of their own. -/
def DistinctColumns (providers : List String) : Prop :=
  ∀ left ∈ repo.logicalNames providers,
    ∀ right ∈ repo.logicalNames providers,
      repo.col left = repo.col right → left = right

/- The names whose columns only crudauth writes. -/
def ownedNames (providers : List String) : List String :=
  registrationGatedFields ++ repo.recoveryVerifiedCol ++
    providers.map providerId

/- A column that holds a crudauth-owned value. -/
def Owned (providers : List String) (column : String) :
    Prop :=
  ∃ name ∈ repo.ownedNames providers, repo.col name = column

/-
  What survives the filters writes no owned column, and the
  identity crudauth computed is the one stored.
-/
structure SignUpSafe
    (providers : List String)
    (body provided : Data) : Prop where
  registered :
    ∀ key ∈ (repo.filterRegistrationData body).keys,
      repo.has key → ¬ repo.Owned providers (repo.col key)
  provisioned :
    ∀ key ∈ (repo.filterProvisioningData provided).keys,
      repo.has key → ¬ repo.Owned providers (repo.col key)
  kept : ∀ own defaults : Data,
    ∀ field ∈ ["email", "username", "hashed_password"],
      (repo.createKwargs
          (repo.createData own defaults provided)).get
            (repo.col field) =
        (repo.createKwargs own).get (repo.col field)

/-
  No name given is the linkage column of a provider whose
  linkage field is not a logical field.
-/
def SparesLinkage
    (providers : List String)
    (body provided : Data) : Prop :=
  ∀ provider ∈ providers,
    providerId provider ∉ logicalFields →
      (∀ key ∈ body.keys,
        key ∈ repo.allowedRegisterNames →
          key ∉ repo.gatedNames →
            repo.col key ≠
              repo.col (providerId provider)) ∧
      ∀ key ∈ provided.keys,
        key ∉ repo.contractNames →
          repo.col key ≠ repo.col (providerId provider)

variable {repo}
variable {providers : List String}
variable {body provided : Data}
variable {key field : String}

------------------------------------------------------------
-- Names and Columns
------------------------------------------------------------

/- A name the map does not know is its own column. -/
theorem col_of_not_mem
    (hKey : key ∉ repo.columnMap.keys) :
    repo.col key = key := by
  unfold col
  rw [Dict.get_of_not_mem hKey]
  rfl

/-
  A name outside a closed set of logical names resolves to
  none of their columns.
-/
theorem col_ne_of_outside
    (hDistinct : repo.DistinctColumns providers)
    (hField : field ∈ repo.logicalNames providers)
    (hName : key ≠ field)
    (hColumn : repo.col field ≠ key) :
    repo.col key ≠ repo.col field := by
  intro hSame
  by_cases hKey : key ∈ repo.columnMap.keys
  · have hLogical : key ∈ repo.logicalNames providers := by
      unfold logicalNames
      rw [List.mem_append, List.mem_append]
      exact .inl (.inr hKey)
    exact hName (hDistinct key hLogical field hField hSame)
  · rw [col_of_not_mem hKey] at hSame
    exact hColumn hSame.symm

/- A field is among its logical names. -/
theorem mem_logicalNames
    (hField : field ∈
      logicalFields ++ repo.recoveryVerifiedCol) :
    field ∈ repo.logicalNames providers := by
  unfold logicalNames
  rw [List.mem_append, List.mem_append]
  exact .inl (.inl hField)

/- Provisioning keeps clear of the whole contract. -/
theorem col_ne_of_contract
    (hDistinct : repo.DistinctColumns providers)
    (hKey : key ∉ repo.contractNames)
    (hField : field ∈
      logicalFields ++ repo.recoveryVerifiedCol) :
    repo.col key ≠ repo.col field := by
  rw [mem_contractNames, not_or] at hKey
  rcases hKey with ⟨hName, hColumn⟩
  apply col_ne_of_outside hDistinct
    (mem_logicalNames hField)
  · intro hSame
    rw [hSame] at hName
    exact hName hField
  · intro hSame
    exact hColumn ⟨field, hField, hSame⟩

/- Registration keeps clear of the gated fields. -/
theorem col_ne_of_gated
    (hDistinct : repo.DistinctColumns providers)
    (hKey : key ∉ repo.gatedNames)
    (hField : field ∈
      registrationGatedFields ++
        repo.recoveryVerifiedCol) :
    repo.col key ≠ repo.col field := by
  have hLogical : field ∈
      logicalFields ++ repo.recoveryVerifiedCol := by
    rcases List.mem_append.mp hField with hGated | hFlag
    · exact List.mem_append_left _
        (mem_registrationGatedFields.mp hGated).1
    · exact List.mem_append_right _ hFlag
  rw [mem_gatedNames, not_or] at hKey
  rcases hKey with ⟨hName, hColumn⟩
  apply col_ne_of_outside hDistinct
    (mem_logicalNames hLogical)
  · intro hSame
    rw [hSame] at hName
    exact hName hField
  · intro hSame
    exact hColumn ⟨field, hField, hSame⟩

/- A linkage field is never an identity field. -/
theorem providerId_ne
    {provider : String}
    (hLast : field.toList.getLast? ≠ some 'd') :
    providerId provider ≠ field := by
  intro hSame
  apply hLast
  rw [← hSame]
  unfold providerId
  rw [String.toList_append]
  simp

/- A provider column of the contract is gated. -/
theorem providerId_gated
    {provider : String}
    (hLogical : providerId provider ∈ logicalFields) :
    providerId provider ∈ registrationGatedFields :=
  mem_registrationGatedFields.mpr ⟨hLogical,
    providerId_ne (by decide), providerId_ne (by decide)⟩

/-
  A surviving name writes no owned column once it spares
  the linkage columns outside the contract.
-/
theorem not_owned
    (hGated : ∀ field ∈
      registrationGatedFields ++ repo.recoveryVerifiedCol,
        repo.col key ≠ repo.col field)
    (hLinkage : ∀ provider ∈ providers,
      providerId provider ∉ logicalFields →
        repo.col key ≠ repo.col (providerId provider)) :
    ¬ repo.Owned providers (repo.col key) := by
  intro hOwned
  rcases hOwned with ⟨name, hName, hColumn⟩
  unfold ownedNames at hName
  rcases List.mem_append.mp hName with hField | hProvider
  · exact hGated name hField hColumn.symm
  · rcases List.mem_map.mp hProvider with
      ⟨provider, hMem, rfl⟩
    by_cases hLogical : providerId provider ∈ logicalFields
    · exact hGated _
        (List.mem_append_left _ (providerId_gated hLogical))
        hColumn.symm
    · exact hLinkage provider hMem hLogical hColumn.symm

/- Two names of one column are both on the model. -/
theorem has_of_col_eq
    (hColumn : repo.col key = repo.col field)
    (hHas : repo.has field = true) :
    repo.has key = true := by
  unfold has at hHas ⊢
  rw [hColumn]
  exact hHas

/- Provider columns are owned. -/
theorem owned_providerId
    {provider : String}
    (hMem : provider ∈ providers) :
    repo.Owned providers
      (repo.col (providerId provider)) := by
  refine ⟨providerId provider, ?_, rfl⟩
  unfold ownedNames
  exact List.mem_append_right _ (List.mem_map_of_mem hMem)

------------------------------------------------------------
-- The Row
------------------------------------------------------------

/- Provisioned data leaves a contract column alone. -/
theorem get_createKwargs_createData
    (hDistinct : repo.DistinctColumns providers)
    (hField : field ∈ logicalFields)
    (own defaults provided : Data) :
    (repo.createKwargs
        (repo.createData own defaults provided)).get
          (repo.col field) =
      (repo.createKwargs own).get (repo.col field) := by
  have hSpares : ∀ data : Data,
      ∀ key ∈ (repo.filterProvisioningData data).keys,
        repo.has key → repo.col key ≠ repo.col field := by
    intro data key hMem _
    have hKey := (Dict.keys_restrict hMem).2
    exact col_ne_of_contract hDistinct
      (of_decide_eq_true hKey)
      (List.mem_append_left _ hField)
  unfold createData
  rw [get_createKwargs, get_createKwargs,
    get_columnsOf_update (hSpares provided),
    get_columnsOf_update (hSpares defaults)]

/-
  A sign-up is safe exactly when no name it is given is the
  linkage column of a provider outside the contract.
-/
theorem signUpSafe_iff
    (hDistinct : repo.DistinctColumns providers)
    (hColumns : ∀ provider ∈ providers,
      repo.has (providerId provider) = true) :
    repo.SignUpSafe providers body provided ↔
      repo.SparesLinkage providers body provided := by
  constructor
  · intro hSafe provider hMem hOutside
    constructor
    · intro key hKey hAllowed hGated hColumn
      have hSurvives :
          key ∈ (repo.filterRegistrationData body).keys :=
        Dict.mem_keys_restrict hKey
          (decide_eq_true ⟨hAllowed, hGated⟩)
      apply hSafe.registered key hSurvives
        (has_of_col_eq hColumn (hColumns provider hMem))
      rw [hColumn]
      exact owned_providerId hMem
    · intro key hKey hContract hColumn
      have hSurvives :
          key ∈
            (repo.filterProvisioningData provided).keys :=
        Dict.mem_keys_restrict hKey
          (decide_eq_true hContract)
      apply hSafe.provisioned key hSurvives
        (has_of_col_eq hColumn (hColumns provider hMem))
      rw [hColumn]
      exact owned_providerId hMem
  · intro hSpares
    constructor
    · intro key hSurvives _
      rcases Dict.keys_restrict hSurvives with
        ⟨hKey, hKeep⟩
      rcases of_decide_eq_true hKeep with
        ⟨hAllowed, hGated⟩
      apply not_owned
      · intro field hField
        exact col_ne_of_gated hDistinct hGated hField
      · intro provider hMem hOutside
        exact (hSpares provider hMem hOutside).1 key hKey
          hAllowed hGated
    · intro key hSurvives _
      rcases Dict.keys_restrict hSurvives with
        ⟨hKey, hKeep⟩
      have hContract := of_decide_eq_true hKeep
      apply not_owned
      · intro field hField
        apply col_ne_of_contract hDistinct hContract
        rcases List.mem_append.mp hField with
          hGated | hFlag
        · exact List.mem_append_left _
            (mem_registrationGatedFields.mp hGated).1
        · exact List.mem_append_right _ hFlag
      · intro provider hMem hOutside
        exact (hSpares provider hMem hOutside).2 key hKey
          hContract
    · intro own defaults field hField
      apply get_createKwargs_createData hDistinct
      revert field
      decide

------------------------------------------------------------
-- A Provider of the Application's Own
------------------------------------------------------------

/- A model with a linkage column for an OIDC provider. -/
def oktaRepository : UserRepository where
  attributes :=
    ["id", "email", "username", "hashed_password",
      "google_id", "okta_id", "name"]
  uniqueColumns := ["email", "username", "okta_id"]
  columnLength := fun _ => none
  columnMap := []
  registerExtraFields := []
  loginFields := ["email", "username"]
  recovery := some "email"
  canonicalEmail := id
  refuses := fun _ _ => false

/- A callback that fills the application's own column. -/
theorem signUpSafe_name :
    oktaRepository.SignUpSafe ["google", "okta"] []
        [("name", .text "Ada")] ↔
      oktaRepository.SparesLinkage ["google", "okta"] []
        [("name", .text "Ada")] :=
  signUpSafe_iff
    (by
      intro left _ right _ hSame
      exact hSame)
    (by decide)

/- A callback that returns the linkage column sets it. -/
theorem not_signUpSafe_okta :
    ¬ oktaRepository.SignUpSafe ["google", "okta"] []
        [("okta_id", .text "subject")] := by
  intro hSafe
  apply hSafe.provisioned "okta_id" (by decide) (by decide)
  exact ⟨"okta_id", by decide, rfl⟩

end UserRepository

end Registration

end CrudAuth
