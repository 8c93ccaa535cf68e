import CrudAuth.Hashing.Scenario

/-
  The bcrypt evaluations of a refused login.

  Main declarations:
    * `Library.Readable`
    * `Library.refusal_evaluations`
    * `Library.sameCost_iff`
-/

namespace CrudAuth

namespace Hashing

------------------------------------------------------------
-- Counted Work
------------------------------------------------------------

namespace Work

variable {α β : Type}

/- Evaluations add up. -/
theorem bind_ok
    {value : α}
    {count : Nat}
    {next : α → Work β} :
    (⟨.ok value, count⟩ : Work α) >>= next =
      ⟨(next value).outcome,
        count + (next value).evaluations⟩ := rfl

/- An exception ends the work. -/
theorem outcome_bind_error
    {first : Work α}
    {next : α → Work β}
    {error : PyError}
    (hFirst : first.outcome = .error error) :
    (first >>= next).outcome = .error error := by
  show (Work.bind first next).outcome = _
  unfold Work.bind
  rw [hFirst]

end Work

namespace Library

variable {lib : Library}
variable {IsHash : Bytes → Prop}
variable {password target : Str}
variable {hashedPassword : Option Str}

/-
  A stored value a legacy verifier can spend an evaluation
  on: a bcrypt hash, or nothing, which the dummy replaces.
-/
def Readable
    (IsHash : Bytes → Prop)
    (hashedPassword : Option Str) : Prop :=
  hashedPassword.getD [] = [] ∨
    StoredHash IsHash (hashedPassword.getD [])

/- A password the plain bcrypt verifier never hashes. -/
def Unhashed (password : Str) : Prop :=
  looksLikePreHash password ∨ password.encode = none

------------------------------------------------------------
-- One Verifier
------------------------------------------------------------

/- The verifier refuses at once. -/
theorem verifyPlainBcrypt_idle
    (hContract : lib.Contract IsHash)
    (hIdle : Unhashed password ∨
      ¬ StoredHash IsHash target) :
    lib.verifyPlainBcrypt password target =
      ⟨.ok false, 0⟩ := by
  unfold verifyPlainBcrypt
  by_cases hGuard : looksLikePreHash password = true
  · rw [if_pos hGuard]
    rfl
  · rw [if_neg hGuard]
    cases hPassword : password.encode with
    | none =>
        rw [encode_error hPassword, Work.free_error_bind,
          Work.except_free (by decide)]
        rfl
    | some typed =>
        have hTarget : ¬ StoredHash IsHash target := by
          rcases hIdle with hUnhashed | hTarget
          · rcases hUnhashed with hShape | hNone
            · exact absurd hShape hGuard
            · rw [hPassword] at hNone
              cases hNone
          · exact hTarget
        rw [encode_eq hPassword, Work.free_ok_bind]
        cases hStored : target.encode with
        | none =>
            rw [encode_error hStored, Work.free_error_bind,
              Work.except_free (by decide)]
            rfl
        | some stored =>
            have hRefuses := hContract.refuses
              (typed.take bcryptInputBytes) stored
              (fun hIs => hTarget ⟨stored, hStored, hIs⟩)
            rw [encode_eq hStored, Work.free_ok_bind,
              countedCheckpw_error hRefuses,
              Work.except_free (by decide)]
            rfl

/- Otherwise it pays one evaluation. -/
theorem verifyPlainBcrypt_works
    (hContract : lib.Contract IsHash)
    (hHashed : ¬ Unhashed password)
    (hTarget : StoredHash IsHash target) :
    ∃ verdict, lib.verifyPlainBcrypt password target =
      ⟨.ok verdict, 1⟩ := by
  unfold Unhashed at hHashed
  rw [not_or] at hHashed
  rcases hHashed with ⟨hGuard, hEncode⟩
  rcases Option.ne_none_iff_exists'.mp hEncode with
    ⟨typed, hTyped⟩
  rcases hTarget with ⟨stored, hStored, hHash⟩
  have hFits : (typed.take bcryptInputBytes).length ≤
      bcryptInputBytes := by
    rw [List.length_take]
    omega
  rcases hContract.answers _ stored hFits hHash with
    ⟨verdict, hAnswer⟩
  refine ⟨verdict, ?_⟩
  unfold verifyPlainBcrypt
  rw [if_neg hGuard, encode_eq hTyped, encode_eq hStored,
    Work.free_ok_bind, Work.free_ok_bind,
    countedCheckpw_ok hAnswer]
  exact Work.except_ok rfl

------------------------------------------------------------
-- All Verifiers
------------------------------------------------------------

/- Every verifier of the list runs and pays. -/
theorem runVerifiers_replicate
    {verify : LegacyVerifier}
    {verdict : Bool}
    {cost : Nat}
    (hVerify :
      verify password target = ⟨.ok verdict, cost⟩)
    (count : Nat)
    (matched : Bool) :
    ∃ answer,
      runVerifiers password target
          (List.replicate count verify) matched =
        ⟨.ok answer, count * cost⟩ := by
  induction count generalizing matched with
  | zero =>
      refine ⟨matched, ?_⟩
      rw [Nat.zero_mul]
      rfl
  | succ count ih =>
      rcases ih (verdict || matched) with ⟨answer, hRest⟩
      refine ⟨answer, ?_⟩
      rw [List.replicate_succ]
      unfold runVerifiers
      rw [hVerify, Work.except_ok rfl, Work.bind_ok, hRest]
      congr 1
      show cost + count * cost = (count + 1) * cost
      rw [Nat.add_mul, Nat.one_mul]
      omega

/- What the legacy verifiers cost, whatever they answer. -/
theorem verifyLegacyPassword_run
    (hContract : lib.Contract IsHash)
    (count : Nat)
    (password : Str)
    (hashedPassword : Option Str) :
    ∃ answer cost,
      (cost = 0 ∨ cost = 1) ∧
        (cost = 1 ↔ ¬ Unhashed password ∧
          Readable IsHash hashedPassword) ∧
        lib.verifyLegacyPassword
            (List.replicate count lib.verifyPlainBcrypt)
            password hashedPassword =
          ⟨.ok (answer && hashedPassword.isSome),
            count * cost⟩ := by
  -- Missing and empty are one target: the dummy hash.
  have hTarget : ∃ target,
      (StoredHash IsHash target ↔
        Readable IsHash hashedPassword) ∧
      lib.verifyLegacyPassword
          (List.replicate count lib.verifyPlainBcrypt)
          password hashedPassword =
        (runVerifiers password target
          (List.replicate count lib.verifyPlainBcrypt)
          false >>= fun matched =>
            pure (matched && hashedPassword.isSome)) := by
    have hDummy := hContract.storedHash_dummy
    cases hashedPassword with
    | none =>
        exact ⟨lib.dummyHash,
          ⟨fun _ => .inl rfl, fun _ => hDummy⟩, rfl⟩
    | some text =>
        cases text with
        | nil =>
            exact ⟨lib.dummyHash,
              ⟨fun _ => .inl rfl, fun _ => hDummy⟩, rfl⟩
        | cons point rest =>
            refine ⟨point :: rest, ⟨fun hHash => .inr hHash,
              fun hReadable => ?_⟩, rfl⟩
            rcases hReadable with hEmpty | hHash
            · cases hEmpty
            · exact hHash
  rcases hTarget with ⟨target, hIff, hLegacy⟩
  rw [hLegacy]
  by_cases hWorks :
      ¬ Unhashed password ∧ StoredHash IsHash target
  · rcases verifyPlainBcrypt_works hContract hWorks.1
      hWorks.2 with ⟨verdict, hVerify⟩
    rcases runVerifiers_replicate hVerify count false with
      ⟨answer, hRun⟩
    refine ⟨answer, 1, .inr rfl, ?_, ?_⟩
    · rw [← hIff]
      exact iff_of_true rfl hWorks
    · rw [hRun]
      rfl
  · have hIdle : Unhashed password ∨
        ¬ StoredHash IsHash target := by
      rw [not_and_or, not_not] at hWorks
      exact hWorks
    have hVerify := verifyPlainBcrypt_idle hContract hIdle
    rcases runVerifiers_replicate hVerify count false with
      ⟨answer, hRun⟩
    refine ⟨answer, 0, .inl rfl, ?_, ?_⟩
    · rw [← hIff]
      exact iff_of_false (by decide) hWorks
    · rw [hRun]
      rfl

------------------------------------------------------------
-- A Refused Login
------------------------------------------------------------

variable {salt : lib.Salt}
variable {db : Database}
variable {identifier : Str}

/- No account means no stored hash, and no form matches. -/
theorem matchingForm_of_missing
    (hContract : lib.Contract IsHash)
    (password : Str) :
    (lib.matchingForm password none).outcome =
      .ok none := by
  have hAbsent :
      ¬ StoredHash IsHash ((none : Option Str).getD []) := by
    intro hStored
    rcases hStored with ⟨bytes, hEncode, hHash⟩
    have hDollar := hContract.hash_dollar bytes hHash
    rw [← Option.some.inj hEncode] at hDollar
    cases hDollar
  rw [matchingForm_outcome hContract,
    passes_absent hContract hAbsent,
    passes_absent hContract hAbsent]
  simp

/- No form of the password matches. -/
theorem verifyAndUpdatePassword_of_none
    (hForm :
      (lib.matchingForm password hashedPassword).outcome =
        .ok none) :
    lib.verifyAndUpdatePassword salt password
        hashedPassword =
      ⟨.ok (false, none),
        (lib.matchingForm password
          hashedPassword).evaluations⟩ := by
  unfold verifyAndUpdatePassword
  show Work.bind _ _ = _
  unfold Work.bind
  rw [hForm]
  rfl

/- A form matches, and the hash may be renewed. -/
theorem verifyAndUpdatePassword_of_some
    (salt : lib.Salt)
    {form : Str}
    (hForm :
      (lib.matchingForm password hashedPassword).outcome =
        .ok (some form)) :
    (∃ newHash,
      (lib.verifyAndUpdatePassword salt password
        hashedPassword).outcome = .ok (true, newHash)) ∨
      ∃ error,
        (lib.verifyAndUpdatePassword salt password
          hashedPassword).outcome = .error error := by
  unfold verifyAndUpdatePassword
  rw [Work.outcome_bind_ok hForm]
  dsimp only
  by_cases hNormal : form = lib.normalizePassword password
  · rw [if_pos hNormal]
    exact .inl ⟨none, rfl⟩
  · rw [if_neg hNormal]
    cases hNew :
        (lib.getPasswordHash salt password).outcome with
    | error error =>
        right
        exact ⟨error, Work.outcome_bind_error hNew⟩
    | ok newHash =>
        left
        refine ⟨some newHash, ?_⟩
        rw [Work.outcome_bind_ok hNew]
        rfl

/- A verified password is never turned away. -/
theorem loginOutcome_of_verified
    (account : Account)
    (newHash : Option Str) :
    loginOutcome (some account) true newHash ≠
      .invalidCredentials := by
  unfold loginOutcome
  by_cases hActive : account.isActive
  · simp [hActive]
  · simp [hActive]

/- A verified password skips the old formats. -/
theorem checkLegacy_of_verified
    {verifiers : List LegacyVerifier}
    {newHash : Option Str} :
    lib.checkLegacy verifiers salt password hashedPassword
        (true, newHash) =
      pure (true, newHash) := by
  unfold checkLegacy
  simp

/- Verifiers that refuse leave the login refused. -/
theorem checkLegacy_of_refused
    {verifiers : List LegacyVerifier}
    {cost : Nat}
    (hSome : verifiers.isEmpty = false)
    (hLegacy :
      lib.verifyLegacyPassword verifiers password
        hashedPassword = ⟨.ok false, cost⟩) :
    lib.checkLegacy verifiers salt password hashedPassword
        (false, none) =
      ⟨.ok (false, none), cost⟩ := by
  unfold checkLegacy
  rw [hSome, if_pos (by rfl), hLegacy, Work.bind_ok]
  rfl

/- A verifier that accepts is no refusal. -/
theorem checkLegacy_of_accepted
    {verifiers : List LegacyVerifier}
    {cost : Nat}
    {verdict : Bool × Option Str}
    (hSome : verifiers.isEmpty = false)
    (hLegacy :
      lib.verifyLegacyPassword verifiers password
        hashedPassword = ⟨.ok true, cost⟩)
    (hVerdict :
      (lib.checkLegacy verifiers salt password
        hashedPassword (false, none)).outcome =
          .ok verdict) :
    verdict.1 = true := by
  unfold checkLegacy at hVerdict
  rw [hSome, if_pos (by rfl), hLegacy, Work.bind_ok]
    at hVerdict
  dsimp only at hVerdict
  rw [if_pos rfl] at hVerdict
  cases hNew :
      (lib.getPasswordHash salt password).outcome with
  | error error =>
      rw [Work.outcome_bind_error hNew] at hVerdict
      cases hVerdict
  | ok newHash =>
      rw [Work.outcome_bind_ok hNew] at hVerdict
      rw [← Except.ok.inj hVerdict]

/- Every step of a login that ends answered. -/
theorem authenticatePassword_steps
    {verifiers : List LegacyVerifier}
    {outcome : LoginOutcome}
    (hOutcome :
      (lib.authenticatePassword verifiers salt db identifier
        password).outcome = .ok outcome) :
    ∃ checked verdict,
      (lib.verifyAndUpdatePassword salt password
          (storedFor db identifier)).outcome =
        .ok checked ∧
      (lib.checkLegacy verifiers salt password
          (storedFor db identifier) checked).outcome =
        .ok verdict ∧
      outcome = loginOutcome (db identifier) verdict.1
        verdict.2 ∧
      (lib.authenticatePassword verifiers salt db identifier
          password).evaluations =
        (lib.verifyAndUpdatePassword salt password
            (storedFor db identifier)).evaluations +
          (lib.checkLegacy verifiers salt password
            (storedFor db identifier)
            checked).evaluations := by
  unfold authenticatePassword at hOutcome ⊢
  cases hFirst :
      (lib.verifyAndUpdatePassword salt password
        (storedFor db identifier)).outcome with
  | error error =>
      rw [Work.outcome_bind_error hFirst] at hOutcome
      cases hOutcome
  | ok checked =>
      rw [Work.outcome_bind_ok hFirst] at hOutcome
      cases hSecond :
          (lib.checkLegacy verifiers salt password
            (storedFor db identifier) checked).outcome with
      | error error =>
          rw [Work.outcome_bind_error hSecond] at hOutcome
          cases hOutcome
      | ok verdict =>
          rw [Work.outcome_bind_ok hSecond] at hOutcome
          refine ⟨checked, verdict, rfl, hSecond,
            (Except.ok.inj hOutcome).symm, ?_⟩
          rw [Work.evaluations_bind_ok hFirst,
            Work.evaluations_bind_ok hSecond]
          rfl

/- A matching form is never refused for the password. -/
theorem matchingForm_of_refused
    (hContract : lib.Contract IsHash)
    {verifiers : List LegacyVerifier}
    (hRefused :
      (lib.authenticatePassword verifiers salt db identifier
        password).outcome = .ok .invalidCredentials) :
    (lib.matchingForm password
        (storedFor db identifier)).outcome = .ok none := by
  cases hUser : db identifier with
  | none =>
      unfold storedFor
      rw [hUser]
      exact matchingForm_of_missing hContract password
  | some account =>
      have hForm :
          (lib.matchingForm password
            (storedFor db identifier)).outcome = _ :=
        matchingForm_outcome hContract
      cases hOption :
          (lib.matchingForm password
            (storedFor db identifier)).outcome with
      | error error =>
          rw [hForm] at hOption
          cases hOption
      | ok form =>
          cases form with
          | none => rfl
          | some form =>
              rcases authenticatePassword_steps hRefused
                with ⟨checked, verdict, hChecked, hVerdict,
                  hOutcome, -⟩
              rcases verifyAndUpdatePassword_of_some salt
                hOption with
                ⟨newHash, hVerified⟩ | ⟨error, hError⟩
              · rw [hVerified] at hChecked
                rw [← Except.ok.inj hChecked,
                  checkLegacy_of_verified] at hVerdict
                rw [← Except.ok.inj hVerdict, hUser]
                  at hOutcome
                exact absurd hOutcome.symm
                  (loginOutcome_of_verified account newHash)
              · rw [hError] at hChecked
                cases hChecked

/-
  A refused login pays for each form of the password and,
  for each verifier, what that one pays.
-/
theorem refusal_evaluations
    (hContract : lib.Contract IsHash)
    (count : Nat)
    (hRefused :
      (lib.authenticatePassword
        (List.replicate count lib.verifyPlainBcrypt) salt db
        identifier password).outcome =
          .ok .invalidCredentials) :
    ∃ cost,
      (cost = 0 ∨ cost = 1) ∧
        (cost = 1 ↔ ¬ Unhashed password ∧
          Readable IsHash (storedFor db identifier)) ∧
        (lib.authenticatePassword
          (List.replicate count lib.verifyPlainBcrypt) salt
          db identifier password).evaluations =
            (if password = lib.nfkc password then 1
              else 2) +
              count * cost := by
  have hForm := matchingForm_of_refused hContract hRefused
  have hForms := matchingForm_evaluations hContract hForm
  have hUpdate : lib.verifyAndUpdatePassword salt password
      (storedFor db identifier) = _ :=
    verifyAndUpdatePassword_of_none hForm
  rw [hForms] at hUpdate
  rcases verifyLegacyPassword_run hContract count password
    (storedFor db identifier) with
    ⟨answer, cost, hCost, hIff, hLegacy⟩
  refine ⟨cost, hCost, hIff, ?_⟩
  rcases authenticatePassword_steps hRefused with
    ⟨checked, verdict, hChecked, hVerdict, hOutcome,
      hEvaluations⟩
  rw [hUpdate] at hChecked hEvaluations
  rw [hEvaluations]
  have hNone := Except.ok.inj hChecked
  subst hNone
  congr 1
  cases count with
  | zero =>
      rw [Nat.zero_mul]
      rfl
  | succ count =>
      have hSome :
          (List.replicate (count + 1)
            lib.verifyPlainBcrypt).isEmpty = false := by
        rw [List.replicate_succ]
        rfl
      cases hMatched :
          (answer && (storedFor db identifier).isSome) with
      | false =>
          rw [hMatched] at hLegacy
          rw [checkLegacy_of_refused hSome hLegacy]
      | true =>
          -- An accepted password is not refused.
          rw [hMatched] at hLegacy
          have hAccepted :=
            checkLegacy_of_accepted hSome hLegacy hVerdict
          rw [Bool.and_eq_true] at hMatched
          cases hUser : db identifier with
          | none =>
              unfold storedFor at hMatched
              rw [hUser] at hMatched
              cases hMatched.2
          | some account =>
              rw [hAccepted, hUser] at hOutcome
              exact absurd hOutcome.symm
                (loginOutcome_of_verified account verdict.2)

------------------------------------------------------------
-- Two Databases
------------------------------------------------------------

/-
  Two refused logins with one password cost the same unless
  a verifier evaluates for one and finds a text it cannot
  read for the other.
-/
theorem sameCost_iff
    (hContract : lib.Contract IsHash)
    (count : Nat)
    {left right : Database}
    {leftSalt rightSalt : lib.Salt}
    (hLeft :
      (lib.authenticatePassword
        (List.replicate count lib.verifyPlainBcrypt)
        leftSalt left identifier password).outcome =
          .ok .invalidCredentials)
    (hRight :
      (lib.authenticatePassword
        (List.replicate count lib.verifyPlainBcrypt)
        rightSalt right identifier password).outcome =
          .ok .invalidCredentials) :
    (lib.authenticatePassword
        (List.replicate count lib.verifyPlainBcrypt)
        leftSalt left identifier password).evaluations =
      (lib.authenticatePassword
        (List.replicate count lib.verifyPlainBcrypt)
        rightSalt right identifier password).evaluations ↔
    (count = 0 ∨ Unhashed password ∨
      (Readable IsHash (storedFor left identifier) ↔
        Readable IsHash (storedFor right identifier))) := by
  rcases refusal_evaluations hContract count hLeft with
    ⟨leftCost, hLeftCost, hLeftIff, hLeftCount⟩
  rcases refusal_evaluations hContract count hRight with
    ⟨rightCost, hRightCost, hRightIff, hRightCount⟩
  rw [hLeftCount, hRightCount]
  constructor
  · intro hSame
    by_cases hCount : count = 0
    · exact .inl hCount
    · right
      by_cases hUnhashed : Unhashed password
      · exact .inl hUnhashed
      · right
        have hCosts : leftCost = rightCost := by
          have hProducts :
              count * leftCost = count * rightCost := by
            omega
          exact Nat.eq_of_mul_eq_mul_left
            (Nat.pos_of_ne_zero hCount) hProducts
        have hLeftReads : leftCost = 1 ↔
            Readable IsHash (storedFor left identifier) :=
          hLeftIff.trans (and_iff_right hUnhashed)
        have hRightReads : rightCost = 1 ↔
            Readable IsHash
              (storedFor right identifier) :=
          hRightIff.trans (and_iff_right hUnhashed)
        rw [← hLeftReads, ← hRightReads, hCosts]
  · intro hWhen
    rcases hWhen with hCount | hUnhashed | hReads
    · rw [hCount, Nat.zero_mul, Nat.zero_mul]
    · have hNotLeft : ¬ leftCost = 1 := fun hOne =>
        (hLeftIff.mp hOne).1 hUnhashed
      have hNotRight : ¬ rightCost = 1 := fun hOne =>
        (hRightIff.mp hOne).1 hUnhashed
      have hCosts : leftCost = rightCost := by
        omega
      rw [hCosts]
    · have hOnes : leftCost = 1 ↔ rightCost = 1 := by
        rw [hLeftIff, hRightIff, hReads]
      have hCosts : leftCost = rightCost := by
        omega
      rw [hCosts]

/- No account, and an account that never had a password. -/
def absent : Database := fun _ => none

/- And an account that never had a password. -/
def passwordless : Database := fun _ =>
  some ⟨some (makeUnusablePassword Scenario.letters), true⟩

/-
  No account costs what a passwordless one does only if the
  verifier reads the sentinel as it reads the dummy hash.
-/
theorem sameCost_passwordless :
    (Scenario.library.authenticatePassword
        [Scenario.library.verifyPlainBcrypt] () absent
        Scenario.letters Scenario.common).evaluations =
      (Scenario.library.authenticatePassword
        [Scenario.library.verifyPlainBcrypt] () passwordless
        Scenario.letters Scenario.common).evaluations ↔
    (1 = 0 ∨ Unhashed Scenario.common ∨
      (Readable SpelledHash
          (storedFor absent Scenario.letters) ↔
        Readable SpelledHash
          (storedFor passwordless Scenario.letters))) :=
  sameCost_iff Scenario.contract 1 rfl rfl

/- The sentinel costs one evaluation less than no account. -/
theorem not_sameCost_of_sentinel :
    (Scenario.library.authenticatePassword
        [Scenario.library.verifyPlainBcrypt] () absent
        Scenario.letters Scenario.common).outcome =
          .ok .invalidCredentials ∧
      (Scenario.library.authenticatePassword
        [Scenario.library.verifyPlainBcrypt] () passwordless
        Scenario.letters Scenario.common).outcome =
          .ok .invalidCredentials ∧
      (Scenario.library.authenticatePassword
        [Scenario.library.verifyPlainBcrypt] () absent
        Scenario.letters Scenario.common).evaluations = 2 ∧
      (Scenario.library.authenticatePassword
        [Scenario.library.verifyPlainBcrypt] () passwordless
        Scenario.letters Scenario.common).evaluations =
          1 := by
  refine ⟨?_, ?_, ?_, ?_⟩
  · rfl
  · rfl
  · rfl
  · rfl

end Library

end Hashing

end CrudAuth
