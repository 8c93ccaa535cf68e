import CrudAuth.Hashing.Scenario

/-
  Verification, the replacement of a hash from before
  normalization, and what verifies afterwards.

  Main declarations:
    * `Library.VerificationAgrees`
    * `Library.verificationAgrees`
-/

namespace CrudAuth

namespace Hashing

namespace Library

variable (lib : Library)

------------------------------------------------------------
-- The Law
------------------------------------------------------------

/- Verification and upgrade agree on these passwords. -/
structure VerificationAgrees
    (IsHash : Bytes → Prop)
    (passwords : Set Str) : Prop where
  created : ∀ q ∈ passwords, ∀ salt,
    ∃ hash, (lib.getPasswordHash salt q).outcome = .ok hash
  current : ∀ p ∈ passwords, ∀ q ∈ passwords,
    ∀ salt hash,
      (lib.getPasswordHash salt q).outcome = .ok hash →
        ((lib.verifyPassword p (some hash)).outcome =
            .ok true ↔
          lib.nfkc p = lib.nfkc q)
  typed : ∀ p ∈ passwords, ∀ q ∈ passwords, ∀ hash,
    lib.MadeFrom q hash →
      ((lib.verifyPassword p (some hash)).outcome =
          .ok true ↔
        lib.nfkc p = q ∨ p = q)
  sameVerdict : ∀ p ∈ passwords, ∀ stored salt,
    ∃ verified newHash,
      (lib.verifyPassword p stored).outcome =
          .ok verified ∧
        (lib.verifyAndUpdatePassword salt p
            stored).outcome =
          .ok (verified, newHash)
  replaced : ∀ p ∈ passwords,
    ∀ stored salt verified newHash,
      (lib.verifyAndUpdatePassword salt p stored).outcome =
          .ok (verified, some newHash) →
        lib.passes p stored ∧ p ≠ lib.nfkc p ∧
          (∀ q ∈ passwords,
            (lib.verifyPassword q (some newHash)).outcome =
                .ok true ↔
              lib.nfkc q = lib.nfkc p) ∧
          ∀ again,
            (lib.verifyAndUpdatePassword again p
                (some newHash)).outcome =
              .ok (true, none)
  absent : ∀ p stored,
    (stored = none ∨ stored = some [] ∨
      (∃ text, stored = some text ∧
        ¬ StoredHash IsHash text) ∨
      ∃ token, stored =
        some (makeUnusablePassword token)) →
    (lib.verifyPassword p stored).outcome = .ok false

variable {lib}
variable {IsHash : Bytes → Prop}
variable {passwords : Set Str}
variable {p q hash : Str}
variable {stored : Option Str}

------------------------------------------------------------
-- Hashes and Their Forms
------------------------------------------------------------

/- A new hash is made from the normal form. -/
theorem getPasswordHash_made
    {salt : lib.Salt}
    (hHash :
      (lib.getPasswordHash salt q).outcome = .ok hash) :
    lib.MadeFrom (lib.nfkc q) hash := by
  unfold getPasswordHash normalizePassword at hHash
  cases hEncode : (lib.nfkc q).encode with
  | none =>
      rw [bcryptInput_error hEncode,
        Work.free_error_bind] at hHash
      cases hHash
  | some bytes =>
      rw [bcryptInput_eq hEncode, Work.free_ok_bind,
        Work.outcome_bind_ok rfl, Work.outcome_pure]
        at hHash
      exact ⟨bytes, salt, hEncode,
        (Except.ok.inj hHash).symm⟩

/- A password that can be set has a hash. -/
theorem getPasswordHash_ok
    (hSet : lib.PasswordSet passwords)
    (hMem : q ∈ passwords)
    (salt : lib.Salt) :
    ∃ hash,
      (lib.getPasswordHash salt q).outcome = .ok hash := by
  rcases hSet.encodable _ (hSet.normal q hMem) with
    ⟨bytes, hBytes⟩
  unfold getPasswordHash normalizePassword
  rw [bcryptInput_eq hBytes, Work.free_ok_bind,
    Work.outcome_bind_ok rfl]
  exact ⟨_, rfl⟩

/- A hash passes exactly the form it was made from. -/
theorem passes_iff
    (hContract : lib.Contract IsHash)
    (hChecks : lib.ChecksPreHash)
    (hSet : lib.PasswordSet passwords)
    (hLeft : p ∈ passwords)
    (hRight : q ∈ passwords)
    (hMade : lib.MadeFrom q hash) :
    lib.passes p (some hash) = true ↔ p = q := by
  rcases hSet.encodable p hLeft with ⟨bytes, hBytes⟩
  rcases hMade with ⟨made, salt, hForm, rfl⟩
  have hStored := Str.encode_ofAscii
    (hContract.hash_ascii (lib.preHash made) salt)
  rcases checkpw_answers hContract hBytes hStored
    (hContract.hash_isHash _ _) with
    ⟨verdict, hAnswer, hCheck⟩
  rw [hChecks] at hAnswer
  have hVerdict := Except.ok.inj hAnswer
  unfold passes
  rw [hCheck, ← hVerdict]
  constructor
  · intro hPasses
    have hSame : lib.preHash bytes = lib.preHash made := by
      simpa using hPasses
    have hDigest := Base64.encode_injective hSame
    have hEqual := hSet.collisionFree p hLeft q hRight
      bytes made hBytes hForm hDigest
    subst hEqual
    exact Str.encode_injective hBytes hForm
  · intro hEqual
    subst hEqual
    rw [hBytes] at hForm
    have hEqual := Option.some.inj hForm
    subst hEqual
    simp

/- Which stored texts a password verifies against. -/
theorem verifyPassword_eq
    (hContract : lib.Contract IsHash) :
    (lib.verifyPassword p stored).outcome =
      .ok (lib.passes (lib.nfkc p) stored ||
        (p ≠ lib.nfkc p && lib.passes p stored)) := by
  unfold verifyPassword
  rw [Work.outcome_bind_ok
    (matchingForm_outcome hContract), Work.outcome_pure]
  by_cases hNormal : lib.passes (lib.nfkc p) stored
  · simp [hNormal]
  · by_cases hTyped : p ≠ lib.nfkc p
    · by_cases hPasses : lib.passes p stored
      · simp [hNormal, hTyped, hPasses]
      · simp [hNormal, hTyped, hPasses]
    · simp [hNormal, hTyped]

/- Either form of the password may pass. -/
theorem verifyPassword_iff
    (hContract : lib.Contract IsHash) :
    (lib.verifyPassword p stored).outcome = .ok true ↔
      lib.passes (lib.nfkc p) stored ∨
        lib.passes p stored := by
  rw [verifyPassword_eq hContract]
  by_cases hTyped : p = lib.nfkc p
  · rw [← hTyped]
    simp
  · simp [hTyped]

/- Against an old hash, either form does. -/
theorem verifyPassword_made
    (hContract : lib.Contract IsHash)
    (hChecks : lib.ChecksPreHash)
    (hSet : lib.PasswordSet passwords)
    (hLeft : p ∈ passwords)
    (hRight : q ∈ passwords)
    (hMade : lib.MadeFrom q hash) :
    (lib.verifyPassword p (some hash)).outcome =
        .ok true ↔
      lib.nfkc p = q ∨ p = q := by
  rw [verifyPassword_iff hContract,
    passes_iff hContract hChecks hSet
      (hSet.normal p hLeft) hRight hMade,
    passes_iff hContract hChecks hSet hLeft hRight hMade]

/- Against a current hash, the normal forms decide. -/
theorem verifyPassword_normal
    (hContract : lib.Contract IsHash)
    (hChecks : lib.ChecksPreHash)
    (hSet : lib.PasswordSet passwords)
    (hIdempotent : ∀ text,
      lib.nfkc (lib.nfkc text) = lib.nfkc text)
    (hLeft : p ∈ passwords)
    (hRight : q ∈ passwords)
    (hMade : lib.MadeFrom (lib.nfkc q) hash) :
    (lib.verifyPassword p (some hash)).outcome =
        .ok true ↔
      lib.nfkc p = lib.nfkc q := by
  rw [verifyPassword_made hContract hChecks hSet hLeft
    (hSet.normal q hRight) hMade]
  constructor
  · intro hEither
    rcases hEither with hNormal | hTyped
    · exact hNormal
    · rw [hTyped, hIdempotent]
  · intro hNormal
    exact .inl hNormal

------------------------------------------------------------
-- The Replacement
------------------------------------------------------------

/- The three ways the update can end. -/
theorem verifyAndUpdatePassword_cases
    (hContract : lib.Contract IsHash)
    (hSet : lib.PasswordSet passwords)
    (hMem : p ∈ passwords)
    (stored : Option Str)
    (salt : lib.Salt) :
    (lib.passes (lib.nfkc p) stored ∧
        (lib.verifyAndUpdatePassword salt p
          stored).outcome = .ok (true, none)) ∨
      (¬ lib.passes (lib.nfkc p) stored ∧
        p ≠ lib.nfkc p ∧ lib.passes p stored ∧
        ∃ newHash, lib.MadeFrom (lib.nfkc p) newHash ∧
          (lib.verifyAndUpdatePassword salt p
            stored).outcome = .ok (true, some newHash)) ∨
      (¬ lib.passes (lib.nfkc p) stored ∧
        ¬ (p ≠ lib.nfkc p ∧ lib.passes p stored) ∧
        (lib.verifyAndUpdatePassword salt p
          stored).outcome = .ok (false, none)) := by
  have hForm :
      (lib.matchingForm p stored).outcome = _ :=
    matchingForm_outcome hContract
  by_cases hNormal : lib.passes (lib.nfkc p) stored
  · left
    refine ⟨hNormal, ?_⟩
    rw [if_pos hNormal] at hForm
    unfold verifyAndUpdatePassword normalizePassword
    rw [Work.outcome_bind_ok hForm]
    dsimp only
    rw [if_pos rfl]
    rfl
  · right
    rw [if_neg hNormal] at hForm
    by_cases hTyped : p ≠ lib.nfkc p ∧ lib.passes p stored
    · left
      rw [if_pos hTyped] at hForm
      rcases getPasswordHash_ok hSet hMem salt with
        ⟨newHash, hNew⟩
      refine ⟨hNormal, hTyped.1, hTyped.2, newHash,
        getPasswordHash_made hNew, ?_⟩
      unfold verifyAndUpdatePassword normalizePassword
      rw [Work.outcome_bind_ok hForm]
      dsimp only
      rw [if_neg hTyped.1, Work.outcome_bind_ok hNew]
      rfl
    · right
      rw [if_neg hTyped] at hForm
      refine ⟨hNormal, hTyped, ?_⟩
      unfold verifyAndUpdatePassword
      rw [Work.outcome_bind_ok hForm]
      rfl

/- Both functions give one verdict. -/
theorem sameVerdict
    (hContract : lib.Contract IsHash)
    (hSet : lib.PasswordSet passwords)
    (hMem : p ∈ passwords)
    (stored : Option Str)
    (salt : lib.Salt) :
    ∃ verified newHash,
      (lib.verifyPassword p stored).outcome =
          .ok verified ∧
        (lib.verifyAndUpdatePassword salt p
            stored).outcome =
          .ok (verified, newHash) := by
  have hCases := verifyAndUpdatePassword_cases
    hContract hSet hMem stored salt
  rw [verifyPassword_eq hContract]
  rcases hCases with ⟨hNormal, hUpdate⟩ |
    ⟨hNormal, hTyped, hPasses, newHash, -, hUpdate⟩ |
    ⟨hNormal, hNeither, hUpdate⟩
  · refine ⟨true, none, ?_, hUpdate⟩
    simp [hNormal]
  · refine ⟨true, some newHash, ?_, hUpdate⟩
    simp [hTyped, hPasses]
  · refine ⟨false, none, ?_, hUpdate⟩
    rw [Bool.not_eq_true] at hNormal
    rw [not_and, Bool.not_eq_true] at hNeither
    by_cases hTyped : p ≠ lib.nfkc p
    · simp [hNormal, hNeither hTyped]
    · simp [hNormal, hTyped]

/- What holds once a replacement is stored. -/
theorem replaced
    (hContract : lib.Contract IsHash)
    (hSet : lib.PasswordSet passwords)
    (hMem : p ∈ passwords)
    {salt : lib.Salt}
    {verified : Bool}
    {newHash : Str}
    (hUpdate :
      (lib.verifyAndUpdatePassword salt p stored).outcome =
        .ok (verified, some newHash)) :
    lib.passes p stored ∧ p ≠ lib.nfkc p ∧
      lib.MadeFrom (lib.nfkc p) newHash := by
  rcases verifyAndUpdatePassword_cases hContract hSet hMem
    stored salt with ⟨-, hOther⟩ |
      ⟨-, hTyped, hPasses, made, hMade, hOther⟩ |
      ⟨-, -, hOther⟩
  · rw [hOther] at hUpdate
    cases hUpdate
  · rw [hOther] at hUpdate
    have hPair := Except.ok.inj hUpdate
    have hNew : made = newHash :=
      Option.some.inj (Prod.mk.inj hPair).2
    rw [← hNew]
    exact ⟨hPasses, hTyped, hMade⟩
  · rw [hOther] at hUpdate
    cases hUpdate

/- The password is current after its replacement. -/
theorem updated_again
    (hContract : lib.Contract IsHash)
    (hChecks : lib.ChecksPreHash)
    (hSet : lib.PasswordSet passwords)
    (hMem : p ∈ passwords)
    (hMade : lib.MadeFrom (lib.nfkc p) hash)
    (salt : lib.Salt) :
    (lib.verifyAndUpdatePassword salt p
        (some hash)).outcome = .ok (true, none) := by
  have hPasses : lib.passes (lib.nfkc p) (some hash) :=
    (passes_iff hContract hChecks hSet
      (hSet.normal p hMem) (hSet.normal p hMem)
      hMade).mpr rfl
  rcases verifyAndUpdatePassword_cases hContract hSet hMem
    (some hash) salt with ⟨-, hUpdate⟩ | ⟨hNot, -⟩ |
      ⟨hNot, -⟩
  · exact hUpdate
  · exact absurd hPasses hNot
  · exact absurd hPasses hNot

/- A text that starts with `!` is no bcrypt hash. -/
theorem not_storedHash_unusable
    (hContract : lib.Contract IsHash)
    (token : Str) :
    ¬ StoredHash IsHash (makeUnusablePassword token) := by
  intro hStored
  rcases hStored with ⟨bytes, hEncode, hHash⟩
  have hDollar := hContract.hash_dollar bytes hHash
  unfold makeUnusablePassword at hEncode
  rcases Str.encode_cons hEncode with ⟨tail, -, rfl⟩
  have hBang : String.utf8EncodeChar '!' = [33] := by
    decide
  rw [hBang] at hDollar
  cases hDollar

/- The empty text is no hash. -/
theorem not_storedHash_nil
    (hContract : lib.Contract IsHash) :
    ¬ StoredHash IsHash [] := by
  intro hStored
  rcases hStored with ⟨bytes, hEncode, hHash⟩
  have hDollar := hContract.hash_dollar bytes hHash
  rw [← Option.some.inj hEncode] at hDollar
  cases hDollar

/- No hash, no match. -/
theorem verifyPassword_absent
    (hContract : lib.Contract IsHash)
    (hAbsent : ¬ StoredHash IsHash (stored.getD [])) :
    (lib.verifyPassword p stored).outcome = .ok false := by
  rw [verifyPassword_eq hContract,
    passes_absent hContract hAbsent,
    passes_absent hContract hAbsent]
  simp

/-
  Verification and upgrade agree on every set of passwords
  SHA-256 tells apart.
-/
theorem verificationAgrees
    (hContract : lib.Contract IsHash)
    (hChecks : lib.ChecksPreHash)
    (hIdempotent : ∀ text,
      lib.nfkc (lib.nfkc text) = lib.nfkc text)
    (hSet : lib.PasswordSet passwords) :
    lib.VerificationAgrees IsHash passwords where
  created := fun q hMem salt =>
    getPasswordHash_ok hSet hMem salt
  current := fun p hLeft q hRight salt hash hHash =>
    verifyPassword_normal hContract hChecks hSet
      hIdempotent hLeft hRight
      (getPasswordHash_made hHash)
  typed := fun p hLeft q hRight hash hMade =>
    verifyPassword_made hContract hChecks hSet hLeft hRight
      hMade
  sameVerdict := fun p hMem stored salt =>
    sameVerdict hContract hSet hMem stored salt
  replaced := by
    intro p hMem stored salt verified newHash hUpdate
    rcases replaced hContract hSet hMem hUpdate with
      ⟨hPasses, hTyped, hMade⟩
    refine ⟨hPasses, hTyped, ?_, ?_⟩
    · intro q hOther
      exact verifyPassword_normal hContract hChecks hSet
        hIdempotent hOther hMem hMade
    · intro again
      exact updated_again hContract hChecks hSet hMem hMade
        again
  absent := by
    intro p stored hAbsent
    apply verifyPassword_absent hContract
    rcases hAbsent with rfl | rfl | ⟨text, rfl, hText⟩ |
      ⟨token, rfl⟩
    · exact not_storedHash_nil hContract
    · exact not_storedHash_nil hContract
    · exact hText
    · exact not_storedHash_unusable hContract token

/- The ligature and its letters are one password. -/
theorem verificationAgrees_ligature :
    Scenario.library.VerificationAgrees SpelledHash
      Scenario.passwords :=
  verificationAgrees Scenario.contract
    (Scenario.cyclicKeys.checksPreHash Scenario.contract)
    Scenario.nfkc_idempotent Scenario.passwordSet

end Library

end Hashing

end CrudAuth
