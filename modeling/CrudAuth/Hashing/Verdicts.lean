import CrudAuth.Hashing.Source

/-
  What a password check answers, and what it costs.

  Main declarations:
    * `Library.Contract`
    * `Library.PasswordSet`
    * `Library.checkpw_eq`
    * `Library.matchingForm_outcome`
    * `Library.matchingForm_evaluations`
-/

namespace CrudAuth

namespace Hashing

------------------------------------------------------------
-- Counted Work
------------------------------------------------------------

namespace Work

variable {α β : Type}
variable {first : Work α}
variable {next : α → Work β}

@[simp]
theorem outcome_pure (value : α) :
    (Pure.pure value : Work α).outcome = .ok value := rfl

@[simp]
theorem evaluations_pure (value : α) :
    (Pure.pure value : Work α).evaluations = 0 := rfl

/- What follows a result decides the outcome. -/
theorem outcome_bind_ok
    {value : α}
    (hFirst : first.outcome = .ok value) :
    (first >>= next).outcome = (next value).outcome := by
  show (Work.bind first next).outcome = _
  unfold Work.bind
  rw [hFirst]

theorem evaluations_bind_ok
    {value : α}
    (hFirst : first.outcome = .ok value) :
    (first >>= next).evaluations =
      first.evaluations + (next value).evaluations := by
  show (Work.bind first next).evaluations = _
  unfold Work.bind
  rw [hFirst]

/- A step without evaluations costs nothing. -/
@[simp]
theorem free_ok_bind
    (value : α) :
    Work.free (.ok value) >>= next = next value := by
  show Work.bind _ next = _
  unfold Work.bind Work.free
  simp

@[simp]
theorem free_error_bind
    (error : PyError) :
    Work.free (.error error) >>= next =
      Work.free (.error error) := rfl

/- An attempt that answers is what is returned. -/
theorem except_ok
    {caught : PyError → Bool}
    {attempt handler : Work α}
    {value : α}
    (hAttempt : attempt.outcome = .ok value) :
    Work.except caught attempt handler = attempt := by
  unfold Work.except
  rw [hAttempt]

/- The handler runs after an attempt that cost nothing. -/
theorem except_free
    {caught : PyError → Bool}
    {handler : Work α}
    {error : PyError}
    (hCaught : caught error = true) :
    Work.except caught (Work.free (.error error)) handler =
      handler := by
  unfold Work.except Work.free
  simp [hCaught]

end Work

namespace Library

variable (lib : Library)

------------------------------------------------------------
-- Documented Behaviour
------------------------------------------------------------

/-
  What the bcrypt package and SHA-256 document: digests have
  32 bytes, a bcrypt hash is ASCII that starts with `$`, a
  text that is none makes the check raise `ValueError`, and
  one that is gets an answer for a password that fits.  The
  dummy hash was made like any other.
-/
structure Contract (IsHash : Bytes → Prop) : Prop where
  digest_length : ∀ message,
    (lib.sha256 message).length = 32
  hash_ascii : ∀ key salt, Ascii (lib.hashpw key salt)
  hash_isHash : ∀ key salt, IsHash (lib.hashpw key salt)
  hash_dollar : ∀ text, IsHash text →
    text.head? = some 36
  answers : ∀ key text, key.length ≤ bcryptInputBytes →
    IsHash text →
      ∃ verdict, lib.bcryptCheckpw key text = .ok verdict
  refuses : ∀ key text, ¬ IsHash text →
    lib.bcryptCheckpw key text = .error .valueError
  dummy_made : ∃ key salt,
    lib.dummyHash = Str.ofAscii (lib.hashpw key salt)

/-
  Passwords SHA-256 tells apart: encodable ones, with their
  normal forms, no two of which collide.
-/
structure PasswordSet (passwords : Set Str) : Prop where
  encodable : ∀ password ∈ passwords,
    ∃ bytes, password.encode = some bytes
  normal : ∀ password ∈ passwords,
    lib.nfkc password ∈ passwords
  collisionFree : ∀ left ∈ passwords,
    ∀ right ∈ passwords, ∀ leftBytes rightBytes,
      left.encode = some leftBytes →
        right.encode = some rightBytes →
          lib.sha256 leftBytes = lib.sha256 rightBytes →
            leftBytes = rightBytes

/- The bcrypt input of a password with these bytes. -/
def preHash (bytes : Bytes) : Bytes :=
  Base64.encode (lib.sha256 bytes)

/- A hash made from this form of a password. -/
def MadeFrom (form hash : Str) : Prop :=
  ∃ bytes salt,
    form.encode = some bytes ∧
      hash = Str.ofAscii
        (lib.hashpw (lib.preHash bytes) salt)

/- Whether a stored text is a bcrypt hash to the package. -/
def StoredHash (IsHash : Bytes → Prop) (text : Str) :
    Prop :=
  ∃ bytes, text.encode = some bytes ∧ IsHash bytes

/- The answer of `_checkpw`. -/
def passes
    (password : Str)
    (hashedPassword : Option Str) : Bool :=
  (lib.checkpw password hashedPassword).outcome =
    .ok true

variable {lib}
variable {IsHash : Bytes → Prop}

theorem length_preHash
    (hContract : lib.Contract IsHash)
    (bytes : Bytes) :
    (lib.preHash bytes).length = preHashLength := by
  unfold preHash
  rw [Base64.length_encode, hContract.digest_length]
  rfl

/- A text that encodes is hashed first. -/
theorem bcryptInput_eq
    {password : Str}
    {bytes : Bytes}
    (hEncode : password.encode = some bytes) :
    lib.bcryptInput password = .ok (lib.preHash bytes) := by
  unfold bcryptInput encode preHash
  rw [hEncode]
  rfl

/- One that does not encode raises. -/
theorem bcryptInput_error
    {password : Str}
    (hEncode : password.encode = none) :
    lib.bcryptInput password = .error .valueError := by
  unfold bcryptInput encode
  rw [hEncode]
  rfl

theorem encode_eq
    {text : Str}
    {bytes : Bytes}
    (hEncode : text.encode = some bytes) :
    encode text = .ok bytes := by
  unfold encode
  rw [hEncode]

theorem encode_error
    {text : Str}
    (hEncode : text.encode = none) :
    encode text = .error .valueError := by
  unfold encode
  rw [hEncode]

/- An answer is one evaluation. -/
theorem countedCheckpw_ok
    {key hashed : Bytes}
    {verdict : Bool}
    (hAnswer :
      lib.bcryptCheckpw key hashed = .ok verdict) :
    lib.countedCheckpw key hashed = ⟨.ok verdict, 1⟩ := by
  unfold countedCheckpw
  rw [hAnswer]

/- A refusal is none. -/
theorem countedCheckpw_error
    {key hashed : Bytes}
    {error : PyError}
    (hAnswer :
      lib.bcryptCheckpw key hashed = .error error) :
    lib.countedCheckpw key hashed =
      Work.free (.error error) := by
  unfold countedCheckpw Work.free
  rw [hAnswer]

/- The dummy hash is a bcrypt hash. -/
theorem Contract.storedHash_dummy
    (hContract : lib.Contract IsHash) :
    StoredHash IsHash lib.dummyHash := by
  rcases hContract.dummy_made with ⟨key, salt, hDummy⟩
  refine ⟨lib.hashpw key salt, ?_,
    hContract.hash_isHash key salt⟩
  rw [hDummy]
  exact Str.encode_ofAscii (hContract.hash_ascii key salt)

------------------------------------------------------------
-- One Check
------------------------------------------------------------

/- The handler of `_checkpw`: one dummy evaluation. -/
theorem dummyCheck_eq
    (hContract : lib.Contract IsHash) :
    (do
      let key ← Work.free (lib.bcryptInput [])
      let hashed ← Work.free (encode lib.dummyHash)
      let _ ← lib.countedCheckpw key hashed
      pure false : Work Bool) = ⟨.ok false, 1⟩ := by
  rcases hContract.storedHash_dummy with
    ⟨bytes, hEncode, hHash⟩
  have hFits :
      (lib.preHash []).length ≤ bcryptInputBytes := by
    rw [length_preHash hContract]
    decide
  rcases hContract.answers _ _ hFits hHash with
    ⟨verdict, hAnswer⟩
  rw [bcryptInput_eq Str.encode_nil, encode_eq hEncode,
    Work.free_ok_bind, Work.free_ok_bind,
    countedCheckpw_ok hAnswer]
  rfl

/- A password without bytes, or no hash, is a dummy check. -/
theorem checkpw_dummy
    (hContract : lib.Contract IsHash)
    {password : Str}
    {hashedPassword : Option Str}
    (hAbsent : password.encode = none ∨
      ¬ StoredHash IsHash (hashedPassword.getD [])) :
    lib.checkpw password hashedPassword =
      ⟨.ok false, 1⟩ := by
  unfold checkpw
  rw [dummyCheck_eq hContract]
  cases hPassword : password.encode with
  | none =>
      rw [bcryptInput_error hPassword, Work.free_error_bind,
        Work.except_free (by decide)]
  | some bytes =>
      have hHash : ¬ StoredHash IsHash
          (hashedPassword.getD []) := by
        rcases hAbsent with hNone | hHash
        · rw [hPassword] at hNone
          cases hNone
        · exact hHash
      rw [bcryptInput_eq hPassword, Work.free_ok_bind]
      cases hStored : (hashedPassword.getD []).encode with
      | none =>
          rw [encode_error hStored, Work.free_error_bind,
            Work.except_free (by decide)]
      | some stored =>
          have hRefuses := hContract.refuses
            (lib.preHash bytes) stored
            (fun hIs => hHash ⟨stored, hStored, hIs⟩)
          rw [encode_eq hStored, Work.free_ok_bind,
            countedCheckpw_error hRefuses,
            Work.except_free (by decide)]

/- A bcrypt hash is checked by the package. -/
theorem checkpw_answers
    (hContract : lib.Contract IsHash)
    {password hash : Str}
    {bytes stored : Bytes}
    (hPassword : password.encode = some bytes)
    (hStored : hash.encode = some stored)
    (hHash : IsHash stored) :
    ∃ verdict,
      lib.bcryptCheckpw (lib.preHash bytes) stored =
          .ok verdict ∧
        lib.checkpw password (some hash) =
          ⟨.ok verdict, 1⟩ := by
  have hFits :
      (lib.preHash bytes).length ≤ bcryptInputBytes := by
    rw [length_preHash hContract]
    decide
  rcases hContract.answers _ _ hFits hHash with
    ⟨verdict, hAnswer⟩
  refine ⟨verdict, hAnswer, ?_⟩
  unfold checkpw
  rw [Option.getD_some, bcryptInput_eq hPassword,
    encode_eq hStored, Work.free_ok_bind,
    Work.free_ok_bind, countedCheckpw_ok hAnswer]
  exact Work.except_ok rfl

/- Every check answers, for one evaluation. -/
theorem checkpw_eq
    (hContract : lib.Contract IsHash)
    (password : Str)
    (hashedPassword : Option Str) :
    lib.checkpw password hashedPassword =
      ⟨.ok (lib.passes password hashedPassword), 1⟩ := by
  have hSome : ∃ verdict,
      lib.checkpw password hashedPassword =
        ⟨.ok verdict, 1⟩ := by
    by_cases hAbsent : password.encode = none ∨
        ¬ StoredHash IsHash (hashedPassword.getD [])
    · exact ⟨false, checkpw_dummy hContract hAbsent⟩
    · rw [not_or, not_not] at hAbsent
      rcases hAbsent with ⟨hPassword, stored, hStored, hHash⟩
      rcases Option.ne_none_iff_exists'.mp hPassword with
        ⟨bytes, hBytes⟩
      cases hashedPassword with
      | none =>
          have hEmpty := Option.some.inj hStored
          rw [← hEmpty] at hHash
          have hDollar := hContract.hash_dollar _ hHash
          cases hDollar
      | some hash =>
          rcases checkpw_answers hContract hBytes hStored
            hHash with ⟨verdict, -, hCheck⟩
          exact ⟨verdict, hCheck⟩
  rcases hSome with ⟨verdict, hCheck⟩
  unfold passes
  rw [hCheck]
  cases verdict
  · rfl
  · rfl

/- Without a bcrypt hash nothing passes. -/
theorem passes_absent
    (hContract : lib.Contract IsHash)
    {password : Str}
    {hashedPassword : Option Str}
    (hAbsent :
      ¬ StoredHash IsHash (hashedPassword.getD [])) :
    lib.passes password hashedPassword = false := by
  unfold passes
  rw [checkpw_dummy hContract (.inr hAbsent)]
  rfl

------------------------------------------------------------
-- Both Forms
------------------------------------------------------------

variable {plainPassword : Str}
variable {hashedPassword : Option Str}

/- The normalized form is tried before the plain. -/
theorem matchingForm_outcome
    (hContract : lib.Contract IsHash) :
    (lib.matchingForm plainPassword
        hashedPassword).outcome =
      .ok
        (if lib.passes (lib.nfkc plainPassword)
            hashedPassword then
          some (lib.nfkc plainPassword)
        else if
            plainPassword ≠ lib.nfkc plainPassword ∧
              lib.passes plainPassword hashedPassword then
          some plainPassword
        else
          none) := by
  unfold matchingForm normalizePassword
  dsimp only
  rw [checkpw_eq hContract (lib.nfkc plainPassword),
    checkpw_eq hContract plainPassword]
  rw [Work.outcome_bind_ok rfl]
  by_cases hNormal :
      lib.passes (lib.nfkc plainPassword) hashedPassword
  · rw [if_pos hNormal, if_pos hNormal]
    rfl
  · rw [if_neg hNormal, if_neg hNormal]
    by_cases hTyped :
        plainPassword ≠ lib.nfkc plainPassword
    · rw [if_pos hTyped, Work.outcome_bind_ok rfl]
      by_cases hPasses :
          lib.passes plainPassword hashedPassword
      · rw [if_pos hPasses, if_pos ⟨hTyped, hPasses⟩]
        rfl
      · rw [if_neg hPasses,
          if_neg (fun hBoth => hPasses hBoth.2)]
        rfl
    · rw [if_neg hTyped,
        if_neg (fun hBoth => hTyped hBoth.1)]
      rfl

/- A refusal checks every form of the password. -/
theorem matchingForm_evaluations
    (hContract : lib.Contract IsHash)
    (hRefused :
      (lib.matchingForm plainPassword
        hashedPassword).outcome = .ok none) :
    (lib.matchingForm plainPassword
        hashedPassword).evaluations =
      if plainPassword = lib.nfkc plainPassword then 1
      else 2 := by
  rw [matchingForm_outcome hContract] at hRefused
  have hNormal : ¬ lib.passes (lib.nfkc plainPassword)
      hashedPassword = true := by
    intro hPasses
    rw [if_pos hPasses] at hRefused
    cases hRefused
  rw [if_neg hNormal] at hRefused
  unfold matchingForm normalizePassword
  dsimp only
  rw [checkpw_eq hContract (lib.nfkc plainPassword),
    checkpw_eq hContract plainPassword,
    Work.evaluations_bind_ok rfl, if_neg hNormal]
  by_cases hTyped : plainPassword = lib.nfkc plainPassword
  · rw [if_pos hTyped, if_neg (not_not.mpr hTyped)]
    rfl
  · have hPasses : ¬ lib.passes plainPassword
        hashedPassword = true := by
      intro hPasses
      rw [if_pos ⟨hTyped, hPasses⟩] at hRefused
      cases hRefused
    rw [if_neg hTyped, if_pos hTyped,
      Work.evaluations_bind_ok rfl, if_neg hPasses]
    rfl

end Library

end Hashing

end CrudAuth
