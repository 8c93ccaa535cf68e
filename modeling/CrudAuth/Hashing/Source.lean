import CrudAuth.Hashing.Text

/-
  Password checks over real text, from `utils/hashing.py`,
  and the part of `authenticate_password` that runs them.

  A check carries the number of full bcrypt evaluations it
  cost; bcrypt raises on a malformed hash before it
  evaluates anything.

  Main declarations:
    * `Work`
    * `Library`
    * `Library.verifyPassword`
    * `Library.verifyAndUpdatePassword`
    * `Library.verifyPlainBcrypt`
    * `Library.verifyLegacyPassword`
    * `Library.authenticatePassword`
-/

namespace CrudAuth

namespace Hashing

------------------------------------------------------------
-- Counted Work
------------------------------------------------------------

/-
  The exceptions the checks tell apart; an encoding error
  and a base64 error are value errors.
-/
inductive PyError where
  | valueError
  | typeError
  | other
deriving DecidableEq

/- A result and the bcrypt evaluations it took. -/
structure Work (α : Type) where
  outcome : Except PyError α
  evaluations : Nat

namespace Work

variable {α β : Type}

/- Work that evaluates nothing. -/
def pure (value : α) : Work α :=
  ⟨.ok value, 0⟩

/- Work in sequence, with the evaluations added up. -/
def bind (first : Work α) (next : α → Work β) : Work β :=
  match first.outcome with
  | .error error => ⟨.error error, first.evaluations⟩
  | .ok value =>
      ⟨(next value).outcome,
        first.evaluations + (next value).evaluations⟩

instance : Monad Work where
  pure := pure
  bind := bind

/- Work that evaluates nothing. -/
def free (outcome : Except PyError α) : Work α :=
  ⟨outcome, 0⟩

/- `try .. except`, for the exceptions listed. -/
def except
    (caught : PyError → Bool)
    (attempt handler : Work α) : Work α :=
  match attempt.outcome with
  | .ok _ => attempt
  | .error error =>
      if caught error then
        ⟨handler.outcome,
          attempt.evaluations + handler.evaluations⟩
      else
        attempt

end Work

------------------------------------------------------------
-- What the Module Calls
------------------------------------------------------------

/-
  Unicode's NFKC, SHA-256, the bcrypt package, and the hash
  that `_dummy_hash` computed once.
-/
structure Library where
  nfkc : Str → Str
  sha256 : Bytes → Bytes
  Salt : Type
  hashpw : Bytes → Salt → Bytes
  bcryptCheckpw : Bytes → Bytes → Except PyError Bool
  dummyHash : Str

namespace Library

variable (lib : Library)

/- `str.encode`, which raises on a lone surrogate. -/
def encode (text : Str) : Except PyError Bytes :=
  match text.encode with
  | some bytes => .ok bytes
  | none => .error .valueError

/- `bcrypt.checkpw`: an answer costs one evaluation. -/
def countedCheckpw
    (key hashed : Bytes) : Work Bool :=
  match lib.bcryptCheckpw key hashed with
  | .ok verdict => ⟨.ok verdict, 1⟩
  | .error error => ⟨.error error, 0⟩

------------------------------------------------------------
-- crudauth's Own Hashes
------------------------------------------------------------

/- `PRE_HASH_LENGTH` -/
def preHashLength : Nat := 44

/- `BCRYPT_INPUT_BYTES` -/
def bcryptInputBytes : Nat := 72

/- `_bcrypt_input` -/
def bcryptInput (password : Str) : Except PyError Bytes :=
  (encode password).map fun bytes =>
    Base64.encode (lib.sha256 bytes)

/- `normalize_password` -/
def normalizePassword (password : Str) : Str :=
  lib.nfkc password

/- `get_password_hash` -/
def getPasswordHash
    (salt : lib.Salt)
    (password : Str) : Work Str := do
  let key ← Work.free
    (lib.bcryptInput (lib.normalizePassword password))
  let hashed ← (⟨.ok (lib.hashpw key salt), 1⟩ : Work Bytes)
  pure (Str.ofAscii hashed)

/- `_checkpw`: a hash bcrypt refuses costs a dummy check. -/
def checkpw
    (password : Str)
    (hashedPassword : Option Str) : Work Bool :=
  Work.except
    (fun error => error = .valueError ∨ error = .typeError)
    (do
      let key ← Work.free (lib.bcryptInput password)
      let hashed ← Work.free
        (encode (hashedPassword.getD []))
      lib.countedCheckpw key hashed)
    (do
      let key ← Work.free (lib.bcryptInput [])
      let hashed ← Work.free (encode lib.dummyHash)
      let _ ← lib.countedCheckpw key hashed
      pure false)

/- `_matching_form` -/
def matchingForm
    (plainPassword : Str)
    (hashedPassword : Option Str) : Work (Option Str) := do
  let normalized := lib.normalizePassword plainPassword
  if ← lib.checkpw normalized hashedPassword then
    pure (some normalized)
  else if plainPassword ≠ normalized then
    if ← lib.checkpw plainPassword hashedPassword then
      pure (some plainPassword)
    else
      pure none
  else
    pure none

/- `verify_password` -/
def verifyPassword
    (plainPassword : Str)
    (hashedPassword : Option Str) : Work Bool := do
  let matched ←
    lib.matchingForm plainPassword hashedPassword
  pure matched.isSome

/- The salt is that of a replacement hash. -/
def verifyAndUpdatePassword
    (salt : lib.Salt)
    (plainPassword : Str)
    (hashedPassword : Option Str) :
    Work (Bool × Option Str) := do
  match ← lib.matchingForm plainPassword hashedPassword with
  | none => pure (false, none)
  | some matched =>
      if matched = lib.normalizePassword plainPassword then
        pure (true, none)
      else do
        let newHash ← lib.getPasswordHash salt plainPassword
        pure (true, some newHash)

/- `dummy_verify_password` -/
def dummyVerifyPassword
    (plainPassword : Str) : Work Unit := do
  let _ ← lib.verifyPassword plainPassword lib.dummyHash
  pure ()

/- `"!" + token_urlsafe(16)` -/
def makeUnusablePassword (token : Str) : Str :=
  .scalar '!' :: token

/- `is_unusable_password` -/
def isUnusablePassword (hashedPassword : Str) : Bool :=
  hashedPassword.isEmpty ||
    hashedPassword.head? = some (.scalar '!')

------------------------------------------------------------
-- Other Systems' Hashes
------------------------------------------------------------

/- A `LegacyVerifier` -/
abbrev LegacyVerifier := Str → Str → Work Bool

/-
  `_looks_like_pre_hash`; a character outside the alphabet,
  ASCII or not, fails the decoding.
-/
def looksLikePreHash (value : Str) : Bool :=
  if value.length ≠ preHashLength then
    false
  else
    match value.encode.bind Base64.decode with
    | some decoded => decoded.length = 32
    | none => false

/- `verify_plain_bcrypt` -/
def verifyPlainBcrypt : LegacyVerifier :=
  fun plainPassword hashedPassword =>
    if looksLikePreHash plainPassword then
      pure false
    else
      Work.except (fun error => error = .valueError)
        (do
          let key ← Work.free (encode plainPassword)
          let hashed ← Work.free (encode hashedPassword)
          lib.countedCheckpw (key.take bcryptInputBytes)
            hashed)
        (pure false)

/- The loop of `verify_legacy_password`: all of them run. -/
def runVerifiers
    (plainPassword target : Str) :
    List LegacyVerifier → Bool → Work Bool
  | [], matched => pure matched
  | verify :: rest, matched => do
      let verdict ← Work.except (fun _ => true)
        (verify plainPassword target) (pure false)
      runVerifiers plainPassword target rest
        (verdict || matched)

/- `verify_legacy_password` -/
def verifyLegacyPassword
    (verifiers : List LegacyVerifier)
    (plainPassword : Str)
    (hashedPassword : Option Str) : Work Bool := do
  -- An empty stored text is no hash either.
  let target :=
    match hashedPassword with
    | none => lib.dummyHash
    | some [] => lib.dummyHash
    | some text => text
  let matched ←
    runVerifiers plainPassword target verifiers false
  pure (matched && hashedPassword.isSome)

------------------------------------------------------------
-- The Password Step of a Login
------------------------------------------------------------

/- What the step reads of an account's row. -/
structure Account where
  hashedPassword : Option Str
  isActive : Bool

/- What `resolve_login` finds for an identifier. -/
abbrev Database := Str → Option Account

/- How `authenticate_password` ends. -/
inductive LoginOutcome where
  | invalidCredentials
  | inactive
  | accepted (newHash : Option Str)
deriving DecidableEq

/- The legacy verifiers run after the check refused. -/
def checkLegacy
    (verifiers : List LegacyVerifier)
    (salt : lib.Salt)
    (password : Str)
    (hashedPassword : Option Str)
    (checked : Bool × Option Str) :
    Work (Bool × Option Str) :=
  if !checked.1 && !verifiers.isEmpty then do
    let verified ← lib.verifyLegacyPassword verifiers
      password hashedPassword
    if verified then do
      let newHash ← lib.getPasswordHash salt password
      pure (true, some newHash)
    else
      pure (false, checked.2)
  else
    pure checked

/- What comes of a login once the password was checked. -/
def loginOutcome
    (user : Option Account)
    (verified : Bool)
    (newHash : Option Str) : LoginOutcome :=
  match user with
  | none => .invalidCredentials
  | some account =>
      if !verified then
        .invalidCredentials
      else if !account.isActive then
        .inactive
      else
        .accepted newHash

/- The stored hash a login is compared with. -/
def storedFor (db : Database) (identifier : Str) :
    Option Str :=
  (db identifier).bind Account.hashedPassword

/-
  `authenticate_password` from the lookup on; `salt` is that
  of a replacement hash.
-/
def authenticatePassword
    (verifiers : List LegacyVerifier)
    (salt : lib.Salt)
    (db : Database)
    (identifier password : Str) : Work LoginOutcome := do
  let checked ← lib.verifyAndUpdatePassword salt password
    (storedFor db identifier)
  let verdict ← lib.checkLegacy verifiers salt password
    (storedFor db identifier) checked
  pure (loginOutcome (db identifier) verdict.1 verdict.2)

end Library

end Hashing

end CrudAuth
