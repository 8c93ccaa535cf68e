import CrudAuth.Runtime

/-
  Password checks, from `utils/hashing.py`.

  A stored crudauth hash matches exactly the form it was
  made from; a sentinel and another system's text match
  no form.

  Main declarations:
    * `matchingForm`
    * `verifyPassword`
    * `verifyLegacyPassword`
    * `isUnusablePassword`
-/

namespace CrudAuth

namespace StoredHash

/- The unusable sentinel, or no hash at all. -/
def isUnusablePassword : StoredHash → Bool
  | .missing => true
  | .unusable _ => true
  | .bcrypt _ _ => false
  | .foreign text =>
      text.isEmpty || text.toList.head? == some '!'

/- `_checkpw`: the bcrypt comparison of one form. -/
def checkpw (password : String) : StoredHash → Bool
  | .bcrypt form _ => password == form
  | .missing => false
  | .unusable _ => false
  | .foreign _ => false

end StoredHash

namespace Runtime

variable (runtime : Runtime)

/-
  The form of the password the hash was made from: the
  normalized one first, then the password as typed.
-/
def matchingForm
    (plain : String)
    (hash : StoredHash) : Option String :=
  if hash.checkpw (runtime.normalizePassword plain) then
    some (runtime.normalizePassword plain)
  else if
      plain ≠ runtime.normalizePassword plain ∧
        hash.checkpw plain then
    some plain
  else
    none

/- `verify_password` -/
def verifyPassword
    (plain : String)
    (hash : StoredHash) : Bool :=
  (runtime.matchingForm plain hash).isSome

/-
  Whether a legacy verifier accepts.  Every verifier runs,
  against the dummy hash when there is no stored one.
-/
def verifyLegacyPassword
    (plain : String)
    (hash : StoredHash) : Bool :=
  let target :=
    if hash = .missing ∨ hash = .foreign "" then
      runtime.dummyHash
    else
      hash
  (runtime.legacyVerifiers.any fun verify =>
      verify plain target) &&
    hash ≠ .missing

/- Either check a login accepts a password by. -/
def accepts (plain : String) (hash : StoredHash) : Bool :=
  runtime.verifyPassword plain hash ||
    runtime.verifyLegacyPassword plain hash

end Runtime

end CrudAuth
