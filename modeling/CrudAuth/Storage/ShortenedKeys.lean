import CrudAuth.Storage.Records
import Mathlib.Data.Set.Function

/-
  Keys that are too long for the key column are shortened:
  they keep their start, and end in their digest.  Behind a
  short prefix they do the work of the full keys.

  Main declarations:
    * `length_storedKey_of_long`
    * `starts_storedKey`
    * `Shortens`
    * `shortens_of_injOn`
-/

------------------------------------------------------------
-- Long Keys
------------------------------------------------------------

namespace CrudAuth

namespace Storage

/- The length of a SHA-256 in hexadecimal. -/
def digestLength : Nat := 64

/- What is left of the column for the start of a key. -/
def keptLength : Nat := 190

theorem keptLength_eq :
    databaseKeyMaxLength - digestLength -
        databaseKeyDigestSeparator.length =
      keptLength :=
  rfl

section Keys

variable {digest : Text → Text}
variable {key key' start : Text}
variable (hDigest : ∀ key, (digest key).length =
  digestLength)

include hDigest

/- A long key is cut, and its digest appended. -/
theorem storedKey_of_long
    (hLong : databaseKeyMaxLength < key.length) :
    storedKey digest key =
      key.take keptLength ++ databaseKeyDigestSeparator ++
        digest key := by
  unfold storedKey
  rw [if_neg (Nat.not_le.mpr hLong), hDigest, keptLength_eq]

/- A shortened key fills its column. -/
theorem length_storedKey_of_long
    (hLong : databaseKeyMaxLength < key.length) :
    (storedKey digest key).length =
      databaseKeyMaxLength := by
  have hKept : keptLength ≤ key.length := by
    unfold databaseKeyMaxLength at hLong
    unfold keptLength
    omega
  rw [storedKey_of_long hDigest hLong, List.length_append,
    List.length_append, List.length_take_of_le hKept,
    hDigest]
  rfl

/- Shortened or not, a key fits its column. -/
theorem length_storedKey_le (key : Text) :
    (storedKey digest key).length ≤
      databaseKeyMaxLength := by
  rcases Nat.lt_or_ge databaseKeyMaxLength key.length with
    hLong | hFits
  · exact (length_storedKey_of_long hDigest hLong).le
  · rw [storedKey_of_fits hFits]
    exact hFits

/- A start that is kept is a start of the stored key. -/
theorem starts_storedKey
    (hShort : start.length ≤ keptLength)
    (hStart : start <+: key) :
    start <+: storedKey digest key := by
  rcases Nat.lt_or_ge databaseKeyMaxLength key.length with
    hLong | hFits
  · rw [storedKey_of_long hDigest hLong, List.append_assoc]
    have hTaken : start <+: key.take keptLength :=
      List.prefix_take_iff.mpr ⟨hStart, hShort⟩
    exact hTaken.trans (List.prefix_append _ _)
  · rw [storedKey_of_fits hFits]
    exact hStart

/- What is stored is left alone. -/
theorem storedKey_storedKey (key : Text) :
    storedKey digest (storedKey digest key) =
      storedKey digest key :=
  storedKey_of_fits (length_storedKey_le hDigest key)

/- A shortened key ends in its digest. -/
theorem digest_of_storedKey
    (hLong : databaseKeyMaxLength < key.length)
    (hLong' : databaseKeyMaxLength < key'.length)
    (hSame : storedKey digest key = storedKey digest key') :
    digest key = digest key' := by
  rw [storedKey_of_long hDigest hLong,
    storedKey_of_long hDigest hLong'] at hSame
  have hLengths :
      (digest key).length = (digest key').length := by
    rw [hDigest, hDigest]
  exact (List.append_inj' hSame hLengths).2

/- A shortened key is longer than a key that is not full. -/
theorem storedKey_ne_of_short
    (hLong : databaseKeyMaxLength < key.length)
    (hShort : key'.length < databaseKeyMaxLength) :
    storedKey digest key ≠ key' := by
  intro hSame
  have hFull := length_storedKey_of_long hDigest hLong
  rw [hSame] at hFull
  omega

end Keys

------------------------------------------------------------
-- Shortening
------------------------------------------------------------

/-
  Stored keys fit, keep short prefixes, and stay as they
  are.  Long keys among `keys` are stored apart, and never
  as a key that does not fill its column.
-/
structure Shortens
    (digest : Text → Text)
    (keys : Set Text) : Prop where
  fits : ∀ key,
    (storedKey digest key).length ≤ databaseKeyMaxLength
  keeps : ∀ keyPrefix sid,
    keyPrefix.length ≤ keptLength →
    keyPrefix <+: storedKey digest (getKey keyPrefix sid)
  again : ∀ key,
    storedKey digest (storedKey digest key) =
      storedKey digest key
  apart : ∀ key ∈ keys, ∀ key' ∈ keys,
    databaseKeyMaxLength < key.length →
    databaseKeyMaxLength < key'.length →
    key ≠ key' →
    storedKey digest key ≠ storedKey digest key'
  unlike : ∀ key key',
    databaseKeyMaxLength < key.length →
    key'.length < databaseKeyMaxLength →
    storedKey digest key ≠ key' ∧
      storedKey digest key ≠ storedKey digest key'

/- Digests that tell keys apart shorten them faithfully. -/
theorem shortens_of_injOn
    {digest : Text → Text}
    {keys : Set Text}
    (hDigest : ∀ key, (digest key).length = digestLength)
    (hApart : Set.InjOn digest keys) :
    Shortens digest keys where
  fits := length_storedKey_le hDigest
  keeps := by
    intro keyPrefix sid hShort
    apply starts_storedKey hDigest hShort
    exact List.prefix_append keyPrefix sid
  again := storedKey_storedKey hDigest
  apart := by
    intro key hKey key' hKey' hLong hLong' hDiffer hSame
    apply hDiffer
    apply hApart hKey hKey'
    exact digest_of_storedKey hDigest hLong hLong' hSame
  unlike := by
    intro key key' hLong hShort
    have hUnlike :=
      storedKey_ne_of_short hDigest hLong hShort
    constructor
    · exact hUnlike
    · rw [storedKey_of_fits hShort.le]
      exact hUnlike

end Storage

end CrudAuth
