import CrudAuth.Hashing.KeySchedule
import CrudAuth.Hashing.Verdicts

/-
  What is assumed of the bcrypt cipher: it reads 72 bytes of
  the key repeated with a zero byte.

  Main declarations:
    * `Library.ChecksPreHash`
    * `Library.CyclicKeys`
    * `Library.cipherKey_eq_iff`
    * `Library.CyclicKeys.checksPreHash`
-/

namespace CrudAuth

namespace Hashing

namespace Library

variable (lib : Library)

/- bcrypt accepts the pre-hash a hash was made from only. -/
def ChecksPreHash : Prop :=
  ∀ bytes made salt,
    lib.bcryptCheckpw (lib.preHash bytes)
        (lib.hashpw (lib.preHash made) salt) =
      .ok (decide (lib.preHash bytes = lib.preHash made))

/- The bytes bcrypt reads of a key. -/
def cipherKey (key : Bytes) : Bytes :=
  keyBytes bcryptInputBytes key

/-
  A hash is an injective function of the 72 bytes of the
  repeated key, for each salt, and a check hashes again.
-/
structure CyclicKeys : Prop where
  cipher : ∃ digest : lib.Salt → Bytes → Bytes,
    (∀ key salt, key.length ≤ bcryptInputBytes →
      lib.hashpw key salt = digest salt (cipherKey key)) ∧
    ∀ salt left right,
      left.length = bcryptInputBytes →
        right.length = bcryptInputBytes →
          digest salt left = digest salt right →
            left = right
  recomputes : ∀ key made salt,
    key.length ≤ bcryptInputBytes →
      lib.bcryptCheckpw key (lib.hashpw made salt) =
        .ok (decide
          (lib.hashpw key salt = lib.hashpw made salt))

variable {lib}
variable {IsHash : Bytes → Prop}
variable {bytes key made : Bytes}

------------------------------------------------------------
-- Keys
------------------------------------------------------------

/- Hashes agree when the repeated keys do. -/
theorem CyclicKeys.hashpw_eq_iff
    (hCyclic : lib.CyclicKeys)
    {salt : lib.Salt}
    (hKey : key.length ≤ bcryptInputBytes)
    (hMade : made.length ≤ bcryptInputBytes) :
    lib.hashpw key salt = lib.hashpw made salt ↔
      cipherKey key = cipherKey made := by
  rcases hCyclic.cipher with ⟨digest, hDigest, hInjective⟩
  rw [hDigest key salt hKey, hDigest made salt hMade]
  constructor
  · intro hSame
    exact hInjective salt _ _ length_keyBytes
      length_keyBytes hSame
  · intro hSame
    rw [hSame]

/- Base64 text holds no zero byte. -/
theorem preHash_ne_zero
    (byte : UInt8)
    (hMem : byte ∈ lib.preHash bytes) :
    byte ≠ 0 := by
  intro hZero
  have hBounds := Base64.encode_bounds hMem
  rw [hZero] at hBounds
  exact absurd hBounds.1 (by decide)

theorem ascii_preHash
    (bytes : Bytes) :
    Ascii (lib.preHash bytes) :=
  Base64.ascii_encode _

/- A key that fits and repeats as a pre-hash does. -/
theorem cipherKey_eq_iff
    (hContract : lib.Contract IsHash)
    (hKey : key.length ≤ bcryptInputBytes) :
    cipherKey key = cipherKey (lib.preHash bytes) ↔
      key = lib.preHash bytes ∨
        key = lib.preHash bytes ++
          0 :: (lib.preHash bytes).take 27 := by
  have hLength := length_preHash hContract bytes
  unfold preHashLength at hLength
  unfold bcryptInputBytes at hKey
  unfold cipherKey bcryptInputBytes
  rw [keyBytes_eq_iff preHash_ne_zero (by omega) (by omega)
    hKey, hLength]

/- Such a cipher tells pre-hashes apart. -/
theorem CyclicKeys.checksPreHash
    (hContract : lib.Contract IsHash)
    (hCyclic : lib.CyclicKeys) :
    lib.ChecksPreHash := by
  intro bytes made salt
  have hBytes := length_preHash hContract bytes
  have hMade := length_preHash hContract made
  unfold preHashLength at hBytes hMade
  have hFits :
      (lib.preHash bytes).length ≤ bcryptInputBytes := by
    unfold bcryptInputBytes
    omega
  have hMadeFits :
      (lib.preHash made).length ≤ bcryptInputBytes := by
    unfold bcryptInputBytes
    omega
  rw [hCyclic.recomputes _ _ salt hFits]
  congr 1
  apply decide_eq_decide.mpr
  rw [hCyclic.hashpw_eq_iff hFits hMadeFits,
    cipherKey_eq_iff hContract hFits]
  constructor
  · intro hEither
    rcases hEither with hSame | hLong
    · exact hSame
    · -- The expansion has 72 bytes, not 44.
      have hLengths := congrArg List.length hLong
      simp only [List.length_append, List.length_cons,
        List.length_take] at hLengths
      omega
  · intro hSame
    exact .inl hSame

end Library

end Hashing

end CrudAuth
