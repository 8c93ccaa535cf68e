import CrudAuth.Hashing.Cipher

/-
  A bcrypt whose hashes spell out the bytes it read, and a
  library that has Unicode's and SHA-256's own values for a
  few passwords.

  Main declarations:
    * `Library.spelled`
    * `Library.contract_spelled`
    * `Library.cyclicKeys_spelled`
    * `Scenario.library`
-/

namespace CrudAuth

namespace Hashing

namespace Library

------------------------------------------------------------
-- A Transparent Cipher
------------------------------------------------------------

/- `$2b$12$` -/
def hashPrefix : Bytes := [36, 50, 98, 36, 49, 50, 36]

/- The texts this bcrypt reads. -/
def SpelledHash (text : Bytes) : Prop :=
  hashPrefix <+: text

instance : DecidablePred SpelledHash := fun text =>
  inferInstanceAs (Decidable (hashPrefix <+: text))

/- The hash spells the repeated key in base64. -/
def spelledHash (key : Bytes) : Bytes :=
  hashPrefix ++ Base64.encode (cipherKey key)

/- A library that spells its hashes out. -/
def spelled
    (nfkc : Str → Str)
    (sha256 : Bytes → Bytes) : Library where
  nfkc := nfkc
  sha256 := sha256
  Salt := Unit
  hashpw key _ := spelledHash key
  bcryptCheckpw key text :=
    if SpelledHash text then
      .ok (decide (spelledHash key = text))
    else
      .error .valueError
  dummyHash :=
    Str.ofAscii (spelledHash (Base64.encode (sha256 [])))

variable {nfkc : Str → Str}
variable {sha256 : Bytes → Bytes}

theorem spelledHash_starts
    (key : Bytes) :
    SpelledHash (spelledHash key) :=
  List.prefix_append _ _

theorem ascii_spelledHash
    (key : Bytes) :
    Ascii (spelledHash key) := by
  have hPrefixed : Ascii hashPrefix := by
    have hAll :
        hashPrefix.all (fun byte => byte.toNat < 128) =
          true :=
      rfl
    intro byte hByte
    exact of_decide_eq_true
      (List.all_eq_true.mp hAll byte hByte)
  intro byte hMem
  rcases List.mem_append.mp hMem with hPrefix | hKey
  · exact hPrefixed byte hPrefix
  · exact Base64.ascii_encode _ byte hKey

/- Such a library behaves as documented. -/
theorem contract_spelled
    (hLength : ∀ message, (sha256 message).length = 32) :
    (spelled nfkc sha256).Contract SpelledHash where
  digest_length := hLength
  hash_ascii := fun key _ => ascii_spelledHash key
  hash_isHash := fun key _ => spelledHash_starts key
  hash_dollar := by
    intro text hHash
    rcases hHash with ⟨rest, rfl⟩
    rfl
  answers := fun key text _ hHash =>
    ⟨_, if_pos hHash⟩
  refuses := fun key text hHash => if_neg hHash
  dummy_made := ⟨_, (), rfl⟩

/- The sample hash spells its repeated key. -/
theorem cyclicKeys_spelled :
    (spelled nfkc sha256).CyclicKeys where
  cipher := by
    refine ⟨fun _ key =>
      hashPrefix ++ Base64.encode key, ?_, ?_⟩
    · intro key salt _
      rfl
    · intro salt left right _ _ hSame
      apply Base64.encode_injective
      exact List.append_cancel_left hSame
  recomputes := by
    intro key made salt _
    unfold spelled
    dsimp only
    rw [if_pos (spelledHash_starts made)]

end Library

------------------------------------------------------------
-- A Few Passwords
------------------------------------------------------------

namespace Scenario

/- The ligature `fi`, U+FB01. -/
def ligature : Str := [.scalar 'ﬁ']

/- Two letters, as a compatibility character has them. -/
def letters : Str := Str.ofString "fi"

/- A password without any such character. -/
def common : Str := Str.ofString "password"

/- NFKC replaces the ligature by its letters. -/
def nfkc (text : Str) : Str :=
  text.flatMap fun point =>
    if point = .scalar 'ﬁ' then letters else [point]

/- The sample normalization is stable. -/
theorem nfkc_idempotent
    (text : Str) :
    nfkc (nfkc text) = nfkc text := by
  unfold nfkc
  rw [List.flatMap_assoc]
  congr 1
  funext point
  by_cases hLigature : point = .scalar 'ﬁ'
  · rw [if_pos hLigature]
    decide
  · rw [if_neg hLigature, List.flatMap_cons,
      if_neg hLigature]
    rfl

/- SHA-256 of the three passwords, and zeros elsewhere. -/
def sha256 (message : Bytes) : Bytes :=
  if message = [102, 105] then
    [180, 189, 200, 72, 16, 151, 34, 163, 131, 208, 169,
      114, 198, 235, 133, 159, 42, 189, 41, 86, 91, 140, 76,
      199, 25, 158, 124, 158, 183, 8, 241, 183]
  else if message = [239, 172, 129] then
    [182, 85, 76, 206, 138, 147, 241, 200, 129, 130, 128,
      226, 167, 104, 17, 106, 121, 33, 106, 213, 80, 26,
      133, 53, 125, 35, 52, 9, 219, 135, 211, 64]
  else if message =
      [112, 97, 115, 115, 119, 111, 114, 100] then
    [94, 136, 72, 152, 218, 40, 4, 113, 81, 208, 229, 111,
      141, 198, 41, 39, 115, 96, 61, 13, 106, 171, 189, 214,
      42, 17, 239, 114, 29, 21, 66, 216]
  else
    List.replicate 32 0

theorem length_sha256
    (message : Bytes) :
    (sha256 message).length = 32 := by
  unfold sha256
  split
  · rfl
  · split
    · rfl
    · split
      · rfl
      · rfl

/- The library of the examples. -/
def library : Library :=
  Library.spelled nfkc sha256

/- The sample library meets the contract. -/
theorem contract :
    library.Contract Library.SpelledHash :=
  Library.contract_spelled length_sha256

/- Its keys repeat as those of bcrypt do. -/
theorem cyclicKeys : library.CyclicKeys :=
  Library.cyclicKeys_spelled

/- The ligature, and the letters it stands for. -/
def passwords : Set Str :=
  fun text => text = ligature ∨ text = letters

/- The ligature and its letters do not collide. -/
theorem passwordSet :
    library.PasswordSet passwords where
  encodable := by
    intro password hMem
    rcases hMem with rfl | rfl
    · exact ⟨_, rfl⟩
    · exact ⟨_, rfl⟩
  normal := by
    intro password hMem
    right
    rcases hMem with rfl | rfl
    · decide
    · decide
  collisionFree := by
    intro left hLeft right hRight leftBytes rightBytes
      hLeftBytes hRightBytes hDigest
    rcases hLeft with rfl | rfl
    · rcases hRight with rfl | rfl
      · rw [hLeftBytes] at hRightBytes
        exact Option.some.inj hRightBytes
      · rw [← Option.some.inj hLeftBytes,
          ← Option.some.inj hRightBytes] at hDigest
        exact absurd hDigest (by decide)
    · rcases hRight with rfl | rfl
      · rw [← Option.some.inj hLeftBytes,
          ← Option.some.inj hRightBytes] at hDigest
        exact absurd hDigest (by decide)
      · rw [hLeftBytes] at hRightBytes
        exact Option.some.inj hRightBytes

end Scenario

end Hashing

end CrudAuth
