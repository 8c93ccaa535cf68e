import CrudAuth.Hashing.Scenario
import CrudAuth.Hashing.Upgrade

/-
  Which strings the plain bcrypt verifier accepts against a
  hash crudauth made.

  Main declarations:
    * `Library.RepeatsPreHash`
    * `Library.verifyPlainBcrypt_eq`
-/

namespace CrudAuth

namespace Hashing

namespace Library

variable (lib : Library)

/-
  A password that starts with the pre-hash of another one, a
  zero byte, and the pre-hash again up to 72 bytes.
-/
def RepeatsPreHash (p q : Str) : Prop :=
  ∃ bytes typed,
    (lib.nfkc p).encode = some bytes ∧
      q.encode = some typed ∧
        Str.ofAscii
            (lib.preHash bytes ++
              0 :: (lib.preHash bytes).take 27) <+:
          q

variable {lib}
variable {IsHash : Bytes → Prop}
variable {p q hash : Str}
variable {bytes : Bytes}

------------------------------------------------------------
-- The Verifier
------------------------------------------------------------

/- The guard refuses the pre-hash itself. -/
theorem looksLikePreHash_preHash
    (hContract : lib.Contract IsHash)
    (bytes : Bytes) :
    looksLikePreHash (Str.ofAscii (lib.preHash bytes)) =
      true := by
  have hLength :
      (Str.ofAscii (lib.preHash bytes)).length =
        preHashLength := by
    unfold Str.ofAscii
    rw [List.length_map, length_preHash hContract]
  have hDecode :
      (Str.ofAscii (lib.preHash bytes)).encode.bind
          Base64.decode =
        some (lib.sha256 bytes) := by
    rw [Str.encode_ofAscii (ascii_preHash bytes),
      Option.bind_some]
    exact Base64.decode_encode _
  unfold looksLikePreHash
  rw [if_neg (not_not.mpr hLength), hDecode]
  simp [hContract.digest_length]

/- The expansion is no pre-hash to the guard: too long. -/
theorem not_looksLikePreHash_of_start
    (hContract : lib.Contract IsHash)
    (hStart :
      Str.ofAscii
          (lib.preHash bytes ++
            0 :: (lib.preHash bytes).take 27) <+:
        q) :
    looksLikePreHash q = false := by
  have hLonger := hStart.length_le
  have hLength := length_preHash hContract bytes
  unfold preHashLength at hLength
  simp only [Str.ofAscii, List.length_map,
    List.length_append, List.length_cons, List.length_take]
    at hLonger
  unfold looksLikePreHash preHashLength
  rw [if_pos (by omega)]

theorem ascii_expansion
    (bytes : Bytes) :
    Ascii (lib.preHash bytes ++
      0 :: (lib.preHash bytes).take 27) := by
  intro byte hMem
  rcases List.mem_append.mp hMem with hFirst | hRest
  · exact ascii_preHash bytes byte hFirst
  · rcases List.mem_cons.mp hRest with rfl | hAgain
    · decide
    · exact ascii_preHash bytes byte
        (List.mem_of_mem_take hAgain)

/- The verifier past its guard, on a hash crudauth made. -/
theorem verifyPlainBcrypt_made
    (hContract : lib.Contract IsHash)
    (hCyclic : lib.CyclicKeys)
    (hMade : lib.MadeFrom (lib.nfkc p) hash)
    {typed : Bytes}
    (hTyped : q.encode = some typed)
    (hGuard : looksLikePreHash q = false) :
    ∃ bytes,
      (lib.nfkc p).encode = some bytes ∧
        (lib.verifyPlainBcrypt q hash).outcome =
          .ok (decide
            (cipherKey (typed.take bcryptInputBytes) =
              cipherKey (lib.preHash bytes))) := by
  rcases hMade with ⟨bytes, salt, hBytes, rfl⟩
  refine ⟨bytes, hBytes, ?_⟩
  have hStored := Str.encode_ofAscii
    (hContract.hash_ascii (lib.preHash bytes) salt)
  have hFits : (typed.take bcryptInputBytes).length ≤
      bcryptInputBytes := by
    rw [List.length_take]
    omega
  have hLength := length_preHash hContract bytes
  have hKey :
      (lib.preHash bytes).length ≤ bcryptInputBytes := by
    rw [hLength]
    decide
  have hAnswer := hCyclic.recomputes
    (typed.take bcryptInputBytes) (lib.preHash bytes) salt
    hFits
  have hSame :
      decide (lib.hashpw (typed.take bcryptInputBytes)
          salt = lib.hashpw (lib.preHash bytes) salt) =
        decide
          (cipherKey (typed.take bcryptInputBytes) =
            cipherKey (lib.preHash bytes)) :=
    decide_eq_decide.mpr
      (hCyclic.hashpw_eq_iff hFits hKey)
  rw [hSame] at hAnswer
  unfold verifyPlainBcrypt
  rw [if_neg (by rw [hGuard]; decide), encode_eq hTyped,
    encode_eq hStored, Work.free_ok_bind,
    Work.free_ok_bind, countedCheckpw_ok hAnswer,
    Work.except_ok rfl]

/- A password without bytes is a non-match. -/
theorem verifyPlainBcrypt_unencodable
    (hTyped : q.encode = none) :
    lib.verifyPlainBcrypt q hash = pure false := by
  unfold verifyPlainBcrypt
  by_cases hGuard : looksLikePreHash q = true
  · rw [if_pos hGuard]
  · rw [if_neg hGuard, encode_error hTyped,
      Work.free_error_bind, Work.except_free (by decide)]

/-
  The verifier refuses a password against a hash crudauth
  made unless the password repeats the pre-hash around a
  zero byte, through all of the 72 bytes compared.
-/
theorem verifyPlainBcrypt_eq
    (hContract : lib.Contract IsHash)
    (hCyclic : lib.CyclicKeys)
    {salt : lib.Salt}
    (hHash :
      (lib.getPasswordHash salt p).outcome = .ok hash) :
    (lib.verifyPlainBcrypt q hash).outcome = .ok false ↔
      ¬ lib.RepeatsPreHash p q := by
  have hMade := getPasswordHash_made hHash
  cases hTyped : q.encode with
  | none =>
      rw [verifyPlainBcrypt_unencodable hTyped]
      constructor
      · intro _ hRepeats
        rcases hRepeats with ⟨_, typed, -, hBytes, -⟩
        rw [hTyped] at hBytes
        cases hBytes
      · intro _
        rfl
  | some typed =>
      have hFits : (typed.take bcryptInputBytes).length ≤
          bcryptInputBytes := by
        rw [List.length_take]
        omega
      by_cases hGuard : looksLikePreHash q = true
      · -- Refused by shape; the expansion is longer.
        have hRefused :
            lib.verifyPlainBcrypt q hash = pure false := by
          unfold verifyPlainBcrypt
          rw [if_pos hGuard]
        rw [hRefused]
        constructor
        · intro _ hRepeats
          rcases hRepeats with ⟨bytes, _, -, -, hStart⟩
          rw [not_looksLikePreHash_of_start hContract
            hStart] at hGuard
          cases hGuard
        · intro _
          rfl
      · rw [Bool.not_eq_true] at hGuard
        rcases verifyPlainBcrypt_made hContract hCyclic
          hMade hTyped hGuard with
          ⟨bytes, hBytes, hOutcome⟩
        have hLength := length_preHash hContract bytes
        unfold preHashLength at hLength
        rw [hOutcome]
        constructor
        · intro hFalse hRepeats
          rcases hRepeats with
            ⟨other, again, hOther, hAgain, hStart⟩
          rw [hBytes] at hOther
          have hSame := Option.some.inj hOther
          subst hSame
          have hPrefix := Str.prefix_encode
            (ascii_expansion bytes) hTyped hStart
          have hTake := List.prefix_iff_eq_take.mp hPrefix
          have hCount :
              (lib.preHash bytes ++
                0 :: (lib.preHash bytes).take 27).length =
              bcryptInputBytes := by
            simp only [List.length_append,
              List.length_cons, List.length_take]
            unfold bcryptInputBytes
            omega
          rw [hCount] at hTake
          have hAgree :=
            (cipherKey_eq_iff hContract hFits).mpr
              (.inr hTake.symm)
          rw [decide_eq_true hAgree] at hFalse
          cases hFalse
        · intro hNot
          congr 1
          apply decide_eq_false
          intro hAgree
          rcases (cipherKey_eq_iff hContract hFits).mp
            hAgree with hSame | hRepeated
          · -- Then the password is the pre-hash itself.
            have hWhole :
                typed.take bcryptInputBytes = typed := by
              apply List.take_of_length_le
              have hTaken := congrArg List.length hSame
              rw [List.length_take, hLength] at hTaken
              unfold bcryptInputBytes at hTaken ⊢
              omega
            rw [hWhole] at hSame
            have hText : q =
                Str.ofAscii (lib.preHash bytes) := by
              apply Str.encode_injective hTyped
              rw [hSame]
              exact Str.encode_ofAscii
                (ascii_preHash bytes)
            rw [hText, looksLikePreHash_preHash
              hContract] at hGuard
            cases hGuard
          · apply hNot
            refine ⟨bytes, typed, hBytes, hTyped, ?_⟩
            apply Str.prefix_of_encode
              (ascii_expansion bytes) hTyped
            rw [← hRepeated]
            exact List.take_prefix _ _

/- The hash of the most common password. -/
def commonHash : Str :=
  Str.ofAscii (spelledHash
    (Scenario.library.preHash
      [112, 97, 115, 115, 119, 111, 114, 100]))

/- Its digest in base64, around a zero byte. -/
def repeatedDigest : Str :=
  Str.ofString
      "XohImNooBHFR0OVvjcYpJ3NgPQ1qq73WKhHvch0VQtg=" ++
    .scalar (Char.ofNat 0) ::
      Str.ofString "XohImNooBHFR0OVvjcYpJ3NgPQ1"

/- The digest around the zero byte is what is not refused. -/
theorem verifyPlainBcrypt_common :
    (Scenario.library.verifyPlainBcrypt Scenario.letters
        commonHash).outcome = .ok false ↔
      ¬ Scenario.library.RepeatsPreHash Scenario.common
        Scenario.letters :=
  @verifyPlainBcrypt_eq _ _ Scenario.common
    Scenario.letters commonHash Scenario.contract
    Scenario.cyclicKeys () rfl

/- Nobody who sends this knows the password. -/
theorem verifyPlainBcrypt_repeatedDigest :
    (Scenario.library.getPasswordHash ()
        Scenario.common).outcome = .ok commonHash ∧
      (Scenario.library.verifyPlainBcrypt repeatedDigest
        commonHash).outcome = .ok true := by
  constructor
  · rfl
  · rfl

end Library

end Hashing

end CrudAuth
