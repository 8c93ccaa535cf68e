import CrudAuth.Hashing.Upgrade
import CrudAuth.Utils.Hashing

/-
  The checks over text refine the checks by form: what a
  stored text is to bcrypt decides what its abstraction is
  to `Runtime`.

  Main declarations:
    * `Library.Stores`
    * `Library.matchingForm_refines`
-/

namespace CrudAuth

namespace Hashing

namespace Library

variable (lib : Library)

/- The texts that stand for an abstract stored hash. -/
def Stores
    (passwords : Set Str) :
    CrudAuth.StoredHash → Option Str → Prop
  | .missing, stored => stored = none
  | .unusable _, stored =>
      ∃ token, stored = some (makeUnusablePassword token)
  | .bcrypt form _, stored =>
      ∃ text, stored = some text ∧
        Str.ofString form ∈ passwords ∧
          lib.MadeFrom (Str.ofString form) text
  | .foreign text, stored =>
      stored = some (Str.ofString text) ∧
        ∀ form ∈ passwords,
          lib.passes form stored = false

variable {lib}
variable {IsHash : Bytes → Prop}
variable {passwords : Set Str}
variable {runtime : Runtime}
variable {password : String}
variable {hash : CrudAuth.StoredHash}
variable {stored : Option Str}

/- A text without surrogates is its string. -/
theorem ofString_injective
    {left right : String}
    (hSame : Str.ofString left = Str.ofString right) :
    left = right := by
  unfold Str.ofString at hSame
  apply String.toList_inj.mp
  apply List.map_injective_iff.mpr _ hSame
  intro first second hPoint
  exact CodePoint.scalar.inj hPoint

/- One comparison, over text and by form. -/
theorem passes_refines
    (hContract : lib.Contract IsHash)
    (hChecks : lib.ChecksPreHash)
    (hSet : lib.PasswordSet passwords)
    (hMem : Str.ofString password ∈ passwords)
    (hStores : lib.Stores passwords hash stored) :
    lib.passes (Str.ofString password) stored =
      hash.checkpw password := by
  cases hash with
  | missing =>
      have hNone : stored = none := hStores
      subst hNone
      exact passes_absent hContract
        (not_storedHash_nil hContract)
  | unusable suffix =>
      rcases hStores with ⟨token, rfl⟩
      exact passes_absent hContract
        (not_storedHash_unusable hContract _)
  | foreign text =>
      exact hStores.2 _ hMem
  | bcrypt form salt =>
      rcases hStores with ⟨made, rfl, hForm, hMade⟩
      have hPasses := passes_iff hContract hChecks hSet hMem
        hForm hMade
      unfold StoredHash.checkpw
      rw [Bool.eq_iff_iff, hPasses, beq_iff_eq]
      constructor
      · exact ofString_injective
      · intro hSame
        rw [hSame]

/-
  The form a password matches by, over text, is the form the
  abstract check finds.
-/
theorem matchingForm_refines
    (hContract : lib.Contract IsHash)
    (hChecks : lib.ChecksPreHash)
    (hSet : lib.PasswordSet passwords)
    (hNormal : ∀ text,
      lib.nfkc (Str.ofString text) =
        Str.ofString (runtime.normalizePassword text))
    (hMem : Str.ofString password ∈ passwords)
    (hStores : lib.Stores passwords hash stored) :
    (lib.matchingForm (Str.ofString password)
        stored).outcome =
      .ok ((runtime.matchingForm password hash).map
        Str.ofString) := by
  have hNormalMem := hSet.normal _ hMem
  rw [hNormal] at hNormalMem
  have hFirst := passes_refines hContract hChecks hSet
    hNormalMem hStores
  have hSecond := passes_refines hContract hChecks hSet
    hMem hStores
  rw [matchingForm_outcome hContract, hNormal, hFirst,
    hSecond]
  unfold Runtime.matchingForm
  congr 1
  by_cases hMatches :
      hash.checkpw (runtime.normalizePassword password)
  · rw [if_pos hMatches, if_pos hMatches]
    rfl
  · rw [if_neg hMatches, if_neg hMatches]
    have hTyped : (Str.ofString password ≠
          Str.ofString
            (runtime.normalizePassword password)) ↔
        password ≠ runtime.normalizePassword password :=
      not_congr ⟨ofString_injective,
        fun hSame => congrArg Str.ofString hSame⟩
    by_cases hBoth :
        password ≠ runtime.normalizePassword password ∧
          hash.checkpw password = true
    · rw [if_pos hBoth,
        if_pos ⟨hTyped.mpr hBoth.1, hBoth.2⟩]
      rfl
    · rw [if_neg hBoth, if_neg (fun hText =>
        hBoth ⟨hTyped.mp hText.1, hText.2⟩)]
      rfl

end Library

end Hashing

end CrudAuth
