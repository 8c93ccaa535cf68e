import CrudAuth.RateLimit.DatabaseCounters
import CrudAuth.Storage.ShortenedKeys

/-
  Window-stamped keys: `key:window_start`.  Two windows never
  share one, neither as texts nor as the database stores
  them, as long as SHA-256 keeps the texts of a run apart.

  Main declarations:
    * `stamp`
    * `stamp_inj`
    * `DatabaseCounters.HexDigest`
    * `DatabaseCounters.column_stamp_inj`
    * `DatabaseCounters.apart_of_shortens`
-/

namespace CrudAuth

namespace RateLimit

open Storage (Text storedKey databaseKeyMaxLength
  databaseKeyDigestSeparator)

------------------------------------------------------------
-- Separators
------------------------------------------------------------

section Separators

variable {α : Type}
variable {separates : α → Bool}
variable {left left' right right' : List α}
variable {mark mark' : α}

/- What follows the last mark of a text. -/
theorem takeWhile_of_reverse
    (hMark : separates mark = true)
    (hRight : ∀ item ∈ right, separates item = false) :
    (left ++ mark :: right).reverse.takeWhile
        (fun item => !separates item) =
      right.reverse := by
  have hFree : ∀ item ∈ right.reverse,
      (!separates item) = true := by
    intro item hItem
    rw [hRight item (List.mem_reverse.mp hItem)]
    rfl
  rw [List.reverse_append, List.reverse_cons,
    List.append_assoc, List.takeWhile_append_of_pos hFree]
  simp [hMark]

/- A text splits at its last separator in one way. -/
theorem split_last_separator
    (hMark : separates mark = true)
    (hMark' : separates mark' = true)
    (hRight : ∀ item ∈ right, separates item = false)
    (hRight' : ∀ item ∈ right', separates item = false)
    (hSame : left ++ mark :: right =
      left' ++ mark' :: right') :
    left = left' ∧ mark = mark' ∧ right = right' := by
  have hTaken :=
    @takeWhile_of_reverse _ _ left _ _ hMark hRight
  rw [hSame, takeWhile_of_reverse hMark' hRight'] at hTaken
  have hTail : right = right' :=
    (List.reverse_injective hTaken).symm
  subst hTail
  have hHead := List.append_inj' hSame rfl
  exact ⟨hHead.1, (List.cons.inj hHead.2).1, rfl⟩

end Separators

------------------------------------------------------------
-- Stamps
------------------------------------------------------------

/- `str(window_start)` -/
def digits (number : Nat) : Text :=
  Nat.toDigits 10 number

/- `f"{key}:{window_start}"` -/
def stamp (key : Text) (window : Nat) : Text :=
  key ++ ':' :: digits window

variable {key key' : Text}
variable {window window' : Nat}

theorem isDigit_of_mem_digits
    {char : Char}
    (hChar : char ∈ digits window) :
    char.isDigit = true :=
  Nat.isDigit_of_mem_toDigits (by decide) (by decide) hChar

/- Windows are written apart. -/
theorem digits_inj
    (hSame : digits window = digits window') :
    window = window' := by
  have hRead : ∀ number : Nat,
      Nat.ofDigitChars 10 (digits number) 0 = number :=
    fun _ =>
      Nat.ofDigitChars_toDigits (by decide) (by decide)
  rw [← hRead window, hSame, hRead window']

/- Neither a stamp nor a digest has these in its end. -/
def isMark (char : Char) : Bool :=
  char = ':' || char = '#'

/- A digit is no mark. -/
theorem not_isMark_of_isDigit
    {char : Char}
    (hDigit : char.isDigit = true) :
    isMark char = false := by
  unfold isMark
  rw [Bool.or_eq_false_iff, decide_eq_false_iff_not,
    decide_eq_false_iff_not]
  constructor
  · rintro rfl
    revert hDigit
    decide
  · rintro rfl
    revert hDigit
    decide

theorem not_isMark_of_mem_digits :
    ∀ char ∈ digits window, isMark char = false :=
  fun _ hChar =>
    not_isMark_of_isDigit (isDigit_of_mem_digits hChar)

/- A stamp tells its key and its window. -/
theorem stamp_inj
    (hSame : stamp key window = stamp key' window') :
    key = key' ∧ window = window' := by
  have hSplit := split_last_separator (by decide)
    (by decide) not_isMark_of_mem_digits
    not_isMark_of_mem_digits hSame
  exact ⟨hSplit.1, digits_inj hSplit.2.2⟩

------------------------------------------------------------
-- Stored Stamps
------------------------------------------------------------

namespace DatabaseCounters

/- A digest is 64 hexadecimal digits. -/
structure HexDigest (digest : Text → Text) : Prop where
  length : ∀ key, (digest key).length = 64
  hex : ∀ key, ∀ char ∈ digest key,
    char.isDigit = true ∨ ('a' ≤ char ∧ char ≤ 'f')

variable {config : Config}

theorem not_isMark_of_mem_digest
    (hDigest : HexDigest config.digest)
    (text : Text) :
    ∀ char ∈ config.digest text, isMark char = false := by
  intro char hChar
  rcases hDigest.hex text char hChar with hDigit | hLetter
  · exact not_isMark_of_isDigit hDigit
  · unfold isMark
    rw [Bool.or_eq_false_iff, decide_eq_false_iff_not,
      decide_eq_false_iff_not]
    constructor
    · rintro rfl
      exact absurd hLetter.1 (by decide)
    · rintro rfl
      exact absurd hLetter.1 (by decide)

/- A column is the stamp itself, or ends in its digest. -/
theorem column_stamp_cases
    (key : Text)
    (window : Nat) :
    config.column (stamp key window) =
        (config.keyPrefix ++ key) ++ ':' :: digits window ∨
      ∃ start, config.column (stamp key window) =
        start ++ '#' ::
          config.digest
            (config.keyPrefix ++ stamp key window) := by
  unfold Config.column storedKey
  split
  · left
    unfold stamp
    rw [List.append_assoc]
  · right
    unfold databaseKeyDigestSeparator
    exact ⟨_, by rw [List.append_assoc]; rfl⟩

/-
  Stamps that are stored as one text are one stamp, where
  the digests of different stamps differ.
-/
theorem column_stamp_inj
    (hDigest : HexDigest config.digest)
    (hApart :
      config.digest (config.keyPrefix ++ stamp key window) =
          config.digest
            (config.keyPrefix ++ stamp key' window') →
        stamp key window = stamp key' window')
    (hSame : config.column (stamp key window) =
      config.column (stamp key' window')) :
    stamp key window = stamp key' window' := by
  have hHex := not_isMark_of_mem_digest hDigest
  rcases column_stamp_cases key window with
    hPlain | ⟨start, hLong⟩
  · rcases column_stamp_cases key' window' with
      hPlain' | ⟨start', hLong'⟩
    · rw [hPlain, hPlain'] at hSame
      have hSplit := split_last_separator (by decide)
        (by decide) not_isMark_of_mem_digits
        not_isMark_of_mem_digits hSame
      rw [List.append_cancel_left hSplit.1,
        digits_inj hSplit.2.2]
    · rw [hPlain, hLong'] at hSame
      have hSplit := split_last_separator (by decide)
        (by decide) not_isMark_of_mem_digits (hHex _) hSame
      exact absurd hSplit.2.1 (by decide)
  · rcases column_stamp_cases key' window' with
      hPlain' | ⟨start', hLong'⟩
    · rw [hLong, hPlain'] at hSame
      have hSplit := split_last_separator (by decide)
        (by decide) (hHex _) not_isMark_of_mem_digits hSame
      exact absurd hSplit.2.1 (by decide)
    · rw [hLong, hLong'] at hSame
      have hSplit := split_last_separator (by decide)
        (by decide) (hHex _) (hHex _) hSame
      exact hApart hSplit.2.2

/-
  Shortened or not, identifiers are counted apart, where no
  key just fills its column.
-/
theorem apart_of_shortens
    {keys : Set Text}
    (hShortens :
      Storage.Shortens config.digest
        (Set.image (config.keyPrefix ++ ·) keys))
    (hFull : ∀ key ∈ keys,
      (config.keyPrefix ++ key).length ≠
        databaseKeyMaxLength) :
    config.Apart keys := by
  intro left hLeft right hRight hSame
  unfold Config.column at hSame
  have hMem (key : Text) (hKey : key ∈ keys) :
      config.keyPrefix ++ key ∈
        Set.image (config.keyPrefix ++ ·) keys :=
    ⟨key, hKey, rfl⟩
  rcases Nat.lt_or_gt_of_ne (hFull left hLeft) with
    hShort | hLong
  · rcases Nat.lt_or_gt_of_ne (hFull right hRight) with
      hShort' | hLong'
    · rw [Storage.storedKey_of_fits hShort.le,
        Storage.storedKey_of_fits hShort'.le] at hSame
      exact List.append_cancel_left hSame
    · have hUnlike := hShortens.unlike _ _ hLong' hShort
      exact absurd hSame.symm hUnlike.2
  · rcases Nat.lt_or_gt_of_ne (hFull right hRight) with
      hShort' | hLong'
    · have hUnlike := hShortens.unlike _ _ hLong hShort'
      exact absurd hSame hUnlike.2
    · by_contra hDiffer
      apply hShortens.apart _ (hMem left hLeft) _
        (hMem right hRight) hLong hLong' _ hSame
      intro hFullSame
      exact hDiffer (List.append_cancel_left hFullSame)

end DatabaseCounters

end RateLimit

end CrudAuth
