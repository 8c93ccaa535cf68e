import CrudAuth.Registration.Gating
import CrudAuth.Registration.OAuthAccounts
import Mathlib.Data.List.Chain
import Mathlib.Data.List.DropRight

/-
  Generated usernames are well formed: whatever the profile,
  the column and the names taken, a sign-up through OAuth
  stores groups of letters and digits joined by single
  underscores, and finds its name in a bounded search.

  Main declarations:
    * `Grouped`
    * `Tidy`
    * `tidy_sanitizeUsername`
    * `tidy_usernameWithSuffix`
    * `tokenHex`
    * `AuthSurface.GeneratedUsername`
    * `AuthSurface.obeys_createUser`
-/

namespace CrudAuth

namespace Registration

open Concurrency

------------------------------------------------------------
-- Groups Of Letters And Digits
------------------------------------------------------------

/- `[a-z0-9]+(_[a-z0-9]+)*` -/
def Grouped (chars : List Char) : Prop :=
  ∃ groups : List (List Char),
    groups ≠ [] ∧
    (∀ group ∈ groups, group ≠ [] ∧
      ∀ char ∈ group, isUsernameChar char = true) ∧
    chars = List.intercalate ['_'] groups

/-
  Letters, digits and underscores, no two underscores next
  to each other.
-/
structure Smooth (chars : List Char) : Prop where
  allowed : ∀ char ∈ chars,
    isUsernameChar char = true ∨ char = '_'
  single : chars.IsChain fun left right =>
    left = '_' → right ≠ '_'

/- The text starts with a letter or a digit. -/
def StartsWell (chars : List Char) : Prop :=
  ∃ first ∈ chars.head?, isUsernameChar first = true

/- The text ends with a letter or a digit. -/
def EndsWell (chars : List Char) : Prop :=
  ∃ last ∈ chars.getLast?, isUsernameChar last = true

/- A name without doubled or outer separators. -/
structure Tidy (chars : List Char) : Prop where
  smooth : Smooth chars
  starts : StartsWell chars
  ends : EndsWell chars

variable {chars other : List Char}
variable {char : Char}

theorem not_isUsernameChar_underscore :
    isUsernameChar '_' = false := by
  decide

/- A letter or digit is no underscore. -/
theorem ne_underscore
    (hChar : isUsernameChar char = true) :
    char ≠ '_' := by
  rintro rfl
  rw [not_isUsernameChar_underscore] at hChar
  cases hChar

theorem Smooth.nil : Smooth [] :=
  ⟨by simp, List.isChain_nil⟩

/- Part of a smooth text is smooth. -/
theorem Smooth.within
    (hSmooth : Smooth chars)
    (hInfix : other <:+: chars) : Smooth other := by
  constructor
  · intro char hChar
    exact hSmooth.allowed char (hInfix.subset hChar)
  · exact hSmooth.single.infix hInfix

/- A letter or a digit may be put before anything smooth. -/
theorem Smooth.cons
    (hChar : isUsernameChar char = true)
    (hSmooth : Smooth chars) : Smooth (char :: chars) := by
  constructor
  · intro first hFirst
    rcases List.mem_cons.mp hFirst with rfl | hRest
    · exact .inl hChar
    · exact hSmooth.allowed first hRest
  · apply List.isChain_cons.mpr
    constructor
    · intro first _ hUnderscore
      exact absurd hUnderscore (ne_underscore hChar)
    · exact hSmooth.single

/- So may an underscore, unless there is one already. -/
theorem Smooth.underscore
    (hStart : ∀ first ∈ chars.head?, first ≠ '_')
    (hSmooth : Smooth chars) : Smooth ('_' :: chars) := by
  constructor
  · intro first hFirst
    rcases List.mem_cons.mp hFirst with rfl | hRest
    · exact .inr rfl
    · exact hSmooth.allowed first hRest
  · apply List.isChain_cons.mpr
    constructor
    · intro first hFirst _
      exact hStart first hFirst
    · exact hSmooth.single

theorem Grouped.single
    (hChar : isUsernameChar char = true) :
    Grouped [char] := by
  refine ⟨[[char]], by simp, ?_, by simp⟩
  intro group hGroup
  rw [List.mem_singleton.mp hGroup]
  constructor
  · simp
  · intro first hFirst
    rw [List.mem_singleton.mp hFirst]
    exact hChar

/- A letter or a digit joins the first group. -/
theorem Grouped.cons
    (hChar : isUsernameChar char = true)
    (hGrouped : Grouped chars) :
    Grouped (char :: chars) := by
  rcases hGrouped with ⟨groups, hSome, hGroups, rfl⟩
  cases groups with
  | nil => exact absurd rfl hSome
  | cons group rest =>
      have hFirst := hGroups group List.mem_cons_self
      refine ⟨(char :: group) :: rest, by simp, ?_, ?_⟩
      · intro other hOther
        rcases List.mem_cons.mp hOther with rfl | hRest
        · constructor
          · simp
          · intro first hMem
            rcases List.mem_cons.mp hMem with rfl | hGroup
            · exact hChar
            · exact hFirst.2 first hGroup
        · exact hGroups other
            (List.mem_cons_of_mem _ hRest)
      · cases rest with
        | nil => simp
        | cons next rest => simp

/- After an underscore, it is a group of its own. -/
theorem Grouped.join
    (hChar : isUsernameChar char = true)
    (hGrouped : Grouped chars) :
    Grouped (char :: '_' :: chars) := by
  rcases hGrouped with ⟨groups, hSome, hGroups, rfl⟩
  cases groups with
  | nil => exact absurd rfl hSome
  | cons group rest =>
      refine ⟨[char] :: group :: rest, by simp, ?_, ?_⟩
      · intro other hOther
        rcases List.mem_cons.mp hOther with rfl | hRest
        · constructor
          · simp
          · intro first hMem
            rw [List.mem_singleton.mp hMem]
            exact hChar
        · exact hGroups other hRest
      · simp

/- A smooth text with proper ends is made of groups. -/
theorem Tidy.grouped (hTidy : Tidy chars) :
    Grouped chars := by
  rcases hTidy with ⟨hSmooth, hStarts, hEnds⟩
  induction chars using List.twoStepInduction with
  | nil =>
      rcases hStarts with ⟨first, hFirst, _⟩
      cases hFirst
  | singleton char =>
      rcases hStarts with ⟨first, hFirst, hChar⟩
      cases hFirst
      exact .single hChar
  | cons_cons first second rest ihRest ih =>
      have hFirst : isUsernameChar first = true := by
        rcases hStarts with ⟨_, hHead, hChar⟩
        cases hHead
        exact hChar
      have hTail : Smooth (second :: rest) :=
        hSmooth.within (List.suffix_cons _ _).isInfix
      have hLast : EndsWell (second :: rest) := by
        unfold EndsWell at hEnds ⊢
        rw [List.getLast?_cons_cons] at hEnds
        exact hEnds
      rcases hTail.allowed second List.mem_cons_self with
        hSecond | rfl
      · exact (ih second hTail ⟨second, rfl, hSecond⟩
          hLast).cons hFirst
      · -- the group of `first` ends here
        cases rest with
        | nil =>
            rcases hLast with ⟨last, hMem, hChar⟩
            cases hMem
            exact absurd rfl (ne_underscore hChar)
        | cons third rest =>
            have hThird : third ≠ '_' :=
              (List.isChain_cons_cons.mp hTail.single).1 rfl
            have hChar : isUsernameChar third = true :=
              (hTail.allowed third (by simp)).resolve_right
                hThird
            unfold EndsWell at hLast
            rw [List.getLast?_cons_cons] at hLast
            exact (ihRest
              (hTail.within (List.suffix_cons _ _).isInfix)
              ⟨third, rfl, hChar⟩ hLast).join hFirst

------------------------------------------------------------
-- Trimming
------------------------------------------------------------

/- Stripping the end leaves a prefix. -/
theorem rstripUnderscore_prefix :
    rstripUnderscore chars <+: chars :=
  List.rdropWhile_prefix _ _

theorem ends_rstripUnderscore
    (hSmooth : Smooth chars)
    (hSome : rstripUnderscore chars ≠ []) :
    EndsWell (rstripUnderscore chars) := by
  have hLast :=
    List.rdropWhile_last_not (· = '_') chars hSome
  have hMem : (rstripUnderscore chars).getLast hSome ∈
      chars :=
    rstripUnderscore_prefix.subset (List.getLast_mem hSome)
  refine ⟨_, List.getLast?_eq_some_getLast hSome, ?_⟩
  apply (hSmooth.allowed _ hMem).resolve_right
  intro hUnderscore
  apply hLast
  rw [decide_eq_true_eq]
  exact hUnderscore

/- What starts well still does, trimmed at its end. -/
theorem starts_rstripUnderscore
    (hStarts : StartsWell chars) :
    StartsWell (rstripUnderscore chars) := by
  rcases hStarts with ⟨first, hFirst, hChar⟩
  cases chars with
  | nil => cases hFirst
  | cons head rest =>
      cases hFirst
      refine ⟨first, ?_, hChar⟩
      unfold rstripUnderscore
      rw [List.reverse_cons, List.dropWhile_append]
      split
      · have hStop : ([first] : List Char).dropWhile
            (· = '_') = [first] := by
          simp [ne_underscore hChar]
        rw [hStop]
        rfl
      · simp

/- Cut off after some characters and trimmed, it is tidy. -/
theorem tidy_rstripUnderscore_take
    {length : Nat}
    (hSmooth : Smooth chars)
    (hStarts : StartsWell chars)
    (hLength : 0 < length) :
    Tidy (rstripUnderscore (chars.take length)) := by
  have hTaken : Smooth (chars.take length) :=
    hSmooth.within (List.take_prefix _ _).isInfix
  have hTakenStarts : StartsWell (chars.take length) := by
    rcases hStarts with ⟨first, hFirst, hChar⟩
    refine ⟨first, ?_, hChar⟩
    rw [List.head?_take, if_neg (by omega)]
    exact hFirst
  have hTrimmed := starts_rstripUnderscore hTakenStarts
  constructor
  · exact hTaken.within rstripUnderscore_prefix.isInfix
  · exact hTrimmed
  · apply ends_rstripUnderscore hTaken
    intro hNil
    rcases hTrimmed with ⟨first, hFirst, _⟩
    rw [hNil] at hFirst
    cases hFirst

theorem length_rstripUnderscore_take (length : Nat) :
    (rstripUnderscore (chars.take length)).length ≤
      length :=
  rstripUnderscore_prefix.length_le.trans
    (List.length_take_le _ _)

------------------------------------------------------------
-- Sanitizing
------------------------------------------------------------

/- Inside a run of other characters nothing is added. -/
theorem smooth_underscored (inRun : Bool) :
    Smooth (underscored chars inRun) ∧
      (inRun = true →
        ∀ first ∈ (underscored chars inRun).head?,
          first ≠ '_') := by
  induction chars generalizing inRun with
  | nil =>
      constructor
      · exact .nil
      · intro _ first hFirst
        cases hFirst
  | cons char rest ih =>
      unfold underscored
      by_cases hChar : isUsernameChar char = true
      · rw [if_pos hChar]
        constructor
        · exact (ih false).1.cons hChar
        · intro _ first hFirst
          cases hFirst
          exact ne_underscore hChar
      · rw [if_neg hChar]
        cases inRun with
        | true => exact ih true
        | false =>
            constructor
            · exact (ih true).1.underscore ((ih true).2 rfl)
            · intro hRun
              cases hRun

/- Trimmed on both sides, what is left starts well. -/
theorem starts_stripUnderscore
    (hSmooth : Smooth chars)
    (hSome : stripUnderscore chars ≠ []) :
    StartsWell (stripUnderscore chars) := by
  have hDropped :
      Smooth (chars.dropWhile (· = '_')) :=
    hSmooth.within (List.dropWhile_suffix _).isInfix
  have hStart : chars.dropWhile (· = '_') ≠ [] := by
    intro hNil
    apply hSome
    unfold stripUnderscore
    rw [hNil]
    rfl
  apply starts_rstripUnderscore
  refine ⟨_, List.head?_eq_some_head hStart, ?_⟩
  apply (hDropped.allowed _
    (List.head_mem hStart)).resolve_right
  have hHead :=
    List.head_dropWhile_not (· = '_') hStart
  rw [decide_eq_false_iff_not] at hHead
  exact hHead

/- Stripping both ends leaves a smooth text. -/
theorem smooth_stripUnderscore
    (hSmooth : Smooth chars) :
    Smooth (stripUnderscore chars) := by
  apply hSmooth.within
  apply rstripUnderscore_prefix.isInfix.trans
  exact (List.dropWhile_suffix _).isInfix

/- The fallback goes before what is left of a short name. -/
theorem smooth_fallback
    (hSmooth : Smooth chars)
    (hStart : ∀ first ∈ chars.head?, first ≠ '_') :
    Smooth (usernameFallback.toList ++ '_' :: chars) := by
  have hTail : Smooth ('_' :: chars) :=
    hSmooth.underscore hStart
  have hLetter : ∀ char ∈ usernameFallback.toList,
      isUsernameChar char = true :=
    List.all_eq_true.mp rfl
  have hWhole : ∀ letters : List Char,
      (∀ char ∈ letters, isUsernameChar char = true) →
        Smooth (letters ++ '_' :: chars) := by
    intro letters hLetters
    induction letters with
    | nil => exact hTail
    | cons letter rest ih =>
        apply Smooth.cons
        · exact hLetters letter List.mem_cons_self
        · apply ih
          intro char hChar
          exact hLetters char (List.mem_cons_of_mem _ hChar)
  exact hWhole usernameFallback.toList hLetter

/- `_sanitize_username`, before it is cut to length. -/
def sanitized (lowered : String) : List Char :=
  let value :=
    stripUnderscore (underscored lowered.toList false)
  if value.length < usernameMinLength then
    stripUnderscore
      (usernameFallback.toList ++ '_' :: value)
  else
    value

/- A sanitized username is cut, then stripped. -/
theorem sanitizeUsername_eq
    (lowered : String)
    (maxLength : Nat) :
    (sanitizeUsername lowered maxLength).toList =
      rstripUnderscore
        ((sanitized lowered).take maxLength) := by
  unfold sanitizeUsername sanitized
  rw [String.toList_ofList]

/- What is cut is smooth and starts well. -/
theorem smooth_sanitized (lowered : String) :
    Smooth (sanitized lowered) ∧
      StartsWell (sanitized lowered) := by
  have hSmooth :
      Smooth (underscored lowered.toList false) :=
    (smooth_underscored false).1
  have hValue := smooth_stripUnderscore hSmooth
  unfold sanitized
  dsimp only
  split
  · have hStart : ∀ first ∈
        (stripUnderscore (underscored lowered.toList
          false)).head?, first ≠ '_' := by
      intro first hFirst
      have hSome : stripUnderscore
          (underscored lowered.toList false) ≠ [] := by
        intro hNil
        rw [hNil] at hFirst
        cases hFirst
      rcases starts_stripUnderscore hSmooth hSome with
        ⟨head, hHead, hChar⟩
      rw [hHead] at hFirst
      cases hFirst
      exact ne_underscore hChar
    have hWhole := smooth_fallback hValue hStart
    constructor
    · exact smooth_stripUnderscore hWhole
    · apply starts_rstripUnderscore
      exact ⟨'u', rfl, by decide⟩
  · rename_i hLong
    constructor
    · exact hValue
    · apply starts_stripUnderscore hSmooth
      intro hNil
      rw [hNil] at hLong
      exact hLong (by decide)

/- The base of a generated name is tidy and fits. -/
theorem tidy_sanitizeUsername
    (lowered : String)
    {maxLength : Nat}
    (hLength : 0 < maxLength) :
    Tidy (sanitizeUsername lowered maxLength).toList ∧
      (sanitizeUsername lowered maxLength).length ≤
        maxLength := by
  rw [← String.length_toList, sanitizeUsername_eq]
  have hSmooth := smooth_sanitized lowered
  constructor
  · exact tidy_rstripUnderscore_take hSmooth.1 hSmooth.2
      hLength
  · exact length_rstripUnderscore_take maxLength

------------------------------------------------------------
-- Suffixes
------------------------------------------------------------

/- A group on its own. -/
theorem tidy_of_word
    (hSome : chars ≠ [])
    (hWord : ∀ char ∈ chars, isUsernameChar char = true) :
    Tidy chars := by
  constructor
  · clear hSome
    induction chars with
    | nil => exact .nil
    | cons char rest ih =>
        apply Smooth.cons (hWord char List.mem_cons_self)
        apply ih
        intro other hOther
        exact hWord other (List.mem_cons_of_mem _ hOther)
  · exact ⟨_, List.head?_eq_some_head hSome,
      hWord _ (List.head_mem hSome)⟩
  · exact ⟨_, List.getLast?_eq_some_getLast hSome,
      hWord _ (List.getLast_mem hSome)⟩

/- Two tidy texts, joined. -/
theorem Tidy.append
    (hLeft : Tidy chars)
    (hRight : Tidy other) :
    Tidy (chars ++ '_' :: other) := by
  have hTail : Smooth ('_' :: other) := by
    apply hRight.smooth.underscore
    intro first hFirst
    rcases hRight.starts with ⟨head, hHead, hChar⟩
    rw [hHead] at hFirst
    cases hFirst
    exact ne_underscore hChar
  refine ⟨⟨?_, ?_⟩, ?_, ?_⟩
  · intro char hChar
    rcases List.mem_append.mp hChar with hMem | hMem
    · exact hLeft.smooth.allowed char hMem
    · exact hTail.allowed char hMem
  · apply List.IsChain.append hLeft.smooth.single
      hTail.single
    intro last hLast first _ hUnderscore
    rcases hLeft.ends with ⟨end', hEnd, hChar⟩
    rw [hEnd] at hLast
    cases hLast
    exact absurd hUnderscore (ne_underscore hChar)
  · rcases hLeft.starts with ⟨first, hFirst, hChar⟩
    refine ⟨first, ?_, hChar⟩
    rw [List.head?_append, hFirst]
    rfl
  · rcases hRight.ends with ⟨last, hLast, hChar⟩
    refine ⟨last, ?_, hChar⟩
    cases other with
    | nil => cases hLast
    | cons first rest =>
        rw [List.getLast?_append, List.getLast?_cons_cons,
          hLast]
        rfl

/- A suffix of letters and digits keeps a name tidy. -/
theorem tidy_usernameWithSuffix
    {maxLength : Nat}
    {base suffix : String}
    (hLength : 0 < maxLength)
    (hBase : Tidy base.toList)
    (hSome : suffix.toList ≠ [])
    (hWord : ∀ char ∈ suffix.toList,
      isUsernameChar char = true) :
    Tidy (usernameWithSuffix maxLength base
        suffix).toList ∧
      (usernameWithSuffix maxLength base suffix).length ≤
        maxLength := by
  unfold usernameWithSuffix
  dsimp only
  split
  · -- no room for a base: the suffix alone, cut to length
    rw [← String.length_toList, String.toList_ofList]
    constructor
    · apply tidy_of_word
      · intro hNil
        rcases List.take_eq_nil_iff.mp hNil with
          hZero | hEmpty
        · omega
        · exact hSome hEmpty
      · intro char hChar
        exact hWord char (List.mem_of_mem_take hChar)
    · exact List.length_take_le _ _
  · rename_i hRoom
    have hAvailable : 0 < maxLength - suffix.length - 1 := by
      omega
    have hCut := tidy_rstripUnderscore_take hBase.smooth
      hBase.starts hAvailable
    have hJoined := hCut.append (tidy_of_word hSome hWord)
    constructor
    · rw [String.toList_append, String.toList_append,
        String.toList_ofList, List.append_assoc]
      exact hJoined
    · have hFits :
          (rstripUnderscore (base.toList.take
            (maxLength - suffix.length - 1))).length ≤
              maxLength - suffix.length - 1 :=
        length_rstripUnderscore_take _
      rw [String.length_append, String.length_append,
        String.length_ofList]
      have hOne : "_".length = 1 := rfl
      omega

/- A digit may stand in a username. -/
theorem isUsernameChar_of_isDigit
    (hDigit : char.isDigit = true) :
    isUsernameChar char = true := by
  unfold isUsernameChar
  rw [hDigit, Bool.or_true]

/- A written number may follow one. -/
theorem digits_toString (number : Nat) :
    (toString number).toList ≠ [] ∧
      ∀ char ∈ (toString number).toList,
        isUsernameChar char = true := by
  rw [Nat.toString_eq_ofList_toDigits,
    String.toList_ofList]
  constructor
  · exact Nat.toDigits_ne_nil
  · intro char hChar
    apply isUsernameChar_of_isDigit
    exact Nat.isDigit_of_mem_toDigits (by decide)
      (by decide) hChar

------------------------------------------------------------
-- Random Suffixes
------------------------------------------------------------

/- `USERNAME_RANDOM_SUFFIX_BYTES` -/
def usernameRandomSuffixBytes : Nat := 4

/- `secrets.token_hex`, of the bytes it drew. -/
def tokenHex (bytes : List UInt8) : String :=
  String.ofList (bytes.flatMap fun byte =>
    [Nat.digitChar (byte.toNat / 16),
      Nat.digitChar (byte.toNat % 16)])

theorem isUsernameChar_digitChar
    {digit : Nat}
    (hDigit : digit < 16) :
    isUsernameChar (Nat.digitChar digit) = true := by
  revert digit
  decide

theorem digits_tokenHex
    {bytes : List UInt8}
    (hBytes : bytes ≠ []) :
    (tokenHex bytes).toList ≠ [] ∧
      ∀ char ∈ (tokenHex bytes).toList,
        isUsernameChar char = true := by
  unfold tokenHex
  rw [String.toList_ofList]
  constructor
  · cases bytes with
    | nil => exact absurd rfl hBytes
    | cons byte rest => simp
  · intro char hChar
    rcases List.mem_flatMap.mp hChar with
      ⟨byte, _, hMem⟩
    have hByte : byte.toNat < 256 := byte.toNat_lt
    rcases List.mem_cons.mp hMem with rfl | hLow
    · exact isUsernameChar_digitChar (by omega)
    · rw [List.mem_singleton.mp hLow]
      exact isUsernameChar_digitChar (by omega)

------------------------------------------------------------
-- The Search
------------------------------------------------------------

/- Other keys are written behind the first entry. -/
theorem Dict.update_cons
    {dict other : Data}
    {key : String}
    {value : Value}
    (hKey : key ∉ other.keys) :
    Dict.update ((key, value) :: dict) other =
      (key, value) :: dict.update other := by
  induction other generalizing dict with
  | nil => rfl
  | cons item rest ih =>
      unfold Dict.keys at hKey ih
      rw [List.map_cons, List.mem_cons, not_or] at hKey
      have hSet :
          Dict.set ((key, value) :: dict) item.1 item.2 =
            (key, value) :: dict.set item.1 item.2 :=
        if_neg hKey.1
      unfold Dict.update at ih ⊢
      rw [List.foldl_cons, List.foldl_cons, hSet]
      exact ih hKey.2

/- A callback cannot set the username. -/
theorem username_not_mem_filterProvisioningData
    {repo : UserRepository}
    (data : Data) :
    "username" ∉
      (repo.filterProvisioningData data).keys := by
  intro hMem
  have hKeep := (Dict.keys_restrict hMem).2
  apply of_decide_eq_true hKeep
  apply UserRepository.mem_contractNames.mpr
  exact .inl (List.mem_append_left _ (by decide))

namespace AuthSurface

variable (auth : AuthSurface)

/- A name the username column takes. -/
structure WellFormed (name : String) : Prop where
  nonempty : name ≠ ""
  grouped : Grouped name.toList
  fits : name.length ≤ auth.maxLength
  column : ∀ limit,
    auth.repo.columnLength (auth.repo.col "username") =
      some limit →
    1 ≤ limit → name.length ≤ limit

/- The last statement looked the name up and found none. -/
def FreeWhenChecked
    (past : List (Action tableOps))
    (name : String) : Prop :=
  ∃ older, past =
    ⟨.select (auth.repo.col "username") (.text name),
      []⟩ :: older

/- The row a sign-up under this name would store. -/
def signUpColumns
    (request : OAuthRequest)
    (email name : String) : Data :=
  auth.repo.createKwargs
    (auth.repo.createData
      (auth.createUserData request email name)
      auth.newUserDefaults request.provided)

/- A random name for the profile. -/
def randomUsername
    (request : OAuthRequest)
    (suffix : String) : String :=
  usernameWithSuffix auth.maxLength
    (auth.usernameBase request) suffix

/-
  What `_create_user` may do: look names up, a bounded number
  of times, and try to store one that is well formed, which
  was free when it was checked unless it is a random one.
-/
def GeneratedUsername
    (request : OAuthRequest)
    (email : String)
    (past : List (Action tableOps)) : TableOp → Prop
  | .select _ _ => past.length < usernameMaxSuffixAttempts
  | .insert columns _ =>
      ∃ name, auth.WellFormed name ∧
        columns = auth.signUpColumns request email name ∧
        (auth.FreeWhenChecked past name ∨
          name = auth.randomUsername request
            request.suffixes.1 ∨
          name = auth.randomUsername request
            request.suffixes.2)
  | .update _ _ => False

/- Only generated usernames are inserted. -/
def createUserContract
    (request : OAuthRequest)
    (email : String) : Contract tableOps where
  rule := auth.GeneratedUsername request email
  answer _ _ := True

variable {auth}
variable {request : OAuthRequest}
variable {email name base suffix : String}
variable {past : List (Action tableOps)}

/- A username has room for one character. -/
theorem maxLength_pos : 0 < auth.maxLength := by
  unfold maxLength
  split
  · decide
  · decide
  · rename_i length hZero _
    exact Nat.pos_of_ne_zero hZero

/- A tidy name within the limit is well formed. -/
theorem wellFormed_of_tidy
    (hTidy : Tidy name.toList)
    (hFits : name.length ≤ auth.maxLength) :
    auth.WellFormed name := by
  constructor
  · rintro rfl
    rcases hTidy.starts with ⟨first, hFirst, _⟩
    cases hFirst
  · exact hTidy.grouped
  · exact hFits
  · intro limit hLimit hPos
    unfold maxLength at hFits
    rw [hLimit] at hFits
    cases limit with
    | zero => omega
    | succ limit => exact hFits

/- The base of a username is tidy and short. -/
theorem tidy_usernameBase :
    Tidy (auth.usernameBase request).toList ∧
      (auth.usernameBase request).length ≤
        auth.maxLength := by
  unfold usernameBase
  exact tidy_sanitizeUsername _ auth.maxLength_pos

/- It is a username by itself. -/
theorem wellFormed_usernameBase :
    auth.WellFormed (auth.usernameBase request) :=
  wellFormed_of_tidy tidy_usernameBase.1
    tidy_usernameBase.2

/- A base with a suffix is a username. -/
theorem wellFormed_usernameWithSuffix
    (hSuffix : suffix.toList ≠ [] ∧
      ∀ char ∈ suffix.toList,
        isUsernameChar char = true) :
    auth.WellFormed
      (usernameWithSuffix auth.maxLength
        (auth.usernameBase request) suffix) := by
  have hBase : Tidy (auth.usernameBase request).toList :=
    tidy_usernameBase.1
  have hLength : 0 < auth.maxLength := maxLength_pos
  have hTidy := tidy_usernameWithSuffix hLength hBase
    hSuffix.1 hSuffix.2
  exact wellFormed_of_tidy hTidy.1 hTidy.2

/- The retried row differs in its name alone. -/
theorem set_username :
    Dict.set
        (auth.repo.createData
          (auth.createUserData request email base)
          auth.newUserDefaults request.provided)
        "username" (.text name) =
      auth.repo.createData
        (auth.createUserData request email name)
        auth.newUserDefaults request.provided := by
  have hSpared : ∀ data : Data, "username" ∉
      (auth.repo.filterProvisioningData data).keys :=
    username_not_mem_filterProvisioningData
  have hDefaults := hSpared auth.newUserDefaults
  have hProvided := hSpared request.provided
  unfold UserRepository.createData createUserData
  rw [Dict.update_cons hDefaults, Dict.update_cons hProvided,
    Dict.update_cons hDefaults, Dict.update_cons hProvided]
  exact if_pos rfl

/- A name found free is free when it was checked. -/
theorem obeys_usernameExists
    (hPast : past.length < usernameMaxSuffixAttempts) :
    Program.Obeys (auth.createUserContract request email)
      past (auth.usernameExists name)
      (Program.Returns fun past' taken =>
        past'.length = past.length + 1 ∧
          (taken = false →
            auth.FreeWhenChecked past' name)) := by
  constructor
  · exact hPast
  · intro rows _
    cases rows with
    | nil =>
        rintro taken ⟨rfl⟩
        constructor
        · rfl
        · intro _
          exact ⟨past, rfl⟩
    | cons row rest =>
        cases rest with
        | nil =>
            rintro taken ⟨rfl⟩
            constructor
            · rfl
            · intro hFree
              cases hFree
        | cons other rest =>
            exact Program.returns_error _

/-
  A name the search returns is well formed, and free when it
  was checked or random.
-/
def Offered
    (auth : AuthSurface)
    (request : OAuthRequest)
    (suffix : String)
    (past : List (Action tableOps))
    (name : String) : Prop :=
  auth.WellFormed name ∧
    (auth.FreeWhenChecked past name ∨
      name = auth.randomUsername request suffix)

/- One candidate each time, as long as there are some. -/
theorem obeys_uniqueUsernameAmong
    (hSuffix : suffix.toList ≠ [] ∧
      ∀ char ∈ suffix.toList, isUsernameChar char = true)
    (numbers : List Nat)
    (hPast : past.length + numbers.length ≤
      usernameMaxSuffixAttempts) :
    Program.Obeys (auth.createUserContract request email)
      past
      (auth.uniqueUsernameAmong
        (auth.usernameBase request) suffix numbers)
      (Program.Returns
        (auth.Offered request suffix)) := by
  induction numbers generalizing past with
  | nil =>
      rintro name ⟨rfl⟩
      constructor
      · exact wellFormed_usernameWithSuffix hSuffix
      · exact .inr rfl
  | cons number rest ih =>
      rw [List.length_cons] at hPast
      unfold uniqueUsernameAmong
      apply (obeys_usernameExists (by omega)).andThen
      intro past' taken _ hChecked
      rcases hChecked with ⟨hLength, hFree⟩
      cases taken with
      | true => exact ih (by omega)
      | false =>
          rintro name ⟨rfl⟩
          constructor
          · exact wellFormed_usernameWithSuffix
              (digits_toString number)
          · exact .inl (hFree rfl)

/- The base is looked up first. -/
theorem obeys_uniqueUsername
    (hSuffix : suffix.toList ≠ [] ∧
      ∀ char ∈ suffix.toList,
        isUsernameChar char = true) :
    Program.Obeys (auth.createUserContract request email)
      [] (auth.uniqueUsername (auth.usernameBase request)
        suffix)
      (Program.Returns
        (auth.Offered request suffix)) := by
  unfold uniqueUsername
  apply (obeys_usernameExists (by decide)).andThen
  intro past' taken _ hChecked
  rcases hChecked with ⟨hLength, hFree⟩
  cases taken with
  | true =>
      apply obeys_uniqueUsernameAmong hSuffix
      rw [hLength]
      decide
  | false =>
      rintro name ⟨rfl⟩
      exact ⟨wellFormed_usernameBase, .inl (hFree rfl)⟩

/-
  Whatever the profile, the column and the names taken, each
  name a sign-up tries to store is well formed, and free when
  it was checked unless random, after a bounded search.
-/
theorem obeys_createUser
    {first second : List UInt8}
    (hFirst : first.length = usernameRandomSuffixBytes)
    (hSecond : second.length = usernameRandomSuffixBytes)
    (hSuffixes : request.suffixes =
      (tokenHex first, tokenHex second)) :
    Program.Obeys (auth.createUserContract request email)
      [] (auth.createUser request email)
      fun _ _ => True := by
  have hBytes : ∀ bytes : List UInt8,
      bytes.length = usernameRandomSuffixBytes →
        bytes ≠ [] := by
    rintro bytes hLength rfl
    cases hLength
  have hDigits := digits_tokenHex (hBytes first hFirst)
  have hOther := digits_tokenHex (hBytes second hSecond)
  unfold createUser
  rw [hSuffixes]
  apply (obeys_uniqueUsername hDigits).bind
  · intro past' name _ hOffered
    rw [Program.returns_ok] at hOffered
    constructor
    · refine ⟨name, hOffered.1, rfl, ?_⟩
      rcases hOffered.2 with hFree | hRandom
      · exact .inl hFree
      · rw [hSuffixes]
        exact .inr (.inl hRandom)
    · intro stored _
      cases stored with
      | some row => trivial
      | none =>
          constructor
          · have hRetried : auth.WellFormed
                (auth.randomUsername request
                  (tokenHex second)) :=
              wellFormed_usernameWithSuffix hOther
            refine ⟨_, hRetried, ?_, ?_⟩
            · exact congrArg auth.repo.createKwargs
                set_username
            · rw [hSuffixes]
              exact .inr (.inr rfl)
          · intro retried _
            cases retried with
            | some row => trivial
            | none => trivial
  · intro _ _ _ _
    trivial

/- A column of twelve characters. -/
def shortColumn : AuthSurface where
  repo :=
    { UserRepository.oktaRepository with
      columnLength := fun _ => some 12 }
  newUserDefaults := []
  emailOn := true

/- A profile whose name is longer than the column. -/
def longName : OAuthRequest where
  info :=
    { provider := "google"
      providerUserId := "g-1"
      email := some "first@example.com"
      emailVerified := true
      username := none
      givenName := none
      name := some "__very long display name__" }
  lower := id
  now := 0
  sentinel := "!"
  suffixes :=
    (tokenHex [0, 1, 254, 255], tokenHex [9, 8, 7, 6])
  provided := [("name", .text "Ada")]
  fill := fun _ => .null

/- A long name is cut to a short column. -/
theorem obeys_createUser_longName :
    Program.Obeys
      (shortColumn.createUserContract longName
        "first@example.com")
      [] (shortColumn.createUser longName
        "first@example.com")
      fun _ _ => True :=
  @obeys_createUser shortColumn longName
    "first@example.com" [0, 1, 254, 255] [9, 8, 7, 6]
    rfl rfl rfl

end AuthSurface

end Registration

end CrudAuth
