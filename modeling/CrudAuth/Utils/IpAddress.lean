import Mathlib.Data.List.Basic
import Mathlib.Order.Nat

/-
  Texts of IP addresses, as `ipaddress` reads and writes
  them: dotted decimals, and hexadecimal groups with their
  longest run of zeros left out.

  What is written for an address reads back as it, so that
  no two addresses are written alike.

  Main declarations:
    * `IPv4Address`, `IPv6Address`
    * `parseIPv4`, `parseIPv6`
    * `ipAddress`
    * `parseIPv4_text`
    * `parseIPv6_text`
-/

namespace CrudAuth

namespace Ip

/- Strings, as the characters they are made of. -/
abbrev Text := List Char

------------------------------------------------------------
-- Numbers
------------------------------------------------------------

/- The value of a hexadecimal digit, in either case. -/
def digitValue (char : Char) : Option Nat :=
  if '0' ≤ char ∧ char ≤ '9' then
    some (char.toNat - 48)
  else if 'a' ≤ char ∧ char ≤ 'f' then
    some (char.toNat - 87)
  else if 'A' ≤ char ∧ char ≤ 'F' then
    some (char.toNat - 55)
  else
    none

/- One more digit, if it is one of the base. -/
def pushDigit
    (base value : Nat)
    (char : Char) : Option Nat :=
  ((digitValue char).filter (· < base)).map
    fun digit => base * value + digit

/- `int(text, base)`, for digits of the base only. -/
def readNumber
    (base : Nat)
    (text : Text) : Option Nat :=
  text.foldlM (pushDigit base) 0

/- `_parse_octet`: no leading zeros, and at most 255. -/
def parseOctet (text : Text) : Option (Fin 256) :=
  if text = [] ∨ 3 < text.length then
    none
  else if text ≠ ['0'] ∧ text.head? = some '0' then
    none
  else
    match readNumber 10 text with
    | none => none
    | some value =>
        if value ≤ 255 then
          some (Fin.ofNat 256 value)
        else
          none

/- `_parse_hextet`: up to four digits. -/
def parseHextet (text : Text) : Option (Fin 65536) :=
  if text = [] ∨ 4 < text.length then
    none
  else
    (readNumber 16 text).map (Fin.ofNat 65536)

/- An octet in decimal. -/
def octetText (octet : Fin 256) : Text :=
  Nat.toDigits 10 octet

/- `'%x' % hextet` -/
def hextetText (hextet : Fin 65536) : Text :=
  Nat.toDigits 16 hextet

------------------------------------------------------------
-- Version 4
------------------------------------------------------------

/- `ipaddress.IPv4Address` -/
structure IPv4Address where
  first : Fin 256
  second : Fin 256
  third : Fin 256
  fourth : Fin 256
deriving DecidableEq, Repr

namespace IPv4Address

variable (address : IPv4Address)

/- `str` of an IPv4 address. -/
def text : Text :=
  List.intercalate ['.']
    [octetText address.first, octetText address.second,
      octetText address.third, octetText address.fourth]

/- The upper and the lower half of its bits. -/
def halves : Fin 65536 × Fin 65536 :=
  (Fin.ofNat 65536 (256 * address.first + address.second),
    Fin.ofNat 65536 (256 * address.third + address.fourth))

/- The address of the last two groups of an IPv6 address. -/
def ofHalves (upper lower : Fin 65536) : IPv4Address where
  first := Fin.ofNat 256 (upper / 256)
  second := Fin.ofNat 256 upper
  third := Fin.ofNat 256 (lower / 256)
  fourth := Fin.ofNat 256 lower

end IPv4Address

/- `IPv4Address(text)`, where it raises nothing. -/
def parseIPv4 (text : Text) : Option IPv4Address :=
  match text.splitOn '.' with
  | [first, second, third, fourth] => do
      let first ← parseOctet first
      let second ← parseOctet second
      let third ← parseOctet third
      let fourth ← parseOctet fourth
      return ⟨first, second, third, fourth⟩
  | _ => none

------------------------------------------------------------
-- Version 6
------------------------------------------------------------

/- The eight groups of its bits, and the scope, if any. -/
structure IPv6Address where
  groups : List (Fin 65536)
  scopeId : Option Text
  length_groups : groups.length = 8
  scopeId_ok : ∀ scope ∈ scopeId,
    scope ≠ [] ∧ '%' ∉ scope ∧ '/' ∉ scope
deriving DecidableEq

/- Consecutive groups, by their place in the address. -/
structure Run where
  start : Nat
  length : Nat

/- One more zero group of a run, or the first of one. -/
def Run.extend (run : Run) (index : Nat) : Run :=
  if run.length = 0 then
    ⟨index, 1⟩
  else
    ⟨run.start, run.length + 1⟩

/-
  The first of the longest runs of `0`, the search being at
  `index` with `current` the run that ends there.
-/
def longestZeros :
    List Text → (index : Nat) → (current best : Run) → Run
  | [], _, _, best => best
  | hextet :: rest, index, current, best =>
      if hextet = ['0'] then
        let current := current.extend index
        longestZeros rest (index + 1) current
          (if best.length < current.length then current
            else best)
      else
        longestZeros rest (index + 1) ⟨0, 0⟩ best

/-
  `_compress_hextets`: an empty text for a run of two zeros
  or more, with another at an end that the run reaches.
-/
def compressHextets (hextets : List Text) : List Text :=
  let best := longestZeros hextets 0 ⟨0, 0⟩ ⟨0, 0⟩
  let stop := best.start + best.length
  if 1 < best.length then
    (if best.start = 0 then [[]] else []) ++
      hextets.take best.start ++ [[]] ++
        hextets.drop stop ++
          (if stop = hextets.length then [[]] else [])
  else
    hextets

/- `_string_from_ip_int` -/
def groupsText (groups : List (Fin 65536)) : Text :=
  List.intercalate [':']
    (compressHextets (groups.map hextetText))

/- A last part with a dot stands for two groups. -/
def expandIPv4 (parts : List Text) : Option (List Text) :=
  let last := parts.getLastD []
  if '.' ∈ last then
    (parseIPv4 last).map fun address =>
      parts.dropLast ++
        [hextetText address.halves.1,
          hextetText address.halves.2]
  else
    some parts

/- An empty part at an end stands for nothing. -/
def withoutEnd
    (part : Option Text)
    (parts : List Text) : List Text :=
  if part = some [] then [] else parts

/-
  The parts before and after the empty one at `skip`.  An
  empty part at an end only stands next to it.
-/
def partsAround
    (parts : List Text)
    (skip : Nat) : Option (List Text × List Text) :=
  let high := parts.take skip
  let low := parts.drop (skip + 1)
  if high.head? = some [] ∧ high.length ≠ 1 then
    none
  else if low.getLast? = some [] ∧ low.length ≠ 1 then
    none
  else
    let high := withoutEnd high.head? high
    let low := withoutEnd low.getLast? low
    if high.length + low.length < 8 then
      some (high, low)
    else
      none

/- All eight parts, or those around the one `::`. -/
def splitParts
    (parts : List Text) : Option (List Text × List Text) :=
  let inner := parts.tail.dropLast
  if inner.count [] = 0 then
    if parts.length = 8 ∧ parts.head? ≠ some [] ∧
        parts.getLast? ≠ some [] then
      some (parts, [])
    else
      none
  else if inner.count [] = 1 then
    partsAround parts (inner.idxOf [] + 1)
  else
    none

/- `_ip_int_from_string` -/
def parseGroups
    (text : Text) : Option (List (Fin 65536)) := do
  let parts := text.splitOn ':'
  if parts.length < 3 then
    none
  else
    let parts ← expandIPv4 parts
    if 9 < parts.length then
      none
    else
      let (high, low) ← splitParts parts
      let upper ← high.mapM parseHextet
      let lower ← low.mapM parseHextet
      return upper ++
        List.replicate
          (8 - (upper.length + lower.length)) 0 ++
          lower

/- The groups of a host without any bits. -/
def noHost : List (Fin 65536) :=
  [0, 0, 0, 0]

namespace IPv6Address

variable (address : IPv6Address)

/- The scope, behind its percent sign. -/
def scopeText : Text :=
  match address.scopeId with
  | none => []
  | some scope => '%' :: scope

/- `str` of an IPv6 address. -/
def text : Text :=
  groupsText address.groups ++ address.scopeText

/- `ipv4_mapped`: the address in `::ffff:0:0/96`. -/
def ipv4Mapped : Option IPv4Address :=
  if address.groups.take 6 = [0, 0, 0, 0, 0, 65535] then
    some (.ofHalves (address.groups.getD 6 0)
      (address.groups.getD 7 0))
  else
    none

end IPv6Address

/- `_split_scope_id`: the groups' text, and the scope. -/
def splitScopeId
    (text : Text) : Option (Text × Option Text) :=
  let rest := text.dropWhile (· ≠ '%')
  match rest with
  | [] => some (text, none)
  | _ :: scope =>
      if scope = [] ∨ '%' ∈ scope then
        none
      else
        some (text.takeWhile (· ≠ '%'), some scope)

section Lengths

variable {text shown : Text}
variable {parts high low : List Text}
variable {scopeId : Option Text}
variable {groups : List (Fin 65536)}

/- Each part is read as one group. -/
theorem length_of_mapM
    (hGroups : parts.mapM parseHextet = some groups) :
    groups.length = parts.length := by
  induction parts generalizing groups with
  | nil =>
      obtain rfl : [] = groups := by simpa using hGroups
      rfl
  | cons part parts ih =>
      rw [List.mapM_cons] at hGroups
      simp only [Option.bind_eq_bind, Option.pure_def,
        Option.bind_eq_some_iff, Option.some.injEq]
          at hGroups
      rcases hGroups with ⟨group, -, rest, hRest, rfl⟩
      rw [List.length_cons, List.length_cons, ih hRest]

/- Both sides of a gap fit into eight groups. -/
theorem length_of_splitParts
    (hSplit : splitParts parts = some (high, low)) :
    high.length + low.length ≤ 8 := by
  unfold splitParts at hSplit
  dsimp only at hSplit
  split at hSplit
  · split at hSplit
    · rename_i hAll
      cases hSplit
      simp [hAll.1]
    · cases hSplit
  · split at hSplit
    · unfold partsAround at hSplit
      dsimp only at hSplit
      split at hSplit
      · cases hSplit
      · split at hSplit
        · cases hSplit
        · split at hSplit
          · rename_i hFew
            cases hSplit
            exact hFew.le
          · cases hSplit
    · cases hSplit

/- An address that is read has eight groups. -/
theorem length_of_parseGroups
    (hGroups : parseGroups text = some groups) :
    groups.length = 8 := by
  unfold parseGroups at hGroups
  dsimp only at hGroups
  split at hGroups
  · cases hGroups
  · simp only [Option.bind_eq_bind,
      Option.bind_eq_some_iff] at hGroups
    rcases hGroups with ⟨parts, -, hGroups⟩
    split at hGroups
    · cases hGroups
    · simp only [Option.bind_eq_some_iff, Option.pure_def,
        Option.some.injEq] at hGroups
      rcases hGroups with
        ⟨⟨high, low⟩, hSplit, upper, hUpper, lower, hLower,
          rfl⟩
      have hFew := length_of_splitParts hSplit
      have hHigh : upper.length = high.length :=
        length_of_mapM hUpper
      have hLow : lower.length = low.length :=
        length_of_mapM hLower
      simp only [List.length_append, List.length_replicate]
      omega

/- A scope is not empty, and plain. -/
theorem scopeId_ok_of_split
    (hSlash : '/' ∉ text)
    (hSplit : splitScopeId text = some (shown, scopeId)) :
    ∀ scope ∈ scopeId,
      scope ≠ [] ∧ '%' ∉ scope ∧ '/' ∉ scope := by
  unfold splitScopeId at hSplit
  dsimp only at hSplit
  split at hSplit
  · cases hSplit
    intro scope hScope
    cases hScope
  · rename_i mark found hRest
    split at hSplit
    · cases hSplit
    · rename_i hOk
      rw [not_or] at hOk
      cases hSplit
      intro scope hScope
      obtain rfl := Option.some.inj hScope
      refine ⟨hOk.1, hOk.2, fun hMem => hSlash ?_⟩
      apply (List.dropWhile_sublist (· ≠ '%')).subset
      rw [hRest]
      exact List.mem_cons_of_mem _ hMem

end Lengths

/- What follows the `%` is not checked any further. -/
def parseIPv6 (text : Text) : Option IPv6Address :=
  if hSlash : '/' ∈ text then
    none
  else
    match hSplit : splitScopeId text with
    | none => none
    | some (shown, scopeId) =>
        match hGroups : parseGroups shown with
        | none => none
        | some groups =>
            some
              { groups
                scopeId
                length_groups :=
                  length_of_parseGroups hGroups
                scopeId_ok :=
                  scopeId_ok_of_split hSlash hSplit }

/- An address of either version. -/
inductive IpAddress where
  | v4 (address : IPv4Address)
  | v6 (address : IPv6Address)
deriving DecidableEq

/- `ipaddress.ip_address` -/
def ipAddress (text : Text) : Option IpAddress :=
  match parseIPv4 text with
  | some address => some (.v4 address)
  | none => (parseIPv6 text).map .v6

------------------------------------------------------------
-- Reading Numbers Back
------------------------------------------------------------

/- A digit is read as it was written. -/
theorem digitValue_digitChar :
    ∀ digit < 16,
      digitValue (Nat.digitChar digit) = some digit := by
  decide

/- A mark is not a digit. -/
theorem digitValue_of_mark
    {mark : Char}
    (hMark : mark ∈ ['.', ':', '%', '/']) :
    digitValue mark = none := by
  simp only [List.mem_cons, List.not_mem_nil, or_false]
    at hMark
  rcases hMark with rfl | rfl | rfl | rfl <;> rfl

/- A written digit is none of the marks around it. -/
theorem digitChar_ne_mark :
    ∀ digit < 16, ∀ mark ∈ ['.', ':', '%', '/'],
      Nat.digitChar digit ≠ mark := by
  intro digit hDigit mark hMark hSame
  have hValue := digitValue_digitChar digit hDigit
  rw [hSame, digitValue_of_mark hMark] at hValue
  cases hValue

variable {base number : Nat}
variable {char : Char}
variable {text : Text}

/- A number is read digit by digit. -/
theorem readNumber_toDigits
    (hBase : 1 < base)
    (hHex : base ≤ 16)
    (number : Nat) :
    readNumber base (Nat.toDigits base number) =
      some number := by
  induction number using Nat.strongRecOn with
  | ind number ih =>
      by_cases hSmall : number < base
      · rw [Nat.toDigits_of_lt_base hSmall]
        simp [readNumber, pushDigit,
          digitValue_digitChar number (by omega), hSmall]
      · have hBig : base ≤ number := Nat.le_of_not_lt hSmall
        have hDigit : number % base < base :=
          Nat.mod_lt _ (by omega)
        have hRest := ih (number / base)
          (Nat.div_lt_self (by omega) hBase)
        unfold readNumber at hRest ⊢
        rw [Nat.toDigits_of_base_le hBase hBig,
          List.foldlM_append, hRest]
        simp [pushDigit,
          digitValue_digitChar (number % base) (by omega),
          hDigit, Nat.div_add_mod]

/- A number is written in digits. -/
theorem exists_digit_of_mem_toDigits
    (hBase : 1 < base)
    (hChar : char ∈ Nat.toDigits base number) :
    ∃ digit < base, char = Nat.digitChar digit := by
  induction number using Nat.strongRecOn with
  | ind number ih =>
      by_cases hSmall : number < base
      · rw [Nat.toDigits_of_lt_base hSmall,
          List.mem_singleton] at hChar
        exact ⟨number, hSmall, hChar⟩
      · have hBig : base ≤ number := Nat.le_of_not_lt hSmall
        rw [Nat.toDigits_of_base_le hBase hBig,
          List.mem_append, List.mem_singleton] at hChar
        rcases hChar with hFirst | hLast
        · exact ih (number / base)
            (Nat.div_lt_self (by omega) hBase) hFirst
        · exact ⟨number % base, Nat.mod_lt _ (by omega),
            hLast⟩

/- A mark is in no written number. -/
theorem mark_notMem_toDigits
    {mark : Char}
    (hBase : 1 < base)
    (hHex : base ≤ 16)
    (hMark : mark ∈ ['.', ':', '%', '/']) :
    mark ∉ Nat.toDigits base number := by
  intro hMem
  rcases exists_digit_of_mem_toDigits hBase hMem with
    ⟨digit, hDigit, rfl⟩
  exact digitChar_ne_mark digit (by omega) _ hMark rfl

/- No number but zero is written with a zero first. -/
theorem eq_zero_of_leading_zero
    (hBase : 1 < base)
    (hHex : base ≤ 16)
    (hZero :
      (Nat.toDigits base number).head? = some '0') :
    number = 0 := by
  have hDigit : ∀ digit < 16,
      Nat.digitChar digit = '0' → digit = 0 := by
    decide
  induction number using Nat.strongRecOn with
  | ind number ih =>
      by_cases hSmall : number < base
      · rw [Nat.toDigits_of_lt_base hSmall] at hZero
        exact hDigit number (by omega)
          (Option.some.inj hZero)
      · have hBig : base ≤ number := Nat.le_of_not_lt hSmall
        rw [Nat.toDigits_of_base_le hBase hBig,
          List.head?_append_of_ne_nil _
            Nat.toDigits_ne_nil] at hZero
        have hRest := ih (number / base)
          (Nat.div_lt_self (by omega) hBase) hZero
        rw [Nat.div_eq_zero_iff] at hRest
        omega

/- An octet is read back. -/
theorem parseOctet_octetText (octet : Fin 256) :
    parseOctet (octetText octet) = some octet := by
  have hShort : (octetText octet).length ≤ 3 :=
    (Nat.length_toDigits_le_iff (by decide)
      (by decide)).mpr (octet.isLt.trans (by decide))
  unfold parseOctet
  rw [if_neg, if_neg]
  · unfold octetText
    rw [readNumber_toDigits (by decide) (by decide)]
    have hOctet : (octet : Nat) ≤ 255 :=
      Nat.le_of_lt_succ octet.isLt
    simp [hOctet]
  · rintro ⟨hOther, hZero⟩
    apply hOther
    unfold octetText at hZero ⊢
    rw [eq_zero_of_leading_zero (by decide) (by decide)
      hZero]
    rfl
  · rintro (hNone | hLong)
    · exact Nat.toDigits_ne_nil hNone
    · omega

theorem parseHextet_hextetText (hextet : Fin 65536) :
    parseHextet (hextetText hextet) = some hextet := by
  have hShort : (hextetText hextet).length ≤ 4 :=
    (Nat.length_toDigits_le_iff (by decide)
      (by decide)).mpr hextet.isLt
  unfold parseHextet
  rw [if_neg]
  · unfold hextetText
    rw [readNumber_toDigits (by decide) (by decide)]
    simp
  · rintro (hNone | hLong)
    · exact Nat.toDigits_ne_nil hNone
    · omega

------------------------------------------------------------
-- Version 4 Read Back
------------------------------------------------------------

theorem parseIPv4_text (address : IPv4Address) :
    parseIPv4 address.text = some address := by
  have hParts :
      address.text.splitOn '.' =
        [octetText address.first, octetText address.second,
          octetText address.third,
          octetText address.fourth] := by
    apply List.splitOn_intercalate
    · intro part hPart
      simp only [List.mem_cons, List.not_mem_nil,
        or_false] at hPart
      rcases hPart with rfl | rfl | rfl | rfl <;>
        exact mark_notMem_toDigits (by decide) (by decide)
          (by decide)
    · simp
  simp [parseIPv4, hParts, parseOctet_octetText]

/- What is pushed is a digit. -/
theorem digit_of_pushDigit
    {value value' : Nat}
    (hPush : pushDigit base value char = some value') :
    (digitValue char).isSome = true := by
  cases hDigit : digitValue char with
  | none => simp [pushDigit, hDigit] at hPush
  | some digit => rfl

/- Only digits are read as a number. -/
theorem digit_of_foldlM
    {start value : Nat}
    (hRead :
      text.foldlM (pushDigit base) start = some value) :
    ∀ char ∈ text, (digitValue char).isSome = true := by
  induction text generalizing start with
  | nil => simp
  | cons first rest ih =>
      rw [List.foldlM_cons, Option.bind_eq_bind,
        Option.bind_eq_some_iff] at hRead
      rcases hRead with ⟨middle, hFirst, hRest⟩
      exact List.forall_mem_cons.mpr
        ⟨digit_of_pushDigit hFirst, ih hRest⟩

/- An octet consists of digits. -/
theorem digit_of_parseOctet
    {octet : Fin 256}
    (hOctet : parseOctet text = some octet)
    (hChar : char ∈ text) :
    (digitValue char).isSome = true := by
  unfold parseOctet at hOctet
  split at hOctet
  · cases hOctet
  · split at hOctet
    · cases hOctet
    · cases hNumber : readNumber 10 text with
      | none => simp [hNumber] at hOctet
      | some value =>
          exact digit_of_foldlM hNumber char hChar

/- An address of version 4 is digits and dots. -/
theorem digit_of_parseIPv4
    {address : IPv4Address}
    (hAddress : parseIPv4 text = some address)
    (hChar : char ∈ text) :
    char = '.' ∨ (digitValue char).isSome = true := by
  unfold parseIPv4 at hAddress
  split at hAddress
  · rename_i first second third fourth hParts
    have hText :
        List.intercalate ['.'] (text.splitOn '.') = text :=
      List.intercalate_splitOn '.'
    rw [hParts] at hText
    simp only [Option.bind_eq_bind, Option.bind_eq_some_iff,
      Option.pure_def] at hAddress
    rcases hAddress with
      ⟨_, hFirst, _, hSecond, _, hThird, _, hFourth, -⟩
    rw [← hText] at hChar
    simp only [List.intercalate, List.intersperse,
      List.flatten_cons, List.mem_append, List.mem_singleton,
      List.flatten_nil, List.append_nil] at hChar
    rcases hChar with hIn | rfl | hIn | rfl | hIn | rfl | hIn
    · exact Or.inr (digit_of_parseOctet hFirst hIn)
    · exact Or.inl rfl
    · exact Or.inr (digit_of_parseOctet hSecond hIn)
    · exact Or.inl rfl
    · exact Or.inr (digit_of_parseOctet hThird hIn)
    · exact Or.inl rfl
    · exact Or.inr (digit_of_parseOctet hFourth hIn)
  · cases hAddress

------------------------------------------------------------
-- Runs Of Zeros
------------------------------------------------------------

/- The run is one of zeros, at its place. -/
def IsRun (hextets : List Text) (run : Run) : Prop :=
  ∃ before after,
    hextets =
      before ++ List.replicate run.length ['0'] ++ after ∧
    before.length = run.start

/- The run is one of zeros, and ends the texts. -/
def EndsIn (hextets : List Text) (run : Run) : Prop :=
  ∃ before,
    hextets = before ++ List.replicate run.length ['0'] ∧
    (run.length ≠ 0 → before.length = run.start)

variable {hextets done rest : List Text}
variable {current best : Run}

/- One more zero makes the run longer. -/
theorem EndsIn.extend
    (hEnds : EndsIn done current) :
    EndsIn (done ++ [['0']])
      (current.extend done.length) := by
  rcases hEnds with ⟨before, rfl, hStart⟩
  unfold Run.extend
  split
  · rename_i hZero
    refine ⟨before, ?_, fun _ => ?_⟩
    · simp [hZero]
    · simp [hZero]
  · rename_i hSome
    refine ⟨before, ?_, fun _ => hStart hSome⟩
    rw [List.append_assoc, List.replicate_succ']

/- A run at the end is one within the whole. -/
theorem EndsIn.isRun
    (hEnds : EndsIn done current)
    (hSome : current.length ≠ 0)
    (rest : List Text) :
    IsRun (done ++ rest) current := by
  rcases hEnds with ⟨before, rfl, hStart⟩
  exact ⟨before, rest, rfl, hStart hSome⟩

/- What the search finds is a run of zeros. -/
theorem isRun_longestZeros
    (hEnds : EndsIn done current)
    (hBest : IsRun (done ++ rest) best) :
    IsRun (done ++ rest)
      (longestZeros rest done.length current best) := by
  induction rest generalizing done current best with
  | nil => exact hBest
  | cons hextet rest ih =>
      have hSplit :
          done ++ hextet :: rest = (done ++ [hextet]) ++
            rest :=
        (List.append_cons done hextet rest)
      have hLength :
          (done ++ [hextet]).length = done.length + 1 := by
        simp
      rw [hSplit] at hBest ⊢
      unfold longestZeros
      split
      · rename_i hZero
        subst hZero
        have hMore := hEnds.extend
        have hBetter :
            IsRun (done ++ [['0']] ++ rest)
              (if best.length <
                  (current.extend done.length).length then
                current.extend done.length
              else
                best) := by
          split
          · exact hMore.isRun (by omega) rest
          · exact hBest
        have hFound := ih hMore hBetter
        rwa [hLength] at hFound
      · have hFresh : EndsIn (done ++ [hextet]) ⟨0, 0⟩ :=
          ⟨done ++ [hextet], by simp, by simp⟩
        have hFound := ih hFresh hBest
        rwa [hLength] at hFound

/- What stands at an end: the parts, or an empty one. -/
def ends (parts : List Text) : List Text :=
  if parts = [] then [[]] else parts

/- Compression leaves the texts, or cuts out zeros. -/
theorem compressHextets_cases (hextets : List Text) :
    compressHextets hextets = hextets ∨
    ∃ high zeros low,
      1 < zeros ∧
      hextets = high ++ List.replicate zeros ['0'] ++ low ∧
      compressHextets hextets =
        ends high ++ [] :: ends low := by
  have hRun :
      IsRun ([] ++ hextets)
        (longestZeros hextets ([] : List Text).length ⟨0, 0⟩
          ⟨0, 0⟩) :=
    isRun_longestZeros ⟨[], rfl, fun h => absurd rfl h⟩
      ⟨[], hextets, rfl, rfl⟩
  rw [List.nil_append, List.length_nil] at hRun
  unfold compressHextets
  generalize longestZeros hextets 0 ⟨0, 0⟩ ⟨0, 0⟩ = run
    at hRun ⊢
  rcases hRun with ⟨high, low, rfl, hStart⟩
  by_cases hLong : 1 < run.length
  · right
    refine ⟨high, run.length, low, hLong, rfl, ?_⟩
    rw [if_pos hLong, ← hStart]
    have hHigh :
        (high ++ List.replicate run.length ['0'] ++
          low).take high.length = high := by
      simp
    have hLow :
        (high ++ List.replicate run.length ['0'] ++
          low).drop (high.length + run.length) = low := by
      apply List.drop_left'
      simp
    rw [hHigh, hLow]
    have hFirst :
        (if high.length = 0 then [[]] else []) ++ high =
          ends high := by
      cases high <;> simp [ends]
    have hLast :
        low ++
            (if high.length + run.length =
                (high ++ List.replicate run.length ['0'] ++
                  low).length then
              [[]]
            else
              []) =
          ends low := by
      cases low with
      | nil => simp [ends]
      | cons part parts =>
          rw [if_neg]
          · simp [ends]
          · simp
    rw [hFirst, List.append_assoc, hLast,
      List.append_assoc, List.singleton_append]
  · left
    rw [if_neg hLong]

------------------------------------------------------------
-- Groups Read Back
------------------------------------------------------------

variable {high low parts : List Text}
variable {groups : List (Fin 65536)}

theorem ends_ne_nil : ends parts ≠ [] := by
  cases parts <;> simp [ends]

/- Only the first end may be empty. -/
theorem nil_notMem_tail_ends
    (hParts : [] ∉ parts) :
    [] ∉ (ends parts).tail := by
  cases parts with
  | nil => simp [ends]
  | cons part parts =>
      intro hMem
      exact hParts (List.mem_cons_of_mem _ hMem)

theorem nil_notMem_dropLast_ends
    (hParts : [] ∉ parts) :
    [] ∉ (ends parts).dropLast := by
  cases parts with
  | nil => simp [ends]
  | cons part parts =>
      intro hMem
      exact hParts (List.dropLast_subset _ hMem)

/- Only an end without parts starts with an empty one. -/
theorem head?_ends
    (hParts : [] ∉ parts) :
    (ends parts).head? = some [] ↔ parts = [] := by
  cases parts with
  | nil => simp [ends]
  | cons part parts =>
      simp only [ends, List.head?_cons, Option.some.injEq,
        reduceCtorEq, if_false, iff_false]
      rintro rfl
      exact hParts List.mem_cons_self

theorem getLast?_ends
    (hParts : [] ∉ parts) :
    (ends parts).getLast? = some [] ↔ parts = [] := by
  cases parts with
  | nil => simp [ends]
  | cons part parts =>
      simp only [ends, reduceCtorEq, if_false, iff_false]
      intro hLast
      exact hParts (List.mem_of_getLast? hLast)

/- The two sides of a `::`, each at least an empty part. -/
theorem partsAround_ends
    (hHigh : [] ∉ high)
    (hLow : [] ∉ low)
    (hFew : high.length + low.length < 8) :
    partsAround (ends high ++ [] :: ends low)
        (ends high).length =
      some (high, low) := by
  have hTake :
      (ends high ++ [] :: ends low).take
        (ends high).length = ends high := by
    simp
  have hDrop :
      (ends high ++ [] :: ends low).drop
        ((ends high).length + 1) = ends low := by
    simp
  have hHighEnd :
      withoutEnd (ends high).head? (ends high) = high := by
    simp only [withoutEnd, head?_ends hHigh]
    cases high <;> simp [ends]
  have hLowEnd :
      withoutEnd (ends low).getLast? (ends low) = low := by
    simp only [withoutEnd, getLast?_ends hLow]
    cases low <;> simp [ends]
  unfold partsAround
  dsimp only
  rw [hTake, hDrop, hHighEnd, hLowEnd]
  simp only [head?_ends hHigh, getLast?_ends hLow]
  rw [if_neg, if_neg, if_pos hFew]
  · rintro ⟨rfl, hLong⟩
    exact hLong rfl
  · rintro ⟨rfl, hLong⟩
    exact hLong rfl

/- Two sides are split at their gap. -/
theorem splitParts_ends
    (hHigh : [] ∉ high)
    (hLow : [] ∉ low)
    (hFew : high.length + low.length < 8) :
    splitParts (ends high ++ [] :: ends low) =
      some (high, low) := by
  rcases List.exists_cons_of_ne_nil
      (@ends_ne_nil high) with ⟨first, rest, hFirst⟩
  have hInner :
      (ends high ++ [] :: ends low).tail.dropLast =
        (ends high).tail ++ [] :: (ends low).dropLast := by
    rw [hFirst, List.cons_append, List.tail_cons,
      List.tail_cons, List.dropLast_append_of_ne_nil
        (by simp), List.dropLast_cons_of_ne_nil
          ends_ne_nil]
  have hCount :
      ((ends high).tail ++
        [] :: (ends low).dropLast).count [] = 1 := by
    rw [List.count_append, List.count_cons_self,
      List.count_eq_zero.mpr (nil_notMem_tail_ends hHigh),
      List.count_eq_zero.mpr
        (nil_notMem_dropLast_ends hLow)]
  have hSkip :
      ((ends high).tail ++
        [] :: (ends low).dropLast).idxOf [] + 1 =
          (ends high).length := by
    rw [List.idxOf_append_of_notMem
      (nil_notMem_tail_ends hHigh), List.idxOf_cons_self,
      hFirst]
    simp
  unfold splitParts
  dsimp only
  rw [hInner, hCount, if_neg (by decide), if_pos rfl, hSkip]
  exact partsAround_ends hHigh hLow hFew

/- Eight parts, none of them empty, are all there is. -/
theorem splitParts_full
    (hParts : [] ∉ parts)
    (hLength : parts.length = 8) :
    splitParts parts = some (parts, []) := by
  have hInner : parts.tail.dropLast.count [] = 0 := by
    apply List.count_eq_zero.mpr
    intro hMem
    exact hParts (List.mem_of_mem_tail
      (List.dropLast_subset _ hMem))
  have hHead : parts.head? ≠ some [] := by
    intro hHead
    exact hParts (List.mem_of_head? hHead)
  have hLast : parts.getLast? ≠ some [] := by
    intro hLast
    exact hParts (List.mem_of_getLast? hLast)
  unfold splitParts
  rw [if_pos hInner, if_pos ⟨hLength, hHead, hLast⟩]

/- Two groups are written apart. -/
theorem hextetText_inj
    {hextet hextet' : Fin 65536}
    (hSame : hextetText hextet = hextetText hextet') :
    hextet = hextet' := by
  have hRead := parseHextet_hextetText hextet
  rw [hSame, parseHextet_hextetText] at hRead
  exact (Option.some.inj hRead).symm

/- A mark is in no group's text. -/
theorem mark_notMem_hextets
    {mark : Char}
    (hMark : mark ∈ ['.', ':', '%', '/']) :
    ∀ part ∈ groups.map hextetText, mark ∉ part := by
  intro part hPart
  rcases List.mem_map.mp hPart with ⟨hextet, -, rfl⟩
  exact mark_notMem_toDigits (by decide) (by decide) hMark

theorem nil_notMem_hextets :
    [] ∉ groups.map hextetText := by
  intro hNil
  rcases List.mem_map.mp hNil with ⟨hextet, -, hText⟩
  exact Nat.toDigits_ne_nil hText

/- A list of groups is read back. -/
theorem mapM_parseHextet (groups : List (Fin 65536)) :
    (groups.map hextetText).mapM parseHextet =
      some groups := by
  induction groups with
  | nil => rfl
  | cons hextet groups ih =>
      rw [List.map_cons, List.mapM_cons, ih,
        parseHextet_hextetText]
      rfl

/- What is written as zeros is zeros. -/
theorem eq_replicate_of_hextets
    {zeros : Nat}
    (hZeros :
      groups.map hextetText =
        List.replicate zeros ['0']) :
    groups = List.replicate zeros 0 := by
  rw [List.eq_replicate_iff]
  rw [List.eq_replicate_iff, List.length_map] at hZeros
  refine ⟨hZeros.1, fun hextet hHextet => ?_⟩
  have hText := hZeros.2 _ (List.mem_map_of_mem hHextet)
  exact hextetText_inj (hText.trans rfl)

/- The parts of what is written, and what they stand for. -/
structure Writes
    (groups : List (Fin 65536))
    (parts : List Text) : Prop where
  mark : ∀ mark ∈ ['.', ':', '%', '/'],
    ∀ part ∈ parts, mark ∉ part
  least : 3 ≤ parts.length
  most : parts.length ≤ 9
  splits : ∃ high low,
    splitParts parts =
        some (high.map hextetText, low.map hextetText) ∧
      groups =
        high ++
          List.replicate (8 - (high.length + low.length))
            0 ++ low

theorem length_ends :
    (ends parts).length = max 1 parts.length := by
  cases parts with
  | nil => rfl
  | cons part parts =>
      simp [ends]

/- A mark that no part has is not in the ends. -/
theorem mark_notMem_ends
    {mark : Char}
    (hMark : ∀ part ∈ parts, mark ∉ part) :
    ∀ part ∈ ends parts, mark ∉ part := by
  cases parts with
  | nil => simp [ends]
  | cons part parts => exact hMark

/- A compressed address writes its groups. -/
theorem writes_compressHextets
    (hLength : groups.length = 8) :
    Writes groups
      (compressHextets (groups.map hextetText)) := by
  rcases compressHextets_cases (groups.map hextetText) with
    hSame | ⟨high, zeros, low, hLong, hSplit, hShort⟩
  · rw [hSame]
    refine ⟨fun mark hMark => mark_notMem_hextets hMark,
      by simp [hLength], by simp [hLength], groups, [], ?_,
      by simp [hLength]⟩
    exact splitParts_full nil_notMem_hextets
      (by simp [hLength])
  · rw [hShort]
    rw [List.append_assoc] at hSplit
    rcases List.map_eq_append_iff.mp hSplit with
      ⟨upper, rest, rfl, rfl, hRest⟩
    rcases List.map_eq_append_iff.mp hRest with
      ⟨middle, lower, rfl, hMiddle, rfl⟩
    obtain rfl := eq_replicate_of_hextets hMiddle
    have hCount :
        upper.length + (zeros + lower.length) = 8 := by
      simpa using hLength
    refine ⟨?_, ?_, ?_, upper, lower, ?_, ?_⟩
    · intro mark hMark part hPart
      rcases List.mem_append.mp hPart with hHigh | hLow
      · exact mark_notMem_ends
          (mark_notMem_hextets hMark) part hHigh
      · rcases List.mem_cons.mp hLow with rfl | hLow
        · exact List.not_mem_nil
        · exact mark_notMem_ends
            (mark_notMem_hextets hMark) part hLow
    · rw [List.length_append, List.length_cons, length_ends,
        length_ends]
      omega
    · rw [List.length_append, List.length_cons, length_ends,
        length_ends, List.length_map, List.length_map]
      omega
    · apply splitParts_ends nil_notMem_hextets
        nil_notMem_hextets
      rw [List.length_map, List.length_map]
      omega
    · have hZeros :
          8 - (upper.length + lower.length) = zeros := by
        omega
      rw [hZeros, List.append_assoc]

/- Without a dot there is nothing to expand. -/
theorem expandIPv4_of_notMem
    (hDot : ∀ part ∈ parts, '.' ∉ part) :
    expandIPv4 parts = some parts := by
  unfold expandIPv4
  rw [if_neg]
  intro hMem
  cases hLast : parts.getLast? with
  | none => simp [List.getLastD_eq_getLast?, hLast] at hMem
  | some last =>
      rw [List.getLastD_eq_getLast?, hLast] at hMem
      exact hDot last (List.mem_of_getLast? hLast) hMem

/- The groups of an address are read back. -/
theorem parseGroups_groupsText
    (hLength : groups.length = 8) :
    parseGroups (groupsText groups) = some groups := by
  rcases writes_compressHextets hLength with
    ⟨hMark, hLeast, hMost, high, low, hSplits, hGroups⟩
  have hParts :
      (groupsText groups).splitOn ':' =
        compressHextets (groups.map hextetText) := by
    apply List.splitOn_intercalate
    · exact hMark ':' (by decide)
    · intro hNil
      rw [hNil] at hLeast
      cases hLeast
  unfold parseGroups
  rw [hParts]
  rw [if_neg (by omega),
    expandIPv4_of_notMem (hMark '.' (by decide))]
  simp only [Option.bind_eq_bind, Option.bind_some]
  rw [if_neg (by omega), hSplits]
  simp only [Option.bind_some, mapM_parseHextet,
    Option.pure_def]
  rw [hGroups]

------------------------------------------------------------
-- Version 6 Read Back
------------------------------------------------------------

/- What is between the separators is in one of the parts. -/
theorem mem_of_mem_intercalate
    {mark : Char}
    (hOther : char ≠ mark)
    (hChar : char ∈ List.intercalate [mark] parts) :
    ∃ part ∈ parts, char ∈ part := by
  induction parts with
  | nil => simp [List.intercalate] at hChar
  | cons part parts ih =>
      cases parts with
      | nil =>
          refine ⟨part, List.mem_cons_self, ?_⟩
          simpa [List.intercalate] using hChar
      | cons next parts =>
          simp only [List.intercalate_cons_cons,
            List.mem_append, List.mem_singleton,
            or_assoc] at hChar
          rcases hChar with hHere | hMark | hThere
          · exact ⟨part, List.mem_cons_self, hHere⟩
          · exact absurd hMark hOther
          · rcases ih hThere with ⟨found, hFound, hIn⟩
            exact ⟨found, List.mem_cons_of_mem _ hFound, hIn⟩

/- Written groups have no other marks. -/
theorem mark_notMem_groupsText
    {mark : Char}
    (hLength : groups.length = 8)
    (hMark : mark ∈ ['.', '%', '/']) :
    mark ∉ groupsText groups := by
  have hWrites := writes_compressHextets hLength
  have hOther : mark ≠ ':' := by
    rintro rfl
    revert hMark
    decide
  have hListed : mark ∈ ['.', ':', '%', '/'] := by
    simp only [List.mem_cons] at hMark ⊢
    tauto
  intro hMem
  rcases mem_of_mem_intercalate hOther hMem with
    ⟨part, hPart, hIn⟩
  exact hWrites.mark mark hListed part hPart hIn

/- Groups are written with a colon, before any dot. -/
theorem colon_mem_groupsText
    (hLength : groups.length = 8) :
    ':' ∈ groupsText groups := by
  have hLeast := (writes_compressHextets hLength).least
  unfold groupsText
  revert hLeast
  cases compressHextets (groups.map hextetText) with
  | nil => simp
  | cons part parts =>
      cases parts with
      | nil => simp
      | cons next parts =>
          intro _
          rw [List.intercalate_cons_cons]
          simp

/- The scope is split off again. -/
theorem splitScopeId_text (address : IPv6Address) :
    splitScopeId address.text =
      some (groupsText address.groups, address.scopeId) := by
  have hPercent : ∀ char ∈ groupsText address.groups,
      decide (char ≠ '%') = true := by
    intro char hChar
    rw [decide_eq_true_iff]
    rintro rfl
    exact mark_notMem_groupsText address.length_groups
      (by decide) hChar
  unfold splitScopeId IPv6Address.text IPv6Address.scopeText
  rw [List.dropWhile_append_of_pos hPercent,
    List.takeWhile_append_of_pos hPercent]
  cases hScope : address.scopeId with
  | none => simp
  | some scope =>
      have hOk := address.scopeId_ok scope hScope
      simp [hOk.1, hOk.2.1]

/- An address is written without a slash. -/
theorem slash_notMem_text (address : IPv6Address) :
    '/' ∉ address.text := by
  unfold IPv6Address.text IPv6Address.scopeText
  rw [List.mem_append, not_or]
  constructor
  · exact mark_notMem_groupsText address.length_groups
      (by decide)
  · cases hScope : address.scopeId with
    | none => simp
    | some scope =>
        have hOk := address.scopeId_ok scope hScope
        simp [hOk.2.2]

/- An address of eight groups is read back. -/
theorem parseIPv6_text (address : IPv6Address) :
    parseIPv6 address.text = some address := by
  have hSplits := splitScopeId_text address
  have hReads :=
    parseGroups_groupsText address.length_groups
  unfold parseIPv6
  rw [dif_neg (slash_notMem_text address)]
  split
  · rename_i hNone
    rw [hSplits] at hNone
    cases hNone
  · rename_i shown scopeId hSome
    rw [hSplits] at hSome
    cases hSome
    split
    · rename_i hNone
      rw [hReads] at hNone
      cases hNone
    · rename_i groups hSome
      rw [hReads] at hSome
      cases hSome
      rfl

/- A written address is read as it was. -/
theorem ipAddress_text_v4 (address : IPv4Address) :
    ipAddress address.text = some (.v4 address) := by
  rw [ipAddress, parseIPv4_text]

theorem ipAddress_text_v6 (address : IPv6Address) :
    ipAddress address.text = some (.v6 address) := by
  have hColon : ':' ∈ address.text :=
    List.mem_append_left _
      (colon_mem_groupsText address.length_groups)
  have hOther : parseIPv4 address.text = none := by
    cases hRead : parseIPv4 address.text with
    | none => rfl
    | some found =>
        rcases digit_of_parseIPv4 hRead hColon with
          hDot | hDigit
        · exact absurd hDot (by decide)
        · exact absurd hDigit (by decide)
  rw [ipAddress, hOther, parseIPv6_text]
  rfl

end Ip

end CrudAuth
