import Mathlib.Data.List.Basic
import Mathlib.Data.List.DropRight

/-
  How a browser reads a URL relative to an `https` page: the
  states of the URL parser that settle its origin.

  A text is a list of code points.  The path, the query and
  the fragment never fail and leave the origin alone, so the
  parser stops where they start.  Hosts and other schemes
  are read by `Elsewhere`, which may be anything.

  Main declarations:
    * `UrlParser.prepared`
    * `UrlParser.splitScheme`
    * `UrlParser.parse`
    * `UrlParser.parse_rooted`
-/

namespace CrudAuth

namespace UrlParser

------------------------------------------------------------
-- Code Points
------------------------------------------------------------

/- The code points of a text. -/
abbrev Text := List Nat

/- A text of code points. -/
def ascii (string : String) : Text :=
  string.toList.map Char.toNat

/- What separates the parts of a URL. -/
def slash : Nat := 0x2f
def backslash : Nat := 0x5c
def colon : Nat := 0x3a

/- A C0 control, or a space. -/
def isC0OrSpace (code : Nat) : Bool :=
  code ≤ 0x20

/- What a parser removes anywhere. -/
def isTabOrNewline (code : Nat) : Bool :=
  code = 9 || code = 10 || code = 13

/- An ASCII letter. -/
def isAlpha (code : Nat) : Bool :=
  (0x41 ≤ code && code ≤ 0x5a) ||
    (0x61 ≤ code && code ≤ 0x7a)

/- A character that a scheme may have after its first. -/
def isSchemeChar (code : Nat) : Bool :=
  isAlpha code || (0x30 ≤ code && code ≤ 0x39) ||
    code = 0x2b || code = 0x2d || code = 0x2e

/- An ASCII letter in lower case. -/
def lowered (code : Nat) : Nat :=
  if 0x41 ≤ code && code ≤ 0x5a then code + 0x20 else code

/- For a special scheme a backslash counts as a slash. -/
def isSlash (code : Nat) : Bool :=
  code = slash || code = backslash

------------------------------------------------------------
-- Parsing
------------------------------------------------------------

/- The origin of a URL. -/
structure Origin where
  scheme : Text
  host : Text
  port : Option Nat
deriving DecidableEq

/- An origin, and what is left for its path and on. -/
structure Url where
  origin : Origin
  rest : Text
deriving DecidableEq

/-
  The states not entered here: the authority of a special
  scheme, after its slashes, and any other scheme.
-/
structure Elsewhere where
  authority : Text → Text → Option Url
  absolute : Text → Text → Option Url

/- The scheme of the site. -/
def https : Text := ascii "https"

/- Stripped at the ends, without tabs and newlines. -/
def prepared (input : Text) : Text :=
  ((input.dropWhile isC0OrSpace).rdropWhile
    isC0OrSpace).filter fun code => !isTabOrNewline code

/- The scheme before the first colon, and what follows it. -/
def splitScheme (text : Text) : Option (Text × Text) :=
  match text with
  | [] => none
  | first :: _ =>
      if isAlpha first then
        match text.span isSchemeChar with
        | (scheme, code :: rest) =>
            if code = colon then
              some (scheme.map lowered, rest)
            else
              none
        | (_, []) => none
      else
        none

/- "Relative slash state" -/
def relativeSlash
    (elsewhere : Elsewhere)
    (base : Url)
    (text : Text) : Option Url :=
  match text with
  | [] => some ⟨base.origin, [slash]⟩
  | code :: rest =>
      if isSlash code then
        elsewhere.authority base.origin.scheme rest
      else
        some ⟨base.origin, slash :: text⟩

/- "Relative state" -/
def relative
    (elsewhere : Elsewhere)
    (base : Url)
    (text : Text) : Option Url :=
  match text with
  | [] => some base
  | code :: rest =>
      if isSlash code then
        relativeSlash elsewhere base rest
      else
        some ⟨base.origin, text⟩

/- "Special relative or authority state" -/
def specialRelative
    (elsewhere : Elsewhere)
    (base : Url)
    (text : Text) : Option Url :=
  match text with
  | first :: second :: rest =>
      if first = slash ∧ second = slash then
        elsewhere.authority base.origin.scheme rest
      else
        relative elsewhere base text
  | _ => relative elsewhere base text

/- The input, relative to a page with the scheme `https`. -/
def parse
    (elsewhere : Elsewhere)
    (base : Url)
    (input : Text) : Option Url :=
  let text := prepared input
  match splitScheme text with
  | some (scheme, rest) =>
      if scheme = base.origin.scheme then
        specialRelative elsewhere base rest
      else
        elsewhere.absolute scheme rest
  | none => relative elsewhere base text

------------------------------------------------------------
-- Rooted Texts
------------------------------------------------------------

/-
  One slash, no second one and no backslash in its place,
  and nothing that the parser drops from inside.
-/
structure Rooted (input : Text) : Prop where
  slashed : ∃ rest, input = slash :: rest ∧
    ∀ second ∈ rest.head?, isSlash second = false
  visible : ∀ code ∈ input, 0x20 ≤ code

variable {input text : Text}

/- Only its end is stripped. -/
theorem prepared_of_rooted (hRooted : Rooted input) :
    ∃ rest, prepared input = slash :: rest ∧
      ∀ second ∈ rest.head?, isSlash second = false := by
  rcases hRooted.slashed with ⟨rest, rfl, hSecond⟩
  have hStart :
      (slash :: rest).dropWhile isC0OrSpace =
        slash :: rest :=
    rfl
  have hKept : ∀ code ∈
      (slash :: rest).rdropWhile isC0OrSpace,
        (!isTabOrNewline code) = true := by
    intro code hCode
    have hVisible := hRooted.visible code
      ((List.rdropWhile_prefix _ _).subset hCode)
    unfold isTabOrNewline
    simp only [Bool.not_eq_true', Bool.or_eq_false_iff,
      decide_eq_false_iff_not]
    omega
  have hPrefix :
      (slash :: rest).rdropWhile isC0OrSpace <+:
        slash :: rest :=
    List.rdropWhile_prefix _ _
  have hSome :
      (slash :: rest).rdropWhile isC0OrSpace ≠ [] := by
    intro hNil
    have hAll := List.rdropWhile_eq_nil_iff.mp hNil slash
      List.mem_cons_self
    revert hAll
    decide
  unfold prepared
  rw [hStart, List.filter_eq_self.mpr hKept]
  cases hText : (slash :: rest).rdropWhile isC0OrSpace with
  | nil => exact absurd hText hSome
  | cons first kept =>
      rw [hText] at hPrefix
      rcases List.cons_prefix_cons.mp hPrefix with
        ⟨rfl, hRest⟩
      refine ⟨kept, rfl, ?_⟩
      intro second hMem
      cases kept with
      | nil => cases hMem
      | cons code more =>
          cases hMem
          rcases hRest with ⟨dropped, rfl⟩
          exact hSecond second rfl

/- A rooted text stays on the page's own origin. -/
theorem parse_rooted
    (hRooted : Rooted input)
    (elsewhere : Elsewhere)
    (base : Url) :
    ∃ url, parse elsewhere base input = some url ∧
      url.origin = base.origin := by
  rcases prepared_of_rooted hRooted with
    ⟨rest, hPrepared, hSecond⟩
  have hScheme : splitScheme (slash :: rest) = none := by
    unfold splitScheme
    exact if_neg (by decide)
  unfold parse
  dsimp only
  rw [hPrepared, hScheme]
  unfold relative
  dsimp only
  rw [if_pos (by decide)]
  cases rest with
  | nil => exact ⟨_, rfl, rfl⟩
  | cons second more =>
      have hPath : isSlash second = false :=
        hSecond second rfl
      unfold relativeSlash
      dsimp only
      rw [hPath]
      exact ⟨_, rfl, rfl⟩

end UrlParser

end CrudAuth
