import CrudAuth.Storage.Records

/-
  `fnmatch.fnmatchcase`: keys matched by shell patterns.

  Main declarations:
    * `Glob.fnmatchcase`
    * `Glob.literalStart`
    * `Glob.starts_of_fnmatchcase`
    * `Glob.fnmatchcase_start`
-/

------------------------------------------------------------
-- Patterns
------------------------------------------------------------

namespace CrudAuth

namespace Storage

namespace Glob

/- What a pattern asks of the characters, one by one. -/
inductive Token where
  | star
  | any
  | oneOf (negated : Bool) (seq : Text)
  | literal (char : Char)
deriving DecidableEq

/- `char` is in the sequence, which may have ranges. -/
def inSequence (char : Char) : Text → Bool
  | low :: '-' :: high :: seq =>
      (low ≤ char && char ≤ high) || inSequence char seq
  | first :: seq => char == first || inSequence char seq
  | [] => false

/- The characters that a token stands for. -/
def Token.accepts (char : Char) : Token → Bool
  | .star => false
  | .any => true
  | .oneOf negated seq => inSequence char seq != negated
  | .literal expected => char == expected

/- The sequence of a bracket and what follows it. -/
def closeBracket (pattern : Text) : Option (Text × Text) :=
  let (opening, rest) :=
    match pattern with
    | ']' :: rest => ([']'], rest)
    | rest => ([], rest)
  match rest.span (· != ']') with
  | (seq, ']' :: rest) => some (opening ++ seq, rest)
  | _ => none

/-
  The token of a bracket, where it is closed.  Only its first
  character negates it, as documented; CPython drops empty
  ranges first, so that `[z-a!b]` is a negation there.
-/
def bracket : Text → Token × Text
  | '!' :: pattern =>
      match closeBracket pattern with
      | some (seq, rest) => (.oneOf true seq, rest)
      | none => (.literal '[', '!' :: pattern)
  | pattern =>
      match closeBracket pattern with
      | some (seq, rest) => (.oneOf false seq, rest)
      | none => (.literal '[', pattern)

/- The tokens of a pattern of at most so many characters. -/
def tokens : Nat → Text → List Token
  | _, [] => []
  | 0, _ :: _ => []
  | length + 1, char :: pattern =>
      if char = '*' then
        .star :: tokens length pattern
      else if char = '?' then
        .any :: tokens length pattern
      else if char = '[' then
        (bracket pattern).1 ::
          tokens length (bracket pattern).2
      else
        .literal char :: tokens length pattern

/- The texts that a list of tokens stands for. -/
def accepts : List Token → Text → Bool
  | [], text => text.isEmpty
  | .star :: rest, text =>
      text.tails.any fun tail => accepts rest tail
  | _ :: _, [] => false
  | token :: rest, char :: text =>
      token.accepts char && accepts rest text

/- `fnmatch.fnmatchcase` -/
def fnmatchcase (name pattern : Text) : Bool :=
  accepts (tokens pattern.length pattern) name

/- `GLOB_CHARACTERS` -/
def isGlobCharacter (char : Char) : Bool :=
  char = '*' || char = '?' || char = '['

/- `_literal_prefix` -/
def literalStart (pattern : Text) : Text :=
  pattern.takeWhile fun char => !isGlobCharacter char

------------------------------------------------------------
-- Literal Starts
------------------------------------------------------------

/- A name that a pattern matches starts as it does. -/
theorem starts_of_fnmatchcase
    {name pattern : Text}
    (hMatches : fnmatchcase name pattern = true) :
    literalStart pattern <+: name := by
  unfold fnmatchcase at hMatches
  induction pattern generalizing name with
  | nil => exact List.nil_prefix
  | cons char pattern ih =>
      unfold literalStart
      rw [List.takeWhile_cons]
      cases hGlob : isGlobCharacter char with
      | true => exact List.nil_prefix
      | false =>
          simp only [isGlobCharacter, Bool.or_eq_false_iff,
            decide_eq_false_iff_not] at hGlob
          rw [List.length_cons] at hMatches
          simp only [tokens, hGlob, if_false] at hMatches
          cases name with
          | nil => cases hMatches
          | cons first name =>
              simp only [accepts, Token.accepts,
                Bool.and_eq_true, beq_iff_eq] at hMatches
              rw [hMatches.1]
              exact (List.prefix_cons_inj char).mpr
                (ih hMatches.2)

/- Without brackets, a text with a star matches its tails. -/
theorem fnmatchcase_start
    {start : Text}
    (hPlain : '[' ∉ start)
    (rest : Text) :
    fnmatchcase (start ++ rest) (start ++ ['*']) = true := by
  unfold fnmatchcase
  induction start with
  | nil =>
      simp [tokens, accepts]
  | cons char start ih =>
      have hRest := ih fun hBracket =>
        hPlain (List.mem_cons_of_mem _ hBracket)
      have hBracket : char ≠ '[' := by
        rintro rfl
        exact hPlain List.mem_cons_self
      simp only [List.cons_append, List.length_cons, tokens]
      rw [if_neg hBracket]
      split
      · rw [accepts, List.any_eq_true]
        refine ⟨start ++ rest, ?_, hRest⟩
        exact (List.mem_tails _ _).mpr
            (List.suffix_cons _ _)
      · split
        · rw [accepts, hRest]
          · rfl
          · simp
        · rw [accepts, hRest]
          · simp [Token.accepts]
          · simp

end Glob

end Storage

end CrudAuth
