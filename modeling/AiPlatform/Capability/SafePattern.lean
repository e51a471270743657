/-
  AiPlatform.Capability.SafePattern

  The patterns an input schema may use (`parse_safe_pattern` and `pattern_matches`
  of `ai-platform-capability-contract/src/lib.rs`): a row of quantified atoms,
  possibly anchored at either end.

  A parsed pattern means a language, and the matcher, which carries the set of the
  positions it may have come to from atom to atom, finds out whether a word of that
  language stands in the text.
-/

import AiPlatform.Capability.Validation
import AiPlatform.Lib.Spans
import Mathlib.Data.Finset.Union

namespace AiPlatform.Capability

open Spans

inductive PatternAtom where
  | literal (expected : Char)
  | any
  /-- `Class` -/
  | charClass (ranges : List (Char × Char)) (negated : Bool)
  | digit
  | notDigit
  | word
  | notWord
  | space
  | notSpace
  deriving DecidableEq, Repr

structure PatternToken where
  atom : PatternAtom
  minimum : Nat
  maximum : Option Nat
  deriving DecidableEq, Repr

structure SafePattern where
  tokens : List PatternToken
  anchoredStart : Bool
  anchoredEnd : Bool
  deriving DecidableEq, Repr

/-! ## The parser -/

/-- A parser takes the characters from its index on, and gives back those after it. -/
abbrev Parser (α : Type) := List Char → Option (α × List Char)

/-- `char::is_control`: the category Cc. -/
def isControl (c : Char) : Bool := c.toNat < 32 || (127 ≤ c.toNat && c.toNat ≤ 159)

def parsePatternClassChar : Parser Char
  | [] => none
  | '\\' :: escaped :: rest =>
      if escaped ∈ ['d', 'D', 'w', 'W', 's', 'S', '.', '\\', '-', ']', '['] then
        some (escaped, rest)
      else none
  | ['\\'] => none
  | value :: rest => some (value, rest)

/-- The ranges up to the closing bracket.  Every turn takes a character, so as many
    turns as there are characters are enough. -/
def parseClassRanges : Nat → List (Char × Char) → Parser (List (Char × Char))
  | _, ranges, ']' :: rest => if ranges.isEmpty then none else some (ranges, rest)
  | _, _, [] => none
  | 0, _, _ => none
  | turns + 1, ranges, chars => do
      let (start, rest) ← parsePatternClassChar chars
      match rest with
      | '-' :: ']' :: _ => parseClassRanges turns (ranges ++ [(start, start)]) rest
      | '-' :: rest =>
          let (last, rest) ← parsePatternClassChar rest
          if last < start then none
          else parseClassRanges turns (ranges ++ [(start, last)]) rest
      | _ => parseClassRanges turns (ranges ++ [(start, start)]) rest

def parsePatternEscape : Parser PatternAtom
  | 'd' :: rest => some (.digit, rest)
  | 'D' :: rest => some (.notDigit, rest)
  | 'w' :: rest => some (.word, rest)
  | 'W' :: rest => some (.notWord, rest)
  | 's' :: rest => some (.space, rest)
  | 'S' :: rest => some (.notSpace, rest)
  | escaped :: rest =>
      if escaped ∈ ['.', '\\', '-'] then some (.literal escaped, rest) else none
  | [] => none

def parsePatternClass (negated : Bool) (chars : List Char) : Option (PatternAtom × List Char) :=
  (parseClassRanges chars.length [] chars).map fun found =>
    (.charClass found.1 negated, found.2)

def parsePatternAtom : Parser PatternAtom
  | [] => none
  | '[' :: '^' :: rest => parsePatternClass true rest
  | '[' :: rest => parsePatternClass false rest
  | '\\' :: rest => parsePatternEscape rest
  | '.' :: rest => some (.any, rest)
  | value :: rest =>
      if value ∈ ['(', ')', '|', '{', '}'] || isControl value then none
      else some (.literal value, rest)

/-- The number whose digits go on here; `checked_mul` and `checked_add` of a `usize`. -/
def quantifierDigits : Nat → Parser Nat
  | value, [] => some (value, [])
  | value, character :: rest =>
      if character.isDigit then
        let value := value * 10 + (character.toNat - '0'.toNat)
        if value < 2 ^ 64 then quantifierDigits value rest else none
      else some (value, character :: rest)

def parseQuantifierNumber : Parser Nat
  | [] => none
  | character :: rest =>
      if character.isDigit then quantifierDigits 0 (character :: rest) else none

def parseBoundedQuantifier (chars : List Char) : Option ((Nat × Option Nat) × List Char) := do
  let (minimum, rest) ← parseQuantifierNumber chars
  match rest with
  | '}' :: rest => if 256 < minimum then none else some ((minimum, some minimum), rest)
  | ',' :: rest => do
      let (maximum, rest) ← parseQuantifierNumber rest
      if maximum < minimum then none
      else
        match rest with
        | '}' :: rest => if 256 < maximum then none else some ((minimum, some maximum), rest)
        | _ => none
  | _ => none

def parseQuantifier : Parser (Nat × Option Nat)
  | '*' :: rest => some ((0, none), rest)
  | '+' :: rest => some ((1, none), rest)
  | '?' :: rest => some ((0, some 1), rest)
  | '{' :: rest => parseBoundedQuantifier rest
  | rest => some ((1, some 1), rest)

/-- A token, after which no other quantifier stands. -/
def parsePatternToken (chars : List Char) : Option (PatternToken × List Char) := do
  let (atom, rest) ← parsePatternAtom chars
  let ((minimum, maximum), rest) ← parseQuantifier rest
  if rest.head?.any fun next => next ∈ ['*', '+', '?', '{'] then none
  else some (⟨atom, minimum, maximum⟩, rest)

/-- The loop of `parse_safe_pattern`; every turn takes a character. -/
def parsePatternTokens : Nat → Bool → SafePattern → List Char → Option SafePattern
  | _, _, parsed, [] => some parsed
  | 0, _, _, _ => none
  | turns + 1, first, parsed, character :: rest =>
      if first && character == '^' then
        parsePatternTokens turns false { parsed with anchoredStart := true } rest
      else if rest.isEmpty && character == '$' then
        parsePatternTokens turns false { parsed with anchoredEnd := true } rest
      else
        match parsePatternToken (character :: rest) with
        | none => none
        | some (token, rest) =>
            parsePatternTokens turns false { parsed with tokens := parsed.tokens ++ [token] } rest

def parseSafePattern (pattern : String) : Option SafePattern :=
  if pattern == "" || 256 < pattern.utf8ByteSize || pattern.toList.any isAsciiControl then none
  else
    match parsePatternTokens pattern.toList.length true ⟨[], false, false⟩ pattern.toList with
    | none => none
    | some parsed =>
        if parsed.tokens.isEmpty && !(parsed.anchoredStart && parsed.anchoredEnd) then none
        else some parsed

/-! ## The matcher -/

/-- `char::is_ascii_whitespace` -/
def isAsciiWhitespace (c : Char) : Bool :=
  c == ' ' || c == '\t' || c == '\n' || c == '\x0c' || c == '\r'

def patternAtomMatches : PatternAtom → Char → Bool
  | .literal expected, value => expected == value
  | .any, _ => true
  | .charClass ranges negated, value =>
      (ranges.any fun range => range.1 ≤ value && value ≤ range.2) != negated
  | .digit, value => value.isDigit
  | .notDigit, value => !value.isDigit
  | .word, value => isAsciiAlphanumeric value || value == '_'
  | .notWord, value => !(isAsciiAlphanumeric value || value == '_')
  | .space, value => isAsciiWhitespace value
  | .notSpace, value => !isAsciiWhitespace value

/-- The positions one character on. -/
def advance (characters : List Char) (atom : PatternAtom) (frontier : Finset Nat) : Finset Nat :=
  (frontier.filter fun position =>
    (characters[position]?).any (patternAtomMatches atom)).image (· + 1)

/-- `for count in 0..=maximum`, from `count` on with so many to come. -/
def repeatAtom (characters : List Char) (token : PatternToken) :
    Nat → Nat → Finset Nat → Finset Nat → Finset Nat
  | toCome, count, frontier, nextPositions =>
      let nextPositions :=
        if token.minimum ≤ count then nextPositions ∪ frontier else nextPositions
      match toCome with
      | 0 => nextPositions
      | toCome + 1 =>
          let frontier := advance characters token.atom frontier
          if frontier = ∅ then nextPositions
          else repeatAtom characters token toCome (count + 1) frontier nextPositions

def tokenPositions (characters : List Char) (token : PatternToken) (start : Nat) : Finset Nat :=
  repeatAtom characters token (token.maximum.getD (characters.length - start)) 0 {start} ∅

/-- The positions after all tokens; nothing once there are none. -/
def tokensPositions (characters : List Char) : List PatternToken → Finset Nat →
    Option (Finset Nat)
  | [], positions => some positions
  | token :: rest, positions =>
      let nextPositions := positions.biUnion (tokenPositions characters token)
      if nextPositions = ∅ then none else tokensPositions characters rest nextPositions

def patternMatches (pattern : SafePattern) (value : String) : Bool :=
  let characters := value.toList
  let positions :=
    if pattern.anchoredStart then {0} else Finset.range (characters.length + 1)
  match tokensPositions characters pattern.tokens positions with
  | none => false
  | some positions => !pattern.anchoredEnd || decide (characters.length ∈ positions)

end AiPlatform.Capability
