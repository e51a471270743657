/-
  AiPlatform.Capability.PatternStandard

  What the spelling of a pattern means: the syntax of regular expressions, without
  groups and alternation, which no safe pattern has.

  In this syntax a class escape is a class inside brackets too, a repetition stands
  directly after an atom and nowhere else, and `^` and `$` mark the ends of the text
  wherever they stand.  The parser of the safe patterns is not used here, only the
  meaning that it gives the class escapes outside brackets.
-/

import AiPlatform.Capability.SafePattern
import AiPlatform.Lib.AnchoredPattern

namespace AiPlatform.Capability

open AnchoredPattern

/-! ## Atoms and what they stand for -/

/-- `\d`, `\D`, `\w`, `\W`, `\s` and `\S` -/
inductive ClassEscape where
  | digit
  | notDigit
  | word
  | notWord
  | space
  | notSpace
  deriving DecidableEq, Repr

namespace ClassEscape

def letter : ClassEscape → Char
  | .digit => 'd'
  | .notDigit => 'D'
  | .word => 'w'
  | .notWord => 'W'
  | .space => 's'
  | .notSpace => 'S'

def ofLetter? : Char → Option ClassEscape
  | 'd' => some .digit
  | 'D' => some .notDigit
  | 'w' => some .word
  | 'W' => some .notWord
  | 's' => some .space
  | 'S' => some .notSpace
  | _ => none

/-- The class, as it is outside brackets. -/
def atom : ClassEscape → PatternAtom
  | .digit => .digit
  | .notDigit => .notDigit
  | .word => .word
  | .notWord => .notWord
  | .space => .space
  | .notSpace => .notSpace

def contains (cls : ClassEscape) (c : Char) : Bool := patternAtomMatches cls.atom c

end ClassEscape

inductive BracketItem where
  | single (c : Char)
  | range (first last : Char)
  | escape (cls : ClassEscape)
  deriving DecidableEq, Repr

def BracketItem.contains : BracketItem → Char → Bool
  | .single expected, c => expected == c
  | .range first last, c => first ≤ c && c ≤ last
  | .escape cls, c => cls.contains c

inductive StandardAtom where
  | single (c : Char)
  | any
  | escape (cls : ClassEscape)
  | bracket (items : List BracketItem) (negated : Bool)
  deriving DecidableEq, Repr

def StandardAtom.contains : StandardAtom → Char → Bool
  | .single expected, c => expected == c
  | .any, _ => true
  | .escape cls, c => cls.contains c
  | .bracket items negated, c => (items.any fun item => item.contains c) != negated

/-! ## Reading the syntax -/

/-- A member of a bracket: a character, one that is escaped, or a class. -/
def readMember : Parser BracketItem
  | [] => none
  | ['\\'] => none
  | '\\' :: escaped :: rest =>
      match ClassEscape.ofLetter? escaped with
      | some cls => some (.escape cls, rest)
      | none => if isAsciiAlphanumeric escaped then none else some (.single escaped, rest)
  | c :: rest => some (.single c, rest)

/-- The range from the one member to the other; a class is no end of a range. -/
def BracketItem.upTo : BracketItem → BracketItem → Option BracketItem
  | .single first, .single last => if last < first then none else some (.range first last)
  | _, _ => none

/-- A member, or the range from it to another one; a `-` right before the closing bracket
    is a character. -/
def readItem (chars : List Char) : Option (BracketItem × List Char) := do
  let (first, rest) ← readMember chars
  match rest with
  | '-' :: ']' :: _ => some (first, rest)
  | '-' :: rest => do
      let (last, rest) ← readMember rest
      let range ← first.upTo last
      some (range, rest)
  | _ => some (first, rest)

/-- The items up to the closing bracket. -/
def readItems : Nat → Parser (List BracketItem)
  | _, ']' :: rest => some ([], rest)
  | _, [] => none
  | 0, _ => none
  | turns + 1, chars => do
      let (item, rest) ← readItem chars
      let (items, rest) ← readItems turns rest
      some (item :: items, rest)

def readBracket (negated : Bool) (chars : List Char) : Option (StandardAtom × List Char) :=
  (readItems chars.length chars).map fun found => (.bracket found.1 negated, found.2)

def readEscape : Parser StandardAtom
  | [] => none
  | escaped :: rest =>
      match ClassEscape.ofLetter? escaped with
      | some cls => some (.escape cls, rest)
      | none => if isAsciiAlphanumeric escaped then none else some (.single escaped, rest)

def isRepetition (c : Char) : Bool := c ∈ ['*', '+', '?', '{']

def readAtom : Parser StandardAtom
  | [] => none
  | '[' :: '^' :: rest => readBracket true rest
  | '[' :: rest => readBracket false rest
  | '\\' :: rest => readEscape rest
  | '.' :: rest => some (.any, rest)
  | c :: rest =>
      if isRepetition c || c ∈ ['(', ')', '|', '}'] then none else some (.single c, rest)

/-- The number whose digits go on here. -/
def readDigits : Nat → List Char → Nat × List Char
  | value, [] => (value, [])
  | value, c :: rest =>
      if c.isDigit then readDigits (value * 10 + (c.toNat - '0'.toNat)) rest
      else (value, c :: rest)

def readNumber : Parser Nat
  | [] => none
  | c :: rest => if c.isDigit then some (readDigits 0 (c :: rest)) else none

/-- `{m}`, `{m,}` and `{m,n}`, after the brace. -/
def readBounds (chars : List Char) : Option ((Nat × Option Nat) × List Char) := do
  let (minimum, rest) ← readNumber chars
  match rest with
  | '}' :: rest => some ((minimum, some minimum), rest)
  | ',' :: '}' :: rest => some ((minimum, none), rest)
  | ',' :: rest => do
      let (maximum, rest) ← readNumber rest
      match rest with
      | '}' :: rest => if maximum < minimum then none else some ((minimum, some maximum), rest)
      | _ => none
  | _ => none

def readRepetition : Parser (Nat × Option Nat)
  | '*' :: rest => some ((0, none), rest)
  | '+' :: rest => some ((1, none), rest)
  | '?' :: rest => some ((0, some 1), rest)
  | '{' :: rest => readBounds rest
  | rest => some ((1, some 1), rest)

def readTerm : Parser (Term StandardAtom)
  | '^' :: rest => some (.start, rest)
  | '$' :: rest => some (.finish, rest)
  | chars => do
      let (atom, rest) ← readAtom chars
      let ((minimum, maximum), rest) ← readRepetition rest
      some (.repeated atom minimum maximum, rest)

def readTerms : Nat → List Char → Option (List (Term StandardAtom))
  | _, [] => some []
  | 0, _ => none
  | turns + 1, chars => do
      let (term, rest) ← readTerm chars
      let terms ← readTerms turns rest
      some (term :: terms)

/-- The row a pattern spells; none for what spells no row. -/
def readPattern (pattern : String) : Option (List (Term StandardAtom)) :=
  readTerms pattern.toList.length pattern.toList

/-- Only an atom, or a mark, can begin what follows. -/
theorem readTerms_repetition {turns : Nat} {c : Char} {rest : List Char}
    (hc : isRepetition c = true) : readTerms turns (c :: rest) = none := by
  have hcase : c = '*' ∨ c = '+' ∨ c = '?' ∨ c = '{' := by
    simpa [isRepetition] using hc
  cases turns with
  | zero => rfl
  | succ turns =>
    have hterm : readTerm (c :: rest) = none := by
      rcases hcase with rfl | rfl | rfl | rfl <;> rfl
    rw [readTerms, hterm]
    · rfl
    · exact List.cons_ne_nil c rest

/-! ## Patterns that mean what the parser takes them for -/

/-- The brackets of a row. -/
def StandardAtom.isBracket : StandardAtom → Bool
  | .bracket _ _ => true
  | _ => false

def brackets (terms : List (Term StandardAtom)) : List StandardAtom :=
  (terms.filterMap Term.atom?).filter StandardAtom.isBracket

/-- An item, with the letter of a class escape in the place of the class. -/
def BracketItem.spelled : BracketItem → BracketItem
  | .escape cls => .single cls.letter
  | item => item

/-- The class escapes of a bracket can be taken for their letters: each letter is in the
    bracket, and what a class contains is also there without the classes. -/
def SpareEscapes (items : List BracketItem) : Prop :=
  ∀ cls, .escape cls ∈ items →
    (∃ item ∈ items, item.contains cls.letter = true) ∧
      ∀ c, cls.contains c = true → ∃ item ∈ items, item.spelled.contains c = true

/-- The row has its marks at its ends, and no bracket that depends on a class escape. -/
structure PlainRow (terms : List (Term StandardAtom)) : Prop where
  start_first : ∀ front rest, terms = front ++ .start :: rest → front = []
  finish_last : ∀ front rest, terms = front ++ .finish :: rest → rest = []
  spareEscapes : ∀ items negated, .bracket items negated ∈ brackets terms → SpareEscapes items

/-- The pattern is spelled by the syntax and its row is plain. -/
def PlainPattern (pattern : String) : Prop :=
  ∃ terms, readPattern pattern = some terms ∧ PlainRow terms

/-- With the escapes taken for letters, a bracket contains what it did exactly if they
    are spare. -/
theorem spareEscapes_iff {items : List BracketItem} : SpareEscapes items ↔
    ∀ c, (items.any fun item => item.spelled.contains c) =
      items.any fun item => item.contains c := by
  constructor
  · intro h c
    rw [Bool.eq_iff_iff, List.any_eq_true, List.any_eq_true]
    constructor
    · rintro ⟨item, hitem, hc⟩
      cases item with
      | single _ => exact ⟨_, hitem, hc⟩
      | range _ _ => exact ⟨_, hitem, hc⟩
      | escape cls =>
        obtain rfl : cls.letter = c := eq_of_beq hc
        exact (h cls hitem).1
    · rintro ⟨item, hitem, hc⟩
      cases item with
      | single _ => exact ⟨_, hitem, hc⟩
      | range _ _ => exact ⟨_, hitem, hc⟩
      | escape cls => exact (h cls hitem).2 c hc
  · intro h cls hcls
    constructor
    · rw [← List.any_eq_true, ← h, List.any_eq_true]
      exact ⟨_, hcls, beq_self_eq_true cls.letter⟩
    · intro c hc
      rw [← List.any_eq_true, h, List.any_eq_true]
      exact ⟨_, hcls, hc⟩

example : (readPattern "^[\\d_]+x*$").map (·.length) = some 4 := by decide

end AiPlatform.Capability
