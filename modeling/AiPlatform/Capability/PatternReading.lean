/-
  AiPlatform.Capability.PatternReading

  The parser of the safe patterns beside the syntax.

  Whatever the parser accepts it reads as the row that the spelling means, apart from
  two things (`parsePatternTokens_eq_some`): the class escapes of a bracket it takes
  for their letters, and a mark that does not stand at its end of the pattern for a
  literal.  A pattern keeps its meaning exactly when neither matters.
-/

import AiPlatform.Capability.PatternStandard
import AiPlatform.Capability.PatternMatcher

namespace AiPlatform.Capability

open AnchoredPattern

/-! ## What the parser takes a spelling for -/

def BracketItem.asRange : BracketItem → Char × Char
  | .single c => (c, c)
  | .range first last => (first, last)
  | .escape cls => (cls.letter, cls.letter)

def StandardAtom.asRead : StandardAtom → PatternAtom
  | .single c => .literal c
  | .any => .any
  | .escape cls => cls.atom
  | .bracket items negated => .charClass (items.map BracketItem.asRange) negated

def tokenRead : Term StandardAtom → PatternToken
  | .start => ⟨.literal '^', 1, some 1⟩
  | .finish => ⟨.literal '$', 1, some 1⟩
  | .repeated atom minimum maximum => ⟨atom.asRead, minimum, maximum⟩

variable {chars rest : List Char} {turns : Nat}

/-! ## Brackets -/

theorem readMember_of_ne {c : Char} (hc : c ≠ '\\') :
    readMember (c :: rest) = some (.single c, rest) := by
  unfold readMember
  split <;> simp_all

/-- A member of a bracket is the character that it is, or the letter of a class. -/
theorem parsePatternClassChar_eq_some {c : Char}
    (h : parsePatternClassChar chars = some (c, rest)) :
    c ∈ chars ∧ rest <:+ chars ∧ ∃ item, readMember chars = some (item, rest) ∧
      (item = .single c ∨ ∃ cls, item = .escape cls ∧ cls.letter = c) := by
  unfold parsePatternClassChar at h
  split at h
  next => cases h
  next escaped after =>
    split at h
    next hescaped =>
      obtain ⟨rfl, rfl⟩ : escaped = c ∧ after = rest := by simpa using h
      refine ⟨by simp, ⟨['\\', escaped], rfl⟩, ?_⟩
      simp only [List.mem_cons, List.not_mem_nil, or_false] at hescaped
      rcases hescaped with rfl | rfl | rfl | rfl | rfl | rfl | rfl | rfl | rfl | rfl | rfl
      · exact ⟨_, rfl, Or.inr ⟨.digit, rfl, rfl⟩⟩
      · exact ⟨_, rfl, Or.inr ⟨.notDigit, rfl, rfl⟩⟩
      · exact ⟨_, rfl, Or.inr ⟨.word, rfl, rfl⟩⟩
      · exact ⟨_, rfl, Or.inr ⟨.notWord, rfl, rfl⟩⟩
      · exact ⟨_, rfl, Or.inr ⟨.space, rfl, rfl⟩⟩
      · exact ⟨_, rfl, Or.inr ⟨.notSpace, rfl, rfl⟩⟩
      all_goals exact ⟨_, rfl, Or.inl rfl⟩
    next => cases h
  next => cases h
  next value after hescape hslash =>
    obtain ⟨rfl, rfl⟩ : value = c ∧ after = rest := by simpa using h
    refine ⟨List.mem_cons_self, List.suffix_cons value after, _, readMember_of_ne ?_, Or.inl rfl⟩
    rintro rfl
    cases after with
    | nil => exact hslash rfl rfl
    | cons escaped after => exact hescape escaped after rfl rfl

/-- The range between two members, if the syntax has one, is what the parser took. -/
theorem upTo_asRange {first last item : BracketItem} {c d : Char}
    (hfirst : first = .single c ∨ ∃ cls, first = .escape cls ∧ cls.letter = c)
    (hlast : last = .single d ∨ ∃ cls, last = .escape cls ∧ cls.letter = d)
    (h : first.upTo last = some item) : item.asRange = (c, d) := by
  rcases hfirst with rfl | ⟨cls, rfl, -⟩
  · rcases hlast with rfl | ⟨cls, rfl, -⟩
    · simp only [BracketItem.upTo] at h
      split at h
      · cases h
      · obtain rfl := Option.some.inj h
        rfl
    · cases h
  · cases h

theorem asRange_of_member {item : BracketItem} {c : Char}
    (h : item = .single c ∨ ∃ cls, item = .escape cls ∧ cls.letter = c) :
    item.asRange = (c, c) := by
  rcases h with rfl | ⟨cls, rfl, rfl⟩
  · rfl
  · rfl

/-- One turn of the loop over a bracket. -/
def parseClassRange (chars : List Char) : Option ((Char × Char) × List Char) := do
  let (start, rest) ← parsePatternClassChar chars
  match rest with
  | '-' :: ']' :: _ => some ((start, start), rest)
  | '-' :: rest =>
      let (last, rest) ← parsePatternClassChar rest
      if last < start then none else some ((start, last), rest)
  | _ => some ((start, start), rest)

theorem parseClassRanges_succ {c : Char} {ranges : List (Char × Char)} (hc : c ≠ ']') :
    parseClassRanges (turns + 1) ranges (c :: rest) = (parseClassRange (c :: rest)).bind
      fun found => parseClassRanges turns (ranges ++ [found.1]) found.2 := by
  rw [parseClassRanges, parseClassRange]
  · cases parsePatternClassChar (c :: rest) with
    | none => rfl
    | some found =>
      obtain ⟨start, after⟩ := found
      simp only [Option.bind_eq_bind, Option.bind_some]
      cases after with
      | nil => rfl
      | cons d tail =>
        by_cases hd : d = '-'
        · subst hd
          cases tail with
          | nil => rfl
          | cons e later =>
            by_cases he : e = ']'
            · subst he
              rfl
            · simp only [List.cons.injEq, he, false_and, imp_self, implies_true]
              cases parsePatternClassChar (e :: later) with
              | none => rfl
              | some found =>
                simp only [Option.bind_some]
                split
                · rfl
                · rfl
        · simp only [List.cons.injEq, hd, false_and, imp_self, implies_true, Option.bind_some]
  · intro after h
    exact hc (List.cons.inj h).1
  · exact List.cons_ne_nil c rest

/-- One range: it is not backwards, it begins at a character of the pattern, and it is the
    item of the syntax with a class spelled. -/
theorem parseClassRange_eq_some {range : Char × Char}
    (h : parseClassRange chars = some (range, rest)) :
    range.1 ∈ chars ∧ range.1 ≤ range.2 ∧ rest <:+ chars ∧
      ∀ item rest', readItem chars = some (item, rest') →
        rest' = rest ∧ item.asRange = range := by
  obtain ⟨⟨start, after⟩, hstart, hrange⟩ := Option.bind_eq_some_iff.mp h
  clear h
  dsimp only at hrange
  obtain ⟨hmem, hsuffix, first, hfirst, hmember⟩ := parsePatternClassChar_eq_some hstart
  unfold readItem
  simp only [hfirst, Option.bind_eq_bind, Option.bind_some]
  split at hrange
  next =>
    obtain ⟨rfl, rfl⟩ : (start, start) = range ∧ _ = rest := by simpa using hrange
    refine ⟨hmem, le_rfl, hsuffix, ?_⟩
    intro item rest' hitem
    obtain ⟨rfl, rfl⟩ : first = item ∧ _ = rest' := by simpa using hitem
    exact ⟨rfl, asRange_of_member hmember⟩
  next tail _ =>
    obtain ⟨⟨last, after⟩, hlast, hrange⟩ := Option.bind_eq_some_iff.mp hrange
    obtain ⟨-, hsuffix', second, hsecond, hmember'⟩ := parsePatternClassChar_eq_some hlast
    dsimp only at hrange
    split at hrange
    next => cases hrange
    next hle =>
      obtain ⟨rfl, rfl⟩ : (start, last) = range ∧ after = rest := by simpa using hrange
      refine ⟨hmem, not_lt.mp hle, (hsuffix'.trans (List.suffix_cons _ tail)).trans hsuffix, ?_⟩
      intro item rest' hitem
      simp only [hsecond, Option.bind_some] at hitem
      obtain ⟨range, hupTo, hitem⟩ := Option.bind_eq_some_iff.mp hitem
      obtain ⟨rfl, rfl⟩ : range = item ∧ after = rest' := by simpa using hitem
      exact ⟨rfl, upTo_asRange hmember hmember' hupTo⟩
  next =>
    obtain ⟨rfl, rfl⟩ : (start, start) = range ∧ after = rest := by simpa using hrange
    refine ⟨hmem, le_rfl, hsuffix, ?_⟩
    intro item rest' hitem
    obtain ⟨rfl, rfl⟩ : first = item ∧ after = rest' := by simpa using hitem
    exact ⟨rfl, asRange_of_member hmember⟩

theorem parseClassRanges_closed {ranges ranges' : List (Char × Char)}
    (h : parseClassRanges turns ranges (']' :: chars) = some (ranges', rest)) :
    ranges' ≠ [] ∧ rest <:+ ']' :: chars ∧ ∃ read, ranges' = ranges ++ read ∧
      (∀ range ∈ read, range.1 ∈ ']' :: chars ∧ range.1 ≤ range.2) ∧
      ∀ items rest', readItems turns (']' :: chars) = some (items, rest') →
        rest' = rest ∧ read = items.map BracketItem.asRange := by
  have hparse : parseClassRanges turns ranges (']' :: chars) =
      if ranges.isEmpty then none else some (ranges, chars) := by
    cases turns <;> rfl
  have hread : readItems turns (']' :: chars) = some ([], chars) := by
    cases turns <;> rfl
  rw [hparse] at h
  split at h
  next => cases h
  next hne =>
    obtain ⟨rfl, rfl⟩ : ranges = ranges' ∧ chars = rest := by simpa using h
    refine ⟨by simpa using hne, List.suffix_cons _ _, [], (List.append_nil _).symm, by simp, ?_⟩
    intro items rest' hitems
    obtain ⟨rfl, rfl⟩ : [] = items ∧ chars = rest' := by simpa [hread] using hitems
    exact ⟨rfl, rfl⟩

theorem parseClassRanges_zero {c : Char} {ranges : List (Char × Char)} (hc : c ≠ ']') :
    parseClassRanges 0 ranges (c :: rest) = none := by
  rw [parseClassRanges]
  · intro after h
    exact hc (List.cons.inj h).1
  · exact List.cons_ne_nil c rest

theorem readItems_succ {c : Char} (hc : c ≠ ']') :
    readItems (turns + 1) (c :: rest) = (readItem (c :: rest)).bind fun found =>
      (readItems turns found.2).bind fun items => some (found.1 :: items.1, items.2) := by
  rw [readItems]
  · rfl
  · intro after h
    exact hc (List.cons.inj h).1
  · exact List.cons_ne_nil c rest

/-- The ranges of a bracket are those of its items. -/
theorem parseClassRanges_eq_some {ranges ranges' : List (Char × Char)}
    (h : parseClassRanges turns ranges chars = some (ranges', rest)) :
    ranges' ≠ [] ∧ rest <:+ chars ∧ ∃ read, ranges' = ranges ++ read ∧
      (∀ range ∈ read, range.1 ∈ chars ∧ range.1 ≤ range.2) ∧
      ∀ items rest', readItems turns chars = some (items, rest') →
        rest' = rest ∧ read = items.map BracketItem.asRange := by
  induction turns generalizing ranges chars with
  | zero =>
    cases chars with
    | nil => cases h
    | cons c tail =>
      by_cases hc : c = ']'
      · subst hc
        exact parseClassRanges_closed h
      · rw [parseClassRanges_zero hc] at h
        cases h
  | succ turns ih =>
    cases chars with
    | nil => cases h
    | cons c tail =>
      by_cases hc : c = ']'
      · subst hc
        exact parseClassRanges_closed h
      · rw [parseClassRanges_succ hc] at h
        obtain ⟨⟨range, after⟩, hrange, h⟩ := Option.bind_eq_some_iff.mp h
        obtain ⟨hmem, hle, hsuffix, hitem⟩ := parseClassRange_eq_some hrange
        obtain ⟨hne, hsuffix', read, rfl, hread, hitems⟩ := ih h
        refine ⟨hne, hsuffix'.trans hsuffix, range :: read, by simp, ?_, ?_⟩
        · intro other hother
          rcases List.mem_cons.mp hother with rfl | hother
          · exact ⟨hmem, hle⟩
          · exact ⟨hsuffix.subset (hread other hother).1, (hread other hother).2⟩
        · intro items rest' h'
          rw [readItems_succ hc] at h'
          obtain ⟨⟨item, after'⟩, hfirst, h'⟩ := Option.bind_eq_some_iff.mp h'
          obtain ⟨⟨others, rest''⟩, hothers, h'⟩ := Option.bind_eq_some_iff.mp h'
          obtain ⟨rfl, rfl⟩ : item :: others = items ∧ rest'' = rest' := by simpa using h'
          obtain ⟨rfl, rfl⟩ := hitem item after' hfirst
          obtain ⟨rfl, rfl⟩ := hitems others rest'' hothers
          exact ⟨rfl, rfl⟩

/-! ## Atoms -/

theorem letter_of_ofLetter? {c : Char} {cls : ClassEscape}
    (h : ClassEscape.ofLetter? c = some cls) : c = cls.letter := by
  unfold ClassEscape.ofLetter? at h
  split at h
  all_goals first
    | obtain rfl := Option.some.inj h
      rfl
    | cases h

/-- No class is empty. -/
theorem exists_contains (cls : ClassEscape) : ∃ c, patternAtomMatches cls.atom c = true := by
  cases cls with
  | digit => exact ⟨'0', rfl⟩
  | notDigit => exact ⟨'a', rfl⟩
  | word => exact ⟨'a', rfl⟩
  | notWord => exact ⟨' ', rfl⟩
  | space => exact ⟨' ', rfl⟩
  | notSpace => exact ⟨'a', rfl⟩

theorem parsePatternEscape_letter (cls : ClassEscape) :
    parsePatternEscape (cls.letter :: rest) = some (cls.atom, rest) := by
  cases cls <;> rfl

theorem parsePatternEscape_eq_some {atom : PatternAtom}
    (h : parsePatternEscape chars = some (atom, rest)) :
    rest <:+ chars ∧ (∃ c, patternAtomMatches atom c = true) ∧
      ∀ meant rest', readEscape chars = some (meant, rest') →
        rest' = rest ∧ atom = meant.asRead := by
  cases chars with
  | nil => cases h
  | cons c after =>
    cases hcls : ClassEscape.ofLetter? c with
    | some cls =>
      obtain rfl := letter_of_ofLetter? hcls
      rw [parsePatternEscape_letter] at h
      obtain ⟨rfl, rfl⟩ : cls.atom = atom ∧ after = rest := by simpa using h
      refine ⟨List.suffix_cons _ _, exists_contains cls, ?_⟩
      intro meant rest' hmeant
      obtain ⟨rfl, rfl⟩ : .escape cls = meant ∧ after = rest' := by
        simpa [readEscape, hcls] using hmeant
      exact ⟨rfl, rfl⟩
    | none =>
      have hliteral : .literal c = atom ∧ after = rest := by
        unfold parsePatternEscape at h
        split at h
        next heq => cases (List.cons.inj heq).1; cases hcls
        next heq => cases (List.cons.inj heq).1; cases hcls
        next heq => cases (List.cons.inj heq).1; cases hcls
        next heq => cases (List.cons.inj heq).1; cases hcls
        next heq => cases (List.cons.inj heq).1; cases hcls
        next heq => cases (List.cons.inj heq).1; cases hcls
        next heq =>
          split at h
          next =>
            obtain ⟨rfl, rfl⟩ := List.cons.inj heq
            simpa using h
          next => cases h
        next heq => cases heq
      obtain ⟨rfl, rfl⟩ := hliteral
      refine ⟨List.suffix_cons _ _, ⟨c, beq_self_eq_true c⟩, ?_⟩
      intro meant rest' hmeant
      simp only [readEscape, hcls] at hmeant
      split at hmeant
      next => cases hmeant
      next =>
        obtain ⟨rfl, rfl⟩ : .single c = meant ∧ after = rest' := by simpa using hmeant
        exact ⟨rfl, rfl⟩

/-- A bracket contains something, as the pattern has no character below those that are
    printed. -/
theorem parsePatternClass_eq_some {negated : Bool} {atom : PatternAtom}
    (hprinted : ∀ c ∈ chars, '\x00' < c)
    (h : parsePatternClass negated chars = some (atom, rest)) :
    rest <:+ chars ∧ (∃ c, patternAtomMatches atom c = true) ∧
      ∀ meant rest', readBracket negated chars = some (meant, rest') →
        rest' = rest ∧ atom = meant.asRead := by
  obtain ⟨⟨ranges, after⟩, hranges, heq⟩ := Option.map_eq_some_iff.mp h
  obtain ⟨rfl, rfl⟩ : .charClass ranges negated = atom ∧ after = rest := by simpa using heq
  obtain ⟨hne, hsuffix, _, rfl, hread, hitems⟩ := parseClassRanges_eq_some hranges
  refine ⟨hsuffix, ?_, ?_⟩
  · cases negated with
    | false =>
      obtain ⟨range, hrange⟩ := List.exists_mem_of_ne_nil ranges hne
      refine ⟨range.1, ?_⟩
      simp only [patternAtomMatches, Bool.bne_false, List.any_eq_true]
      exact ⟨range, hrange, by simp [(hread range hrange).2]⟩
    | true =>
      refine ⟨'\x00', ?_⟩
      have hnone : (ranges.any fun range => range.1 ≤ '\x00' && '\x00' ≤ range.2) = false := by
        rw [List.any_eq_false]
        intro range hrange
        have hlow := hprinted range.1 (hread range hrange).1
        simp [not_le.mpr hlow]
      simp only [patternAtomMatches, hnone]
      rfl
  · intro meant rest' hmeant
    obtain ⟨⟨items, after'⟩, hread', heq'⟩ := Option.map_eq_some_iff.mp hmeant
    obtain ⟨rfl, rfl⟩ : .bracket items negated = meant ∧ after' = rest' := by simpa using heq'
    obtain ⟨rfl, rfl⟩ := hitems items after' hread'
    exact ⟨rfl, rfl⟩

theorem readAtom_bracket (h : ∀ tail, rest = '^' :: tail → False) :
    readAtom ('[' :: rest) = readBracket false rest := by
  unfold readAtom
  split
  next heq => cases heq
  next heq => exact absurd (List.cons.inj heq).2 (h _)
  next heq => rw [(List.cons.inj heq).2]
  next heq => cases heq
  next heq => cases heq
  next hbracket _ _ heq => exact absurd (List.cons.inj heq).1.symm hbracket

theorem readAtom_single {c : Char} (hbracket : c ≠ '[') (hslash : c ≠ '\\') (hdot : c ≠ '.') :
    readAtom (c :: rest) =
      if isRepetition c || c ∈ ['(', ')', '|', '}'] then none else some (.single c, rest) := by
  unfold readAtom
  split <;> simp_all

theorem parsePatternAtom_eq_some {atom : PatternAtom} (hprinted : ∀ c ∈ chars, '\x00' < c)
    (h : parsePatternAtom chars = some (atom, rest)) :
    rest <:+ chars ∧ (∃ c, patternAtomMatches atom c = true) ∧
      ∀ meant rest', readAtom chars = some (meant, rest') →
        rest' = rest ∧ atom = meant.asRead := by
  unfold parsePatternAtom at h
  split at h
  next => cases h
  next after =>
    obtain ⟨hsuffix, hsome, hmeant⟩ := parsePatternClass_eq_some
      (fun c hc => hprinted c (List.mem_cons_of_mem _ (List.mem_cons_of_mem _ hc))) h
    exact ⟨hsuffix.trans ⟨['[', '^'], rfl⟩, hsome, hmeant⟩
  next after hnegated =>
    obtain ⟨hsuffix, hsome, hmeant⟩ := parsePatternClass_eq_some
      (fun c hc => hprinted c (List.mem_cons_of_mem _ hc)) h
    refine ⟨hsuffix.trans (List.suffix_cons _ _), hsome, ?_⟩
    intro meant rest' hread
    rw [readAtom_bracket hnegated] at hread
    exact hmeant meant rest' hread
  next after =>
    obtain ⟨hsuffix, hsome, hmeant⟩ := parsePatternEscape_eq_some h
    exact ⟨hsuffix.trans (List.suffix_cons _ _), hsome, hmeant⟩
  next after =>
    obtain ⟨rfl, rfl⟩ : .any = atom ∧ after = rest := by simpa using h
    refine ⟨List.suffix_cons _ _, ⟨'a', rfl⟩, ?_⟩
    intro meant rest' hmeant
    obtain ⟨rfl, rfl⟩ : .any = meant ∧ after = rest' := by simpa [readAtom] using hmeant
    exact ⟨rfl, rfl⟩
  next c after _ hbracket hslash hdot =>
    split at h
    next => cases h
    next =>
      obtain ⟨rfl, rfl⟩ : .literal c = atom ∧ after = rest := by simpa using h
      refine ⟨List.suffix_cons _ _, ⟨c, beq_self_eq_true c⟩, ?_⟩
      intro meant rest' hmeant
      rw [readAtom_single hbracket hslash hdot] at hmeant
      split at hmeant
      next => cases hmeant
      next =>
        obtain ⟨rfl, rfl⟩ : .single c = meant ∧ after = rest' := by simpa using hmeant
        exact ⟨rfl, rfl⟩

/-! ## Repetitions -/

theorem quantifierDigits_eq_some {value number : Nat}
    (h : quantifierDigits value chars = some (number, rest)) :
    rest <:+ chars ∧ readDigits value chars = (number, rest) := by
  induction chars generalizing value with
  | nil =>
    obtain ⟨rfl, rfl⟩ : value = number ∧ [] = rest := by simpa [quantifierDigits] using h
    exact ⟨List.suffix_refl _, rfl⟩
  | cons c tail ih =>
    unfold quantifierDigits at h
    unfold readDigits
    split at h
    next hdigit =>
      dsimp only at h
      split at h
      next =>
        rw [if_pos hdigit]
        exact ⟨(ih h).1.trans (List.suffix_cons c tail), (ih h).2⟩
      next => cases h
    next hdigit =>
      rw [if_neg hdigit]
      obtain ⟨rfl, rfl⟩ : value = number ∧ c :: tail = rest := by simpa using h
      exact ⟨List.suffix_refl _, rfl⟩

theorem parseQuantifierNumber_eq_some {number : Nat}
    (h : parseQuantifierNumber chars = some (number, rest)) :
    rest <:+ chars ∧ readNumber chars = some (number, rest) := by
  cases chars with
  | nil => cases h
  | cons c tail =>
    simp only [parseQuantifierNumber] at h
    simp only [readNumber]
    split at h
    next hdigit =>
      obtain ⟨hsuffix, hread⟩ := quantifierDigits_eq_some h
      rw [if_pos hdigit, hread]
      exact ⟨hsuffix, rfl⟩
    next => cases h

theorem parseBoundedQuantifier_eq_some {minimum : Nat} {maximum : Option Nat}
    (h : parseBoundedQuantifier chars = some ((minimum, maximum), rest)) :
    rest <:+ chars ∧ (∀ bound ∈ maximum, minimum ≤ bound) ∧
      readBounds chars = some ((minimum, maximum), rest) := by
  obtain ⟨⟨first, after⟩, hfirst, hbound⟩ := Option.bind_eq_some_iff.mp h
  clear h
  dsimp only at hbound
  obtain ⟨hsuffix, hread⟩ := parseQuantifierNumber_eq_some hfirst
  unfold readBounds
  simp only [hread, Option.bind_eq_bind, Option.bind_some]
  split at hbound
  next tail =>
    split at hbound
    next => cases hbound
    next =>
      obtain ⟨⟨rfl, rfl⟩, rfl⟩ : (first = minimum ∧ some first = maximum) ∧ tail = rest := by
        simpa using hbound
      exact ⟨(List.suffix_cons _ _).trans hsuffix, by simp, rfl⟩
  next tail =>
    obtain ⟨⟨last, after⟩, hlast, hbound⟩ := Option.bind_eq_some_iff.mp hbound
    dsimp only at hbound
    obtain ⟨hsuffix', hread'⟩ := parseQuantifierNumber_eq_some hlast
    split at hbound
    next => cases hbound
    next hle =>
      split at hbound
      next tail' =>
        split at hbound
        next => cases hbound
        next =>
          obtain ⟨⟨rfl, rfl⟩, rfl⟩ : (first = minimum ∧ some last = maximum) ∧ tail' = rest := by
            simpa using hbound
          refine ⟨?_, by simpa using hle, ?_⟩
          · exact (((List.suffix_cons _ _).trans hsuffix').trans (List.suffix_cons _ _)).trans
              hsuffix
          · split
            next heq => cases heq
            next heq =>
              rw [(List.cons.inj heq).2] at hlast
              cases hlast
            next heq =>
              rw [← (List.cons.inj heq).2, hread']
              simp only [Option.bind_some, if_neg hle]
            next hcomma => exact absurd rfl (hcomma _)
      next => cases hbound
  next => cases hbound

theorem parseQuantifier_eq_some {minimum : Nat} {maximum : Option Nat}
    (h : parseQuantifier chars = some ((minimum, maximum), rest)) :
    rest <:+ chars ∧ (∀ bound ∈ maximum, minimum ≤ bound) ∧
      readRepetition chars = some ((minimum, maximum), rest) := by
  unfold parseQuantifier at h
  split at h
  next tail =>
    obtain ⟨⟨rfl, rfl⟩, rfl⟩ : (0 = minimum ∧ none = maximum) ∧ tail = rest := by simpa using h
    exact ⟨List.suffix_cons _ _, by simp, rfl⟩
  next tail =>
    obtain ⟨⟨rfl, rfl⟩, rfl⟩ : (1 = minimum ∧ none = maximum) ∧ tail = rest := by simpa using h
    exact ⟨List.suffix_cons _ _, by simp, rfl⟩
  next tail =>
    obtain ⟨⟨rfl, rfl⟩, rfl⟩ : (0 = minimum ∧ some 1 = maximum) ∧ tail = rest := by
      simpa using h
    exact ⟨List.suffix_cons _ _, by simp, rfl⟩
  next tail =>
    obtain ⟨hsuffix, hle, hread⟩ := parseBoundedQuantifier_eq_some h
    exact ⟨hsuffix.trans (List.suffix_cons _ _), hle, hread⟩
  next hstar hplus hmark hbrace =>
    obtain ⟨⟨rfl, rfl⟩, rfl⟩ : (1 = minimum ∧ some 1 = maximum) ∧ chars = rest := by
      simpa using h
    refine ⟨List.suffix_refl _, by simp, ?_⟩
    unfold readRepetition
    split
    next => exact absurd rfl (hstar _)
    next => exact absurd rfl (hplus _)
    next => exact absurd rfl (hmark _)
    next => exact absurd rfl (hbrace _)
    next => rfl

/-! ## Tokens -/

theorem parseQuantifier_plain (h : ∀ c tail, rest = c :: tail → isRepetition c = false) :
    parseQuantifier rest = some ((1, some 1), rest) := by
  unfold parseQuantifier
  split
  next => cases h _ _ rfl
  next => cases h _ _ rfl
  next => cases h _ _ rfl
  next => cases h _ _ rfl
  next => rfl

theorem readTerm_atom {c : Char} (hstart : c ≠ '^') (hfinish : c ≠ '$') :
    readTerm (c :: rest) = (readAtom (c :: rest)).bind fun found =>
      (readRepetition found.2).bind fun bounds =>
        some (.repeated found.1 bounds.1.1 bounds.1.2, bounds.2) := by
  unfold readTerm
  split
  next heq => exact absurd (List.cons.inj heq).1 hstart
  next heq => exact absurd (List.cons.inj heq).1 hfinish
  next => rfl

theorem readTerm_finish {c : Char} {after : List Char}
    (h : readTerm (c :: rest) = some (.finish, after)) : c = '$' ∧ rest = after := by
  by_cases hstart : c = '^'
  · subst hstart
    simp [readTerm] at h
  · by_cases hfinish : c = '$'
    · subst hfinish
      exact ⟨rfl, by simpa [readTerm] using h⟩
    · rw [readTerm_atom hstart hfinish] at h
      obtain ⟨found, -, h⟩ := Option.bind_eq_some_iff.mp h
      obtain ⟨bounds, -, h⟩ := Option.bind_eq_some_iff.mp h
      simp at h

/-- A mark that the parser takes for a literal: nothing repeats it, or the syntax could not
    go on after it. -/
theorem parsePatternToken_mark {c : Char} {atom : PatternAtom} {token : PatternToken}
    {terms : List (Term StandardAtom)} {after : List Char}
    (hatom : parsePatternAtom (c :: after) = some (atom, after))
    (h : parsePatternToken (c :: after) = some (token, rest))
    (hterms : readTerms turns after = some terms) :
    after = rest ∧ token = ⟨atom, 1, some 1⟩ := by
  have hplain : parseQuantifier after = some ((1, some 1), after) := by
    refine parseQuantifier_plain fun d tail heq => ?_
    cases hd : isRepetition d with
    | false => rfl
    | true =>
      rw [heq, readTerms_repetition hd] at hterms
      cases hterms
  simp only [parsePatternToken, hatom, hplain, Option.bind_eq_bind, Option.bind_some] at h
  split at h
  next => cases h
  next =>
    obtain ⟨rfl, rfl⟩ : ⟨atom, 1, some 1⟩ = token ∧ after = rest := by simpa using h
    exact ⟨rfl, rfl⟩

/-- A token is the term that the syntax has there, if what comes after can be read. -/
theorem parsePatternToken_eq_some {token : PatternToken} (hprinted : ∀ c ∈ chars, '\x00' < c)
    (h : parsePatternToken chars = some (token, rest)) :
    rest <:+ chars ∧ token.term.Possible patternAtomMatches ∧
      ∀ term after turns terms, readTerm chars = some (term, after) →
        readTerms turns after = some terms → after = rest ∧ token = tokenRead term := by
  obtain ⟨⟨atom, afterAtom⟩, hatom, hquantifier⟩ := Option.bind_eq_some_iff.mp h
  obtain ⟨⟨⟨minimum, maximum⟩, afterQuantifier⟩, hbounds, hend⟩ :=
    Option.bind_eq_some_iff.mp hquantifier
  clear hquantifier
  dsimp only at hend hbounds
  obtain ⟨hsuffix, hsome, hmeant⟩ := parsePatternAtom_eq_some hprinted hatom
  obtain ⟨hsuffix', hle, hrepetition⟩ := parseQuantifier_eq_some hbounds
  split at hend
  next => cases hend
  next =>
    obtain ⟨rfl, rfl⟩ : ⟨atom, minimum, maximum⟩ = token ∧ afterQuantifier = rest := by
      simpa using hend
    refine ⟨hsuffix'.trans hsuffix, ⟨hsome, hle⟩, ?_⟩
    intro term after turns terms hterm hterms
    cases chars with
    | nil => cases hatom
    | cons c tail =>
      by_cases hstart : c = '^'
      · subst hstart
        obtain ⟨rfl, rfl⟩ : .start = term ∧ tail = after := by simpa [readTerm] using hterm
        exact parsePatternToken_mark rfl h hterms
      · by_cases hfinish : c = '$'
        · subst hfinish
          obtain ⟨rfl, rfl⟩ : .finish = term ∧ tail = after := by simpa [readTerm] using hterm
          exact parsePatternToken_mark rfl h hterms
        · rw [readTerm_atom hstart hfinish] at hterm
          obtain ⟨⟨meant, afterMeant⟩, hread, hterm⟩ := Option.bind_eq_some_iff.mp hterm
          obtain ⟨rfl, rfl⟩ := hmeant meant afterMeant hread
          rw [hrepetition] at hterm
          obtain ⟨rfl, rfl⟩ : .repeated meant minimum maximum = term ∧
              afterQuantifier = after := by
            simpa using hterm
          exact ⟨rfl, rfl⟩

theorem readTerms_cons {c : Char} : readTerms (turns + 1) (c :: rest) =
    (readTerm (c :: rest)).bind fun found =>
      (readTerms turns found.2).bind fun terms => some (found.1 :: terms) := by
  rw [readTerms]
  · rfl
  · exact List.cons_ne_nil c rest

/-- Nothing is left where nothing is read. -/
theorem eq_nil_of_readTerms (h : readTerms turns chars = some []) : chars = [] := by
  cases chars with
  | nil => rfl
  | cons c tail =>
    cases turns with
    | zero => cases h
    | succ turns =>
      rw [readTerms_cons] at h
      obtain ⟨found, -, h⟩ := Option.bind_eq_some_iff.mp h
      obtain ⟨terms, -, h⟩ := Option.bind_eq_some_iff.mp h
      cases h

theorem parsePatternTokens_nil {first : Bool} {parsed : SafePattern} :
    parsePatternTokens turns first parsed [] = some parsed := by
  cases turns <;> rfl

theorem readTerms_nil : readTerms turns [] = some [] := by
  cases turns <;> rfl

/-- From one state of the parser to the other the tokens added are the terms that the
    syntax has there, but for a mark that closes the pattern. -/
def ReadsOn (turns : Nat) (chars : List Char) (parsed parsed' : SafePattern) : Prop :=
  ∃ tokens closes, parsed' = ⟨parsed.tokens ++ tokens, parsed.anchoredStart,
      parsed.anchoredEnd || closes⟩ ∧
    (∀ token ∈ tokens, token.term.Possible patternAtomMatches) ∧
    ∀ terms, readTerms turns chars = some terms →
      ∃ middle, tokens = middle.map tokenRead ∧
        terms = middle ++ (if closes then [.finish] else []) ∧
        (closes = false → terms.getLast? ≠ some .finish)

theorem readsOn_nil {parsed : SafePattern} : ReadsOn turns [] parsed parsed := by
  refine ⟨[], false, by simp, by simp, ?_⟩
  intro terms hterms
  obtain rfl : [] = terms := Option.some.inj (readTerms_nil.symm.trans hterms)
  exact ⟨[], rfl, rfl, by simp⟩

theorem readsOn_close {parsed : SafePattern} :
    ReadsOn (turns + 1) ['$'] parsed { parsed with anchoredEnd := true } := by
  refine ⟨[], true, by simp, by simp, ?_⟩
  intro terms hterms
  have hread : readTerms (turns + 1) ['$'] = some [.finish] := by
    rw [readTerms_cons]
    simp only [readTerm, Option.bind_some, readTerms_nil]
  obtain rfl : [.finish] = terms := Option.some.inj (hread.symm.trans hterms)
  exact ⟨[], rfl, rfl, by simp⟩

theorem readsOn_token {c : Char} {token : PatternToken} {after : List Char}
    {parsed parsed' : SafePattern} (hprinted : ∀ d ∈ c :: rest, '\x00' < d)
    (hopen : ¬ (rest = [] ∧ c = '$')) (htoken : parsePatternToken (c :: rest) = some (token, after))
    (hrest : ReadsOn turns after { parsed with tokens := parsed.tokens ++ [token] } parsed') :
    ReadsOn (turns + 1) (c :: rest) parsed parsed' := by
  obtain ⟨-, hpossible, hmeant⟩ := parsePatternToken_eq_some hprinted htoken
  obtain ⟨tokens, closes, rfl, htokens, hterms⟩ := hrest
  refine ⟨token :: tokens, closes, by simp, ?_, ?_⟩
  · intro other hother
    rcases List.mem_cons.mp hother with rfl | hother
    · exact hpossible
    · exact htokens other hother
  · intro terms hread
    rw [readTerms_cons] at hread
    obtain ⟨⟨term, afterTerm⟩, hterm, hread⟩ := Option.bind_eq_some_iff.mp hread
    obtain ⟨others, hothers, hread⟩ := Option.bind_eq_some_iff.mp hread
    obtain rfl : term :: others = terms := Option.some.inj hread
    obtain ⟨rfl, rfl⟩ := hmeant term afterTerm turns others hterm hothers
    obtain ⟨middle, rfl, hmiddle, hlast⟩ := hterms others hothers
    refine ⟨term :: middle, rfl, by rw [hmiddle]; rfl, ?_⟩
    intro hcloses
    cases hnil : others with
    | cons other more =>
      rw [List.getLast?_cons_cons, ← hnil]
      exact hlast hcloses
    | nil =>
      -- The last of the terms is no closing mark, or the parser had taken it for one.
      rw [List.getLast?_singleton]
      intro hfinish
      obtain rfl : term = .finish := Option.some.inj hfinish
      obtain ⟨rfl, rfl⟩ := readTerm_finish hterm
      exact hopen ⟨eq_nil_of_readTerms (hnil ▸ hothers), rfl⟩

/-- What the loop of the parser gives is read on from where it began. -/
theorem parsePatternTokens_eq_some {parsed parsed' : SafePattern}
    (hprinted : ∀ c ∈ chars, '\x00' < c)
    (h : parsePatternTokens turns false parsed chars = some parsed') :
    ReadsOn turns chars parsed parsed' := by
  induction turns generalizing parsed chars with
  | zero =>
    cases chars with
    | cons c tail => cases h
    | nil =>
      obtain rfl := Option.some.inj h
      exact readsOn_nil
  | succ turns ih =>
    cases chars with
    | nil =>
      obtain rfl := Option.some.inj h
      exact readsOn_nil
    | cons c tail =>
      simp only [parsePatternTokens, Bool.false_and, Bool.false_eq_true, if_false] at h
      split at h
      next hclose =>
        obtain ⟨rfl, rfl⟩ : tail = [] ∧ c = '$' := by simpa using hclose
        obtain rfl := Option.some.inj (parsePatternTokens_nil.symm.trans h)
        exact readsOn_close
      next hopen =>
        split at h
        next => cases h
        next token after htoken =>
          have hsuffix := (parsePatternToken_eq_some hprinted htoken).1
          refine readsOn_token hprinted (by simpa using hopen) htoken (ih ?_ h)
          exact fun d hd => hprinted d (hsuffix.subset hd)

/-- How a pattern was read: the marks that the parser saw, and between them every other
    term as a token. -/
structure ReadAs (parsed : SafePattern) (terms middle : List (Term StandardAtom)) : Prop where
  tokens_eq : parsed.tokens = middle.map tokenRead
  terms_eq : terms = (if parsed.anchoredStart then [.start] else []) ++ middle ++
    (if parsed.anchoredEnd then [.finish] else [])
  open_start : parsed.anchoredStart = false → terms.head? ≠ some .start
  open_end : parsed.anchoredEnd = false → terms.getLast? ≠ some .finish

variable {pattern : String} {parsed : SafePattern}

theorem parsePatternTokens_open {c : Char} (hc : c ≠ '^') :
    parsePatternTokens turns true parsed (c :: rest) =
      parsePatternTokens turns false parsed (c :: rest) := by
  cases turns with
  | zero => rfl
  | succ turns => simp only [parsePatternTokens, beq_eq_false_iff_ne.mpr hc, Bool.and_false]

theorem parsePatternTokens_start :
    parsePatternTokens (turns + 1) true parsed ('^' :: rest) =
      parsePatternTokens turns false { parsed with anchoredStart := true } rest := by
  simp only [parsePatternTokens, beq_self_eq_true, Bool.and_self, if_true]

theorem readTerm_start {c : Char} {after : List Char}
    (h : readTerm (c :: rest) = some (.start, after)) : c = '^' := by
  by_cases hstart : c = '^'
  · exact hstart
  · by_cases hfinish : c = '$'
    · subst hfinish
      simp [readTerm] at h
    · rw [readTerm_atom hstart hfinish] at h
      obtain ⟨found, -, h⟩ := Option.bind_eq_some_iff.mp h
      obtain ⟨bounds, -, h⟩ := Option.bind_eq_some_iff.mp h
      simp at h

/-- No pattern that opens with something else is read with a mark first. -/
theorem head?_ne_start {c : Char} {terms : List (Term StandardAtom)} (hc : c ≠ '^')
    (h : readTerms turns (c :: rest) = some terms) : terms.head? ≠ some .start := by
  cases turns with
  | zero => cases h
  | succ turns =>
    rw [readTerms_cons] at h
    obtain ⟨⟨term, after⟩, hterm, h⟩ := Option.bind_eq_some_iff.mp h
    obtain ⟨others, -, h⟩ := Option.bind_eq_some_iff.mp h
    obtain rfl : term :: others = terms := Option.some.inj h
    intro hhead
    obtain rfl : term = .start := Option.some.inj hhead
    exact hc (readTerm_start hterm)

/-- The tokens of the whole pattern can be passed, and are the terms of the syntax. -/
theorem parsePatternTokens_readAs (hprinted : ∀ c ∈ chars, '\x00' < c)
    (h : parsePatternTokens turns true ⟨[], false, false⟩ chars = some parsed) :
    (∀ token ∈ parsed.tokens, token.term.Possible patternAtomMatches) ∧
      ∀ terms, readTerms turns chars = some terms → ∃ middle, ReadAs parsed terms middle := by
  cases chars with
  | nil =>
    obtain rfl := Option.some.inj (parsePatternTokens_nil.symm.trans h)
    refine ⟨by simp, ?_⟩
    intro terms hterms
    obtain rfl : [] = terms := Option.some.inj (readTerms_nil.symm.trans hterms)
    exact ⟨[], rfl, rfl, by simp, by simp⟩
  | cons c tail =>
    by_cases hc : c = '^'
    · subst hc
      cases turns with
      | zero => cases h
      | succ turns =>
        rw [parsePatternTokens_start] at h
        obtain ⟨tokens, closes, rfl, htokens, hterms⟩ := parsePatternTokens_eq_some
          (fun d hd => hprinted d (List.mem_cons_of_mem _ hd)) h
        refine ⟨by simpa using htokens, ?_⟩
        intro terms hread
        rw [readTerms_cons] at hread
        simp only [readTerm, Option.bind_some] at hread
        obtain ⟨others, hothers, hread⟩ := Option.bind_eq_some_iff.mp hread
        obtain rfl : .start :: others = terms := Option.some.inj hread
        obtain ⟨middle, rfl, rfl, hlast⟩ := hterms others hothers
        refine ⟨middle, by simp, by simp, by simp, ?_⟩
        intro hcloses
        have hopen : closes = false := by simpa using hcloses
        subst hopen
        have hne := hlast rfl
        cases middle with
        | nil => simp
        | cons term more => simpa using hne
    · rw [parsePatternTokens_open hc] at h
      obtain ⟨tokens, closes, rfl, htokens, hterms⟩ := parsePatternTokens_eq_some hprinted h
      refine ⟨by simpa using htokens, ?_⟩
      intro terms hread
      obtain ⟨middle, rfl, hmiddle, hlast⟩ := hterms terms hread
      refine ⟨middle, by simp, by simpa using hmiddle, fun _ => head?_ne_start hc hread, ?_⟩
      simpa using hlast

theorem parseSafePattern_eq_some (h : parseSafePattern pattern = some parsed) :
    (∀ token ∈ parsed.tokens, token.term.Possible patternAtomMatches) ∧
      ∀ terms, readPattern pattern = some terms → ∃ middle, ReadAs parsed terms middle := by
  unfold parseSafePattern at h
  split at h
  next => cases h
  next hpattern =>
    have hprinted : ∀ c ∈ pattern.toList, '\x00' < c := by
      intro c hc
      simp only [Bool.or_eq_true, List.any_eq_true, not_or, not_exists, not_and,
        isAsciiControl, decide_eq_true_eq] at hpattern
      have hcontrol := (hpattern.2 c hc).1
      refine UInt32.lt_iff_toNat_lt.mpr ?_
      have : c.val.toNat = c.toNat := rfl
      have hzero : ('\x00' : Char).val.toNat = 0 := rfl
      omega
    cases hfound : parsePatternTokens pattern.toList.length true ⟨[], false, false⟩
        pattern.toList with
    | none =>
      rw [hfound] at h
      cases h
    | some found =>
      rw [hfound] at h
      dsimp only at h
      split at h
      next => cases h
      next =>
        obtain rfl := Option.some.inj h
        exact parsePatternTokens_readAs hprinted hfound

end AiPlatform.Capability
