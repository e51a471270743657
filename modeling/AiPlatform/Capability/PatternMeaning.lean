/-
  AiPlatform.Capability.PatternMeaning

  When a safe pattern means what it says.

  An accepted pattern is matched as the syntax has it exactly if the syntax has it at
  all, its marks stand at its ends, and no bracket depends on a class escape.  Towards
  the one side the two rows pass the same letters.  Towards the other, a mark that is
  taken for a literal makes the shortest texts longer: the parser's row takes a
  character where the syntax takes none.
-/

import AiPlatform.Capability.PatternReading

namespace AiPlatform.Capability

open AnchoredPattern

/-! ## The meaning of a pattern -/

def PatternAtom.isClass : PatternAtom → Bool
  | .charClass _ _ => true
  | _ => false

/-- The brackets of a parsed pattern. -/
def SafePattern.classes (pattern : SafePattern) : List PatternAtom :=
  (pattern.tokens.map PatternToken.atom).filter PatternAtom.isClass

/-- The pattern is one of the syntax, in which a repetition only follows an atom; each
    bracket contains what it does there, the classes of its escapes included; and just
    those texts match in which the row of the pattern is found. -/
def MeetsStandard (pattern : String) (parsed : SafePattern) : Prop :=
  ∃ terms, readPattern pattern = some terms ∧
    List.Forall₂ (fun read meant => ∀ c, patternAtomMatches read c = meant.contains c)
      parsed.classes (brackets terms) ∧
    ∀ value : String, patternMatches parsed value = true ↔
      Found StandardAtom.contains terms value.toList

variable {pattern : String} {parsed : SafePattern} {terms middle : List (Term StandardAtom)}

/-! ## Brackets -/

theorem asRange_contains (item : BracketItem) (c : Char) :
    (item.asRange.1 ≤ c && c ≤ item.asRange.2) = item.spelled.contains c := by
  have hsingle : ∀ d : Char, (decide (d ≤ c) && decide (c ≤ d)) = (d == c) := by
    intro d
    rw [Bool.eq_iff_iff, Bool.and_eq_true, decide_eq_true_eq, decide_eq_true_eq, beq_iff_eq]
    exact ⟨fun h => le_antisymm h.1 h.2, fun h => ⟨h.le, h.ge⟩⟩
  cases item with
  | single d => exact hsingle d
  | range first last => rfl
  | escape cls => exact hsingle cls.letter

/-- An atom is taken for what it is, except for a bracket that depends on an escape. -/
theorem asRead_matches_iff {atom : StandardAtom} :
    (∀ c, patternAtomMatches atom.asRead c = atom.contains c) ↔
      ∀ items negated, atom = .bracket items negated → SpareEscapes items := by
  cases atom with
  | single d => exact ⟨fun _ _ _ h => (by cases h), fun _ _ => rfl⟩
  | any => exact ⟨fun _ _ _ h => (by cases h), fun _ _ => rfl⟩
  | escape cls => exact ⟨fun _ _ _ h => (by cases h), fun _ _ => rfl⟩
  | bracket items negated =>
    have hread : ∀ c, patternAtomMatches (StandardAtom.bracket items negated).asRead c =
        ((items.any fun item => item.spelled.contains c) != negated) := by
      intro c
      simp only [StandardAtom.asRead, patternAtomMatches, List.any_map, Function.comp_def,
        asRange_contains]
    have hcancel : ∀ a b : Bool, (a != negated) = (b != negated) ↔ a = b := by
      intro a b
      cases a <;> cases b <;> cases negated <;> decide
    simp only [hread, StandardAtom.contains, hcancel]
    rw [← spareEscapes_iff]
    constructor
    · intro h items' negated' heq
      cases heq
      exact h
    · intro h
      exact h items negated rfl

theorem isClass_asRead (atom : StandardAtom) : atom.asRead.isClass = atom.isBracket := by
  cases atom with
  | single d => rfl
  | any => rfl
  | escape cls => cases cls <;> rfl
  | bracket items negated => rfl

/-- Marks are no brackets. -/
theorem brackets_cons (term : Term StandardAtom) :
    brackets (term :: terms) = brackets [term] ++ brackets terms := by
  simp only [brackets, ← List.filter_append, ← List.filterMap_append, List.singleton_append]

theorem brackets_append (front : List (Term StandardAtom)) :
    brackets (front ++ terms) = brackets front ++ brackets terms := by
  simp only [brackets, List.filterMap_append, List.filter_append]

theorem classes_tokenRead :
    ((middle.map tokenRead).map PatternToken.atom).filter PatternAtom.isClass =
      (brackets middle).map StandardAtom.asRead := by
  induction middle with
  | nil => rfl
  | cons term rest ih =>
    rw [brackets_cons, List.map_append, ← ih, List.map_cons, List.map_cons, List.filter_cons]
    cases term with
    | start => rfl
    | finish => rfl
    | repeated atom minimum maximum =>
      have hone : brackets [.repeated atom minimum maximum] =
          if atom.isBracket then [atom] else [] := by
        simp only [brackets, List.filterMap_cons, Term.atom?, List.filterMap_nil, List.filter_cons,
          List.filter_nil]
      rw [hone]
      simp only [tokenRead, isClass_asRead]
      cases atom.isBracket <;> rfl

theorem ReadAs.classes_eq (h : ReadAs parsed terms middle) :
    parsed.classes = (brackets terms).map StandardAtom.asRead := by
  have hstart : ∀ b : Bool, brackets (if b then [.start] else []) = [] := by decide
  have hfinish : ∀ b : Bool, brackets (if b then [.finish] else []) = [] := by decide
  have hterms : brackets terms = brackets middle := by
    rw [h.terms_eq, brackets_append, brackets_append, hstart, hfinish, List.nil_append,
      List.append_nil]
  rw [SafePattern.classes, h.tokens_eq, classes_tokenRead, hterms]

/-- The brackets keep their meaning exactly if none depends on an escape. -/
theorem ReadAs.classes_iff (h : ReadAs parsed terms middle) :
    List.Forall₂ (fun read meant => ∀ c, patternAtomMatches read c = meant.contains c)
      parsed.classes (brackets terms) ↔
    ∀ items negated, .bracket items negated ∈ brackets terms → SpareEscapes items := by
  rw [h.classes_eq, List.forall₂_map_left_iff, List.forall₂_same]
  constructor
  · intro hsame items negated hmem
    exact asRead_matches_iff.mp (hsame _ hmem) items negated rfl
  · intro hspare atom hatom
    refine asRead_matches_iff.mpr fun items negated heq => ?_
    subst heq
    exact hspare items negated hatom

/-! ## Marks -/

/-- A mark that became a token takes a character that the syntax does not take. -/
theorem shortest_tokenRead :
    shortest ((middle.map tokenRead).map PatternToken.term) =
      shortest middle + middle.countP fun term => term.atom?.isNone := by
  induction middle with
  | nil => rfl
  | cons term rest ih =>
    simp only [List.map_cons, shortest_cons, ih, List.countP_cons]
    cases term with
    | start =>
      simp only [tokenRead, PatternToken.term, Term.minimum, Term.atom?, Option.isNone_none,
        if_true]
      omega
    | finish =>
      simp only [tokenRead, PatternToken.term, Term.minimum, Term.atom?, Option.isNone_none,
        if_true]
      omega
    | repeated atom minimum maximum =>
      simp only [tokenRead, PatternToken.term, Term.minimum, Term.atom?, Option.isNone_some,
        Bool.false_eq_true, if_false]
      omega

theorem shortest_between {A : Type} {opens closes : Bool} {terms : List (Term A)} :
    shortest ((if opens then [.start] else []) ++ terms ++ (if closes then [.finish] else [])) =
      shortest terms := by
  cases opens <;> cases closes <;> simp [Term.minimum]

/-- Were a mark among the tokens, the shortest text that matches would be longer than one in
    which the row of the syntax is found. -/
theorem ReadAs.no_mark (h : ReadAs parsed terms middle)
    (hpossible : ∀ token ∈ parsed.tokens, token.term.Possible patternAtomMatches)
    (hmatches : ∀ value : String, patternMatches parsed value = true ↔
      Found StandardAtom.contains terms value.toList) :
    ∀ term ∈ middle, term.atom?.isNone = false := by
  have hterms : ∀ term ∈ parsed.tokens.map PatternToken.term, term.Possible patternAtomMatches := by
    intro term hterm
    obtain ⟨token, htoken, rfl⟩ := List.mem_map.mp hterm
    exact hpossible token htoken
  obtain ⟨word, -, hwalk⟩ := exists_walk hterms []
  -- The parser's row has a text, so the syntax has a short one, in which the parser's row is too.
  have hfound : Found patternAtomMatches parsed.terms (String.ofList word).toList := by
    have hwalk := hwalk []
    rw [List.nil_append, List.append_nil, List.length_nil, Nat.zero_add] at hwalk
    rw [String.toList_ofList, SafePattern.terms, found_between]
    exact ⟨0, word.length, hwalk, fun _ => rfl, fun _ => rfl⟩
  have hmeant := (hmatches (String.ofList word)).mp (patternMatches_iff.mpr hfound)
  obtain ⟨short, hshort, hmeant⟩ := hmeant.shorten
  have hback : Found patternAtomMatches parsed.terms short := by
    rw [← String.toList_ofList (l := short)] at hmeant ⊢
    exact patternMatches_iff.mp ((hmatches _).mpr hmeant)
  obtain ⟨i, j, hwalk⟩ := hback
  have hlow := hwalk.shortest_le
  have hhigh := hwalk.le.2
  rw [SafePattern.terms, shortest_between, h.tokens_eq, shortest_tokenRead] at hlow
  rw [h.terms_eq, shortest_between] at hshort
  have hzero : middle.countP (fun term => term.atom?.isNone) = 0 := by omega
  intro term hterm
  exact Bool.eq_false_of_not_eq_true (List.countP_eq_zero.mp hzero term hterm)

/-- Without a mark among the tokens, and if each atom is taken for what it is, the two rows
    read the same. -/
theorem ReadAs.matches_iff (h : ReadAs parsed terms middle)
    (hmarks : ∀ term ∈ middle, term.atom?.isNone = false)
    (hatoms : ∀ term ∈ middle, ∀ atom ∈ term.atom?, ∀ c,
      patternAtomMatches atom.asRead c = atom.contains c) (value : String) :
    patternMatches parsed value = true ↔ Found StandardAtom.contains terms value.toList := by
  have htokens : parsed.tokens.map PatternToken.term = middle.map (Term.map StandardAtom.asRead) := by
    rw [h.tokens_eq, List.map_map]
    refine List.map_congr_left fun term hterm => ?_
    cases term with
    | start => exact absurd (hmarks _ hterm) (by decide)
    | finish => exact absurd (hmarks _ hterm) (by decide)
    | repeated atom minimum maximum => rfl
  rw [patternMatches_iff, SafePattern.terms, htokens, h.terms_eq, found_between, found_between]
  simp only [walk_map StandardAtom.asRead hatoms]

/-- In other words: a part of the text is a word of the language of the atoms, and where the
    pattern is marked the part begins or ends with the text. -/
theorem ReadAs.matches_iff_span (h : ReadAs parsed terms middle)
    (hmarks : ∀ term ∈ middle, term.atom?.isNone = false)
    (hatoms : ∀ term ∈ middle, ∀ atom ∈ term.atom?, ∀ c,
      patternAtomMatches atom.asRead c = atom.contains c) (value : String) :
    patternMatches parsed value = true ↔
      ∃ i j, Spans.Span (language StandardAtom.contains middle) value.toList i j ∧
        (parsed.anchoredStart = true → i = 0) ∧
        (parsed.anchoredEnd = true → j = value.toList.length) := by
  rw [h.matches_iff hmarks hatoms, h.terms_eq, found_between]
  simp only [walk_iff_span hmarks]

/-- The marks of a row that was read are at its ends exactly if none is among the tokens. -/
theorem ReadAs.marks_iff (h : ReadAs parsed terms middle) :
    (∀ term ∈ middle, term.atom?.isNone = false) ↔
      (∀ front rest, terms = front ++ .start :: rest → front = []) ∧
        ∀ front rest, terms = front ++ .finish :: rest → rest = [] := by
  have hterms := h.terms_eq
  constructor
  · intro hmarks
    have hmiddle : ∀ mark, mark = .start ∨ mark = .finish → mark ∉ middle := by
      rintro mark (rfl | rfl) hmem
      · exact absurd (hmarks _ hmem) (by decide)
      · exact absurd (hmarks _ hmem) (by decide)
    constructor
    · intro front rest hsplit
      cases front with
      | nil => rfl
      | cons term front =>
        -- What comes after the first term is of the tokens, or closes the row.
        have htail : terms.tail ⊆ middle ++ if parsed.anchoredEnd then [.finish] else [] := by
          rw [hterms]
          cases parsed.anchoredStart with
          | false => simpa using List.tail_subset _
          | true => simp
        have hmem : (.start : Term StandardAtom) ∈ terms.tail := by
          rw [hsplit]
          simp
        rcases List.mem_append.mp (htail hmem) with hmem | hmem
        · exact absurd hmem (hmiddle _ (Or.inl rfl))
        · cases parsed.anchoredEnd <;> simp at hmem
    · intro front rest hsplit
      rcases List.eq_nil_or_concat' rest with rfl | ⟨rest, term, rfl⟩
      · rfl
      · have hinit : terms.dropLast ⊆ (if parsed.anchoredStart then [.start] else []) ++ middle := by
          rw [hterms]
          cases parsed.anchoredEnd with
          | false => simpa using List.dropLast_subset _
          | true => simp
        have hmem : (.finish : Term StandardAtom) ∈ terms.dropLast := by
          rw [hsplit, ← List.cons_append, ← List.append_assoc, List.dropLast_concat]
          simp
        rcases List.mem_append.mp (hinit hmem) with hmem | hmem
        · cases parsed.anchoredStart <;> simp at hmem
        · exact absurd hmem (hmiddle _ (Or.inr rfl))
  · rintro ⟨hstart, hfinish⟩ term hterm
    obtain ⟨xs, ys, rfl⟩ := List.append_of_mem hterm
    cases term with
    | repeated atom minimum maximum => rfl
    | start =>
      have hnil := hstart ((if parsed.anchoredStart then [.start] else []) ++ xs)
        (ys ++ if parsed.anchoredEnd then [.finish] else []) (by rw [hterms]; simp)
      obtain ⟨hopen, rfl⟩ := List.append_eq_nil_iff.mp hnil
      have hopen : parsed.anchoredStart = false := by simpa using hopen
      refine absurd ?_ (h.open_start hopen)
      rw [hterms, hopen]
      rfl
    | finish =>
      have hnil := hfinish ((if parsed.anchoredStart then [.start] else []) ++ xs)
        (ys ++ if parsed.anchoredEnd then [.finish] else []) (by rw [hterms]; simp)
      obtain ⟨rfl, hopen⟩ := List.append_eq_nil_iff.mp hnil
      have hopen : parsed.anchoredEnd = false := by simpa using hopen
      refine absurd ?_ (h.open_end hopen)
      rw [hterms, hopen]
      simp

/-! ## The law -/

/-- An accepted pattern is matched as the syntax has it exactly if it is plain. -/
theorem accepted_meets_standard_iff (h : parseSafePattern pattern = some parsed) :
    MeetsStandard pattern parsed ↔ PlainPattern pattern := by
  obtain ⟨hpossible, hread⟩ := parseSafePattern_eq_some h
  constructor
  · rintro ⟨terms, hterms, hclasses, hmatches⟩
    obtain ⟨middle, has⟩ := hread terms hterms
    obtain ⟨hstart, hfinish⟩ := has.marks_iff.mp (has.no_mark hpossible hmatches)
    exact ⟨terms, hterms, hstart, hfinish, has.classes_iff.mp hclasses⟩
  · rintro ⟨terms, hterms, hplain⟩
    obtain ⟨middle, has⟩ := hread terms hterms
    have hmarks := has.marks_iff.mpr ⟨hplain.start_first, hplain.finish_last⟩
    refine ⟨terms, hterms, has.classes_iff.mpr hplain.spareEscapes, has.matches_iff hmarks ?_⟩
    intro term hterm atom hatom
    refine asRead_matches_iff.mpr fun items negated heq => ?_
    subst heq
    refine hplain.spareEscapes items negated (List.mem_filter.mpr ⟨?_, rfl⟩)
    refine List.mem_filterMap.mpr ⟨term, ?_, hatom⟩
    rw [has.terms_eq]
    simp [hterm]

/-- A pattern of one bracket between its marks is plain, and is matched as it says. -/
theorem accepted_meets_standard_lower :
    ∃ parsed, parseSafePattern "^[a-z]+$" = some parsed ∧
      MeetsStandard "^[a-z]+$" parsed := by
  have hparse : parseSafePattern "^[a-z]+$" =
      some ⟨[⟨.charClass [('a', 'z')] false, 1, none⟩], true, true⟩ := by decide
  have hread : readPattern "^[a-z]+$" =
      some [.start, .repeated (.bracket [.range 'a' 'z'] false) 1 none, .finish] := by decide
  obtain ⟨-, hterms⟩ := parseSafePattern_eq_some hparse
  obtain ⟨middle, has⟩ := hterms _ hread
  have hmiddle : ∀ term ∈ middle, term.atom?.isNone = false := by
    have hends : [.repeated (.bracket [.range 'a' 'z'] false) 1 none] ++ [.finish] =
        middle ++ [.finish] := (List.cons.inj has.terms_eq).2
    obtain rfl := List.append_cancel_right hends
    decide
  obtain ⟨hstart, hfinish⟩ := has.marks_iff.mp hmiddle
  refine ⟨_, hparse, (accepted_meets_standard_iff hparse).mpr ⟨_, hread, hstart, hfinish, ?_⟩⟩
  intro items negated hmem cls hcls
  have hitems : items = [.range 'a' 'z'] := by
    simp [brackets, Term.atom?, StandardAtom.isBracket] at hmem
    exact hmem.1.symm
  rw [hitems] at hcls
  simp at hcls

/-- A digit is in the bracket of digits, and does not match it: the bracket is read as one
    of the letter. -/
theorem bracketed_class_is_a_letter :
    ¬ ∀ pattern parsed, parseSafePattern pattern = some parsed → MeetsStandard pattern parsed := by
  intro h
  obtain ⟨terms, hterms, -, hmatches⟩ := h "^[\\d]$"
    ⟨[⟨.charClass [('d', 'd')] false, 1, some 1⟩], true, true⟩ (by decide)
  have hread : readPattern "^[\\d]$" =
      some [.start, .repeated (.bracket [.escape .digit] false) 1 (some 1), .finish] := by decide
  obtain rfl := Option.some.inj (hread.symm.trans hterms)
  have hmatch : patternMatches ⟨[⟨.charClass [('d', 'd')] false, 1, some 1⟩], true, true⟩ "5" =
      true := by
    have hpass : ∀ c ∈ ['5'], (StandardAtom.bracket [.escape .digit] false).contains c = true := by
      intro c hc
      obtain rfl := List.mem_singleton.mp hc
      decide
    have hspan := span_letters_pow hpass [] []
    exact (hmatches "5").mpr
      ⟨0, 1, rfl, 1, span_repetition.mpr ⟨1, le_rfl, by simp, hspan⟩, rfl, rfl, le_rfl⟩
  exact absurd hmatch (by decide)

end AiPlatform.Capability
