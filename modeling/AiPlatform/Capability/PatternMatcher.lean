/-
  AiPlatform.Capability.PatternMatcher

  What the matcher of the safe patterns finds out: of a parsed pattern and a text it
  says whether the row of the pattern's tokens, between the marks that were parsed, is
  found in the text (`patternMatches_iff`).

  The matcher carries sets of positions.  The frontier of `repeatAtom` holds where the
  words of as many letters as it has counted end, and the positions between two tokens
  hold where the walks over the tokens so far end.
-/

import AiPlatform.Capability.SafePattern
import AiPlatform.Lib.AnchoredPattern

namespace AiPlatform.Capability

open Spans AnchoredPattern

def PatternToken.term (token : PatternToken) : Term PatternAtom :=
  .repeated token.atom token.minimum token.maximum

/-- A parsed pattern as a row. -/
def SafePattern.terms (pattern : SafePattern) : List (Term PatternAtom) :=
  (if pattern.anchoredStart then [.start] else []) ++ pattern.tokens.map PatternToken.term ++
    (if pattern.anchoredEnd then [.finish] else [])

/-! ## One token -/

variable {characters : List Char} {token : PatternToken} {start i j : Nat}

theorem mem_advance {atom : PatternAtom} {frontier : Finset Nat} :
    j ∈ advance characters atom frontier ↔
      ∃ i ∈ frontier, Span (letters (patternAtomMatches atom)) characters i j := by
  simp only [advance, Finset.mem_image, Finset.mem_filter, span_letters, Option.any_eq_true]
  constructor
  · rintro ⟨i, ⟨hi, hfound⟩, rfl⟩
    exact ⟨i, hi, rfl, hfound⟩
  · rintro ⟨i, hi, rfl, hfound⟩
    exact ⟨i, ⟨hi, hfound⟩, rfl⟩

/-- A turn: what the frontier holds when the count allows it, then one character on. -/
theorem mem_repeatAtom {toCome count : Nat} {frontier nextPositions : Finset Nat}
    (hfrontier : ∀ j, j ∈ frontier ↔
      Span (letters (patternAtomMatches token.atom) ^ count) characters start j) :
    j ∈ repeatAtom characters token toCome count frontier nextPositions ↔
      j ∈ nextPositions ∨ ∃ n, count ≤ n ∧ n ≤ count + toCome ∧ token.minimum ≤ n ∧
        Span (letters (patternAtomMatches token.atom) ^ n) characters start j := by
  induction toCome generalizing count frontier nextPositions with
  | zero =>
    have hn : ∀ n, count ≤ n ∧ n ≤ count + 0 ↔ n = count := fun n => by omega
    simp only [repeatAtom, ← and_assoc, hn]
    split
    next hmin =>
      rw [Finset.mem_union, hfrontier]
      simp [hmin]
    next hmin => simp [hmin]
  | succ toCome ih =>
    have hadvance : ∀ j, j ∈ advance characters token.atom frontier ↔
        Span (letters (patternAtomMatches token.atom) ^ (count + 1)) characters start j := by
      intro j
      rw [mem_advance, span_pow_succ]
      simp only [hfrontier]
    have hfirst : j ∈ (if token.minimum ≤ count then nextPositions ∪ frontier
          else nextPositions) ↔
        j ∈ nextPositions ∨ (token.minimum ≤ count ∧
          Span (letters (patternAtomMatches token.atom) ^ count) characters start j) := by
      split
      next hmin => rw [Finset.mem_union, hfrontier]; simp [hmin]
      next hmin => simp [hmin]
    -- The words counted from here on are those of this count and the longer ones.
    have hsplit : (∃ n, count ≤ n ∧ n ≤ count + (toCome + 1) ∧ token.minimum ≤ n ∧
          Span (letters (patternAtomMatches token.atom) ^ n) characters start j) ↔
        (token.minimum ≤ count ∧
          Span (letters (patternAtomMatches token.atom) ^ count) characters start j) ∨
        ∃ n, count + 1 ≤ n ∧ n ≤ count + 1 + toCome ∧ token.minimum ≤ n ∧
          Span (letters (patternAtomMatches token.atom) ^ n) characters start j := by
      constructor
      · rintro ⟨n, hlow, hhigh, hmin, hspan⟩
        rcases Nat.eq_or_lt_of_le hlow with rfl | hlow
        · exact Or.inl ⟨hmin, hspan⟩
        · exact Or.inr ⟨n, hlow, by omega, hmin, hspan⟩
      · rintro (⟨hmin, hspan⟩ | ⟨n, hlow, hhigh, hmin, hspan⟩)
        · exact ⟨count, le_rfl, by omega, hmin, hspan⟩
        · exact ⟨n, by omega, by omega, hmin, hspan⟩
    rw [hsplit, ← or_assoc, ← hfirst]
    unfold repeatAtom
    dsimp only
    split
    next hempty =>
      have hnone : ∀ k, ¬ Span (letters (patternAtomMatches token.atom) ^ (count + 1))
          characters start k := by
        intro k hk
        rw [← hadvance, hempty] at hk
        exact absurd hk (Finset.notMem_empty k)
      constructor
      · exact Or.inl
      · rintro (h | ⟨n, hlow, -, -, hspan⟩)
        · exact h
        · exact absurd hspan (no_span_pow hnone hlow)
    next => exact ih hadvance

theorem mem_tokenPositions (hstart : start ≤ characters.length) :
    j ∈ tokenPositions characters token start ↔
      Span (repetition (letters (patternAtomMatches token.atom)) token.minimum token.maximum)
        characters start j := by
  have hfrontier : ∀ j, j ∈ ({start} : Finset Nat) ↔
      Span (letters (patternAtomMatches token.atom) ^ 0) characters start j := by
    intro j
    rw [Finset.mem_singleton, pow_zero, span_one]
    constructor
    · rintro rfl
      exact ⟨rfl, hstart⟩
    · rintro ⟨rfl, -⟩
      rfl
  rw [tokenPositions, mem_repeatAtom hfrontier, span_repetition]
  constructor
  · rintro (h | ⟨n, -, hhigh, hmin, hspan⟩)
    · exact absurd h (Finset.notMem_empty j)
    · refine ⟨n, hmin, ?_, hspan⟩
      intro bound hbound
      rw [Option.mem_def.mp hbound] at hhigh
      exact (Nat.zero_add bound) ▸ hhigh
  · rintro ⟨n, hmin, hmax, hspan⟩
    refine Or.inr ⟨n, Nat.zero_le n, ?_, hmin, hspan⟩
    cases hmaximum : token.maximum with
    | some bound => simpa using hmax bound hmaximum
    | none =>
      -- Without a maximum the text itself bounds the count.
      have hlength := hspan.le.2
      have hj : j = start + n := hspan.letters_pow
      simp only [Option.getD_none]
      omega

/-! ## All tokens -/

variable {tokens : List PatternToken} {positions ends : Finset Nat}

/-- Where the walks over one token end. -/
theorem mem_biUnion_tokenPositions (hle : ∀ i ∈ positions, i ≤ characters.length) :
    j ∈ positions.biUnion (tokenPositions characters token) ↔ ∃ i ∈ positions,
      Span (repetition (letters (patternAtomMatches token.atom)) token.minimum token.maximum)
        characters i j := by
  rw [Finset.mem_biUnion]
  constructor
  · rintro ⟨i, hi, hj⟩
    exact ⟨i, hi, (mem_tokenPositions (hle i hi)).mp hj⟩
  · rintro ⟨i, hi, hj⟩
    exact ⟨i, hi, (mem_tokenPositions (hle i hi)).mpr hj⟩

theorem tokensPositions_eq_some (hle : ∀ i ∈ positions, i ≤ characters.length)
    (h : tokensPositions characters tokens positions = some ends) :
    j ∈ ends ↔ ∃ i ∈ positions,
      Walk patternAtomMatches characters (tokens.map PatternToken.term) i j := by
  induction tokens generalizing positions with
  | nil =>
    obtain rfl : positions = ends := Option.some.inj h
    constructor
    · intro hj
      exact ⟨j, hj, rfl, hle j hj⟩
    · rintro ⟨i, hi, rfl, -⟩
      exact hi
  | cons token rest ih =>
    simp only [tokensPositions] at h
    split at h
    next => cases h
    next =>
      have hnext : ∀ k ∈ positions.biUnion (tokenPositions characters token),
          k ≤ characters.length := by
        intro k hk
        obtain ⟨i, -, hspan⟩ := (mem_biUnion_tokenPositions hle).mp hk
        exact hspan.le.2
      rw [ih hnext h]
      simp only [mem_biUnion_tokenPositions hle, List.map_cons, PatternToken.term, Walk]
      constructor
      · rintro ⟨k, ⟨i, hi, hspan⟩, hwalk⟩
        exact ⟨i, hi, k, hspan, hwalk⟩
      · rintro ⟨i, hi, k, hspan, hwalk⟩
        exact ⟨k, ⟨i, hi, hspan⟩, hwalk⟩

theorem tokensPositions_nonempty (hpositions : positions.Nonempty)
    (h : tokensPositions characters tokens positions = some ends) : ends.Nonempty := by
  induction tokens generalizing positions with
  | nil => exact Option.some.inj h ▸ hpositions
  | cons token rest ih =>
    simp only [tokensPositions] at h
    split at h
    next => cases h
    next hnext => exact ih (Finset.nonempty_iff_ne_empty.mpr hnext) h

theorem tokensPositions_eq_none (hle : ∀ i ∈ positions, i ≤ characters.length)
    (h : tokensPositions characters tokens positions = none) (hi : i ∈ positions) :
    ¬ Walk patternAtomMatches characters (tokens.map PatternToken.term) i j := by
  induction tokens generalizing positions i with
  | nil => cases h
  | cons token rest ih =>
    rintro ⟨k, hspan, hwalk⟩
    have hk : k ∈ positions.biUnion (tokenPositions characters token) :=
      (mem_biUnion_tokenPositions hle).mpr ⟨i, hi, hspan⟩
    simp only [tokensPositions] at h
    split at h
    next hempty =>
      rw [hempty] at hk
      exact absurd hk (Finset.notMem_empty k)
    next =>
      refine ih ?_ h hk hwalk
      intro m hm
      obtain ⟨n, -, hspan⟩ := (mem_biUnion_tokenPositions hle).mp hm
      exact hspan.le.2

/-- The matcher finds exactly what the parsed pattern means. -/
theorem patternMatches_iff {pattern : SafePattern} {value : String} :
    patternMatches pattern value = true ↔
      Found patternAtomMatches pattern.terms value.toList := by
  have hpositions : ∀ i, i ∈ (if pattern.anchoredStart then {0}
        else Finset.range (value.toList.length + 1)) ↔
      i ≤ value.toList.length ∧ (pattern.anchoredStart = true → i = 0) := by
    intro i
    split
    next hstart => rw [Finset.mem_singleton]; constructor <;> simp +contextual [hstart]
    next hstart => rw [Finset.mem_range, Nat.lt_succ_iff]; simp [hstart]
  have hle : ∀ i ∈ (if pattern.anchoredStart then {0}
      else Finset.range (value.toList.length + 1)), i ≤ value.toList.length :=
    fun i hi => ((hpositions i).mp hi).1
  rw [SafePattern.terms, found_between]
  unfold patternMatches
  dsimp only
  split
  next hnone =>
    constructor
    · intro h
      cases h
    · rintro ⟨i, j, hwalk, hstart, -⟩
      have hi := (hpositions i).mpr ⟨hwalk.le.1.trans hwalk.le.2, hstart⟩
      exact absurd hwalk (tokensPositions_eq_none hle hnone hi)
  next ends hsome =>
    have hends : ∀ j, j ∈ ends ↔ ∃ i, i ≤ value.toList.length ∧
        (pattern.anchoredStart = true → i = 0) ∧
        Walk patternAtomMatches value.toList (pattern.tokens.map PatternToken.term) i j := by
      intro j
      rw [tokensPositions_eq_some hle hsome]
      simp only [hpositions, and_assoc]
    rw [Bool.or_eq_true, Bool.not_eq_true', decide_eq_true_eq, hends]
    constructor
    · rintro (hopen | ⟨i, -, hstart, hwalk⟩)
      · have hnonempty : (if pattern.anchoredStart then {0}
            else Finset.range (value.toList.length + 1)).Nonempty :=
          ⟨0, (hpositions 0).mpr ⟨Nat.zero_le _, fun _ => rfl⟩⟩
        obtain ⟨j, hj⟩ := tokensPositions_nonempty hnonempty hsome
        obtain ⟨i, -, hstart, hwalk⟩ := (hends j).mp hj
        exact ⟨i, j, hwalk, hstart, fun hclosed => absurd (hopen.symm.trans hclosed) (by decide)⟩
      · exact ⟨i, _, hwalk, hstart, fun _ => rfl⟩
    · rintro ⟨i, j, hwalk, hstart, hfinish⟩
      cases hclosed : pattern.anchoredEnd with
      | false => exact Or.inl rfl
      | true =>
        obtain rfl := hfinish hclosed
        exact Or.inr ⟨i, hwalk.le.1, hstart, hwalk⟩

end AiPlatform.Capability
