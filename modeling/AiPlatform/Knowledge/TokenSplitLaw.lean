/-
  AiPlatform.Knowledge.TokenSplitLaw

  What the chunks of `_split_by_tokens` are: they go through the words of the text in order,
  and what is over the limit is words whose own counts keep to it.
-/

import AiPlatform.Knowledge.TokenSplit
import Mathlib.Data.List.Forall2

namespace AiPlatform.Knowledge

open Reading

abbrev Reads (text : Text) (pieces : List Text) : Prop := Reading.Reads Gateway.isSpace text pieces

abbrev Passes (pieces : List Text) (covered : Nat) (texts : List Text) (last : Nat) : Prop :=
  Reading.Passes Gateway.isSpace pieces covered texts last

/-! ## Stripped texts -/

section

variable {text word : Text} {pieces words : List Text}

theorem reads_strippedText (hpieces : ∀ piece ∈ pieces, IsWord piece) (h : Reads text pieces) :
    Reads (strippedText text) pieces := by
  obtain ⟨first, last, hfirst, hlast, heq⟩ := exists_gaps text
  rw [heq] at h
  exact (h.of_gap_append hpieces hfirst).of_append_gap hpieces hlast

/-- Only a text without words is blank. -/
theorem strippedText_eq_nil_iff (hpieces : ∀ piece ∈ pieces, IsWord piece) (h : Reads text pieces) :
    strippedText text = [] ↔ pieces = [] := by
  constructor
  · intro hnil
    cases pieces with
    | nil => rfl
    | cons piece later =>
      obtain ⟨gap, rest, -, rfl, -⟩ := h
      obtain ⟨hne, hword⟩ := hpieces piece List.mem_cons_self
      obtain ⟨c, hc⟩ := List.exists_mem_of_ne_nil piece hne
      have hgap := isGap_of_strippedText hnil c
        (List.mem_append_right _ (List.mem_append_left _ hc))
      rw [hword c hc] at hgap
      cases hgap
  · rintro rfl
    exact strippedText_eq_nil h

theorem reads_space : IsGap [' '] := by
  intro c hc
  rw [List.mem_singleton.mp hc]
  rfl

/-- The buffer of the loops over words. -/
def bufferOf (words : List Text) : Text := words.flatMap fun word => word ++ [' ']

theorem bufferOf_concat (words : List Text) (word : Text) :
    bufferOf (words ++ [word]) = bufferOf words ++ (word ++ [' ']) := by
  rw [bufferOf, List.flatMap_append, List.flatMap_singleton, bufferOf]

theorem reads_bufferOf (words : List Text) : Reads (bufferOf words) words := by
  induction words with
  | nil => exact reads_nil
  | cons word later ih => exact ((Reads.of_word word).append_gap reads_space).append ih

theorem reads_joinTexts (words : List Text) : Reads (joinTexts words) words :=
  reads_intercalate_words reads_space words

theorem bufferOf_eq_joinTexts (h : words ≠ []) : bufferOf words = joinTexts words ++ [' '] := by
  induction words with
  | nil => exact absurd rfl h
  | cons word later ih =>
    cases later with
    | nil =>
      rw [joinTexts, List.intercalate_singleton, bufferOf, List.flatMap_singleton]
    | cons next later =>
      have hrest : bufferOf (next :: later) = [' '].intercalate (next :: later) ++ [' '] :=
        ih (List.cons_ne_nil next later)
      rw [joinTexts, List.intercalate_cons_cons, bufferOf, List.flatMap_cons, ← bufferOf, hrest,
        List.append_assoc, List.append_assoc, List.append_assoc]

/-- Joined words end with one of them. -/
theorem exists_last_word (h : words ≠ []) : ∃ word ∈ words, ∃ front, joinTexts words = front ++ word := by
  induction words with
  | nil => exact absurd rfl h
  | cons word later ih =>
    cases later with
    | nil => exact ⟨word, List.mem_cons_self, [], List.intercalate_singleton⟩
    | cons next later =>
      obtain ⟨last, hlast, front, heq⟩ := ih (List.cons_ne_nil next later)
      refine ⟨last, List.mem_cons_of_mem word hlast, word ++ ([' '] ++ front), ?_⟩
      rw [joinTexts] at heq ⊢
      rw [List.intercalate_cons_cons, heq, List.append_assoc, List.append_assoc, List.append_assoc]

/-- The text of a buffer is its words joined. -/
theorem strippedText_bufferOf (hwords : ∀ word ∈ words, IsWord word) (h : words ≠ []) :
    strippedText (bufferOf words) = joinTexts words := by
  have hfirst : (bufferOf words).dropWhile Gateway.isSpace = bufferOf words := by
    cases words with
    | nil => exact absurd rfl h
    | cons word later =>
      obtain ⟨hne, hword⟩ := hwords word List.mem_cons_self
      obtain ⟨c, rest, rfl⟩ := List.exists_cons_of_ne_nil hne
      refine TextLines.dropWhile_eq_self fun d hd => ?_
      obtain rfl : c = d := Option.some.inj hd
      exact hword c List.mem_cons_self
  have hlast : (joinTexts words).reverse.dropWhile Gateway.isSpace = (joinTexts words).reverse := by
    obtain ⟨word, hmem, front, heq⟩ := exists_last_word h
    obtain ⟨hne, hword⟩ := hwords word hmem
    obtain ⟨init, c, rfl⟩ := (List.eq_nil_or_concat' word).resolve_left hne
    rw [heq, ← List.append_assoc, List.reverse_append]
    refine TextLines.dropWhile_eq_self fun d hd => ?_
    obtain rfl : c = d := Option.some.inj hd
    exact hword c (List.mem_append_right _ List.mem_cons_self)
  have hspace : Gateway.isSpace ' ' = true := rfl
  rw [strippedText, TextLines.strip, hfirst, bufferOf_eq_joinTexts h, List.reverse_append,
    List.reverse_singleton, List.singleton_append, List.dropWhile_cons_of_pos hspace, hlast,
    List.reverse_reverse]

end

/-! ## Packs of words -/

section

variable {countTokens : Text → Nat} {tokenLimit : Nat} {out out' : List Text} {text buf : Text}
  {words : List Text} {pack pack' : WordPack}

theorem flushText_spec (h : flushText out buf = .ok out') :
    (strippedText buf = [] ∧ out' = out) ∨
      strippedText buf ≠ [] ∧ out' = out ++ [strippedText buf] := by
  unfold flushText at h
  split at h
  · rename_i hsome
    exact .inr ⟨hsome, appendBounded_eq h⟩
  · rename_i hnone
    exact .inl ⟨not_not.mp hnone, (Except.ok.inj h).symm⟩

def ownTokens (countTokens : Text → Nat) (words : List Text) : Nat :=
  (words.map fun word => countTokens (word ++ [' '])).sum

/-- A run of words that may be one chunk. -/
structure IsRun (countTokens : Text → Nat) (tokenLimit : Nat) (run : List Text) : Prop where
  some : run ≠ []
  bounded : run.length = 1 ∨ ownTokens countTokens run ≤ tokenLimit

/-- The words so far, run by run, the last run being still in the buffer. -/
structure Packs (countTokens : Text → Nat) (tokenLimit : Nat) (out words : List Text)
    (runs : List (List Text)) (last : List Text) (pack : WordPack) : Prop where
  cut : runs.flatten ++ last = words
  outputs : pack.out = out ++ runs.map joinTexts
  buf : pack.buf = bufferOf last
  tokens : pack.bufTokens = ownTokens countTokens last
  isRun : ∀ run ∈ runs, IsRun countTokens tokenLimit run
  lastIsRun : last ≠ [] → IsRun countTokens tokenLimit last
  begun : words ≠ [] → last ≠ []

theorem ownTokens_concat (words : List Text) (word : Text) :
    ownTokens countTokens (words ++ [word]) =
      ownTokens countTokens words + countTokens (word ++ [' ']) := by
  rw [ownTokens, List.map_append, List.sum_append, List.map_singleton, List.sum_singleton, ownTokens]

/-- What is flushed is the last run. -/
theorem Packs.flush {runs : List (List Text)} {last : List Text}
    (hlast : ∀ word ∈ last, IsWord word)
    (h : Packs countTokens tokenLimit out words runs last pack)
    (hflush : flushText pack.out pack.buf = .ok out') :
    ∃ runs' : List (List Text), runs'.flatten = words ∧ out' = out ++ runs'.map joinTexts ∧
      ∀ run ∈ runs', IsRun countTokens tokenLimit run := by
  rw [h.buf, h.outputs] at hflush
  by_cases hnone : last = []
  · subst hnone
    have hcut := h.cut
    rw [List.append_nil] at hcut
    obtain ⟨-, rfl⟩ | ⟨hsome, -⟩ := flushText_spec hflush
    · exact ⟨runs, hcut, rfl, h.isRun⟩
    · exact absurd rfl hsome
  · have hstripped := strippedText_bufferOf hlast hnone
    obtain ⟨hnil, -⟩ | ⟨-, rfl⟩ := flushText_spec hflush
    · exact absurd ((strippedText_eq_nil_iff hlast (reads_bufferOf last)).mp hnil) hnone
    · refine ⟨runs ++ [last], ?_, ?_, ?_⟩
      · rw [List.flatten_append, List.flatten_singleton, h.cut]
      · rw [hstripped, List.map_append, List.map_singleton, List.append_assoc]
      · intro run hrun
        rcases List.mem_append.mp hrun with hrun | hrun
        · exact h.isRun run hrun
        · rw [List.mem_singleton.mp hrun]
          exact h.lastIsRun hnone

theorem Packs.step {runs : List (List Text)} {last : List Text} {word : Text}
    (hlast : ∀ other ∈ last, IsWord other)
    (h : Packs countTokens tokenLimit out words runs last pack)
    (hstep : packWord countTokens tokenLimit pack word = .ok pack') :
    ∃ runs' last', Packs countTokens tokenLimit out (words ++ [word]) runs' last' pack' := by
  unfold packWord at hstep
  dsimp only at hstep
  split at hstep
  · obtain ⟨flushed, hflush, hstate⟩ := Checks.bind_eq_ok.mp hstep
    obtain rfl := Except.ok.inj hstate
    obtain ⟨runs', hcut, hout, hruns⟩ := h.flush hlast hflush
    have hone : IsRun countTokens tokenLimit [word] := ⟨List.cons_ne_nil _ _, .inl rfl⟩
    refine ⟨runs', [word], ?_, hout, ?_, ?_, hruns, fun _ => hone, fun _ => List.cons_ne_nil _ _⟩
    · rw [hcut]
    · rw [bufferOf, List.flatMap_singleton]
    · rw [ownTokens, List.map_singleton, List.sum_singleton]
  · rename_i hroom
    obtain rfl := Except.ok.inj hstep
    have hne : last ++ [word] ≠ [] := List.append_ne_nil_of_right_ne_nil _ (List.cons_ne_nil _ _)
    refine ⟨runs, last ++ [word], ?_, h.outputs, ?_, ?_, h.isRun, fun _ => ⟨hne, .inr ?_⟩,
      fun _ => hne⟩
    · rw [← List.append_assoc, h.cut]
    · rw [bufferOf_concat, h.buf]
    · rw [ownTokens_concat, h.tokens]
    · rw [ownTokens_concat, ← h.tokens]
      exact Nat.not_lt.mp hroom

theorem Packs.run {rest : List Text} {runs : List (List Text)} {last : List Text}
    (hwords : ∀ word ∈ words ++ rest, IsWord word)
    (h : Packs countTokens tokenLimit out words runs last pack)
    (hrun : rest.foldlM (packWord countTokens tokenLimit) pack = .ok pack') :
    ∃ runs' last', Packs countTokens tokenLimit out (words ++ rest) runs' last' pack' := by
  induction rest generalizing words runs last pack with
  | nil =>
    obtain rfl := Except.ok.inj hrun
    rw [List.append_nil]
    exact ⟨runs, last, h⟩
  | cons word rest ih =>
    rw [List.foldlM_cons] at hrun
    obtain ⟨next, hnext, hlater⟩ := Checks.bind_eq_ok.mp hrun
    have hlast : ∀ other ∈ last, IsWord other := by
      intro other hother
      refine hwords other (List.mem_append_left _ ?_)
      rw [← h.cut]
      exact List.mem_append_right _ hother
    have hwords' : ∀ other ∈ words ++ [word] ++ rest, IsWord other := by
      rwa [List.append_assoc]
    obtain ⟨runs', last', hnext'⟩ := h.step hlast hnext
    obtain ⟨runs'', last'', hdone⟩ := ih hwords' hnext' hlater
    rw [List.append_assoc] at hdone
    exact ⟨runs'', last'', hdone⟩

/-- The words of a text, packed. -/
theorem packWords_spec (h : packWords countTokens tokenLimit out text = .ok pack) :
    ∃ runs last, Packs countTokens tokenLimit out (wordsOf text) runs last pack := by
  have hstart : Packs countTokens tokenLimit out [] [] [] ⟨out, [], 0⟩ :=
    ⟨rfl, (List.append_nil out).symm, rfl, rfl, nofun, absurd rfl, absurd rfl⟩
  have hwords : ∀ word ∈ [] ++ wordsOf text, IsWord word := fun word hword =>
    isWord_of_mem_words word hword
  exact hstart.run hwords h

/-- A text with words is cut into runs of them. -/
theorem hardSplitByTokens_spec (hsome : wordsOf text ≠ [])
    (h : hardSplitByTokens countTokens tokenLimit text = .ok out) :
    ∃ runs : List (List Text), runs.flatten = wordsOf text ∧ out = runs.map joinTexts ∧
      ∀ run ∈ runs, IsRun countTokens tokenLimit run := by
  have hwords : ∀ word ∈ wordsOf text, IsWord word := fun word hword => isWord_of_mem_words word hword
  have hblank : strippedText text ≠ [] := fun hnil =>
    hsome ((strippedText_eq_nil_iff hwords (reads_words text)).mp hnil)
  rw [hardSplitByTokens, if_neg hblank] at h
  obtain ⟨pack, hpack, hrest⟩ := Checks.bind_eq_ok.mp h
  obtain ⟨flushed, hflush, hout⟩ := Checks.bind_eq_ok.mp hrest
  rw [if_neg hsome] at hout
  obtain rfl := Except.ok.inj hout
  obtain ⟨runs, last, hpacks⟩ := packWords_spec hpack
  have hlast : ∀ word ∈ last, IsWord word := by
    intro word hword
    refine hwords word ?_
    rw [← hpacks.cut]
    exact List.mem_append_right _ hword
  exact hpacks.flush hlast hflush

end

/-! ## Sentences -/

section

variable {text sentence : Text} {sentences : List Text}

theorem sentencesFrom_flatten (begun : Text) (tail : Option (Char → Bool)) (text : Text) :
    (sentencesFrom begun tail text).flatten = begun ++ text := by
  induction text generalizing begun tail with
  | nil => rw [sentencesFrom, List.flatten_singleton, List.append_nil]
  | cons c rest ih =>
    cases tail with
    | none =>
      unfold sentencesFrom
      dsimp only
      rw [if_neg Bool.false_ne_true, Option.isSome_none, if_neg Bool.false_ne_true, List.nil_append, ih,
        List.append_assoc, List.singleton_append]
    | some inTail =>
      unfold sentencesFrom
      dsimp only
      split
      · rw [ih, List.append_assoc, List.singleton_append]
      · rw [Option.isSome_some, if_pos rfl, List.flatten_append, List.flatten_singleton, ih,
          List.nil_append, List.singleton_append]

theorem reads_flatten_words (sentences : List Text) :
    Reads sentences.flatten (sentences.flatMap wordsOf) := by
  induction sentences with
  | nil => exact reads_nil
  | cons sentence later ih =>
    rw [List.flatten_cons, List.flatMap_cons]
    exact (reads_words sentence).append ih

theorem wordsOf_eq_nil_iff : wordsOf text = [] ↔ strippedText text = [] :=
  (strippedText_eq_nil_iff (fun _ hword => isWord_of_mem_words _ hword) (reads_words text)).symm

/-- Blank sentences have no words. -/
theorem flatMap_wordsOf_filter (sentences : List Text) :
    (sentences.filter fun sentence => strippedText sentence ≠ []).flatMap wordsOf =
      sentences.flatMap wordsOf := by
  induction sentences with
  | nil => rfl
  | cons sentence later ih =>
    by_cases hblank : strippedText sentence = []
    · rw [List.filter_cons_of_neg (by simpa using hblank), ih, List.flatMap_cons,
        wordsOf_eq_nil_iff.mpr hblank, List.nil_append]
    · rw [List.filter_cons_of_pos (by simpa using hblank), List.flatMap_cons, ih, List.flatMap_cons]

/-- The text reads the words of its sentences. -/
theorem reads_sentenceWords (text : Text) : Reads text (sentenceWords text) := by
  have hreads := reads_flatten_words (sentencesFrom [] none text)
  rwa [sentencesFrom_flatten, List.nil_append, ← flatMap_wordsOf_filter] at hreads

theorem isWord_of_mem_sentenceWords : ∀ word ∈ sentenceWords text, IsWord word := by
  intro word hword
  obtain ⟨sentence, -, hword⟩ := List.mem_flatMap.mp hword
  exact isWord_of_mem_words word hword

theorem foldlM_appendBounded {out out' : List Text}
    (h : sentences.foldlM appendBounded out = .ok out') : out' = out ++ sentences := by
  induction sentences generalizing out with
  | nil =>
    obtain rfl := Except.ok.inj h
    exact (List.append_nil out).symm
  | cons sentence later ih =>
    rw [List.foldlM_cons] at h
    obtain ⟨next, hnext, hlater⟩ := Checks.bind_eq_ok.mp h
    rw [ih hlater, appendBounded_eq hnext, List.append_assoc, List.singleton_append]

end

/-! ## The loop over the sentences -/

/-- So many of the pieces have had their turn: the chunks go through them up to where the
    current one may begin, and the sentences kept for an overlap come last. -/
structure Splits (pieces : List Text) (count : Nat) (state : SplitState) : Prop where
  within : count ≤ pieces.length
  passes : ∃ covered start, Passes pieces 0 state.chunks covered ∧ start ≤ covered ∧ covered ≤ count ∧
    Reads state.currentChunk ((pieces.take count).drop start)
  overlap : state.overlapBuffer.flatMap wordsOf <:+ pieces.take count

section

variable {countTokens : Text → Nat} {tokenLimit count : Nat} {overlapTokens : Int}
  {pieces chunks : List Text} {sentence : Text} {state state' : SplitState}

/-- After a flush nothing is left out. -/
theorem Splits.flush (hpieces : ∀ piece ∈ pieces, IsWord piece) (h : Splits pieces count state)
    (hflush : flushText state.chunks state.currentChunk = .ok chunks) :
    Passes pieces 0 chunks count := by
  obtain ⟨covered, start, hpasses, hstart, hcovered, hreads⟩ := h.passes
  have hstretch : ∀ piece ∈ (pieces.take count).drop start, IsWord piece := fun piece hpiece =>
    hpieces piece (List.mem_of_mem_take (List.mem_of_mem_drop hpiece))
  have hblank := strippedText_eq_nil_iff hstretch hreads
  rw [List.drop_eq_nil_iff, List.length_take, Nat.min_eq_left h.within] at hblank
  obtain ⟨hnil, rfl⟩ | ⟨hsome, rfl⟩ := flushText_spec hflush
  · obtain rfl := le_antisymm hcovered ((hblank.mp hnil).trans hstart)
    exact hpasses
  · exact hpasses.concat hstart (Nat.not_le.mp (hblank.not.mp hsome)) h.within
      (reads_strippedText hstretch hreads)

theorem trimOverlap_suffix (buffer : List Text) (tokens : Int) :
    (trimOverlap countTokens overlapTokens buffer tokens).1 <:+ buffer := by
  induction buffer generalizing tokens with
  | nil => exact List.suffix_rfl
  | cons removed later ih =>
    cases later with
    | nil => exact List.suffix_rfl
    | cons next later =>
      rw [trimOverlap]
      split
      · exact (ih _).trans (List.suffix_cons removed _)
      · exact List.suffix_rfl

theorem flatMap_suffix {α β : Type} {f : α → List β} {xs ys : List α} (h : xs <:+ ys) :
    xs.flatMap f <:+ ys.flatMap f := by
  obtain ⟨front, rfl⟩ := h
  rw [List.flatMap_append]
  exact List.suffix_append _ _

/-- The pieces up to the end of the next part. -/
theorem take_more {part after : List Text} (hwithin : count ≤ pieces.length)
    (heq : pieces = pieces.take count ++ (part ++ after)) :
    pieces.take (count + part.length) = pieces.take count ++ part ∧
      count + part.length ≤ pieces.length := by
  have hlength : (pieces.take count).length = count := by
    rw [List.length_take, Nat.min_eq_left hwithin]
  constructor
  · conv_lhs => rw [heq]
    rw [← List.append_assoc]
    exact List.take_left' (by rw [List.length_append, hlength])
  · have htotal := congrArg List.length heq
    rw [List.length_append, List.length_append, hlength] at htotal
    omega

/-- Runs of words go through them. -/
theorem passes_runs {runs : List (List Text)} {before after : List Text}
    (hruns : ∀ run ∈ runs, IsRun countTokens tokenLimit run) :
    Passes (before ++ (runs.flatten ++ after)) before.length (runs.map joinTexts)
      (before.length + runs.flatten.length) := by
  refine passes_parts ?_ (fun run hrun => (hruns run hrun).some) before after
  exact List.forall₂_map_left_iff.mpr (List.forall₂_same.mpr fun run _ => reads_joinTexts run)

/-- A sentence that is too long. -/
theorem Splits.long (hpieces : ∀ piece ∈ pieces, IsWord piece) (h : Splits pieces count state)
    (hsome : wordsOf sentence ≠ []) {after : List Text}
    (heq : pieces = pieces.take count ++ (wordsOf sentence ++ after))
    (hstep : longSentence countTokens tokenLimit state sentence = .ok state') :
    Splits pieces (count + (wordsOf sentence).length) state' := by
  unfold longSentence at hstep
  obtain ⟨chunks, hflush, hrest⟩ := Checks.bind_eq_ok.mp hstep
  dsimp only at hrest
  obtain ⟨pack, hpack, hstate⟩ := Checks.bind_eq_ok.mp hrest
  obtain ⟨runs, last, hpacks⟩ := packWords_spec hpack
  have hlast : ∀ word ∈ last, IsWord word := by
    intro word hword
    have hmem : word ∈ wordsOf sentence := by
      rw [← hpacks.cut]
      exact List.mem_append_right _ hword
    exact isWord_of_mem_words word hmem
  have hbuf : strippedText pack.buf ≠ [] := by
    rw [hpacks.buf]
    exact fun hnil => hpacks.begun hsome
      ((strippedText_eq_nil_iff hlast (reads_bufferOf last)).mp hnil)
  rw [if_pos hbuf] at hstate
  obtain rfl := Except.ok.inj hstate
  obtain ⟨htake, hwithin⟩ := take_more h.within heq
  have hlength : (pieces.take count).length = count := by
    rw [List.length_take, Nat.min_eq_left h.within]
  have hpass := @passes_runs countTokens tokenLimit runs (pieces.take count) (last ++ after)
    hpacks.isRun
  rw [← List.append_assoc runs.flatten, hpacks.cut, ← heq, hlength] at hpass
  have htotal := congrArg List.length hpacks.cut
  rw [List.length_append] at htotal
  refine ⟨hwithin, ⟨count + runs.flatten.length, count + runs.flatten.length, ?_, le_rfl, by omega, ?_⟩,
    List.nil_suffix⟩
  · rw [hpacks.outputs]
    exact (h.flush hpieces hflush).append hpass
  · have hdrop : (pieces.take (count + (wordsOf sentence).length)).drop (count + runs.flatten.length) =
        last := by
      rw [htake, ← hpacks.cut, ← List.append_assoc]
      exact List.drop_left' (by rw [List.length_append, hlength])
    rw [hdrop, hpacks.buf]
    exact reads_bufferOf last

/-- A sentence that does not fit in the current chunk. -/
theorem Splits.next (hpieces : ∀ piece ∈ pieces, IsWord piece) (h : Splits pieces count state)
    {after : List Text} (heq : pieces = pieces.take count ++ (wordsOf sentence ++ after))
    (hflush : flushText state.chunks state.currentChunk = .ok chunks) {current : Text}
    (hcurrent : current = state.overlapBuffer.flatten ++ sentence ∨ current = sentence)
    {tokens : Nat} {overlap : Int} :
    Splits pieces (count + (wordsOf sentence).length) ⟨chunks, current, tokens, [sentence], overlap⟩ := by
  obtain ⟨htake, hwithin⟩ := take_more h.within heq
  have hlength : (pieces.take count).length = count := by
    rw [List.length_take, Nat.min_eq_left h.within]
  have hdone := h.flush hpieces hflush
  have hsuffix : [sentence].flatMap wordsOf <:+ pieces.take (count + (wordsOf sentence).length) := by
    rw [htake, List.flatMap_singleton]
    exact List.suffix_append _ _
  refine ⟨hwithin, ?_, hsuffix⟩
  rcases hcurrent with rfl | rfl
  · have hkept := List.suffix_iff_eq_drop.mp h.overlap
    rw [hlength] at hkept
    refine ⟨count, _, hdone, Nat.sub_le count (state.overlapBuffer.flatMap wordsOf).length,
      Nat.le_add_right .., ?_⟩
    rw [htake, List.drop_append_of_le_length (by rw [hlength]; exact Nat.sub_le ..), ← hkept]
    exact (reads_flatten_words _).append (reads_words sentence)
  · refine ⟨count, count, hdone, le_rfl, Nat.le_add_right .., ?_⟩
    have hdrop : (pieces.take (count + (wordsOf current).length)).drop count = wordsOf current := by
      rw [htake]
      exact List.drop_left' hlength
    rw [hdrop]
    exact reads_words current

/-- A sentence that goes on with the current chunk. -/
theorem Splits.more (h : Splits pieces count state) {after : List Text}
    (heq : pieces = pieces.take count ++ (wordsOf sentence ++ after)) {buffer : List Text}
    (hbuffer : buffer <:+ state.overlapBuffer ++ [sentence]) {tokens : Nat} {overlap : Int} :
    Splits pieces (count + (wordsOf sentence).length)
      ⟨state.chunks, state.currentChunk ++ sentence, tokens, buffer, overlap⟩ := by
  obtain ⟨htake, hwithin⟩ := take_more h.within heq
  have hlength : (pieces.take count).length = count := by
    rw [List.length_take, Nat.min_eq_left h.within]
  obtain ⟨covered, start, hpasses, hstart, hcovered, hreads⟩ := h.passes
  refine ⟨hwithin, ⟨covered, start, hpasses, hstart, hcovered.trans (Nat.le_add_right ..), ?_⟩, ?_⟩
  · have hle : start ≤ (pieces.take count).length := by
      rw [hlength]
      exact hstart.trans hcovered
    rw [htake, List.drop_append_of_le_length hle]
    exact hreads.append (reads_words sentence)
  · refine (flatMap_suffix hbuffer).trans ?_
    rw [List.flatMap_append, List.flatMap_singleton, htake]
    obtain ⟨front, hfront⟩ := h.overlap
    refine ⟨front, ?_⟩
    rw [← hfront, List.append_assoc]

theorem Splits.step (hpieces : ∀ piece ∈ pieces, IsWord piece) (h : Splits pieces count state)
    (hsome : wordsOf sentence ≠ []) {after : List Text}
    (heq : pieces = pieces.take count ++ (wordsOf sentence ++ after))
    (hstep : sentenceStep countTokens tokenLimit overlapTokens state sentence = .ok state') :
    Splits pieces (count + (wordsOf sentence).length) state' := by
  unfold sentenceStep at hstep
  dsimp only at hstep
  split at hstep
  · exact h.long hpieces hsome heq hstep
  · split at hstep
    · obtain ⟨chunks, hflush, hstate⟩ := Checks.bind_eq_ok.mp hstep
      obtain rfl := Except.ok.inj hstate
      refine h.next hpieces heq hflush ?_
      split
      · exact .inl rfl
      · exact .inr rfl
    · obtain rfl := Except.ok.inj hstep
      exact h.more heq (trimOverlap_suffix _ _)

theorem Splits.run {rest done : List Text} (hpieces : ∀ piece ∈ pieces, IsWord piece)
    (heq : pieces = (done ++ rest).flatMap wordsOf) (hsome : ∀ sentence ∈ rest, wordsOf sentence ≠ [])
    (h : Splits pieces (done.flatMap wordsOf).length state)
    (hrun : rest.foldlM (sentenceStep countTokens tokenLimit overlapTokens) state = .ok state') :
    Splits pieces pieces.length state' := by
  induction rest generalizing done state with
  | nil =>
    obtain rfl := Except.ok.inj hrun
    rw [List.append_nil] at heq
    rwa [← heq] at h
  | cons sentence rest ih =>
    rw [List.foldlM_cons] at hrun
    obtain ⟨next, hnext, hlater⟩ := Checks.bind_eq_ok.mp hrun
    obtain ⟨hfirst, hrest⟩ := List.forall_mem_cons.mp hsome
    have hpart : pieces = pieces.take (done.flatMap wordsOf).length ++
        (wordsOf sentence ++ rest.flatMap wordsOf) := by
      rw [heq, List.flatMap_append, List.take_left, List.flatMap_cons]
    have hdone := h.step hpieces hfirst hpart hnext
    have hcount : ((done ++ [sentence]).flatMap wordsOf).length =
        (done.flatMap wordsOf).length + (wordsOf sentence).length := by
      rw [List.flatMap_append, List.flatMap_singleton, List.length_append]
    rw [← hcount] at hdone
    refine ih ?_ hrest hdone hlater
    rwa [List.append_assoc]

end

/-! ## The safety pass -/

section

variable {countTokens : Text → Nat} {tokenLimit : Nat} {pieces final final' chunks parts : List Text}
  {chunk : Text}

theorem bounded_joinTexts {run : List Text} (hwords : ∀ word ∈ run, IsWord word)
    (h : IsRun countTokens tokenLimit run) : Bounded countTokens tokenLimit (joinTexts run) := by
  rcases h.bounded with hone | hbounded
  · obtain ⟨word, rfl⟩ := List.length_eq_one_iff.mp hone
    rw [joinTexts, List.intercalate_singleton]
    exact .inr (.inl (hwords word List.mem_cons_self))
  · exact .inr (.inr ⟨run, rfl, hwords, hbounded⟩)

/-- Runs of mapped elements are the mapped runs. -/
theorem exists_runs {α β : Type} {f : α → β} {xs : List α} (runs : List (List β))
    (h : runs.flatten = xs.map f) :
    ∃ sources : List (List α), sources.flatten = xs ∧ runs = sources.map (List.map f) := by
  induction runs generalizing xs with
  | nil =>
    obtain rfl := List.map_eq_nil_iff.mp h.symm
    exact ⟨[], rfl, rfl⟩
  | cons run later ih =>
    rw [List.flatten_cons] at h
    obtain ⟨first, rest, rfl, rfl, hrest⟩ := List.map_eq_append_iff.mp h.symm
    obtain ⟨sources, hflatten, rfl⟩ := ih hrest.symm
    exact ⟨first :: sources, by rw [List.flatten_cons, hflatten], rfl⟩

theorem reads_source (source : List (List Text)) :
    Reads (joinTexts (source.map List.flatten)) source.flatten := by
  refine reads_intercalate reads_space ?_
  rw [List.forall₂_map_left_iff]
  exact List.forall₂_same.mpr fun group _ => reads_flatten group

/-- The parts of a chunk that was cut go through the pieces that it reads. -/
theorem passes_hardSplit {start stop : Nat} (hpieces : ∀ piece ∈ pieces, IsWord piece)
    (hsome : start < stop) (hstop : stop ≤ pieces.length)
    (hreads : Reads chunk ((pieces.take stop).drop start))
    (hsplit : hardSplitByTokens countTokens tokenLimit chunk = .ok parts) :
    Passes pieces start parts stop ∧ parts ≠ [] ∧ ∀ part ∈ parts, Bounded countTokens tokenLimit part := by
  have hstretch : ∀ piece ∈ (pieces.take stop).drop start, IsWord piece := fun piece hpiece =>
    hpieces piece (List.mem_of_mem_take (List.mem_of_mem_drop hpiece))
  have hlength : ((pieces.take stop).drop start).length = stop - start := by
    rw [List.length_drop, List.length_take, Nat.min_eq_left hstop]
  obtain ⟨groups, hne, hflatten, hwords⟩ := hreads.words_grouped hstretch
  have hchunk : wordsOf chunk ≠ [] := by
    intro hnil
    rw [wordsOf, hwords, List.map_eq_nil_iff] at hnil
    rw [hnil] at hflatten
    rw [← hflatten] at hlength
    have : 0 = stop - start := hlength
    omega
  obtain ⟨runs, hruns, rfl, hbounded⟩ := hardSplitByTokens_spec hchunk hsplit
  have hmem : ∀ run ∈ runs, ∀ word ∈ run, IsWord word := by
    intro run hrun word hword
    have hmem : word ∈ wordsOf chunk := by
      rw [← hruns]
      exact List.mem_flatten.mpr ⟨run, hrun, hword⟩
    exact isWord_of_mem_words word hmem
  refine ⟨?_, ?_, ?_⟩
  · obtain ⟨sources, hsources, rfl⟩ := exists_runs runs (hruns.trans hwords)
    have hread : List.Forall₂ Reads ((sources.map (List.map List.flatten)).map joinTexts)
        (sources.map List.flatten) := by
      rw [List.forall₂_map_left_iff, List.forall₂_map_left_iff, List.forall₂_map_right_iff]
      exact List.forall₂_same.mpr fun source _ => reads_source source
    have hsome' : ∀ part ∈ sources.map List.flatten, part ≠ [] := by
      intro part hpart hnil
      obtain ⟨source, hsource, rfl⟩ := List.mem_map.mp hpart
      have hrun := (hbounded _ (List.mem_map_of_mem hsource)).some
      obtain ⟨group, hgroup⟩ := List.exists_mem_of_ne_nil source fun h => hrun (by rw [h]; rfl)
      refine hne group ?_ (List.flatten_eq_nil_iff.mp hnil group hgroup)
      rw [← hsources]
      exact List.mem_flatten.mpr ⟨source, hsource, hgroup⟩
    have hpass := passes_parts hread hsome' (pieces.take start) (pieces.drop stop)
    have hall : (sources.map List.flatten).flatten = (pieces.take stop).drop start := by
      rw [← List.flatten_flatten, hsources, hflatten]
    have heq : pieces.take start ++ ((pieces.take stop).drop start ++ pieces.drop stop) = pieces := by
      have hfirst : pieces.take start = (pieces.take stop).take start := by
        rw [List.take_take, Nat.min_eq_left hsome.le]
      rw [← List.append_assoc, hfirst, List.take_append_drop, List.take_append_drop]
    have hstart : (pieces.take start).length = start := by
      rw [List.length_take, Nat.min_eq_left (hsome.le.trans hstop)]
    rw [hall, heq, hstart, hlength, Nat.add_sub_cancel' hsome.le] at hpass
    exact hpass
  · intro hnil
    rw [List.map_eq_nil_iff] at hnil
    rw [hnil] at hruns
    exact hchunk hruns.symm
  · intro part hpart
    obtain ⟨run, hrun, rfl⟩ := List.mem_map.mp hpart
    exact bounded_joinTexts (hmem run hrun) (hbounded run hrun)

theorem safetyPass_spec {covered last : Nat} (hpieces : ∀ piece ∈ pieces, IsWord piece)
    (h : Passes pieces covered chunks last)
    (hrun : chunks.foldlM (safetyStep countTokens tokenLimit) final = .ok final') :
    ∃ parts, final' = final ++ parts ∧ Passes pieces covered parts last ∧
      ∀ part ∈ parts, Bounded countTokens tokenLimit part := by
  induction h generalizing final with
  | nil covered =>
    obtain rfl := Except.ok.inj hrun
    exact ⟨[], (List.append_nil final).symm, .nil covered, nofun⟩
  | @cons covered start stop last chunk later hstart hsome hstop hreads hlater ih =>
    rw [List.foldlM_cons] at hrun
    obtain ⟨next, hnext, hrest⟩ := Checks.bind_eq_ok.mp hrun
    obtain ⟨parts, rfl, hpass, hparts⟩ := ih hrest
    unfold safetyStep at hnext
    split at hnext
    · rename_i hwithin
      rw [appendBounded_eq hnext, List.append_assoc]
      refine ⟨chunk :: parts, rfl, .cons hstart hsome hstop hreads hpass, ?_⟩
      exact List.forall_mem_cons.mpr ⟨.inl hwithin, hparts⟩
    · obtain ⟨cut, hcut, hextend⟩ := Checks.bind_eq_ok.mp hnext
      split at hextend
      · cases hextend
      · obtain rfl := Except.ok.inj hextend
        obtain ⟨hthrough, hne, hbounded⟩ := passes_hardSplit hpieces hsome hstop hreads hcut
        refine ⟨cut ++ parts, List.append_assoc .., ?_, ?_⟩
        · exact (hthrough.of_le hne hstart).append hpass
        · intro part hpart
          exact (List.mem_append.mp hpart).elim (hbounded part) (hparts part)

end

/-! ## The law -/

/-- Whatever the counts, the chunks read the words of the text in order, each at least
    once, and no chunk holds words that are too many by their own counts. -/
theorem splitByTokens_law {countTokens : Text → Nat} {tokenLimit : Nat} {overlapTokens : Int}
    {text : Text} {chunks : List Text} (hlimit : 0 < tokenLimit)
    (h : splitByTokens countTokens tokenLimit text overlapTokens = .ok chunks) :
    SplitLaw countTokens tokenLimit text chunks := by
  unfold splitByTokens at h
  split at h
  · rename_i hempty
    obtain rfl := hempty.resolve_right (Nat.ne_of_gt hlimit)
    obtain rfl := Except.ok.inj h
    exact ⟨reads_sentenceWords [], .nil 0, nofun⟩
  · obtain ⟨-, -, h⟩ := Checks.bind_eq_ok.mp h
    obtain ⟨sentences, hsentences, h⟩ := Checks.bind_eq_ok.mp h
    obtain ⟨state, hrun, h⟩ := Checks.bind_eq_ok.mp h
    obtain ⟨found, hflush, hsafety⟩ := Checks.bind_eq_ok.mp h
    have hpieces := @isWord_of_mem_sentenceWords text
    obtain rfl : sentences = mergedSentences text := foldlM_appendBounded hsentences
    have hsome : ∀ sentence ∈ mergedSentences text, wordsOf sentence ≠ [] := by
      intro sentence hsentence hnil
      have hkept := (List.mem_filter.mp hsentence).2
      exact of_decide_eq_true hkept (wordsOf_eq_nil_iff.mp hnil)
    have hstart : Splits (sentenceWords text) (([] : List Text).flatMap wordsOf).length
        ⟨[], [], 0, [], 0⟩ :=
      ⟨Nat.zero_le _, ⟨0, 0, .nil 0, le_rfl, Nat.zero_le _, reads_nil⟩, List.nil_suffix⟩
    have hdone := hstart.run hpieces rfl hsome hrun
    obtain ⟨parts, rfl, hpass, hbounded⟩ :=
      safetyPass_spec hpieces (hdone.flush hpieces hflush) hsafety
    exact ⟨reads_sentenceWords text, hpass, hbounded⟩

/-- Three sentences of which one is too long. -/
theorem splitByTokens_law_of_three :
    splitByTokens estimateFallback 4 "One. Two three four five! Six.".toList 1 =
        .ok ["One.".toList, "Two three four five!".toList, "Six.".toList] ∧
      SplitLaw estimateFallback 4 "One. Two three four five! Six.".toList
        ["One.".toList, "Two three four five!".toList, "Six.".toList] := by
  have hsplit : splitByTokens estimateFallback 4 "One. Two three four five! Six.".toList 1 =
      .ok ["One.".toList, "Two three four five!".toList, "Six.".toList] := rfl
  exact ⟨hsplit, splitByTokens_law (by decide) hsplit⟩

/-- Ten words are counted as one token each and make up thirteen, and a word is cut after
    the end of a sentence in it. -/
theorem not_chunksBounded :
    (∃ chunks, splitByTokens estimateFallback 10 "a b c d e f g h i j".toList 0 = .ok chunks ∧
      ¬ ChunksBounded estimateFallback 10 "a b c d e f g h i j".toList chunks) ∧
    ∃ chunks, splitByTokens estimateFallback 1 "a.b".toList 0 = .ok chunks ∧
      ¬ ChunksBounded estimateFallback 1 "a.b".toList chunks := by
  refine ⟨⟨["a b c d e f g h i j".toList], rfl, ?_⟩, ⟨["a.".toList, "b".toList], rfl, ?_⟩⟩
  · rintro ⟨hbounded, -⟩
    rcases hbounded _ List.mem_cons_self with hle | hword
    · exact absurd hle (by decide)
    · have hspace := hword.2 ' ' (by decide)
      cases hspace
  · rintro ⟨-, hwords⟩
    exact absurd hwords (by decide)

end AiPlatform.Knowledge
