/-
  AiPlatform.Knowledge.TokenSplit

  Sentences put together up to a number of tokens (`_split_by_tokens` of `chunking.py`),
  with the estimate of the token counter (`_estimate_fallback`).
-/

import AiPlatform.Knowledge.SplitText
import AiPlatform.Lib.Checks

namespace AiPlatform.Knowledge

/-! ## The estimate -/

/-- `_CJK_RANGE` -/
def isCjk (c : Char) : Bool :=
  (0x4e00 ≤ c.toNat && c.toNat ≤ 0x9fff) || (0x3400 ≤ c.toNat && c.toNat ≤ 0x4dbf)

/-- `_ARABIC_RANGE` -/
def isArabic (c : Char) : Bool :=
  (0x600 ≤ c.toNat && c.toNat ≤ 0x6ff) || (0x750 ≤ c.toNat && c.toNat ≤ 0x77f) ||
    (0xfb50 ≤ c.toNat && c.toNat ≤ 0xfdff) || (0xfe70 ≤ c.toNat && c.toNat ≤ 0xfeff)

/-- `_CJK_RANGE.fullmatch(word)` -/
def isCjkWord : Text → Bool
  | [c] => isCjk c
  | _ => false

/-- `_estimate_fallback`, in tenths and rounded down. -/
def estimateFallback (text : Text) : Nat :=
  let words := wordsOf text
  let cjkCount := text.countP isCjk
  let arabicWords := words.countP (·.any isArabic)
  let wordCount := words.countP fun word => !word.any isArabic && !isCjkWord word
  (7 * cjkCount + 32 * arabicWords + 13 * wordCount) / 10

/-! ## Sentences -/

/-- The characters that end a sentence. -/
def sentenceEnds : List Char := ['.', '!', '?', '。', '！', '？', '۔', '؟']

/-- The sentences of a text of which the first has begun; after the end of a sentence the
    characters that still belong to it are those of the tail. -/
def sentencesFrom (begun : Text) (tail : Option (Char → Bool)) : Text → List Text
  | [] => [begun]
  | c :: rest =>
    let goesOn := match tail with
      | some inTail => inTail c
      | none => false
    if goesOn then sentencesFrom (begun ++ [c]) tail rest
    else
      let (done, begun) := if tail.isSome then ([begun], []) else ([], begun)
      let tail :=
        if c ∈ sentenceEnds then some Gateway.isSpace
        else if c = '\n' ∧ rest.head? = some '\n' then some (· == '\n')
        else none
      done ++ sentencesFrom (begun ++ [c]) tail rest

/-- The matches of the sentence pattern with what comes before them, the blank ones left
    out. -/
def mergedSentences (text : Text) : List Text :=
  (sentencesFrom [] none text).filter fun sentence => strippedText sentence ≠ []

def appendSentences (text : Text) : Except String (List Text) :=
  (mergedSentences text).foldlM appendBounded []

/-! ## Words -/

section

variable (countTokens : Text → Nat) (tokenLimit : Nat)

structure WordPack where
  out : List Text
  buf : Text
  bufTokens : Nat

/-- `if buf.strip(): _append_bounded_output(out, buf.strip())` -/
def flushText (out : List Text) (buf : Text) : Except String (List Text) :=
  if strippedText buf ≠ [] then appendBounded out (strippedText buf) else .ok out

/-- The body of both loops over the words of a text. -/
def packWord (pack : WordPack) (word : Text) : Except String WordPack :=
  let wordTokens := countTokens (word ++ [' '])
  if tokenLimit < pack.bufTokens + wordTokens then do
    let out ← flushText pack.out pack.buf
    .ok ⟨out, word ++ [' '], wordTokens⟩
  else .ok { pack with buf := pack.buf ++ (word ++ [' ']), bufTokens := pack.bufTokens + wordTokens }

def packWords (out : List Text) (text : Text) : Except String WordPack :=
  (wordsOf text).foldlM (packWord countTokens tokenLimit) ⟨out, [], 0⟩

/-- `_hard_split_by_tokens` -/
def hardSplitByTokens (text : Text) : Except String (List Text) :=
  if strippedText text = [] then .ok []
  else do
    let pack ← packWords countTokens tokenLimit [] text
    let out ← flushText pack.out pack.buf
    .ok (if wordsOf text = [] then [strippedText text] else out)

/-! ## The loop over the sentences -/

structure SplitState where
  chunks : List Text
  currentChunk : Text
  currentTokens : Nat
  overlapBuffer : List Text
  overlapBufferTokens : Int

/-- `while overlap_buffer_tokens > overlap_tokens and len(overlap_buffer) > 1` -/
def trimOverlap (overlapTokens : Int) : List Text → Int → List Text × Int
  | removed :: next :: later, tokens =>
    if overlapTokens < tokens then trimOverlap overlapTokens (next :: later) (tokens - countTokens removed)
    else (removed :: next :: later, tokens)
  | buffer, tokens => (buffer, tokens)

/-- A sentence that is too long is taken word by word. -/
def longSentence (state : SplitState) (sentence : Text) : Except String SplitState := do
  let chunks ← flushText state.chunks state.currentChunk
  let (currentChunk, currentTokens) :=
    if strippedText state.currentChunk ≠ [] then ([], 0)
    else (state.currentChunk, state.currentTokens)
  let pack ← packWords countTokens tokenLimit chunks sentence
  let (currentChunk, currentTokens) :=
    if strippedText pack.buf ≠ [] then (pack.buf, countTokens pack.buf)
    else (currentChunk, currentTokens)
  .ok ⟨pack.out, currentChunk, currentTokens, [], 0⟩

def sentenceStep (overlapTokens : Int) (state : SplitState) (sentence : Text) :
    Except String SplitState :=
  let sentenceTokens := countTokens sentence
  if tokenLimit < sentenceTokens then longSentence countTokens tokenLimit state sentence
  else if tokenLimit < state.currentTokens + sentenceTokens then do
    let chunks ← flushText state.chunks state.currentChunk
    let (currentChunk, currentTokens) :=
      if state.overlapBuffer ≠ [] ∧ state.overlapBufferTokens + sentenceTokens ≤ tokenLimit then
        (state.overlapBuffer.flatten ++ sentence, (state.overlapBufferTokens + sentenceTokens).toNat)
      else (sentence, sentenceTokens)
    .ok ⟨chunks, currentChunk, currentTokens, [sentence], sentenceTokens⟩
  else
    let (buffer, tokens) := trimOverlap countTokens overlapTokens (state.overlapBuffer ++ [sentence])
      (state.overlapBufferTokens + sentenceTokens)
    .ok ⟨state.chunks, state.currentChunk ++ sentence, state.currentTokens + sentenceTokens, buffer,
      tokens⟩

/-- The safety pass: a chunk that has too many tokens is taken word by word. -/
def safetyStep (final : List Text) (chunk : Text) : Except String (List Text) :=
  if countTokens chunk ≤ tokenLimit then appendBounded final chunk
  else do
    let parts ← hardSplitByTokens countTokens tokenLimit chunk
    if maxChunkOutputs < final.length + parts.length then .error outputLimitMessage
    else .ok (final ++ parts)

/-- `_split_by_tokens` -/
def splitByTokens (text : Text) (overlapTokens : Int) : Except String (List Text) :=
  if text = [] ∨ tokenLimit = 0 then .ok []
  else do
    let overlapTokens := min overlapTokens (tokenLimit / 2 : Nat)
    requireTokenWindowInputBudget text tokenLimit overlapTokens
    let sentences ← appendSentences text
    let state ← sentences.foldlM (sentenceStep countTokens tokenLimit overlapTokens) ⟨[], [], 0, [], 0⟩
    let chunks ← flushText state.chunks state.currentChunk
    chunks.foldlM (safetyStep countTokens tokenLimit) []

end

/-! ## The law -/

/-- The words of a text, cut after the ends of sentences. -/
def sentenceWords (text : Text) : List Text := (mergedSentences text).flatMap wordsOf

abbrev IsWord (text : Text) : Prop := Reading.IsWord Gateway.isSpace text

def joinTexts (words : List Text) : Text := [' '].intercalate words

/-- What is known of the tokens of a chunk. -/
def Bounded (countTokens : Text → Nat) (tokenLimit : Nat) (chunk : Text) : Prop :=
  countTokens chunk ≤ tokenLimit ∨ IsWord chunk ∨
    ∃ words, chunk = joinTexts words ∧ (∀ word ∈ words, IsWord word) ∧
      (words.map fun word => countTokens (word ++ [' '])).sum ≤ tokenLimit

/-- The chunks read the text's words in order, each at least once, and keep to the limit or
    hold words whose own counts do. -/
structure SplitLaw (countTokens : Text → Nat) (tokenLimit : Nat) (text : Text) (chunks : List Text) :
    Prop where
  reads : Reading.Reads Gateway.isSpace text (sentenceWords text)
  passes : Reading.Passes Gateway.isSpace (sentenceWords text) 0 chunks (sentenceWords text).length
  bounded : ∀ chunk ∈ chunks, Bounded countTokens tokenLimit chunk

/-- Every chunk keeps to the limit or is a single word, and the text's words are among those
    of the chunks in order. -/
def ChunksBounded (countTokens : Text → Nat) (tokenLimit : Nat) (text : Text) (chunks : List Text) :
    Prop :=
  (∀ chunk ∈ chunks, countTokens chunk ≤ tokenLimit ∨ IsWord chunk) ∧
    (wordsOf text).Sublist (chunks.flatMap wordsOf)

end AiPlatform.Knowledge
