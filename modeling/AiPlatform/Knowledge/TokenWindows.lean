/-
  AiPlatform.Knowledge.TokenWindows

  Fixed windows of tokens or of words (`_split_by_tokens_fixed` of `chunking.py`).

  With an encoder the windows are slices of the token list; without one, words are
  kept in a buffer.  The windows are recorded beside the chunks, by position.
-/

import AiPlatform.Knowledge.SplitText
import AiPlatform.Lib.Checks
import AiPlatform.Lib.Windows

namespace AiPlatform.Knowledge

/-- The whole-text encoder of the token counter. -/
structure Encoder (Token : Type) where
  encode : Text → List Token
  decode : List Token → Text
  encode_nil : encode [] = []

/-- The chunks, and the windows they are taken from. -/
structure FixedSplit where
  chunks : List Text
  windows : List Window

section

variable {Token : Type} (tokenLimit : Nat) (overlapTokens : Int)

/-- The overlap that leaves each window something of its own. -/
def cappedOverlap : Nat :=
  if tokenLimit ≤ 1 then 0 else (max 0 (min overlapTokens (tokenLimit - 1))).toNat

def tokenStep : Nat :=
  let overlap := cappedOverlap tokenLimit overlapTokens
  let step := if overlap < tokenLimit then tokenLimit - overlap else tokenLimit
  if step = 0 then tokenLimit else step

/-! ## Tokens -/

/-- The slice `tokens[start : start + token_limit]`. -/
def tokenWindow (count start : Nat) : Window := ⟨start, min (start + tokenLimit) count⟩

def appendTokens (encoder : Encoder Token) (tokens : List Token) (chunks : List Text)
    (window : Window) : Except String (List Text) :=
  let chunk := strippedText (encoder.decode (window.of tokens))
  if chunk ≠ [] then appendBounded chunks chunk else .ok chunks

def splitTokens (encoder : Encoder Token) (text : Text) : Except String FixedSplit := do
  requireWholeEncoderInputBudget text
  let tokens := encoder.encode text
  let step := tokenStep tokenLimit overlapTokens
  let count := (tokens.length + step - 1) / step
  if tokens = [] then .ok ⟨[], []⟩
  else if maxChunkOutputs < count then .error outputLimitMessage
  else
    let windows := (List.range count).map fun i => tokenWindow tokenLimit tokens.length (i * step)
    let chunks ← windows.foldlM (appendTokens encoder tokens) []
    .ok ⟨chunks, windows⟩

/-! ## Words -/

structure WordState where
  chunks : List Text
  windows : List Window
  buffer : List (Text × Nat)
  tokens : Nat

def joinWords (buffer : List (Text × Nat)) : Text := [' '].intercalate (buffer.map Prod.fst)

/-- The buffer, which holds the words right before the index, becomes a chunk. -/
def flushWords (index : Nat) (state : WordState) : Except String WordState := do
  let chunks ← appendBounded state.chunks (joinWords state.buffer)
  .ok { state with
    chunks
    windows := state.windows ++ [⟨index - state.buffer.length, index⟩] }

/-- The last words of the buffer, until they make up the overlap. -/
def retainWords (overlap : Nat) :
    List (Text × Nat) → List (Text × Nat) → Nat → List (Text × Nat) × Nat
  | [], retained, tokens => (retained, tokens)
  | word :: earlier, retained, tokens =>
    if overlap ≤ tokens + word.2 then (word :: retained, tokens + word.2)
    else retainWords overlap earlier (word :: retained) (tokens + word.2)

/-- Words are dropped in front until the next one fits. -/
def trimWords (next : Nat) : List (Text × Nat) → Nat → List (Text × Nat) × Nat
  | [], tokens => ([], tokens)
  | word :: later, tokens =>
    if tokenLimit < tokens + next then trimWords next later (tokens - word.2)
    else (word :: later, tokens)

/-- What stays in the buffer after its chunk. -/
def carryWords (next : Nat) (buffer : List (Text × Nat)) : List (Text × Nat) × Nat :=
  let overlap := cappedOverlap tokenLimit overlapTokens
  let (retained, tokens) := if 0 < overlap then retainWords overlap buffer.reverse [] 0 else ([], 0)
  trimWords tokenLimit next retained tokens

/-- The body of the loop over the words, of which this is the one at the index. -/
def wordStep (state : WordState) (entry : (Text × Nat) × Nat) : Except String WordState :=
  let ((word, tokens), index) := entry
  if tokenLimit < tokens then do
    let state ← if state.buffer ≠ [] then do
        let state ← flushWords index state
        .ok { state with buffer := [], tokens := 0 }
      else .ok state
    let chunks ← appendBounded state.chunks word
    .ok { state with chunks, windows := state.windows ++ [⟨index, index + 1⟩] }
  else do
    let state ← if state.buffer ≠ [] ∧ tokenLimit < state.tokens + tokens then do
        let flushed ← flushWords index state
        let (buffer, kept) := carryWords tokenLimit overlapTokens tokens state.buffer
        .ok { flushed with buffer, tokens := kept }
      else .ok state
    .ok { state with
      buffer := state.buffer ++ [(word, tokens)]
      tokens := state.tokens + tokens }

/-- The words with their counts; a word is counted with a space after it. -/
def countedWords (countTokens : Text → Nat) (text : Text) : List (Text × Nat) :=
  (wordsOf text).map fun word => (word, countTokens (word ++ [' ']))

def splitWords (countTokens : Text → Nat) (text : Text) : Except String FixedSplit := do
  let words := countedWords countTokens text
  let state ← words.zipIdx.foldlM (wordStep tokenLimit overlapTokens) ⟨[], [], [], 0⟩
  let state ← if state.buffer ≠ [] then flushWords words.length state else .ok state
  .ok ⟨state.chunks, state.windows⟩

def splitByTokensFixed (encoder : Option (Encoder Token)) (countTokens : Text → Nat)
    (text : Text) : Except String FixedSplit := do
  if text = [] ∨ tokenLimit = 0 then .ok ⟨[], []⟩
  else
    requireTokenWindowInputBudget text tokenLimit overlapTokens
    match encoder with
    | some encoder => splitTokens tokenLimit overlapTokens encoder text
    | none => splitWords tokenLimit overlapTokens countTokens text

end

/-! ## The law -/

/-- Windows over `count` elements, each with its total. -/
structure FixedWindows (count limit : Nat) (total : Window → Nat) (windows : List Window) :
    Prop where
  inside : ∀ window ∈ windows, window.start < window.stop ∧ window.stop ≤ count
  covers : ∀ i < count, ∃ window ∈ windows, window.start ≤ i ∧ i < window.stop
  bounded : ∀ window ∈ windows, total window ≤ limit ∨ window.stop = window.start + 1

/-- Some element of the window is in none of the windows before it. -/
def FreshAfter (before : List Window) (window : Window) : Prop :=
  ∃ i, window.start ≤ i ∧ i < window.stop ∧
    ∀ earlier ∈ before, ¬ (earlier.start ≤ i ∧ i < earlier.stop)

def AllFresh (windows : List Window) : Prop :=
  ∀ before window after, windows = before ++ window :: after → FreshAfter before window

/-- The windows up to the first that reaches the end. -/
def FreshUpToEnd (count : Nat) (windows : List Window) : Prop :=
  ∀ before window after, windows = before ++ window :: after →
    (∀ earlier ∈ before, earlier.stop < count) → FreshAfter before window

/-- The text of a window of tokens. -/
def tokenText {Token : Type} (encoder : Encoder Token) (tokens : List Token) (window : Window) : Text :=
  strippedText (encoder.decode (window.of tokens))

def tokensIn (words : List (Text × Nat)) : Nat := (words.map Prod.snd).sum

/-- What the split of a text is: with an encoder the texts of windows of its tokens, the
    blank ones left out, and else windows of its words. -/
def FixedLaw {Token : Type} (encoder : Option (Encoder Token)) (countTokens : Text → Nat)
    (text : Text) (tokenLimit : Nat) (split : FixedSplit) : Prop :=
  match encoder with
  | some encoder =>
    let tokens := encoder.encode text
    split.chunks = (split.windows.map (tokenText encoder tokens)).filter (· ≠ []) ∧
      FixedWindows tokens.length tokenLimit (fun window => (window.of tokens).length)
        split.windows ∧
      FreshUpToEnd tokens.length split.windows
  | none =>
    let words := countedWords countTokens text
    split.chunks = split.windows.map (fun window => joinWords (window.of words)) ∧
      FixedWindows words.length tokenLimit (fun window => tokensIn (window.of words))
        split.windows ∧
      AllFresh split.windows

/-! ## The word buffer -/

section

variable {tokenLimit next tokens index : Nat} {overlapTokens : Int}
  {words buffer : List (Text × Nat)} {state state' : WordState}

theorem tokensIn_cons (word : Text × Nat) (words : List (Text × Nat)) :
    tokensIn (word :: words) = word.2 + tokensIn words := by
  rw [tokensIn, List.map_cons, List.sum_cons, tokensIn]

/-- The last words are retained, with their count. -/
theorem retainWords_spec (overlap : Nat) (reversed retained : List (Text × Nat))
    (htokens : tokens = tokensIn retained) :
    (retainWords overlap reversed retained tokens).1 <:+ reversed.reverse ++ retained ∧
      (retainWords overlap reversed retained tokens).2 =
        tokensIn (retainWords overlap reversed retained tokens).1 := by
  induction reversed generalizing retained tokens with
  | nil => exact ⟨List.suffix_rfl, htokens⟩
  | cons word earlier ih =>
    have hmore : tokens + word.2 = tokensIn (word :: retained) := by
      rw [tokensIn_cons, htokens, Nat.add_comm]
    have hwords : (word :: earlier).reverse ++ retained = earlier.reverse ++ word :: retained := by
      rw [List.reverse_cons, List.append_assoc]
      rfl
    rw [retainWords, hwords]
    split
    · exact ⟨List.suffix_append _ _, hmore⟩
    · exact ih (word :: retained) hmore

/-- What is left in the buffer has its count, and leaves room for the next word. -/
theorem trimWords_spec (hnext : next ≤ tokenLimit) (htokens : tokens = tokensIn words) :
    (trimWords tokenLimit next words tokens).1 <:+ words ∧
      (trimWords tokenLimit next words tokens).2 =
        tokensIn (trimWords tokenLimit next words tokens).1 ∧
      (trimWords tokenLimit next words tokens).2 + next ≤ tokenLimit := by
  induction words generalizing tokens with
  | nil =>
    subst htokens
    exact ⟨List.suffix_rfl, rfl, by simpa [trimWords, tokensIn] using hnext⟩
  | cons word later ih =>
    rw [trimWords]
    split
    · have hless : tokens - word.2 = tokensIn later := by
        rw [htokens, tokensIn_cons, Nat.add_sub_cancel_left]
      obtain ⟨hsuffix, hrest⟩ := ih hless
      exact ⟨hsuffix.trans (List.suffix_cons word later), hrest⟩
    · rename_i hfits
      exact ⟨List.suffix_rfl, htokens, Nat.not_lt.mp hfits⟩

theorem carryWords_spec (hnext : next ≤ tokenLimit) (buffer : List (Text × Nat)) :
    (carryWords tokenLimit overlapTokens next buffer).1 <:+ buffer ∧
      (carryWords tokenLimit overlapTokens next buffer).2 =
        tokensIn (carryWords tokenLimit overlapTokens next buffer).1 ∧
      (carryWords tokenLimit overlapTokens next buffer).2 + next ≤ tokenLimit := by
  unfold carryWords
  dsimp only
  split
  · obtain ⟨hsuffix, htokens⟩ := retainWords_spec
      (cappedOverlap tokenLimit overlapTokens) buffer.reverse [] (rfl : 0 = tokensIn [])
    rw [List.reverse_reverse, List.append_nil] at hsuffix
    obtain ⟨htrimmed, hrest⟩ := trimWords_spec hnext htokens
    exact ⟨htrimmed.trans hsuffix, hrest⟩
  · have hnone : 0 = tokensIn [] := rfl
    obtain ⟨htrimmed, hrest⟩ := trimWords_spec hnext hnone
    exact ⟨htrimmed.trans List.nil_suffix, hrest⟩

/-! ## The loop over the words -/

/-- The chunks so far are those of the windows so far, which reach up to `stop` and
    leave out no word before `covered`. -/
structure WindowsDone (words : List (Text × Nat)) (tokenLimit stop covered : Nat)
    (chunks : List Text) (windows : List Window) : Prop where
  chunks : chunks = windows.map fun window => joinWords (window.of words)
  inside : ∀ window ∈ windows, window.start < window.stop ∧ window.stop ≤ stop
  increasing : windows.Pairwise fun a b => a.stop < b.stop
  covers : ∀ i < covered, ∃ window ∈ windows, window.start ≤ i ∧ i < window.stop
  bounded : ∀ window ∈ windows,
    tokensIn (window.of words) ≤ tokenLimit ∨ window.stop = window.start + 1

/-- The words before the index have had their turn. -/
structure WordsDone (words : List (Text × Nat)) (tokenLimit index : Nat) (state : WordState) :
    Prop where
  windows : WindowsDone words tokenLimit index (index - state.buffer.length) state.chunks
    state.windows
  buffer : state.buffer <:+ words.take index
  tokens : state.tokens = tokensIn state.buffer
  fits : state.tokens ≤ tokenLimit
  older : state.buffer ≠ [] → ∀ window ∈ state.windows, window.stop < index

theorem WindowsDone.mono {stop stop' covered covered' : Nat} {chunks : List Text}
    {windows : List Window} (h : WindowsDone words tokenLimit stop covered chunks windows)
    (hstop : stop ≤ stop') (hcovered : covered' ≤ covered) :
    WindowsDone words tokenLimit stop' covered' chunks windows where
  chunks := h.chunks
  inside := fun window hwindow => (h.inside window hwindow).imp_right (le_trans · hstop)
  increasing := h.increasing
  covers := fun i hi => h.covers i (Nat.lt_of_lt_of_le hi hcovered)
  bounded := h.bounded

/-- A window that begins where nothing is left out and stops later than all before. -/
theorem WindowsDone.snoc {stop covered : Nat} {chunks : List Text} {windows : List Window}
    {window : Window} (h : WindowsDone words tokenLimit stop covered chunks windows)
    (hstart : window.start ≤ covered) (hsome : window.start < window.stop)
    (hstop : ∀ earlier ∈ windows, earlier.stop < window.stop)
    (hbounded : tokensIn (window.of words) ≤ tokenLimit ∨ window.stop = window.start + 1) :
    WindowsDone words tokenLimit window.stop window.stop
      (chunks ++ [joinWords (window.of words)]) (windows ++ [window]) where
  chunks := by rw [List.map_append, h.chunks, List.map_singleton]
  inside := by
    intro other hother
    rcases List.mem_append.mp hother with hother | hother
    · exact ⟨(h.inside other hother).1, (hstop other hother).le⟩
    · obtain rfl := List.mem_singleton.mp hother
      exact ⟨hsome, le_rfl⟩
  increasing := by
    refine List.pairwise_append.mpr ⟨h.increasing, List.pairwise_singleton .., ?_⟩
    intro earlier hearlier other hother
    obtain rfl := List.mem_singleton.mp hother
    exact hstop earlier hearlier
  covers := by
    intro i hi
    by_cases hcovered : i < covered
    · obtain ⟨other, hother, hin⟩ := h.covers i hcovered
      exact ⟨other, List.mem_append_left _ hother, hin⟩
    · exact ⟨window, List.mem_append_right _ List.mem_cons_self,
        hstart.trans (Nat.not_lt.mp hcovered), hi⟩
  bounded := by
    intro other hother
    rcases List.mem_append.mp hother with hother | hother
    · exact h.bounded other hother
    · obtain rfl := List.mem_singleton.mp hother
      exact hbounded

theorem flushWords_eq (h : flushWords index state = .ok state') : state' =
    { state with
      chunks := state.chunks ++ [joinWords state.buffer]
      windows := state.windows ++ [⟨index - state.buffer.length, index⟩] } := by
  unfold flushWords at h
  cases happend : appendBounded state.chunks (joinWords state.buffer) with
  | error message =>
    rw [happend] at h
    cases h
  | ok chunks =>
    rw [happend] at h
    rw [← Except.ok.inj h, appendBounded_eq happend]

/-- The words of a buffer are those in the window of its chunk. -/
theorem WordsDone.buffer_eq (h : WordsDone words tokenLimit index state)
    (hindex : index ≤ words.length) :
    (Window.mk (index - state.buffer.length) index).of words = state.buffer := by
  have heq := List.suffix_iff_eq_drop.mp h.buffer
  rw [List.length_take, Nat.min_eq_left hindex] at heq
  exact heq.symm

/-- After a flush every word before the index is in a window. -/
theorem WordsDone.flush (h : WordsDone words tokenLimit index state) (hindex : index ≤ words.length)
    (hne : state.buffer ≠ []) (hflush : flushWords index state = .ok state') :
    WindowsDone words tokenLimit index index state'.chunks state'.windows := by
  obtain rfl := flushWords_eq hflush
  have hsome := List.length_pos_iff.mpr hne
  have hlength := h.buffer.length_le
  rw [List.length_take] at hlength
  have hbuffer := h.buffer_eq hindex
  have hstart : index - state.buffer.length < index := by omega
  have hbounded : tokensIn ((Window.mk (index - state.buffer.length) index).of words) ≤ tokenLimit := by
    rw [hbuffer, ← h.tokens]
    exact h.fits
  have hsnoc := h.windows.snoc le_rfl hstart (h.older hne) (.inl hbounded)
  rwa [hbuffer] at hsnoc

/-- A word goes to the end of what is left in the buffer. -/
theorem WordsDone.push {word : Text × Nat} (hword : words[index]? = some word)
    (hbuffer : buffer <:+ words.take index) (htokens : tokens = tokensIn buffer)
    (hfits : tokens + word.2 ≤ tokenLimit)
    (hwindows : WindowsDone words tokenLimit index (index - buffer.length) state.chunks
      state.windows) :
    WordsDone words tokenLimit (index + 1)
      { state with buffer := buffer ++ [word], tokens := tokens + word.2 } where
  windows := by
    refine hwindows.mono (Nat.le_succ index) ?_
    show index + 1 - (buffer ++ [word]).length ≤ index - buffer.length
    rw [List.length_append, List.length_singleton]
    omega
  buffer := by
    obtain ⟨earlier, heq⟩ := hbuffer
    refine ⟨earlier, ?_⟩
    rw [List.take_add_one, hword, ← heq, Option.toList_some, List.append_assoc]
  tokens := by
    show tokens + word.2 = tokensIn (buffer ++ [word])
    rw [htokens, tokensIn, tokensIn, List.map_append, List.sum_append]
    rfl
  fits := hfits
  older := fun _ window hwindow => Nat.lt_succ_of_le (hwindows.inside window hwindow).2

/-- A word that is too long is a window of its own. -/
theorem WordsDone.single {word : Text × Nat} {chunks : List Text}
    (hword : words[index]? = some word) (hbuffer : state.buffer = []) (htokens : state.tokens = 0)
    (hwindows : WindowsDone words tokenLimit index index state.chunks state.windows)
    (happend : appendBounded state.chunks word.1 = .ok chunks) :
    WordsDone words tokenLimit (index + 1)
      { state with chunks, windows := state.windows ++ [⟨index, index + 1⟩] } where
  windows := by
    obtain rfl := appendBounded_eq happend
    have hof : joinWords ((Window.mk index (index + 1)).of words) = word.1 := by
      rw [Window.of, List.drop_take, Nat.add_sub_cancel_left, List.take_one, List.head?_drop, hword]
      simp [joinWords]
    have hsingle : (Window.mk index (index + 1)).stop = index + 1 := rfl
    have hsnoc := hwindows.snoc le_rfl (Nat.lt_succ_self index)
      (fun earlier hearlier => Nat.lt_succ_of_le (hwindows.inside earlier hearlier).2) (.inr hsingle)
    rw [hof] at hsnoc
    rw [hbuffer]
    exact hsnoc
  buffer := by
    rw [hbuffer]
    exact List.nil_suffix
  tokens := by
    rw [hbuffer]
    exact htokens
  fits := by
    rw [htokens]
    exact Nat.zero_le tokenLimit
  older := fun h => absurd hbuffer h

/-- One turn of the loop. -/
theorem WordsDone.step {entry : Text × Nat} (h : WordsDone words tokenLimit index state)
    (hentry : words[index]? = some entry)
    (hstep : wordStep tokenLimit overlapTokens state (entry, index) = .ok state') :
    WordsDone words tokenLimit (index + 1) state' := by
  have hindex : index ≤ words.length := (List.getElem?_eq_some_iff.mp hentry).1.le
  obtain ⟨word, count⟩ := entry
  simp only [wordStep] at hstep
  split at hstep
  · split at hstep
    · rename_i hne
      obtain ⟨flushed, hflush, hrest⟩ := Checks.bind_eq_ok.mp hstep
      obtain ⟨emptied, hemptied, hlast⟩ := Checks.bind_eq_ok.mp hrest
      obtain rfl := Except.ok.inj hemptied
      obtain ⟨chunks, happend, hstate⟩ := Checks.bind_eq_ok.mp hlast
      obtain rfl := Except.ok.inj hstate
      have hwindows := h.flush hindex hne hflush
      exact WordsDone.single hentry rfl rfl hwindows happend
    · rename_i hnil
      obtain ⟨same, hsame, hrest⟩ := Checks.bind_eq_ok.mp hstep
      obtain rfl := Except.ok.inj hsame
      obtain ⟨chunks, happend, hstate⟩ := Checks.bind_eq_ok.mp hrest
      obtain rfl := Except.ok.inj hstate
      have hbuffer := not_not.mp hnil
      have hwindows := h.windows
      rw [hbuffer, List.length_nil, Nat.sub_zero] at hwindows
      have htokens := h.tokens
      rw [hbuffer] at htokens
      exact WordsDone.single hentry hbuffer htokens hwindows happend
  · rename_i hcount
    have hcount := Nat.not_lt.mp hcount
    split at hstep
    · rename_i hfull
      obtain ⟨flushed, hflush, hrest⟩ := Checks.bind_eq_ok.mp hstep
      obtain ⟨carried, hcarried, hstate⟩ := Checks.bind_eq_ok.mp hrest
      obtain rfl := Except.ok.inj hcarried
      obtain rfl := Except.ok.inj hstate
      obtain ⟨hsuffix, htokens, hfits⟩ := carryWords_spec hcount state.buffer
      have hcarried := Nat.sub_le index
        (carryWords tokenLimit overlapTokens count state.buffer).1.length
      have hwindows := (h.flush hindex hfull.1 hflush).mono le_rfl hcarried
      exact WordsDone.push hentry (hsuffix.trans h.buffer) htokens hfits hwindows
    · rename_i hroom
      obtain ⟨same, hsame, hstate⟩ := Checks.bind_eq_ok.mp hstep
      obtain rfl := Except.ok.inj hsame
      obtain rfl := Except.ok.inj hstate
      refine WordsDone.push hentry h.buffer h.tokens ?_ h.windows
      by_cases hbuffer : state.buffer = []
      · rw [h.tokens, hbuffer]
        exact (Nat.zero_add count).trans_le hcount
      · exact Nat.not_lt.mp fun hlt => hroom ⟨hbuffer, hlt⟩

theorem WordsDone.run {state : WordState} (rest : List (Text × Nat))
    (h : WordsDone words tokenLimit index state) (hrest : rest = words.drop index)
    (hrun : (rest.zipIdx index).foldlM (wordStep tokenLimit overlapTokens) state = .ok state') :
    WordsDone words tokenLimit (index + rest.length) state' := by
  induction rest generalizing index state with
  | nil =>
    obtain rfl := Except.ok.inj hrun
    exact h
  | cons entry rest ih =>
    rw [List.zipIdx_cons, List.foldlM_cons] at hrun
    obtain ⟨next, hnext, hlater⟩ := Checks.bind_eq_ok.mp hrun
    have hentry : words[index]? = some entry := by
      rw [← List.head?_drop, ← hrest, List.head?_cons]
    have hdrop : rest = words.drop (index + 1) := by
      rw [← List.tail_drop, ← hrest, List.tail_cons]
    have hdone := ih (h.step hentry hnext) hdrop hlater
    rwa [List.length_cons, Nat.add_comm rest.length, ← Nat.add_assoc]

/-- The last words are flushed. -/
theorem splitWords_done {countTokens : Text → Nat} {text : Text} {split : FixedSplit}
    (h : splitWords tokenLimit overlapTokens countTokens text = .ok split) :
    WindowsDone (countedWords countTokens text) tokenLimit (countedWords countTokens text).length
      (countedWords countTokens text).length split.chunks split.windows := by
  unfold splitWords at h
  obtain ⟨state, hrun, hrest⟩ := Checks.bind_eq_ok.mp h
  have hstart : WordsDone (countedWords countTokens text) tokenLimit 0 ⟨[], [], [], 0⟩ :=
    ⟨⟨rfl, nofun, List.Pairwise.nil, nofun, nofun⟩, List.nil_suffix, rfl, Nat.zero_le _, nofun⟩
  have hdone := hstart.run _ List.drop_zero.symm hrun
  rw [Nat.zero_add] at hdone
  split at hrest
  · rename_i hne
    obtain ⟨flushed, hflush, hsplit⟩ := Checks.bind_eq_ok.mp hrest
    obtain rfl := Except.ok.inj hsplit
    exact hdone.flush le_rfl hne hflush
  · rename_i hnil
    obtain ⟨same, hsame, hsplit⟩ := Checks.bind_eq_ok.mp hrest
    obtain rfl := Except.ok.inj hsame
    obtain rfl := Except.ok.inj hsplit
    have hwindows := hdone.windows
    rwa [not_not.mp hnil, List.length_nil, Nat.sub_zero] at hwindows

/-- The last element of a window that stops later than all before is in none of them. -/
theorem allFresh_of_increasing {windows : List Window}
    (hinside : ∀ window ∈ windows, window.start < window.stop)
    (hincreasing : windows.Pairwise fun a b => a.stop < b.stop) : AllFresh windows := by
  rintro before window after rfl
  have hsome := hinside window (List.mem_append_right _ List.mem_cons_self)
  refine ⟨window.stop - 1, by omega, by omega, fun earlier hearlier hin => ?_⟩
  have hlater := (List.pairwise_append.mp hincreasing).2.2 earlier hearlier window List.mem_cons_self
  omega

end

/-! ## The slices of the token list -/

section

variable {Token : Type} {tokenLimit : Nat} {overlapTokens : Int} {count step : Nat}

theorem cappedOverlap_lt (hlimit : 0 < tokenLimit) : cappedOverlap tokenLimit overlapTokens < tokenLimit := by
  unfold cappedOverlap
  split
  · exact hlimit
  · omega

/-- What a window does not share with the one before. -/
theorem tokenStep_eq (hlimit : 0 < tokenLimit) :
    tokenStep tokenLimit overlapTokens = tokenLimit - cappedOverlap tokenLimit overlapTokens := by
  have hlt : cappedOverlap tokenLimit overlapTokens < tokenLimit := cappedOverlap_lt hlimit
  simp only [tokenStep, if_pos hlt]
  rw [if_neg (Nat.sub_ne_zero_of_lt hlt)]

theorem tokenStep_pos (hlimit : 0 < tokenLimit) : 0 < tokenStep tokenLimit overlapTokens := by
  rw [tokenStep_eq hlimit]
  exact Nat.sub_pos_of_lt (cappedOverlap_lt hlimit)

theorem tokenStep_le (hlimit : 0 < tokenLimit) : tokenStep tokenLimit overlapTokens ≤ tokenLimit := by
  rw [tokenStep_eq hlimit]
  exact Nat.sub_le _ _

theorem appendTokens_run {encoder : Encoder Token} {tokens : List Token} {windows : List Window}
    {chunks chunks' : List Text}
    (h : windows.foldlM (appendTokens encoder tokens) chunks = .ok chunks') :
    chunks' = chunks ++ (windows.map (tokenText encoder tokens)).filter (· ≠ []) := by
  induction windows generalizing chunks with
  | nil =>
    obtain rfl := Except.ok.inj h
    rw [List.map_nil, List.filter_nil, List.append_nil]
  | cons window later ih =>
    rw [List.foldlM_cons] at h
    obtain ⟨next, hnext, hlater⟩ := Checks.bind_eq_ok.mp h
    rw [ih hlater, List.map_cons]
    unfold appendTokens at hnext
    dsimp only at hnext
    split at hnext
    · rename_i hsome
      have hkept : decide (tokenText encoder tokens window ≠ []) = true := decide_eq_true hsome
      rw [appendBounded_eq hnext, List.filter_cons, if_pos hkept, List.append_assoc]
      rfl
    · rename_i hblank
      have hleft : ¬ decide (tokenText encoder tokens window ≠ []) = true := fun h =>
        hblank (of_decide_eq_true h)
      rw [← Except.ok.inj hnext, List.filter_cons, if_neg hleft]

/-- The windows at `range(0, count, step)`. -/
def strideWindows (tokenLimit count step : Nat) : List Window :=
  (List.range ((count + step - 1) / step)).map fun i => tokenWindow tokenLimit count (i * step)

theorem lt_strides_iff (hstep : 0 < step) {i : Nat} :
    i < (count + step - 1) / step ↔ i * step < count := by
  rw [Nat.lt_iff_add_one_le, Nat.le_div_iff_mul_le hstep, Nat.succ_mul]
  omega

theorem strideWindows_fixed {tokens : List Token} (hlimit : 0 < tokenLimit) (hstep : 0 < step)
    (hle : step ≤ tokenLimit) (hcount : tokens.length = count) :
    FixedWindows count tokenLimit (fun window => (window.of tokens).length)
      (strideWindows tokenLimit count step) where
  inside := by
    intro window hwindow
    obtain ⟨i, hi, rfl⟩ := List.mem_map.mp hwindow
    have hlt := (lt_strides_iff hstep).mp (List.mem_range.mp hi)
    refine ⟨?_, Nat.min_le_right ..⟩
    show i * step < min (i * step + tokenLimit) count
    omega
  covers := by
    intro i hi
    have hdiv := Nat.div_mul_le_self i step
    have hmod := Nat.lt_div_mul_add hstep (a := i)
    refine ⟨_, List.mem_map_of_mem (List.mem_range.mpr
      ((lt_strides_iff hstep).mpr (hdiv.trans_lt hi))), hdiv, ?_⟩
    show i < min (i / step * step + tokenLimit) count
    omega
  bounded := by
    intro window hwindow
    obtain ⟨i, -, rfl⟩ := List.mem_map.mp hwindow
    refine .inl ?_
    show ((tokens.take (min (i * step + tokenLimit) count)).drop (i * step)).length ≤ tokenLimit
    rw [List.length_drop, List.length_take]
    omega

/-- The windows before one of a list of windows by number. -/
theorem map_range_split {n : Nat} {f : Nat → Window} {before after : List Window} {window : Window}
    (h : (List.range n).map f = before ++ window :: after) :
    before.length < n ∧ before = (List.range before.length).map f ∧ window = f before.length := by
  have hlength := congrArg List.length h
  rw [List.length_map, List.length_range, List.length_append, List.length_cons] at hlength
  have hlt : before.length < n := by omega
  refine ⟨hlt, ?_, ?_⟩
  · have htake := congrArg (List.take before.length) h
    rw [List.take_left, ← List.map_take, List.take_range, Nat.min_eq_left hlt.le] at htake
    exact htake.symm
  · have hget := congrArg (·[before.length]?) h
    rw [List.getElem?_append_right le_rfl, Nat.sub_self, List.getElem?_cons_zero,
      List.getElem?_map, List.getElem?_range hlt] at hget
    exact (Option.some.inj hget).symm

/-- What the window before it stops short of is new. -/
theorem freshAfter_stride {k : Nat} (hlimit : 0 < tokenLimit) (hstep : 0 < step)
    (hle : step ≤ tokenLimit) (hk : k * step < count)
    (hnew : k ≠ 0 → (k - 1) * step + tokenLimit < count) :
    FreshAfter ((List.range k).map fun i => tokenWindow tokenLimit count (i * step))
      (tokenWindow tokenLimit count (k * step)) := by
  cases k with
  | zero =>
    refine ⟨0, Nat.le_of_eq (Nat.zero_mul step), ?_, nofun⟩
    show 0 < min (0 * step + tokenLimit) count
    omega
  | succ k =>
    have hnew := hnew (Nat.succ_ne_zero k)
    rw [Nat.add_sub_cancel] at hnew
    have hnext : (k + 1) * step = k * step + step := Nat.succ_mul k step
    refine ⟨k * step + tokenLimit, ?_, ?_, ?_⟩
    · show (k + 1) * step ≤ k * step + tokenLimit
      omega
    · show k * step + tokenLimit < min ((k + 1) * step + tokenLimit) count
      omega
    · intro earlier hearlier hin
      obtain ⟨j, hj, rfl⟩ := List.mem_map.mp hearlier
      have hmul := Nat.mul_le_mul_right step (Nat.le_of_lt_succ (List.mem_range.mp hj))
      have hstop : k * step + tokenLimit < min (j * step + tokenLimit) count := hin.2
      omega

variable (count) in
theorem strideWindows_freshUpToEnd (hlimit : 0 < tokenLimit) (hstep : 0 < step)
    (hle : step ≤ tokenLimit) : FreshUpToEnd count (strideWindows tokenLimit count step) := by
  intro before window after hwindows hearlier
  obtain ⟨hlt, hbefore, hwindow⟩ := map_range_split hwindows
  rw [hbefore, hwindow]
  refine freshAfter_stride hlimit hstep hle ((lt_strides_iff hstep).mp hlt) fun hne => ?_
  have hlast : before.length - 1 ∈ List.range before.length := List.mem_range.mpr (by omega)
  rw [hbefore] at hearlier
  have hstop := hearlier _ (List.mem_map_of_mem hlast)
  have hstop : min ((before.length - 1) * step + tokenLimit) count < count := hstop
  omega

/-- The windows of the tokens, and the texts of those that are not blank. -/
theorem splitTokens_spec {encoder : Encoder Token} {text : Text} {split : FixedSplit}
    (hlimit : 0 < tokenLimit) (h : splitTokens tokenLimit overlapTokens encoder text = .ok split) :
    split.chunks = (split.windows.map (tokenText encoder (encoder.encode text))).filter (· ≠ []) ∧
      split.windows = strideWindows tokenLimit (encoder.encode text).length
        (tokenStep tokenLimit overlapTokens) := by
  unfold splitTokens at h
  obtain ⟨-, -, h⟩ := Checks.bind_eq_ok.mp h
  dsimp only at h
  split at h
  · rename_i hnone
    obtain rfl := Except.ok.inj h
    refine ⟨rfl, ?_⟩
    have hpos : 0 < tokenStep tokenLimit overlapTokens := tokenStep_pos hlimit
    rw [hnone, List.length_nil, strideWindows, Nat.zero_add,
      Nat.div_eq_of_lt (Nat.sub_lt hpos Nat.one_pos), List.range_zero, List.map_nil]
  · split at h
    · cases h
    · obtain ⟨chunks, hrun, hsplit⟩ := Checks.bind_eq_ok.mp h
      obtain rfl := Except.ok.inj hsplit
      refine ⟨?_, rfl⟩
      have hchunks := appendTokens_run hrun
      rwa [List.nil_append] at hchunks

end

/-! ## Both paths -/

section

variable {Token : Type} {tokenLimit : Nat} {overlapTokens : Int}

/-- The chunks are the texts of windows that cover all tokens or words, and up to the end of
    the text each goes on with something new. -/
theorem splitByTokensFixed_law (encoder : Option (Encoder Token)) (countTokens : Text → Nat)
    (text : Text) (split : FixedSplit) (hlimit : 0 < tokenLimit)
    (h : splitByTokensFixed tokenLimit overlapTokens encoder countTokens text = .ok split) :
    FixedLaw encoder countTokens text tokenLimit split := by
  unfold splitByTokensFixed at h
  split at h
  · rename_i hempty
    obtain rfl := hempty.resolve_right (Nat.ne_of_gt hlimit)
    obtain rfl := Except.ok.inj h
    have hfresh : AllFresh [] := allFresh_of_increasing nofun List.Pairwise.nil
    cases encoder with
    | none => exact ⟨rfl, ⟨nofun, nofun, nofun⟩, hfresh⟩
    | some encoder =>
      have hnone : ∀ i, ¬ i < (encoder.encode []).length := by
        rw [encoder.encode_nil]
        exact fun i => Nat.not_lt_zero i
      exact ⟨rfl, ⟨nofun, fun i hi => absurd hi (hnone i), nofun⟩,
        fun before window after hwindows _ => hfresh before window after hwindows⟩
  · obtain ⟨-, -, h⟩ := Checks.bind_eq_ok.mp h
    cases encoder with
    | none =>
      have hdone := splitWords_done h
      exact ⟨hdone.chunks, ⟨hdone.inside, hdone.covers, hdone.bounded⟩,
        allFresh_of_increasing (fun window hwindow => (hdone.inside window hwindow).1)
          hdone.increasing⟩
    | some encoder =>
      obtain ⟨hchunks, hwindows⟩ := splitTokens_spec hlimit h
      have hpos : 0 < tokenStep tokenLimit overlapTokens := tokenStep_pos hlimit
      have hle : tokenStep tokenLimit overlapTokens ≤ tokenLimit := tokenStep_le hlimit
      have hfixed := strideWindows_fixed hlimit hpos hle (rfl : (encoder.encode text).length = _)
      have hfresh := strideWindows_freshUpToEnd (encoder.encode text).length hlimit hpos hle
      rw [← hwindows] at hfixed hfresh
      exact ⟨hchunks, hfixed, hfresh⟩

/-- Words of two tokens, of which one is carried over. -/
theorem splitByTokensFixed_law_of_words :
    splitByTokensFixed 5 2 (none : Option (Encoder Char)) List.length "a b c d".toList =
        .ok ⟨["a b".toList, "b c".toList, "c d".toList], [⟨0, 2⟩, ⟨1, 3⟩, ⟨2, 4⟩]⟩ ∧
      FixedLaw (none : Option (Encoder Char)) List.length "a b c d".toList 5
        ⟨["a b".toList, "b c".toList, "c d".toList], [⟨0, 2⟩, ⟨1, 3⟩, ⟨2, 4⟩]⟩ := by
  have hsplit : splitByTokensFixed 5 2 (none : Option (Encoder Char)) List.length "a b c d".toList =
      .ok ⟨["a b".toList, "b c".toList, "c d".toList], [⟨0, 2⟩, ⟨1, 3⟩, ⟨2, 4⟩]⟩ := rfl
  exact ⟨hsplit, splitByTokensFixed_law none List.length _ _ (by decide) hsplit⟩

/-- The windows that chunks are made of. -/
def chunkWindows (encoder : Encoder Token) (text : Text) (split : FixedSplit) : List Window :=
  split.windows.filter fun window => tokenText encoder (encoder.encode text) window ≠ []

/-- The windows of the chunks leave out no token, and each has a token of its own. -/
def ChunksCover (encoder : Encoder Token) (text : Text) (tokenLimit : Nat) (split : FixedSplit) :
    Prop :=
  FixedWindows (encoder.encode text).length tokenLimit
      (fun window => (window.of (encoder.encode text)).length) (chunkWindows encoder text split) ∧
    AllFresh (chunkWindows encoder text split)

/-- One token for each character. -/
def charEncoder : Encoder Char := ⟨id, id, rfl⟩

/-- Blank windows are no chunks, and the last chunk may be the end of the one before. -/
theorem not_chunksCover :
    (∃ split, splitByTokensFixed 5 0 (some charEncoder) (fun _ => 1) [' '] = .ok split ∧
      ¬ ChunksCover charEncoder [' '] 5 split) ∧
    ∃ split, splitByTokensFixed 5 3 (some charEncoder) (fun _ => 1) "abcdefghij".toList = .ok split ∧
      ¬ ChunksCover charEncoder "abcdefghij".toList 5 split := by
  refine ⟨⟨⟨[], [⟨0, 1⟩]⟩, rfl, ?_⟩, ⟨_, rfl, ?_⟩⟩
  · rintro ⟨hfixed, -⟩
    obtain ⟨window, hwindow, -⟩ := hfixed.covers 0 Nat.one_pos
    cases hwindow
  · rintro ⟨-, hfresh⟩
    obtain ⟨i, hstart, hstop, hnew⟩ := hfresh [⟨0, 5⟩, ⟨2, 7⟩, ⟨4, 9⟩, ⟨6, 10⟩] ⟨8, 10⟩ [] rfl
    have hstart : 8 ≤ i := hstart
    have hstop : i < 10 := hstop
    have hinside : 6 ≤ i := by omega
    exact hnew ⟨6, 10⟩ (by decide) ⟨hinside, hstop⟩

end

end AiPlatform.Knowledge
