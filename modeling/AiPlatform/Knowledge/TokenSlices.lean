/-
  AiPlatform.Knowledge.TokenSlices

  Texts cut at tokens (`_split_by_tokens_fixed`, `_split_text_strict_by_tokens` and
  `enforce_token_limits` of `chunking.py`), with an encoder whose tokens are stretches of
  the UTF-8 bytes of the text: a chunk is a part of the text exactly where no character is
  cut, up to texts that hold U+FFFD themselves.
-/

import AiPlatform.Knowledge.Chunk
import AiPlatform.Knowledge.TokenSplit
import AiPlatform.Knowledge.TokenWindows
import AiPlatform.Lib.Utf8

namespace AiPlatform.Knowledge

/-! ## Encoders -/

/-- An encoder whose tokens partition the UTF-8 bytes of the text, in any way. -/
structure ByteEncoder (Token : Type) where
  encode : Text → List Token
  bytesOf : Token → List Nat
  bytes_ne_nil : ∀ token, bytesOf token ≠ []
  partition : ∀ text, (encode text).flatMap bytesOf = Utf8.encode text

namespace ByteEncoder

variable {Token : Type} (encoder : ByteEncoder Token)

theorem encode_nil : encoder.encode [] = [] := by
  have hpartition := encoder.partition []
  by_contra hsome
  obtain ⟨token, later, heq⟩ := List.exists_cons_of_ne_nil hsome
  rw [heq, List.flatMap_cons] at hpartition
  exact encoder.bytes_ne_nil token (List.append_eq_nil_iff.mp hpartition).1

/-- Its decoding puts U+FFFD for what is not valid. -/
def toEncoder : Encoder Token where
  encode := encoder.encode
  decode tokens := Utf8.decode (tokens.flatMap encoder.bytesOf)
  encode_nil := encoder.encode_nil

end ByteEncoder

/-! ## Strict limits -/

section

variable {Token : Type}

/-- `_split_text_strict_by_tokens` -/
def splitTextStrictByTokens (encoder : Option (Encoder Token)) (countTokens : Text → Nat) (text : Text)
    (maxTokens : Int) : Except String (List Text) :=
  if text = [] ∨ maxTokens ≤ 0 then .ok []
  else
    let limit := maxTokens.toNat
    match encoder with
    | some encoder =>
      let tokens := encoder.encode text
      if tokens = [] then .ok []
      else if maxChunkOutputs < (tokens.length + limit - 1) / limit then .error outputLimitMessage
      else
        let windows := (List.range ((tokens.length + limit - 1) / limit)).map fun i =>
          tokenWindow limit tokens.length (i * limit)
        windows.foldlM (appendTokens encoder tokens) []
    | none => splitByTokens countTokens limit text 0

/-- The values that are put into the metadata of a chunk. -/
inductive MetadataValue (Other : Type) where
  | text (value : Text)
  | number (value : Nat)
  | flag (value : Bool)
  | other (value : Other)

variable {Other Image : Type}

/-- `chunk.metadata["_too_small"] = True` of a chunk with too few tokens. -/
def markTooSmall (minTokens : Option Int) (chunk : Chunk (MetadataValue Other) Image) :
    Chunk (MetadataValue Other) Image :=
  match minTokens with
  | some minTokens =>
    if (chunk.tokenCount : Int) < minTokens then
      { chunk with metadata := Assoc.set "_too_small".toList (.flag true) chunk.metadata }
    else chunk
  | none => chunk

@[simp] theorem markTooSmall_text (minTokens : Option Int) (chunk : Chunk (MetadataValue Other) Image) :
    (markTooSmall minTokens chunk).text = chunk.text := by
  unfold markTooSmall
  split
  · split <;> rfl
  · rfl

variable (encoder : Option (Encoder Token)) (countTokens : Text → Nat) (digest : Text → Text)
  (maxTokens : Int) (minTokens : Option Int)

/-- What `enforce_token_limits` makes of one chunk. -/
def enforceChunk (chunk : Chunk (MetadataValue Other) Image) :
    Except String (List (Chunk (MetadataValue Other) Image)) :=
  if chunk.contentType ≠ .text then .ok [chunk]
  else if (chunk.tokenCount : Int) ≤ maxTokens then .ok [markTooSmall minTokens chunk]
  else do
    let subTexts ← splitTextStrictByTokens encoder countTokens chunk.text maxTokens
    if subTexts = [] then .ok [chunk]
    else
      .ok <| subTexts.zipIdx.map fun (sub, idx) =>
        Chunk.postInit countTokens digest
          { text := sub
            metadata := Assoc.set "_split_index".toList (.number idx)
              (Assoc.set "_split_from".toList (.text chunk.hashId) chunk.metadata)
            parentId := chunk.parentId
            contentType := chunk.contentType
            associatedImages := chunk.associatedImages
            imageUrl := chunk.imageUrl
            imageFilename := chunk.imageFilename
            imageMediaType := chunk.imageMediaType
            vlmDescription := chunk.vlmDescription }

/-- A chunk that is made of another. -/
structure Piece (Other Image : Type) where
  source : Chunk (MetadataValue Other) Image
  made : Chunk (MetadataValue Other) Image

def enforceStep (normalized : List (Piece Other Image)) (chunk : Chunk (MetadataValue Other) Image) :
    Except String (List (Piece Other Image)) := do
  let made ← enforceChunk encoder countTokens digest maxTokens minTokens chunk
  (made.map (Piece.mk chunk)).foldlM appendBounded normalized

/-- The loop of `enforce_token_limits`, with what each chunk is made of. -/
def enforcePieces (chunks : List (Chunk (MetadataValue Other) Image)) :
    Except String (List (Piece Other Image)) :=
  if chunks.isEmpty ∨ maxTokens = 0 then .ok (chunks.map fun chunk => ⟨chunk, chunk⟩)
  else do
    let normalized ← chunks.foldlM (enforceStep encoder countTokens digest maxTokens minTokens) []
    .ok (normalized.zipIdx.map fun (piece, i) => { piece with made := { piece.made with index := i } })

/-- `enforce_token_limits` -/
def enforceTokenLimits (chunks : List (Chunk (MetadataValue Other) Image)) :
    Except String (List (Chunk (MetadataValue Other) Image)) := do
  let pieces ← enforcePieces encoder countTokens digest maxTokens minTokens chunks
  .ok (pieces.map (·.made))

end

/-! ## Windows that cut no character -/

section

variable {Token : Type} (encoder : ByteEncoder Token)

/-- The number of bytes before the token at a position. -/
def bytesBefore (text : Text) (position : Nat) : Nat :=
  (((encoder.encode text).take position).flatMap encoder.bytesOf).length

/-- The characters in a window of tokens. -/
def windowSlice (text : Text) (window : Window) : Utf8.Slice :=
  Utf8.slice text (bytesBefore encoder text window.start)
    (bytesBefore encoder text window.stop - bytesBefore encoder text window.start)

/-- The window cuts no character, or what stands for those it cuts is in the text as well. -/
def WindowKept (text : Text) (window : Window) : Prop :=
  (windowSlice encoder text window).Aligned ∨
    Utf8.replacement ∈ text ∧ strippedText (windowSlice encoder text window).text <:+: text

/-- The windows of a split all keep the text. -/
def SlicesKept (text : Text) (tokenLimit step : Nat) : Prop :=
  ∀ window ∈ strideWindows tokenLimit (encoder.encode text).length step, WindowKept encoder text window

end

section

variable {Token : Type} {encoder : ByteEncoder Token} {text : Text} {window : Window}

theorem strippedText_isInfix (text : Text) : strippedText text <:+: text := by
  obtain ⟨first, last, -, -, heq⟩ := exists_gaps text
  exact ⟨first, last, by rw [List.append_assoc, ← heq]⟩

/-- What is no blank is not stripped. -/
theorem mem_strippedText {c : Char} (h : c ∈ text) (hc : Gateway.isSpace c = false) :
    c ∈ strippedText text := by
  obtain ⟨first, last, hfirst, hlast, heq⟩ := exists_gaps text
  rw [heq] at h
  rcases List.mem_append.mp h with hmem | hmem
  · have hblank := hfirst c hmem
    rw [hc] at hblank
    cases hblank
  · rcases List.mem_append.mp hmem with hmem | hmem
    · exact hmem
    · have hblank := hlast c hmem
      rw [hc] at hblank
      cases hblank

theorem flatMap_window (hle : window.start ≤ window.stop) :
    (window.of (encoder.encode text)).flatMap encoder.bytesOf =
      ((Utf8.encode text).drop (bytesBefore encoder text window.start)).take
        (bytesBefore encoder text window.stop - bytesBefore encoder text window.start) := by
  have hfront : (encoder.encode text).take window.stop =
      (encoder.encode text).take window.start ++ window.of (encoder.encode text) := by
    have hsplit := List.take_append_drop window.start ((encoder.encode text).take window.stop)
    rw [List.take_take, Nat.min_eq_left hle] at hsplit
    exact hsplit.symm
  have hstop : bytesBefore encoder text window.stop = bytesBefore encoder text window.start +
      ((window.of (encoder.encode text)).flatMap encoder.bytesOf).length := by
    rw [bytesBefore, hfront, List.flatMap_append, List.length_append, ← bytesBefore]
  have hbytes : Utf8.encode text =
      ((encoder.encode text).take window.start).flatMap encoder.bytesOf ++
        ((window.of (encoder.encode text)).flatMap encoder.bytesOf ++
          ((encoder.encode text).drop window.stop).flatMap encoder.bytesOf) := by
    have hall := List.take_append_drop window.stop (encoder.encode text)
    rw [← encoder.partition, ← List.append_assoc, ← List.flatMap_append, ← hfront, ← List.flatMap_append,
      hall]
  rw [hstop, Nat.add_sub_cancel_left, hbytes, bytesBefore, List.drop_left, List.take_left]

/-- The chunk of a window is its characters, with U+FFFD for what is cut. -/
theorem tokenText_eq (hle : window.start ≤ window.stop) :
    tokenText encoder.toEncoder (encoder.encode text) window =
      strippedText (windowSlice encoder text window).text := by
  show strippedText (Utf8.decode ((window.of (encoder.encode text)).flatMap encoder.bytesOf)) = _
  rw [flatMap_window hle, Utf8.decode_slice]
  rfl

theorem tokenText_infix_iff (hle : window.start ≤ window.stop) :
    tokenText encoder.toEncoder (encoder.encode text) window <:+: text ↔ WindowKept encoder text window := by
  rw [tokenText_eq hle]
  constructor
  · intro hpart
    by_cases haligned : (windowSlice encoder text window).Aligned
    · exact .inl haligned
    · have hmem := mem_strippedText (Utf8.Slice.replacement_mem haligned) (by decide)
      exact .inr ⟨hpart.subset hmem, hpart⟩
  · rintro (haligned | ⟨-, hpart⟩)
    · rw [Utf8.Slice.text_of_aligned haligned]
      exact (strippedText_isInfix _).trans (Utf8.whole_isInfix text _ _)
    · exact hpart

/-- The chunks of windows are parts of the text exactly when the windows keep it. -/
theorem chunks_infix_iff {tokenLimit step : Nat} {chunks : List Text} (hlimit : 0 < tokenLimit)
    (hstep : 0 < step) (hle : step ≤ tokenLimit)
    (h : chunks = ((strideWindows tokenLimit (encoder.encode text).length step).map
      (tokenText encoder.toEncoder (encoder.encode text))).filter (· ≠ [])) :
    (∀ chunk ∈ chunks, chunk <:+: text) ↔ SlicesKept encoder text tokenLimit step := by
  have hfixed : FixedWindows (encoder.encode text).length tokenLimit
      (fun window => (window.of (encoder.encode text)).length)
      (strideWindows tokenLimit (encoder.encode text).length step) :=
    strideWindows_fixed hlimit hstep hle rfl
  have hstart : ∀ window ∈ strideWindows tokenLimit (encoder.encode text).length step,
      window.start ≤ window.stop := fun window hwindow => (hfixed.inside window hwindow).1.le
  constructor
  · intro hchunks window hwindow
    refine (tokenText_infix_iff (hstart window hwindow)).mp ?_
    by_cases hblank : tokenText encoder.toEncoder (encoder.encode text) window = []
    · rw [hblank]
      exact List.nil_infix
    · apply hchunks
      rw [h]
      exact List.mem_filter.mpr ⟨List.mem_map_of_mem hwindow, decide_eq_true hblank⟩
  · intro hkept chunk hchunk
    rw [h] at hchunk
    obtain ⟨window, hwindow, rfl⟩ := List.mem_map.mp (List.mem_filter.mp hchunk).1
    exact (tokenText_infix_iff (hstart window hwindow)).mpr (hkept window hwindow)

/-- A text without tokens, or a step of zero, has no windows. -/
theorem slicesKept_of_no_windows {tokenLimit step : Nat} (h : encoder.encode text = [] ∨ step = 0) :
    SlicesKept encoder text tokenLimit step := by
  have hwindows : strideWindows tokenLimit (encoder.encode text).length step = [] := by
    have hcount : ((encoder.encode text).length + step - 1) / step = 0 := by
      rcases h with hnone | rfl
      · rw [hnone, List.length_nil, Nat.zero_add]
        by_cases hstep : step = 0
        · rw [hstep, Nat.div_zero]
        · exact Nat.div_eq_of_lt (by omega)
      · exact Nat.div_zero _
    rw [strideWindows, hcount]
    rfl
  intro window hwindow
  rw [hwindows] at hwindow
  cases hwindow

/-! ## The three functions -/

theorem splitByTokensFixed_infix_iff {countTokens : Text → Nat} {tokenLimit : Nat} {overlapTokens : Int}
    {split : FixedSplit}
    (h : splitByTokensFixed tokenLimit overlapTokens (some encoder.toEncoder) countTokens text = .ok split) :
    (∀ chunk ∈ split.chunks, chunk <:+: text) ↔
      SlicesKept encoder text tokenLimit (tokenStep tokenLimit overlapTokens) := by
  unfold splitByTokensFixed at h
  split at h
  · rename_i hguard
    obtain rfl := Except.ok.inj h
    refine iff_of_true nofun (slicesKept_of_no_windows ?_)
    refine hguard.imp (fun hnil => ?_) fun hzero => ?_
    · rw [hnil]
      exact encoder.encode_nil
    · rw [hzero]
      rfl
  · rename_i hguard
    have hlimit : 0 < tokenLimit := by
      have hzero := (not_or.mp hguard).2
      omega
    obtain ⟨-, -, h⟩ := Checks.bind_eq_ok.mp h
    obtain ⟨hchunks, hwindows⟩ := splitTokens_spec hlimit h
    rw [hwindows] at hchunks
    exact chunks_infix_iff hlimit (tokenStep_pos hlimit) (tokenStep_le hlimit) hchunks

theorem splitTextStrictByTokens_infix_iff {countTokens : Text → Nat} {maxTokens : Int} {chunks : List Text}
    (h : splitTextStrictByTokens (some encoder.toEncoder) countTokens text maxTokens = .ok chunks) :
    (∀ chunk ∈ chunks, chunk <:+: text) ↔
      SlicesKept encoder text maxTokens.toNat maxTokens.toNat := by
  unfold splitTextStrictByTokens at h
  split at h
  · rename_i hguard
    obtain rfl := Except.ok.inj h
    refine iff_of_true nofun (slicesKept_of_no_windows ?_)
    refine hguard.imp (fun hnil => ?_) fun hle => by omega
    rw [hnil]
    exact encoder.encode_nil
  · rename_i hguard
    have hlimit : 0 < maxTokens.toNat := by
      have hpos := (not_or.mp hguard).2
      omega
    dsimp only at h
    split at h
    · rename_i hnone
      obtain rfl := Except.ok.inj h
      exact iff_of_true nofun (slicesKept_of_no_windows (.inl hnone))
    · split at h
      · cases h
      · have hchunks := appendTokens_run h
        rw [List.nil_append] at hchunks
        exact chunks_infix_iff hlimit hlimit le_rfl hchunks

/-! ## `enforce_token_limits` -/

variable {Other Image : Type} {countTokens : Text → Nat} {digest : Text → Text} {maxTokens : Int}
  {minTokens : Option Int} {chunk : Chunk (MetadataValue Other) Image}
  {chunks made : List (Chunk (MetadataValue Other) Image)} {pieces normalized : List (Piece Other Image)}

/-- Where a chunk is cut, the windows keep its text. -/
def ChunkKept (encoder : ByteEncoder Token) (maxTokens : Int) (chunk : Chunk (MetadataValue Other) Image) :
    Prop :=
  chunk.contentType = .text → maxTokens < chunk.tokenCount →
    SlicesKept encoder chunk.text maxTokens.toNat maxTokens.toNat

theorem enforceChunk_infix_iff
    (h : enforceChunk (some encoder.toEncoder) countTokens digest maxTokens minTokens chunk = .ok made) :
    (∀ piece ∈ made, piece.text <:+: chunk.text) ↔ ChunkKept encoder maxTokens chunk := by
  have hself : ∀ piece : Chunk (MetadataValue Other) Image, piece.text = chunk.text →
      ∀ other ∈ [piece], other.text <:+: chunk.text := by
    intro piece htext other hother
    obtain rfl := List.mem_singleton.mp hother
    exact htext ▸ List.infix_rfl
  unfold enforceChunk at h
  split at h
  · rename_i htype
    obtain rfl := Except.ok.inj h
    exact iff_of_true (hself chunk rfl) fun htext => absurd htext htype
  · rename_i htype
    split at h
    · rename_i hle
      obtain rfl := Except.ok.inj h
      have hkept : ChunkKept encoder maxTokens chunk := fun _ hlt => absurd hle (by omega)
      exact iff_of_true (hself _ (markTooSmall_text minTokens chunk)) hkept
    · rename_i hlt
      obtain ⟨subTexts, hsplit, h⟩ := Checks.bind_eq_ok.mp h
      have hkept : ChunkKept encoder maxTokens chunk ↔
          SlicesKept encoder chunk.text maxTokens.toNat maxTokens.toNat :=
        ⟨fun hall => hall (not_not.mp htype) (by omega), fun hall _ _ => hall⟩
      rw [hkept, ← splitTextStrictByTokens_infix_iff hsplit]
      split at h
      · rename_i hnone
        obtain rfl := Except.ok.inj h
        rw [hnone]
        exact iff_of_true (hself chunk rfl) nofun
      · have htexts : made.map (·.text) = subTexts := by
          rw [← Except.ok.inj h, List.map_map]
          exact List.zipIdx_map_fst 0 subTexts
        rw [← htexts, List.forall_mem_map]

/-- Where every chunk is added, the limit on their number was not reached. -/
theorem foldlM_appendBounded_eq {α : Type} {output output' items : List α}
    (h : items.foldlM appendBounded output = .ok output') : output' = output ++ items := by
  induction items generalizing output with
  | nil =>
    obtain rfl := Except.ok.inj h
    exact (List.append_nil output).symm
  | cons item later ih =>
    rw [List.foldlM_cons] at h
    obtain ⟨next, hnext, hlater⟩ := Checks.bind_eq_ok.mp h
    rw [ih hlater, appendBounded_eq hnext, List.append_assoc]
    rfl

/-- The pieces that the loop adds are parts of their sources exactly when each chunk that is
    cut is kept. -/
theorem foldlM_enforceStep_spec
    (h : chunks.foldlM (enforceStep (some encoder.toEncoder) countTokens digest maxTokens minTokens)
      normalized = .ok pieces) :
    ∃ added, pieces = normalized ++ added ∧
      ((∀ piece ∈ added, piece.made.text <:+: piece.source.text) ↔
        ∀ chunk ∈ chunks, ChunkKept encoder maxTokens chunk) := by
  induction chunks generalizing normalized with
  | nil =>
    obtain rfl := Except.ok.inj h
    exact ⟨[], (List.append_nil normalized).symm, iff_of_true nofun nofun⟩
  | cons chunk later ih =>
    rw [List.foldlM_cons] at h
    obtain ⟨next, hnext, hlater⟩ := Checks.bind_eq_ok.mp h
    obtain ⟨made, hmade, hadded⟩ := Checks.bind_eq_ok.mp hnext
    obtain ⟨added, rfl, hspec⟩ := ih hlater
    refine ⟨made.map (Piece.mk chunk) ++ added, ?_, ?_⟩
    · rw [foldlM_appendBounded_eq hadded, List.append_assoc]
    · rw [List.forall_mem_append, List.forall_mem_cons, hspec, List.forall_mem_map,
        ← enforceChunk_infix_iff hmade]

theorem enforcePieces_infix_iff
    (h : enforcePieces (some encoder.toEncoder) countTokens digest maxTokens minTokens chunks =
      .ok pieces) :
    (∀ piece ∈ pieces, piece.made.text <:+: piece.source.text) ↔
      ∀ chunk ∈ chunks, ChunkKept encoder maxTokens chunk := by
  unfold enforcePieces at h
  split at h
  · rename_i hguard
    obtain rfl := Except.ok.inj h
    refine iff_of_true ?_ ?_
    · rw [List.forall_mem_map]
      exact fun chunk _ => List.infix_rfl
    · intro chunk hchunk _ _
      rcases hguard with hempty | hzero
      · rw [List.isEmpty_iff.mp hempty] at hchunk
        cases hchunk
      · rw [hzero]
        exact slicesKept_of_no_windows (.inr rfl)
  · obtain ⟨normalized, hrun, h⟩ := Checks.bind_eq_ok.mp h
    obtain rfl := Except.ok.inj h
    obtain ⟨added, rfl, hspec⟩ := foldlM_enforceStep_spec hrun
    rw [← hspec, List.forall_mem_map]
    constructor
    · intro hall piece hpiece
      have hmem : piece ∈ normalized.zipIdx.map Prod.fst := by
        rw [List.zipIdx_map_fst]
        exact hpiece
      obtain ⟨entry, hentry, rfl⟩ := List.mem_map.mp hmem
      exact hall entry hentry
    · intro hall entry hentry
      have hmem : entry.1 ∈ normalized.zipIdx.map Prod.fst := List.mem_map_of_mem hentry
      rw [List.zipIdx_map_fst] at hmem
      exact hall entry.1 hmem

/-! ## The law -/

/-- With an encoder whose tokens are stretches of the bytes, every chunk of the three functions
    is a part of its text exactly when the windows keep the text. -/
theorem token_slices_kept_iff {Token Other Image : Type} (encoder : ByteEncoder Token)
    (countTokens : Text → Nat) (digest : Text → Text) :
    (∀ (text : Text) (tokenLimit : Nat) (overlapTokens : Int) (split : FixedSplit),
      splitByTokensFixed tokenLimit overlapTokens (some encoder.toEncoder) countTokens text = .ok split →
        ((∀ chunk ∈ split.chunks, chunk <:+: text) ↔
          SlicesKept encoder text tokenLimit (tokenStep tokenLimit overlapTokens))) ∧
    (∀ (text : Text) (maxTokens : Int) (chunks : List Text),
      splitTextStrictByTokens (some encoder.toEncoder) countTokens text maxTokens = .ok chunks →
        ((∀ chunk ∈ chunks, chunk <:+: text) ↔
          SlicesKept encoder text maxTokens.toNat maxTokens.toNat)) ∧
    ∀ (maxTokens : Int) (minTokens : Option Int) (chunks : List (Chunk (MetadataValue Other) Image))
      (pieces : List (Piece Other Image)),
      enforcePieces (some encoder.toEncoder) countTokens digest maxTokens minTokens chunks = .ok pieces →
        ((∀ piece ∈ pieces, piece.made.text <:+: piece.source.text) ↔
          ∀ chunk ∈ chunks, ChunkKept encoder maxTokens chunk) :=
  ⟨fun _ _ _ _ => splitByTokensFixed_infix_iff, fun _ _ _ => splitTextStrictByTokens_infix_iff,
    fun _ _ _ _ => enforcePieces_infix_iff⟩

/-- Each byte is a token. -/
def eachByte : ByteEncoder Nat where
  encode := Utf8.encode
  bytesOf b := [b]
  bytes_ne_nil _ := List.cons_ne_nil _ _
  partition _ := List.flatMap_singleton' _

theorem token_slices_kept_ascii :
    SlicesKept eachByte "abc".toList 2 2 ∧
      ∀ chunk ∈ ["ab".toList, "c".toList], chunk <:+: "abc".toList := by
  have hrun : splitTextStrictByTokens (some eachByte.toEncoder) List.length "abc".toList 2 =
      .ok ["ab".toList, "c".toList] := by rfl
  have hiff := (@token_slices_kept_iff Nat Unit Unit eachByte List.length id).2.1
    "abc".toList 2 _ hrun
  have hparts : ∀ chunk ∈ ["ab".toList, "c".toList], chunk <:+: "abc".toList := by decide
  exact ⟨hiff.mp hparts, hparts⟩

/-- The two tokens of one letter, one in each window. -/
theorem cut_letter_is_no_part :
    ¬ ∀ (encoder : ByteEncoder Nat) (countTokens : Text → Nat) (text : Text) (tokenLimit : Nat)
        (overlapTokens : Int) (split : FixedSplit),
      splitByTokensFixed tokenLimit overlapTokens (some encoder.toEncoder) countTokens text = .ok split →
        ∀ chunk ∈ split.chunks, chunk <:+: text := by
  intro hall
  have hrun : splitByTokensFixed 1 0 (some eachByte.toEncoder) List.length "é".toList =
      .ok ⟨[[Utf8.replacement], [Utf8.replacement]], [⟨0, 1⟩, ⟨1, 2⟩]⟩ := by rfl
  have hpart := hall eachByte List.length "é".toList 1 0 _ hrun [Utf8.replacement]
    (List.mem_cons_self ..)
  have hnot : ¬ [Utf8.replacement] <:+: "é".toList := by decide
  exact hnot hpart

end

end AiPlatform.Knowledge
