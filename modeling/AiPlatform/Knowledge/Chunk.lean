/-
  AiPlatform.Knowledge.Chunk

  A chunk of a document (`Chunk` of `chunking.py`) and what its constructor fills in.
-/

import AiPlatform.Knowledge.SplitText
import AiPlatform.Lib.Assoc

namespace AiPlatform.Knowledge

inductive ContentType where
  | text
  | image
  | mixed
  deriving DecidableEq, Repr

/-- `Chunk`, over the values of its metadata and its images. -/
structure Chunk (Value Image : Type) where
  text : Text
  index : Nat := 0
  tokenCount : Nat := 0
  wordCount : Nat := 0
  charCount : Nat := 0
  metadata : List (Text × Value) := []
  parentId : Option Text := none
  children : List (Chunk Value Image) := []
  hashId : Text := []
  contentType : ContentType := .text
  associatedImages : List Image := []
  imageUrl : Option Text := none
  imageFilename : Option Text := none
  imageMediaType : Option Text := none
  vlmDescription : Option Text := none

section

variable {Value Image : Type}

/-- `{**before, **after}` -/
def mergedMetadata (before after : List (Text × Value)) : List (Text × Value) :=
  after.foldl (fun metadata entry => Assoc.set entry.1 entry.2 metadata) before

variable (countTokens : Text → Nat) (digest : Text → Text)

/-- `Chunk.__post_init__`; the digest of a text is the first twelve digits of its hash. -/
def Chunk.postInit (chunk : Chunk Value Image) : Chunk Value Image :=
  { chunk with
    hashId := if chunk.hashId = [] ∧ chunk.text ≠ [] then digest chunk.text else chunk.hashId
    charCount := if chunk.charCount = 0 then chunk.text.length else chunk.charCount
    wordCount := if chunk.wordCount = 0 then (wordsOf chunk.text).length else chunk.wordCount
    tokenCount := if chunk.tokenCount = 0 then countTokens chunk.text else chunk.tokenCount }

variable {countTokens digest} (chunk : Chunk Value Image)

@[simp] theorem Chunk.postInit_text : (chunk.postInit countTokens digest).text = chunk.text := rfl

@[simp] theorem Chunk.postInit_associatedImages :
    (chunk.postInit countTokens digest).associatedImages = chunk.associatedImages := rfl

/-- `for i, c in enumerate(chunks): c.index = i` -/
def reindexed (chunks : List (Chunk Value Image)) : List (Chunk Value Image) :=
  chunks.zipIdx.map fun (chunk, i) => { chunk with index := i }

/-- What does not read the index is the same after it is set. -/
theorem map_reindexed {β : Type} {f : Chunk Value Image → β}
    (hf : ∀ chunk i, f { chunk with index := i } = f chunk) (chunks : List (Chunk Value Image)) :
    (reindexed chunks).map f = chunks.map f := by
  have hfst : chunks.zipIdx.map (fun entry => f entry.1) = (chunks.zipIdx.map Prod.fst).map f :=
    List.map_map.symm
  rw [List.zipIdx_map_fst] at hfst
  rw [← hfst, reindexed, List.map_map]
  exact List.map_congr_left fun entry _ => hf entry.1 entry.2

theorem index_reindexed (chunks : List (Chunk Value Image)) :
    (reindexed chunks).map (·.index) = List.range (reindexed chunks).length := by
  have hsnd : (reindexed chunks).map (·.index) = chunks.zipIdx.map Prod.snd := List.map_map
  rw [hsnd, List.zipIdx_map_snd, reindexed, List.length_map, List.length_zipIdx,
    List.range_eq_range']

end

end AiPlatform.Knowledge
