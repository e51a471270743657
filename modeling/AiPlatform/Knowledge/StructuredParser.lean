/-
  AiPlatform.Knowledge.StructuredParser

  Binding of captions and the chunks of a structured document
  (`structured_document_parser.py`), and which texts of the document the chunks hold.

  Metadata are the keys that these functions read and write.
-/

import Mathlib.Data.List.Infix
import Mathlib.Tactic.Common

namespace AiPlatform.Knowledge

namespace Structured

inductive ChunkType where
  | text
  | heading
  | table
  | image
  | mixed
  | caption
deriving DecidableEq, Repr

structure Metadata where
  id : Option String := none
  sectionTitle : Option String := none
  sectionLevel : Option Int := none
  headingLevel : Option Int := none
  width : Option Int := none
  height : Option Int := none
  caption : Option String := none
  bindsTo : Option String := none
  tableHtml : Option String := none
deriving DecidableEq, Repr

structure DocumentElement where
  type : ChunkType
  content : String
  pageNumber : Int := 0
  metadata : Metadata := {}
  imageBytes : Option (List UInt8) := none
  imageMime : Option String := none
  vlmDescription : Option String := none
  tableHtml : Option String := none
  tableMarkdown : Option String := none
  relatedImageIds : List String := []
deriving DecidableEq, Repr

structure ChunkImage where
  imageId : String
  bytes : List UInt8
  mimeType : Option String
  width : Option Int
  height : Option Int
deriving DecidableEq, Repr

structure StructuredChunk where
  chunkId : String
  type : ChunkType
  content : String
  contentForEmbedding : String
  pageNumber : Int
  text : String := ""
  images : List ChunkImage := []
  hasImages : Bool := false
  metadata : Metadata := {}
  sectionTitle : Option String := none
  sectionLevel : Int := 0
deriving DecidableEq, Repr

/-! ## Captions -/

/-- `element.metadata.get("id", "")` -/
def DocumentElement.idText (element : DocumentElement) : String := element.metadata.id.getD ""

/-- `range(i - 1, max(0, i - 4), -1)` -/
def candidates (i : Nat) : List Nat := (List.range (i - 1 - (i - 4))).map fun k => i - 1 - k

/-- The element at the position is an image or a table. -/
def isFigure (elements : List DocumentElement) (j : Nat) : Bool :=
  match elements[j]? with
  | some element => element.type == .image || element.type == .table
  | none => false

/-- The position that the caption at `i` is bound to. -/
def bindingOf (elements : List DocumentElement) (i : Nat) : Option Nat :=
  (candidates i).find? (isFigure elements)

/-- What a caption notes at the element it is bound to. -/
def DocumentElement.noteCaption (prev caption : DocumentElement) : DocumentElement :=
  { prev with
    metadata := { prev.metadata with caption := some caption.content }
    relatedImageIds := prev.relatedImageIds ++ [caption.idText] }

/-- What it notes at the caption. -/
def DocumentElement.noteBinding (caption prev : DocumentElement) : DocumentElement :=
  { caption with metadata := { caption.metadata with bindsTo := some prev.idText } }

/-- One turn of the loop over the elements. -/
def bindStep (elements : List DocumentElement) (i : Nat) : List DocumentElement :=
  match elements[i]?, (bindingOf elements i).bind fun j => elements[j]?.map fun prev => (j, prev) with
  | some element, some (j, prev) =>
    if element.type = .caption then
      (elements.modify j fun prev => prev.noteCaption element).modify i fun caption => caption.noteBinding prev
    else elements
  | _, _ => elements

/-- `_bind_related_elements` -/
def bindRelatedElements (elements : List DocumentElement) : List DocumentElement :=
  (List.range elements.length).foldl bindStep elements

/-! ## Chunks -/

/-- A text that is there and not empty. -/
def present (text : Option String) : Option String := text.filter (· != "")

/-- `_create_text_chunk` -/
def createTextChunk (element : DocumentElement) (chunkId : String) : StructuredChunk where
  chunkId := chunkId
  type := .text
  content := element.content
  contentForEmbedding :=
    match present element.metadata.sectionTitle with
    | some title => "Section: " ++ title ++ "\n\n" ++ element.content
    | none => element.content
  pageNumber := element.pageNumber
  text := element.content
  metadata := element.metadata
  sectionTitle := element.metadata.sectionTitle
  sectionLevel := element.metadata.sectionLevel.getD 0

/-- `_create_heading_chunk` -/
def createHeadingChunk (element : DocumentElement) (chunkId : String) : StructuredChunk where
  chunkId := chunkId
  type := .heading
  content := element.content
  contentForEmbedding := "HEADING: " ++ element.content
  pageNumber := element.pageNumber
  text := element.content
  metadata := element.metadata
  sectionLevel := element.metadata.headingLevel.getD 1

def sizeText (size : Option Int) : String := size.elim "None" toString

/-- The lines of an image chunk. -/
def imageContent (element : DocumentElement) : String :=
  "\n".intercalate
    (((present element.vlmDescription).map ("Description: " ++ ·)).toList ++
      ((present element.metadata.caption).map ("Caption: " ++ ·)).toList ++
      ["Image size: " ++ sizeText element.metadata.width ++ "x" ++ sizeText element.metadata.height])

/-- `_create_image_chunk` -/
def createImageChunk (element : DocumentElement) (chunkId : String) : StructuredChunk where
  chunkId := chunkId
  type := .image
  content := imageContent element
  contentForEmbedding := imageContent element
  pageNumber := element.pageNumber
  text := (present element.vlmDescription).getD (element.metadata.caption.getD "")
  images :=
    match element.imageBytes.filter (!·.isEmpty) with
    | some bytes =>
      [{ imageId := element.metadata.id.getD chunkId
         bytes := bytes
         mimeType := element.imageMime
         width := element.metadata.width
         height := element.metadata.height }]
    | none => []
  hasImages := true
  metadata := element.metadata

/-- `element.table_markdown or element.content` -/
def tableContent (element : DocumentElement) : String := (present element.tableMarkdown).getD element.content

/-- `_create_table_chunk` -/
def createTableChunk (element : DocumentElement) (chunkId : String) : StructuredChunk where
  chunkId := chunkId
  type := .table
  content := tableContent element
  contentForEmbedding :=
    match present element.metadata.caption with
    | some caption => caption ++ "\n\n" ++ tableContent element
    | none => tableContent element
  pageNumber := element.pageNumber
  text := tableContent element
  metadata := { element.metadata with tableHtml := element.tableHtml }

/-- The chunk of an element; captions have none of their own. -/
def createChunk (element : DocumentElement) (chunkId : String) : Option StructuredChunk :=
  match element.type with
  | .text => some (createTextChunk element chunkId)
  | .heading => some (createHeadingChunk element chunkId)
  | .image => some (createImageChunk element chunkId)
  | .table => some (createTableChunk element chunkId)
  | .caption => none
  | .mixed => some (createTextChunk element chunkId)

/-- `_create_semantic_chunks` -/
def createSemanticChunks (elements : List DocumentElement) : List StructuredChunk :=
  elements.zipIdx.filterMap fun (element, i) => createChunk element ("chunk_" ++ toString i)

example : (createSemanticChunks (bindRelatedElements
    [{ type := .text, content := "a" }, { type := .image, content := "i" }, { type := .caption, content := "c" }])).map
      (·.content) = ["a", "Caption: c\nImage size: NonexNone"] := by decide +kernel

/-! ## What binding leaves -/

def isCaption (elements : List DocumentElement) (i : Nat) : Bool :=
  elements[i]?.any (·.type == .caption)

/-- The captions before `m` that are bound to the element at `k`. -/
def binders (elements : List DocumentElement) (m k : Nat) : List Nat :=
  (List.range m).filter fun i => isCaption elements i && bindingOf elements i == some k

def idAt (elements : List DocumentElement) (i : Nat) : String := (elements[i]?.map (·.idText)).getD ""

def contentAt (elements : List DocumentElement) (i : Nat) : String := (elements[i]?.map (·.content)).getD ""

/-- The caption of the element at `k` after the first `m` turns: that of its last binder. -/
def captionAfter (elements : List DocumentElement) (m k : Nat) (element : DocumentElement) : Option String :=
  match (binders elements m k).getLast? with
  | some i => some (contentAt elements i)
  | none => element.metadata.caption

def bindsToAfter (elements : List DocumentElement) (m k : Nat) (element : DocumentElement) : Option String :=
  if k < m ∧ element.type = .caption then
    ((bindingOf elements k).map (idAt elements)).or element.metadata.bindsTo
  else element.metadata.bindsTo

/-- The element at `k` after the first `m` turns. -/
def boundView (elements : List DocumentElement) (m k : Nat) (element : DocumentElement) : DocumentElement :=
  { element with
    metadata :=
      { element.metadata with
        caption := captionAfter elements m k element
        bindsTo := bindsToAfter elements m k element }
    relatedImageIds := element.relatedImageIds ++ (binders elements m k).map (idAt elements) }

theorem mem_candidates {i j : Nat} : j ∈ candidates i ↔ j < i ∧ 0 < j ∧ i < j + 4 := by
  simp only [candidates, List.mem_map, List.mem_range]
  constructor
  · rintro ⟨k, hk, rfl⟩
    omega
  · rintro ⟨hlt, hpos, hnear⟩
    exact ⟨i - 1 - j, by omega, by omega⟩

theorem isFigure_congr {elements elements' : List DocumentElement}
    (h : ∀ k : Nat, elements'[k]?.map (·.type) = elements[k]?.map (·.type)) : isFigure elements' = isFigure elements := by
  funext j
  have hj := h j
  unfold isFigure
  cases helement : elements[j]? <;> cases helement' : elements'[j]? <;> simp_all

theorem bindingOf_spec {elements : List DocumentElement} {i j : Nat} (h : bindingOf elements i = some j) :
    j < i ∧ 0 < j ∧ i < j + 4 ∧ isFigure elements j = true := by
  obtain ⟨hlt, hpos, hnear⟩ := mem_candidates.mp (List.mem_of_find?_eq_some h)
  exact ⟨hlt, hpos, hnear, List.find?_some h⟩

theorem exists_of_isFigure {elements : List DocumentElement} {j : Nat} (h : isFigure elements j = true) :
    ∃ element, elements[j]? = some element ∧ (element.type = .image ∨ element.type = .table) := by
  unfold isFigure at h
  cases helement : elements[j]? with
  | none =>
    rw [helement] at h
    cases h
  | some element =>
    rw [helement] at h
    exact ⟨element, rfl, by simpa using h⟩

theorem isCaption_congr {elements elements' : List DocumentElement} {i : Nat}
    (h : elements'[i]?.map (·.type) = elements[i]?.map (·.type)) : isCaption elements' i = isCaption elements i := by
  have hmap : ∀ es : List DocumentElement,
      isCaption es i = (es[i]?.map (·.type)).any (· == .caption) := by
    intro es
    unfold isCaption
    cases es[i]? <;> rfl
  rw [hmap, hmap, h]

theorem binders_succ (elements : List DocumentElement) (m k : Nat) :
    binders elements (m + 1) k = binders elements m k ++
      (if isCaption elements m = true ∧ bindingOf elements m = some k then [m] else []) := by
  rw [binders, List.range_succ, List.filter_append, ← binders]
  refine congrArg (binders elements m k ++ ·) ?_
  rw [List.filter_singleton]
  by_cases h : isCaption elements m = true ∧ bindingOf elements m = some k
  · rw [if_pos h, h.1, h.2, beq_self_eq_true]
    rfl
  · have hfalse : (isCaption elements m && bindingOf elements m == some k) = false :=
      Bool.eq_false_iff.mpr fun htrue => h (by simpa using htrue)
    rw [if_neg h, hfalse]
    rfl

theorem bindsToAfter_succ {elements : List DocumentElement} {m k : Nat} {element : DocumentElement}
    (h : k ≠ m ∨ element.type ≠ .caption ∨ bindingOf elements m = none) :
    bindsToAfter elements (m + 1) k element = bindsToAfter elements m k element := by
  unfold bindsToAfter
  by_cases hk : k = m
  · subst hk
    rcases (h.resolve_left fun hne => hne rfl) with htype | hnone
    · simp [htype]
    · simp [hnone]
  · have hiff : (k < m + 1 ∧ element.type = .caption) ↔ (k < m ∧ element.type = .caption) := by
      constructor <;> exact fun h => ⟨by omega, h.2⟩
    simp only [hiff]

/-- A turn that binds nothing to the element and is not the element's own changes no view. -/
theorem boundView_succ {elements : List DocumentElement} {m k : Nat} {element : DocumentElement}
    (hbinders : ¬ (isCaption elements m = true ∧ bindingOf elements m = some k))
    (hown : k ≠ m ∨ element.type ≠ .caption ∨ bindingOf elements m = none) :
    boundView elements (m + 1) k element = boundView elements m k element := by
  have hsame : binders elements (m + 1) k = binders elements m k := by
    rw [binders_succ, if_neg hbinders, List.append_nil]
  rw [boundView, boundView, captionAfter, captionAfter, hsame, bindsToAfter_succ hown]

/-- A turn that binds the caption at `m` to the element at `j`. -/
theorem bindStep_binds {current : List DocumentElement} {m j : Nat} {caption prev : DocumentElement}
    (hcaption : current[m]? = some caption) (htype : caption.type = .caption)
    (hbinding : bindingOf current m = some j) (hprev : current[j]? = some prev) (k : Nat) :
    (bindStep current m)[k]? =
      if k = m then some (caption.noteBinding prev)
      else if k = j then some (prev.noteCaption caption)
      else current[k]? := by
  have hne : j ≠ m := Nat.ne_of_lt (bindingOf_spec hbinding).1
  unfold bindStep
  simp only [hcaption, hbinding, Option.bind_some, hprev, Option.map_some, htype, if_true,
    List.getElem?_modify]
  by_cases hk : k = m
  · subst hk
    simp [hcaption, hne]
  · by_cases hkj : k = j
    · subst hkj
      simp [hprev, hk, Ne.symm hk]
    · simp [hk, hkj, Ne.symm hk, Ne.symm hkj]

/-- A turn that binds nothing. -/
theorem bindStep_idle {current : List DocumentElement} {m : Nat}
    (h : isCaption current m = false ∨ bindingOf current m = none) : bindStep current m = current := by
  unfold bindStep
  rcases h with h | h
  · split
    · case h_1 element j prev helement _ =>
      rw [if_neg]
      simpa [isCaption, helement] using h
    · rfl
  · rw [h, Option.bind_none]
    split
    · contradiction
    · rfl

/-- After the first turns every element is what its view says. -/
theorem bindSteps_getElem? (elements : List DocumentElement) (m k : Nat) :
    ((List.range m).foldl bindStep elements)[k]? = elements[k]?.map (boundView elements m k) := by
  induction m generalizing k with
  | zero =>
    have hview : boundView elements 0 k = id := by
      funext element
      simp [boundView, captionAfter, bindsToAfter, binders]
    rw [hview]
    simp
  | succ m ih =>
    rw [List.range_succ, List.foldl_append, List.foldl_cons, List.foldl_nil]
    generalize (List.range m).foldl bindStep elements = current at ih
    have htypes : ∀ k : Nat, current[k]?.map (·.type) = elements[k]?.map (·.type) := by
      intro k
      rw [ih, Option.map_map]
      rfl
    have hbinding : bindingOf current m = bindingOf elements m := by
      rw [bindingOf, isFigure_congr htypes, ← bindingOf]
    have hcaption : isCaption current m = isCaption elements m := isCaption_congr (htypes m)
    by_cases hidle : isCaption elements m = false ∨ bindingOf elements m = none
    · rw [bindStep_idle (by rwa [hcaption, hbinding]), ih]
      refine Option.map_congr fun element helement => (boundView_succ ?_ ?_).symm
      · rintro ⟨htrue, hsome⟩
        rcases hidle with hfalse | hnone
        · rw [hfalse] at htrue
          cases htrue
        · rw [hnone] at hsome
          cases hsome
      · by_cases hk : k = m
        · subst hk
          refine .inr (hidle.imp_left fun hfalse htype => ?_)
          rw [isCaption, helement, Option.any_some, htype] at hfalse
          cases hfalse
        · exact .inl hk
    · obtain ⟨hisCaption, hbound⟩ := not_or.mp hidle
      obtain ⟨j, hj⟩ := Option.ne_none_iff_exists'.mp hbound
      have hcaptions : isCaption elements m = true := by simpa using hisCaption
      obtain ⟨element, helement, htype⟩ : ∃ element, elements[m]? = some element ∧ element.type = .caption := by
        simpa [isCaption, Option.any_eq_true] using hcaptions
      obtain ⟨hlt, hpos, -, hfigure⟩ := bindingOf_spec hj
      obtain ⟨prev, hprev, hprevType⟩ := exists_of_isFigure hfigure
      have hview : current[m]? = some (boundView elements m m element) := by rw [ih, helement]; rfl
      have hprevView : current[j]? = some (boundView elements m j prev) := by rw [ih, hprev]; rfl
      rw [bindStep_binds hview htype (hbinding.trans hj) hprevView]
      split_ifs with hkm hkj
      · subst hkm
        rw [helement, Option.map_some]
        refine congrArg some ?_
        have hsame : binders elements (k + 1) k = binders elements k k := by
          rw [binders_succ, if_neg, List.append_nil]
          rintro ⟨-, hself⟩
          rw [hj] at hself
          exact Nat.ne_of_lt hlt (Option.some.inj hself)
        have hbinds : bindsToAfter elements (k + 1) k element = some prev.idText := by
          rw [bindsToAfter, if_pos ⟨Nat.lt_succ_self k, htype⟩, hj, Option.map_some, idAt, hprev]
          rfl
        conv_rhs => rw [boundView, captionAfter, hsame, hbinds]
        rfl
      · subst hkj
        rw [hprev, Option.map_some]
        refine congrArg some ?_
        have hmore : binders elements (m + 1) k = binders elements m k ++ [m] := by
          rw [binders_succ, if_pos ⟨hcaptions, hj⟩]
        have hcaptionNow : captionAfter elements (m + 1) k prev = some element.content := by
          rw [captionAfter, hmore, List.getLast?_append, List.getLast?_singleton, Option.some_or]
          simp [contentAt, helement]
        have hidNow : idAt elements m = element.idText := by
          rw [idAt, helement]
          rfl
        conv_rhs => rw [boundView, hcaptionNow, hmore, List.map_append, List.map_singleton, hidNow,
          ← List.append_assoc, bindsToAfter_succ (.inl (Nat.ne_of_lt hlt))]
        rfl
      · rw [ih]
        refine Option.map_congr fun other hother => (boundView_succ ?_ (.inl hkm)).symm
        rintro ⟨-, hself⟩
        rw [hj] at hself
        exact hkj (Option.some.inj hself).symm

/-- What binding leaves of every element. -/
theorem bindRelatedElements_getElem? (elements : List DocumentElement) (k : Nat) :
    (bindRelatedElements elements)[k]? = elements[k]?.map (boundView elements elements.length k) :=
  bindSteps_getElem? elements elements.length k

/-! ## The texts of the document -/

/-- The nearest image or table of the three elements before. -/
def nearestFigure (elements : List DocumentElement) (i : Nat) : Option Nat :=
  ((List.range (min 3 i)).map fun k => i - 1 - k).find? (isFigure elements)

/-- The caption at `i` and the element at `k` name each other. -/
def NamesEachOther (elements : List DocumentElement) (i k : Nat) : Prop :=
  ∃ caption prev, elements[i]? = some caption ∧ elements[k]? = some prev ∧
    caption.metadata.bindsTo = some prev.idText ∧ caption.idText ∈ prev.relatedImageIds

/-- The content of the chunk that the element at `k` gets. -/
def shownText (elements : List DocumentElement) (k : Nat) (element : DocumentElement) : Option String :=
  match element.type with
  | .caption => none
  | .image =>
    some (imageContent
      { element with
        metadata := { element.metadata with caption := captionAfter elements elements.length k element } })
  | .table => some (tableContent element)
  | _ => some element.content

/-- The text occurs in the content of a chunk. -/
def Occurs (elements : List DocumentElement) (content : String) : Prop :=
  ∃ (k : Nat) (element : DocumentElement) (shown : String), elements[k]? = some element ∧
    shownText elements k element = some shown ∧ content.toList <:+: shown.toList

/-- Every text is in a chunk, and every caption is bound to the nearest image or table. -/
structure KeepsText (elements : List DocumentElement) : Prop where
  texts : ∀ element ∈ elements, element.type ∈ [ChunkType.text, .heading, .table, .caption] →
    ∃ chunk ∈ createSemanticChunks (bindRelatedElements elements),
      element.content.toList <:+: chunk.content.toList
  bound : ∀ (i k : Nat) element, elements[i]? = some element → element.type = .caption →
    nearestFigure elements i = some k → NamesEachOther (bindRelatedElements elements) i k

/-- The caption at `i` is the last one of an image that is not the first element. -/
def LastOfImage (elements : List DocumentElement) (i : Nat) : Prop :=
  ∃ k image, nearestFigure elements i = some k ∧ 0 < k ∧ elements[k]? = some image ∧ image.type = .image ∧
    ∀ later, i < later → isCaption elements later = true → nearestFigure elements later ≠ some k

/-- The tables show their contents, the captions are the last ones of an image, or these
    texts happen to occur in a chunk; and no caption needs the first element. -/
structure TextsFit (elements : List DocumentElement) : Prop where
  tables : ∀ element ∈ elements, element.type = .table →
    element.content.toList <:+: (tableContent element).toList ∨ Occurs elements element.content
  captions : ∀ (i : Nat) element, elements[i]? = some element → element.type = .caption →
    LastOfImage elements i ∨ Occurs elements element.content
  first : ∀ (i : Nat) element, elements[i]? = some element → element.type = .caption →
    nearestFigure elements i = some 0 → NamesEachOther elements i 0

/-- The loop leaves out the first element. -/
theorem bindingOf_eq (elements : List DocumentElement) (i : Nat) :
    bindingOf elements i = (nearestFigure elements i).filter (0 < ·) := by
  have hpos : ∀ j, bindingOf elements i = some j → 0 < j := fun j hj => (bindingOf_spec hj).2.1
  by_cases hstart : i < 4
  · cases i with
    | zero => rfl
    | succ n =>
      have hcandidates : (List.range (min 3 (n + 1))).map (fun k => n + 1 - 1 - k) = candidates (n + 1) ++ [0] := by
        rw [candidates, show min 3 (n + 1) = n + 1 by omega, List.range_succ, List.map_append,
          show n + 1 - 1 - (n + 1 - 4) = n by omega]
        simp
      rw [nearestFigure, hcandidates, List.find?_append, ← bindingOf]
      cases hbinding : bindingOf elements (n + 1) with
      | none =>
        rw [Option.none_or, List.find?_singleton]
        split <;> rfl
      | some j =>
        rw [Option.some_or, Option.filter_some, if_pos (by simpa using hpos j hbinding)]
  · have hcandidates : candidates i = (List.range (min 3 i)).map fun k => i - 1 - k := by
      rw [candidates, show i - 1 - (i - 4) = min 3 i by omega]
    rw [nearestFigure, ← hcandidates, ← bindingOf]
    cases hbinding : bindingOf elements i with
    | none => rfl
    | some j => rw [Option.filter_some, if_pos (by simpa using hpos j hbinding)]

theorem bindingOf_of_nearest {elements : List DocumentElement} {i k : Nat} (h : nearestFigure elements i = some k)
    (hpos : 0 < k) : bindingOf elements i = some k := by
  rw [bindingOf_eq, h, Option.filter_some, if_pos (by simpa using hpos)]

theorem createChunk_content (elements : List DocumentElement) (k : Nat) (element : DocumentElement)
    (chunkId : String) :
    (createChunk (boundView elements elements.length k element) chunkId).map (·.content) =
      shownText elements k element := by
  unfold createChunk shownText
  have htype : (boundView elements elements.length k element).type = element.type := rfl
  rw [htype]
  cases element.type <;> rfl

/-- The chunks show what `shownText` says. -/
theorem occurs_iff (elements : List DocumentElement) (content : String) :
    (∃ chunk ∈ createSemanticChunks (bindRelatedElements elements), content.toList <:+: chunk.content.toList) ↔
      Occurs elements content := by
  constructor
  · rintro ⟨chunk, hchunk, hinfix⟩
    obtain ⟨⟨bound, k⟩, hmem, hcreate⟩ := List.mem_filterMap.mp hchunk
    have hbound := List.mem_zipIdx_iff_getElem?.mp hmem
    rw [bindRelatedElements_getElem?] at hbound
    obtain ⟨element, helement, hview⟩ := Option.map_eq_some_iff.mp hbound
    refine ⟨k, element, chunk.content, helement, ?_, hinfix⟩
    rw [← createChunk_content elements k element ("chunk_" ++ toString k), hview]
    exact congrArg (Option.map (·.content)) hcreate
  · rintro ⟨k, element, shown, helement, hshown, hinfix⟩
    rw [← createChunk_content elements k element ("chunk_" ++ toString k)] at hshown
    obtain ⟨chunk, hcreate, rfl⟩ := Option.map_eq_some_iff.mp hshown
    refine ⟨chunk, List.mem_filterMap.mpr ⟨(boundView elements elements.length k element, k), ?_, hcreate⟩, hinfix⟩
    rw [List.mem_zipIdx_iff_getElem?, bindRelatedElements_getElem?, helement]
    rfl

theorem infix_intercalate {α : Type} {part sep : List α} {parts : List (List α)} (h : part ∈ parts) :
    part <:+: sep.intercalate parts := by
  induction parts with
  | nil => cases h
  | cons first rest ih =>
    cases rest with
    | nil =>
      obtain rfl := List.mem_singleton.mp h
      rw [List.intercalate_singleton]
    | cons second rest =>
      rw [List.intercalate_cons_cons]
      rcases List.mem_cons.mp h with rfl | hrest
      · rw [List.append_assoc]
        exact (List.prefix_append _ _).isInfix
      · exact (ih hrest).trans (List.suffix_append _ _).isInfix

/-- The last caption of an image stays its caption. -/
theorem captionAfter_last {elements : List DocumentElement} {i k : Nat} {caption image : DocumentElement}
    (hcaption : elements[i]? = some caption) (htype : caption.type = .caption)
    (hbinding : bindingOf elements i = some k)
    (hlast : ∀ later, i < later → isCaption elements later = true → nearestFigure elements later ≠ some k) :
    captionAfter elements elements.length k image = some caption.content := by
  have hisCaption : isCaption elements i = true := by
    rw [isCaption, hcaption, Option.any_some, htype]
    rfl
  have hbinders : ∀ m, i + 1 ≤ m → (binders elements m k).getLast? = some i := by
    intro m hm
    induction m, hm using Nat.le_induction with
    | base => rw [binders_succ, if_pos ⟨hisCaption, hbinding⟩, List.getLast?_append, List.getLast?_singleton, Option.some_or]
    | succ m hm ih =>
      rw [binders_succ, if_neg, List.append_nil, ih]
      rintro ⟨hlater, hbound⟩
      rw [bindingOf_eq, Option.filter_eq_some_iff] at hbound
      exact hlast m hm hlater hbound.1
  obtain ⟨hlt, -⟩ := List.getElem?_eq_some_iff.mp hcaption
  rw [captionAfter, hbinders elements.length hlt]
  simp [contentAt, hcaption]

theorem occurs_of_lastOfImage {elements : List DocumentElement} {i : Nat} {caption : DocumentElement}
    (hcaption : elements[i]? = some caption) (htype : caption.type = .caption) (h : LastOfImage elements i) :
    Occurs elements caption.content := by
  obtain ⟨k, image, hnearest, hpos, himage, himageType, hlast⟩ := h
  refine ⟨k, image, _, himage, by rw [shownText, himageType], ?_⟩
  rw [captionAfter_last hcaption htype (bindingOf_of_nearest hnearest hpos) hlast]
  by_cases hempty : caption.content = ""
  · rw [hempty]
    exact List.nil_infix
  · have hline : "Caption: " ++ caption.content ∈
        ((present image.vlmDescription).map ("Description: " ++ ·)).toList ++
          ((present (some caption.content)).map ("Caption: " ++ ·)).toList ++
          ["Image size: " ++ sizeText image.metadata.width ++ "x" ++ sizeText image.metadata.height] := by
      have hpresent : present (some caption.content) = some caption.content := by
        rw [present, Option.filter_some, if_pos (by simpa using hempty)]
      rw [hpresent]
      simp
    rw [imageContent, String.toList_intercalate]
    have hpart : caption.content.toList <:+: ("Caption: " ++ caption.content).toList := by
      rw [String.toList_append]
      exact (List.suffix_append _ _).isInfix
    exact hpart.trans (infix_intercalate (List.mem_map_of_mem hline))

/-- A caption that is bound, and the element it is bound to, name each other. -/
theorem namesEachOther_of_binding {elements : List DocumentElement} {i k : Nat} {caption : DocumentElement}
    (hcaption : elements[i]? = some caption) (htype : caption.type = .caption)
    (hbinding : bindingOf elements i = some k) : NamesEachOther (bindRelatedElements elements) i k := by
  obtain ⟨hlt, -, -, hfigure⟩ := bindingOf_spec hbinding
  obtain ⟨prev, hprev, -⟩ := exists_of_isFigure hfigure
  obtain ⟨hlength, -⟩ := List.getElem?_eq_some_iff.mp hcaption
  have hisCaption : isCaption elements i = true := by
    rw [isCaption, hcaption, Option.any_some, htype]
    rfl
  refine ⟨boundView elements elements.length i caption, boundView elements elements.length k prev,
    by rw [bindRelatedElements_getElem?, hcaption]; rfl, by rw [bindRelatedElements_getElem?, hprev]; rfl, ?_, ?_⟩
  · have hid : idAt elements k = prev.idText := by
      rw [idAt, hprev]
      rfl
    change bindsToAfter elements elements.length i caption = some prev.idText
    rw [bindsToAfter, if_pos ⟨hlength, htype⟩, hbinding, Option.map_some, hid, Option.some_or]
  · have hid : idAt elements i = caption.idText := by
      rw [idAt, hcaption]
      rfl
    have hmem : i ∈ binders elements elements.length k := by
      rw [binders, List.mem_filter]
      exact ⟨List.mem_range.mpr hlength, by rw [hisCaption, hbinding, beq_self_eq_true]; rfl⟩
    exact List.mem_append_right _ (hid ▸ List.mem_map_of_mem hmem)

/-- A caption that is not bound, and the first element, are left as they were. -/
theorem namesEachOther_first {elements : List DocumentElement} {i : Nat} (hbinding : bindingOf elements i = none) :
    NamesEachOther (bindRelatedElements elements) i 0 ↔ NamesEachOther elements i 0 := by
  have hbinds : ∀ element : DocumentElement,
      bindsToAfter elements elements.length i element = element.metadata.bindsTo := by
    intro element
    rw [bindsToAfter, hbinding, Option.map_none, Option.none_or, ite_self]
  have hnone : binders elements elements.length 0 = [] := by
    rw [binders, List.filter_eq_nil_iff]
    intro later _ hbound
    simp only [Bool.and_eq_true, beq_iff_eq] at hbound
    exact absurd (bindingOf_spec hbound.2).2.1 (Nat.lt_irrefl 0)
  have hrelated : ∀ element : DocumentElement,
      (boundView elements elements.length 0 element).relatedImageIds = element.relatedImageIds := by
    intro element
    rw [boundView, hnone]
    exact List.append_nil _
  constructor
  · rintro ⟨bound, first, hbound, hfirst, hto, hmem⟩
    rw [bindRelatedElements_getElem?] at hbound hfirst
    obtain ⟨caption, hcaption, rfl⟩ := Option.map_eq_some_iff.mp hbound
    obtain ⟨prev, hprev, rfl⟩ := Option.map_eq_some_iff.mp hfirst
    exact ⟨caption, prev, hcaption, hprev, (hbinds caption).symm.trans hto, hrelated prev ▸ hmem⟩
  · rintro ⟨caption, prev, hcaption, hprev, hto, hmem⟩
    refine ⟨_, _, by rw [bindRelatedElements_getElem?, hcaption]; rfl,
      by rw [bindRelatedElements_getElem?, hprev]; rfl, (hbinds caption).trans hto, ?_⟩
    exact (hrelated prev).symm ▸ hmem

end Structured

end AiPlatform.Knowledge
