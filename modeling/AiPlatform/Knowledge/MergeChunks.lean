/-
  AiPlatform.Knowledge.MergeChunks

  Chunks that are too small put together with their neighbours (`merge_small_chunks` of
  `chunking.py`): one pass into the chunk before, the first chunk into the second, and
  then rounds of passes until nothing is left to merge or there have been ten.
-/

import AiPlatform.Knowledge.Chunk
import AiPlatform.Lib.Coalescing

namespace AiPlatform.Knowledge

structure MergeLimits where
  minSize : Int
  maxSize : Int
  minTokens : Option Int
  maxTokens : Option Int

section

variable {Value Image : Type}
variable (countTokens : Text → Nat) (digest : Text → Text) (limits : MergeLimits) (separator : Text)

/-! ## The three passes -/

def isTooSmall (length tokens : Nat) : Bool :=
  decide ((length : Int) < limits.minSize) ||
    match limits.minTokens with
    | some minTokens => decide ((tokens : Int) < minTokens)
    | none => false

/-- `_within_limits` -/
def withinLimits (combinedLen combinedTokens : Nat) : Bool :=
  match limits.maxTokens with
  | none => decide ((combinedLen : Int) ≤ limits.maxSize)
  | some maxTokens =>
    if (combinedTokens : Int) ≤ maxTokens then decide ((combinedLen : Int) ≤ limits.maxSize)
    else
      let hardCap := if 512 ≤ maxTokens then maxTokens else 512
      decide ((combinedLen : Int) ≤ limits.maxSize + limits.minSize ∧ (combinedTokens : Int) ≤ hardCap)

/-- A chunk that is too small, put after the one before it. -/
def mergeIntoPrevious (prev chunk : Chunk Value Image) : Option (Chunk Value Image) :=
  let text := strippedText chunk.text
  let textTokens := if text = [] then 0 else countTokens text
  let combined := prev.text ++ (separator ++ text)
  if isTooSmall limits text.length textTokens ∧
      withinLimits limits combined.length (countTokens combined) then
    some <| Chunk.postInit countTokens digest
      { text := combined
        index := prev.index
        metadata := mergedMetadata chunk.metadata prev.metadata
        parentId := prev.parentId
        contentType := prev.contentType
        associatedImages := prev.associatedImages ++ chunk.associatedImages }
  else none

/-- The first chunk, if it is too small, put before the second. -/
def mergeIntoNext (first second : Chunk Value Image) : Option (Chunk Value Image) :=
  let combined := first.text ++ (separator ++ second.text)
  if isTooSmall limits first.text.length (countTokens first.text) ∧
      withinLimits limits combined.length (countTokens combined) then
    some <| Chunk.postInit countTokens digest
      { text := combined
        index := second.index
        metadata := mergedMetadata first.metadata second.metadata
        parentId := second.parentId
        contentType := second.contentType
        associatedImages := first.associatedImages ++ second.associatedImages }
  else none

def isVisible (chunk : Chunk Value Image) : Bool := decide (strippedText chunk.text ≠ [])

def firstPass (chunks : List (Chunk Value Image)) : List (Chunk Value Image) :=
  chunks.foldl (fun merged chunk =>
    if isVisible chunk then
      Coalescing.put (mergeIntoPrevious countTokens digest limits separator) merged chunk
    else merged) []

def secondPass : List (Chunk Value Image) → List (Chunk Value Image)
  | first :: second :: later =>
    match mergeIntoNext countTokens digest limits separator first second with
    | some chunk => chunk :: later
    | none => first :: second :: later
  | merged => merged

/-- The chunks after at most ten rounds, and whether the last one still merged some. -/
def thirdPass (merged : List (Chunk Value Image)) : List (Chunk Value Image) × Bool :=
  Coalescing.rounds (mergeIntoPrevious countTokens digest limits separator) 10 merged

def mergePasses (chunks : List (Chunk Value Image)) : List (Chunk Value Image) × Bool :=
  thirdPass countTokens digest limits separator
    (secondPass countTokens digest limits separator (firstPass countTokens digest limits separator chunks))

/-- `merge_small_chunks` -/
def mergeSmallChunks (chunks : List (Chunk Value Image)) : List (Chunk Value Image) :=
  if chunks.isEmpty ∨ limits.minSize ≤ 0 then chunks
  else reindexed (mergePasses countTokens digest limits separator chunks).1

/-! ## The law -/

/-- A text less some of the blanks at its ends. -/
def IsTrimOf (part text : Text) : Prop :=
  ∃ first last, IsGap first ∧ IsGap last ∧ text = first ++ (part ++ last)

/-- The chunk is made of the chunks of a run, one after the other. -/
structure MadeOf (run : List (Chunk Value Image)) (chunk : Chunk Value Image) : Prop where
  some : run ≠ []
  visible : ∀ source ∈ run, strippedText source.text ≠ []
  text : ∃ parts, List.Forall₂ IsTrimOf parts (run.map (·.text)) ∧ chunk.text = separator.intercalate parts
  images : chunk.associatedImages = run.flatMap (·.associatedImages)

/-- No chunk that is too small could be merged into the one before it. -/
def Settled (chunks : List (Chunk Value Image)) : Prop :=
  Coalescing.Settled (mergeIntoPrevious countTokens digest limits separator) chunks

/-- The chunks that are not blank are kept, less blanks at their ends, and are settled
    unless all ten rounds merged some. -/
structure MergeLaw (chunks result : List (Chunk Value Image)) : Prop where
  texts : ∃ parts, List.Forall₂ IsTrimOf parts ((chunks.filter isVisible).map (·.text)) ∧
    separator.intercalate (result.map (·.text)) = separator.intercalate parts
  images : result.flatMap (·.associatedImages) = (chunks.filter isVisible).flatMap (·.associatedImages)
  indices : result.map (·.index) = List.range result.length
  settled : (mergePasses countTokens digest limits separator chunks).2 = false →
    Settled countTokens digest limits separator result
  rounds : (mergePasses countTokens digest limits separator chunks).2 = true →
    result.length + 10 ≤ (chunks.filter isVisible).length

/-- The law with every text stripped, every image kept and nothing left to merge. -/
structure StableMerge (chunks result : List (Chunk Value Image)) : Prop where
  texts : separator.intercalate (result.map (·.text)) =
    separator.intercalate ((chunks.filter isVisible).map fun chunk => strippedText chunk.text)
  images : result.flatMap (·.associatedImages) = chunks.flatMap (·.associatedImages)
  indices : result.map (·.index) = List.range result.length
  settled : Settled countTokens digest limits separator result
  first : ∀ first second later, result = first :: second :: later →
    mergeIntoNext countTokens digest limits separator first second = none
  idempotent : mergeSmallChunks countTokens digest limits separator result = result

end

/-! ## Texts with blanks at their ends -/

section

variable {part text whole rest : Text} {parts more texts : List Text} {separator : Text}

theorem IsTrimOf.refl (text : Text) : IsTrimOf text text :=
  ⟨[], [], Reading.IsGap.nil, Reading.IsGap.nil, (List.append_nil text).symm⟩

theorem IsTrimOf.trans (h : IsTrimOf part text) (hwhole : IsTrimOf text whole) : IsTrimOf part whole := by
  obtain ⟨first, last, hfirst, hlast, rfl⟩ := h
  obtain ⟨before, after, hbefore, hafter, rfl⟩ := hwhole
  refine ⟨before ++ first, last ++ after, hbefore.append hfirst, hlast.append hafter, ?_⟩
  simp only [List.append_assoc]

theorem forall₂_isTrimOf_refl (texts : List Text) : List.Forall₂ IsTrimOf texts texts :=
  List.forall₂_same.mpr fun text _ => IsTrimOf.refl text

theorem forall₂_isTrimOf_trans (h : List.Forall₂ IsTrimOf parts more)
    (hmore : List.Forall₂ IsTrimOf more texts) : List.Forall₂ IsTrimOf parts texts := by
  induction h generalizing texts with
  | nil => exact hmore
  | cons hpart hparts ih =>
    obtain ⟨whole, later, hwhole, hlater, rfl⟩ := List.forall₂_cons_left_iff.mp hmore
    exact .cons (hpart.trans hwhole) (ih hlater)

/-- A trimmed text is blank only if the text is. -/
theorem IsTrimOf.not_isGap (h : IsTrimOf part text) (htext : ¬ IsGap text) : ¬ IsGap part := by
  intro hgap
  obtain ⟨first, last, hfirst, hlast, rfl⟩ := h
  exact htext (hfirst.append (hgap.append hlast))

theorem forall_not_isGap (h : List.Forall₂ IsTrimOf parts texts) (htexts : ∀ text ∈ texts, ¬ IsGap text) :
    ∀ part ∈ parts, ¬ IsGap part := by
  induction h with
  | nil => nofun
  | cons hpart hparts ih =>
    rw [List.forall_mem_cons] at htexts ⊢
    exact ⟨hpart.not_isGap htexts.1, ih htexts.2⟩

/-! ## Joined texts -/

theorem intercalate_append (h : parts ≠ []) (hmore : more ≠ []) :
    separator.intercalate (parts ++ more) =
      separator.intercalate parts ++ (separator ++ separator.intercalate more) := by
  induction parts with
  | nil => exact absurd rfl h
  | cons part later ih =>
    cases later with
    | nil => rw [List.singleton_append, List.intercalate_cons_of_ne_nil hmore, List.intercalate_singleton,
        List.append_assoc]
    | cons next later =>
      rw [List.cons_append, List.cons_append, List.intercalate_cons_cons, ← List.cons_append,
        ih (List.cons_ne_nil next later), List.intercalate_cons_cons]
      simp only [List.append_assoc]

/-- What follows the first of joined texts does not depend on it. -/
theorem exists_intercalate_cons (separator : Text) (later : List Text) :
    ∃ tail, ∀ part, separator.intercalate (part :: later) = part ++ tail := by
  cases later with
  | nil => exact ⟨[], fun part => by rw [List.intercalate_singleton, List.append_nil]⟩
  | cons next later =>
    refine ⟨separator ++ separator.intercalate (next :: later), fun part => ?_⟩
    rw [List.intercalate_cons_cons, List.append_assoc]

theorem exists_intercalate_concat (separator : Text) (front : List Text) :
    ∃ head, ∀ part, separator.intercalate (front ++ [part]) = head ++ part := by
  by_cases h : front = []
  · subst h
    exact ⟨[], fun part => List.intercalate_singleton⟩
  · refine ⟨separator.intercalate front ++ separator, fun part => ?_⟩
    rw [intercalate_append h (List.cons_ne_nil part []), List.intercalate_singleton, List.append_assoc]

/-- A gap in front of joined texts is in front of the first that is not blank. -/
theorem exists_trim_cons {gap : Text} {later : List Text} (hgap : IsGap gap) (hpart : ¬ IsGap part)
    (h : separator.intercalate (part :: later) = gap ++ rest) :
    ∃ trimmed, IsTrimOf trimmed part ∧ rest = separator.intercalate (trimmed :: later) := by
  obtain ⟨tail, htail⟩ := exists_intercalate_cons separator later
  rw [htail] at h
  rcases List.append_eq_append_iff.mp h with ⟨beyond, hbeyond, -⟩ | ⟨trimmed, rfl, rfl⟩
  · rw [hbeyond] at hgap
    exact absurd (fun c hc => hgap c (List.mem_append_left beyond hc)) hpart
  · refine ⟨trimmed, ⟨gap, [], hgap, Reading.IsGap.nil, ?_⟩, (htail trimmed).symm⟩
    rw [List.append_nil]

theorem exists_trim_concat {gap : Text} {front : List Text} (hgap : IsGap gap) (hpart : ¬ IsGap part)
    (h : separator.intercalate (front ++ [part]) = rest ++ gap) :
    ∃ trimmed, IsTrimOf trimmed part ∧ rest = separator.intercalate (front ++ [trimmed]) := by
  obtain ⟨head, hhead⟩ := exists_intercalate_concat separator front
  rw [hhead] at h
  rcases List.append_eq_append_iff.mp h with ⟨trimmed, rfl, rfl⟩ | ⟨beyond, -, hbeyond⟩
  · exact ⟨trimmed, ⟨[], gap, Reading.IsGap.nil, hgap, rfl⟩, (hhead trimmed).symm⟩
  · rw [hbeyond] at hgap
    exact absurd (fun c hc => hgap c (List.mem_append_right beyond hc)) hpart

/-- Stripping joined texts trims the first and the last. -/
theorem exists_strip_intercalate (h : parts ≠ []) (hparts : ∀ part ∈ parts, ¬ IsGap part) :
    ∃ trimmed, List.Forall₂ IsTrimOf trimmed parts ∧
      strippedText (separator.intercalate parts) = separator.intercalate trimmed := by
  obtain ⟨first, last, hfirst, hlast, heq⟩ := exists_gaps (separator.intercalate parts)
  obtain ⟨part, later, rfl⟩ := List.exists_cons_of_ne_nil h
  obtain ⟨head, hhead, hrest⟩ := exists_trim_cons hfirst (hparts part List.mem_cons_self) heq
  have hbegun : List.Forall₂ IsTrimOf (head :: later) (part :: later) :=
    .cons hhead (forall₂_isTrimOf_refl later)
  have hvisible := forall_not_isGap hbegun hparts
  obtain ⟨front, final, hconcat⟩ :=
    (List.eq_nil_or_concat' (head :: later)).resolve_left (List.cons_ne_nil head later)
  rw [hconcat] at hrest hbegun hvisible
  have hfinal : ¬ IsGap final := hvisible final (List.mem_append_right front List.mem_cons_self)
  obtain ⟨trimmed, htrimmed, hstripped⟩ := exists_trim_concat hlast hfinal hrest.symm
  refine ⟨front ++ [trimmed], ?_, hstripped⟩
  have hended : List.Forall₂ IsTrimOf (front ++ [trimmed]) (front ++ [final]) :=
    List.rel_append (forall₂_isTrimOf_refl front) (.cons htrimmed .nil)
  exact forall₂_isTrimOf_trans hended hbegun

/-- Joining joined texts is joining them all. -/
theorem intercalate_map_intercalate (separator : Text) {groups : List (List Text)}
    (h : ∀ group ∈ groups, group ≠ []) :
    separator.intercalate (groups.map separator.intercalate) = separator.intercalate groups.flatten := by
  induction groups with
  | nil => rfl
  | cons group later ih =>
    rw [List.forall_mem_cons] at h
    by_cases hlater : later = []
    · rw [hlater, List.map_singleton, List.intercalate_singleton, List.flatten_singleton]
    · have hflatten : later.flatten ≠ [] := by
        obtain ⟨next, rest, rfl⟩ := List.exists_cons_of_ne_nil hlater
        have hnext := h.2 next List.mem_cons_self
        rw [List.flatten_cons]
        exact fun hnil => hnext (List.append_eq_nil_iff.mp hnil).1
      have hmap : later.map separator.intercalate ≠ [] := fun hnil => hlater (List.map_eq_nil_iff.mp hnil)
      rw [List.map_cons, List.intercalate_cons_of_ne_nil hmap, ih h.2, List.flatten_cons,
        intercalate_append h.1 hflatten, List.append_assoc]

end

/-! ## What a chunk is made of -/

section

variable {Value Image : Type} {countTokens : Text → Nat} {digest : Text → Text} {limits : MergeLimits}
  {separator : Text} {chunk prev merged : Chunk Value Image} {run more : List (Chunk Value Image)}

theorem madeOf_self (separator : Text) (h : isVisible chunk = true) : MadeOf separator [chunk] chunk := by
  refine ⟨List.cons_ne_nil chunk [], ?_, ⟨[chunk.text], ?_, ?_⟩, ?_⟩
  · intro source hsource
    rw [List.mem_singleton.mp hsource]
    exact of_decide_eq_true h
  · exact forall₂_isTrimOf_refl [chunk.text]
  · rw [List.intercalate_singleton]
  · rw [List.flatMap_singleton]

theorem MadeOf.not_isGap (h : MadeOf separator run chunk) {parts : List Text}
    (hparts : List.Forall₂ IsTrimOf parts (run.map (·.text))) : ∀ part ∈ parts, ¬ IsGap part := by
  refine forall_not_isGap hparts ?_
  intro text htext hgap
  obtain ⟨source, hsource, rfl⟩ := List.mem_map.mp htext
  exact h.visible source hsource (strippedText_eq_nil hgap)

theorem MadeOf.parts_ne_nil (h : MadeOf separator run chunk) {parts : List Text}
    (hparts : List.Forall₂ IsTrimOf parts (run.map (·.text))) : parts ≠ [] := by
  rintro rfl
  have hnil := List.forall₂_nil_left_iff.mp hparts
  exact h.some (List.map_eq_nil_iff.mp hnil)

/-- Two chunks one after the other, of which the second may be stripped. -/
theorem MadeOf.append (h : MadeOf separator run prev) (hmore : MadeOf separator more chunk)
    (htext : merged.text = prev.text ++ (separator ++ chunk.text) ∨
      merged.text = prev.text ++ (separator ++ strippedText chunk.text))
    (himages : merged.associatedImages = prev.associatedImages ++ chunk.associatedImages) :
    MadeOf separator (run ++ more) merged := by
  obtain ⟨parts, hparts, hprev⟩ := h.text
  obtain ⟨others, hothers, hchunk⟩ := hmore.text
  have hne := h.parts_ne_nil hparts
  have hotherne := hmore.parts_ne_nil hothers
  have hjoined : ∃ final, List.Forall₂ IsTrimOf final (more.map (·.text)) ∧ final ≠ [] ∧
      merged.text = prev.text ++ (separator ++ separator.intercalate final) := by
    rcases htext with htext | htext
    · exact ⟨others, hothers, hotherne, by rw [htext, hchunk]⟩
    · obtain ⟨trimmed, htrimmed, hstrip⟩ :=
        @exists_strip_intercalate others separator hotherne (hmore.not_isGap hothers)
      have hfinal := forall₂_isTrimOf_trans htrimmed hothers
      exact ⟨trimmed, hfinal, hmore.parts_ne_nil hfinal, by rw [htext, hchunk, hstrip]⟩
  obtain ⟨final, hfinal, hfinalne, hmerged⟩ := hjoined
  refine ⟨fun hnil => h.some (List.append_eq_nil_iff.mp hnil).1, ?_, ⟨parts ++ final, ?_, ?_⟩, ?_⟩
  · intro source hsource
    exact (List.mem_append.mp hsource).elim (h.visible source) (hmore.visible source)
  · rw [List.map_append]
    exact List.rel_append hparts hfinal
  · rw [hmerged, hprev, intercalate_append hne hfinalne]
  · rw [himages, h.images, hmore.images, List.flatMap_append]

theorem mergeIntoPrevious_spec
    (h : mergeIntoPrevious countTokens digest limits separator prev chunk = some merged) :
    merged.text = prev.text ++ (separator ++ strippedText chunk.text) ∧
      merged.associatedImages = prev.associatedImages ++ chunk.associatedImages := by
  have hmerged := (Option.ite_none_right_eq_some.mp h).2
  obtain rfl := Option.some.inj hmerged
  exact ⟨rfl, rfl⟩

theorem mergeIntoNext_spec
    (h : mergeIntoNext countTokens digest limits separator prev chunk = some merged) :
    merged.text = prev.text ++ (separator ++ chunk.text) ∧
      merged.associatedImages = prev.associatedImages ++ chunk.associatedImages := by
  have hmerged := (Option.ite_none_right_eq_some.mp h).2
  obtain rfl := Option.some.inj hmerged
  exact ⟨rfl, rfl⟩

theorem closed_mergeIntoPrevious :
    Coalescing.Closed (MadeOf separator)
      (@mergeIntoPrevious Value Image countTokens digest limits separator) := by
  intro run more prev chunk merged hrun hmore h
  obtain ⟨htext, himages⟩ := mergeIntoPrevious_spec h
  exact hrun.append hmore (.inr htext) himages

/-! ## The passes -/

abbrev Runs (separator : Text) (sources chunks : List (Chunk Value Image)) : Prop :=
  Coalescing.Runs (MadeOf separator) sources chunks

variable {chunks sources : List (Chunk Value Image)}

theorem runs_firstPass (chunks : List (Chunk Value Image)) :
    Runs separator (chunks.filter isVisible) (firstPass countTokens digest limits separator chunks) := by
  induction chunks using List.reverseRecOn with
  | nil => exact Coalescing.Runs.nil
  | append_singleton front chunk ih =>
    rw [firstPass, List.foldl_append, List.filter_append, ← firstPass, List.foldl_cons, List.foldl_nil]
    by_cases h : isVisible chunk = true
    · rw [if_pos h, List.filter_cons_of_pos h, List.filter_nil]
      exact ih.put closed_mergeIntoPrevious (madeOf_self separator h)
    · rw [if_neg h, List.filter_cons_of_neg h, List.filter_nil, List.append_nil]
      exact ih

theorem runs_secondPass (h : Runs separator sources chunks) :
    Runs separator sources (secondPass countTokens digest limits separator chunks) := by
  unfold secondPass
  split
  · rename_i first second later
    split
    · rename_i chunk hmerge
      obtain ⟨htext, himages⟩ := mergeIntoNext_spec hmerge
      obtain ⟨runs, rfl, hruns⟩ := h
      obtain ⟨run, others, hfirst, hothers, rfl⟩ := List.forall₂_cons_right_iff.mp hruns
      obtain ⟨more, rest, hsecond, hlater, rfl⟩ := List.forall₂_cons_right_iff.mp hothers
      refine ⟨(run ++ more) :: rest, ?_, .cons (hfirst.append hsecond (.inl htext) himages) hlater⟩
      rw [List.flatten_cons, List.flatten_cons, List.flatten_cons, List.append_assoc]
    · exact h
  · exact h

theorem length_secondPass (chunks : List (Chunk Value Image)) :
    (secondPass countTokens digest limits separator chunks).length ≤ chunks.length := by
  unfold secondPass
  split
  · split
    · exact Nat.le_succ _
    · exact le_rfl
  · exact le_rfl

theorem runs_mergePasses (chunks : List (Chunk Value Image)) :
    Runs separator (chunks.filter isVisible) (mergePasses countTokens digest limits separator chunks).1 :=
  (runs_secondPass (runs_firstPass chunks)).rounds closed_mergeIntoPrevious 10

theorem Runs.texts (h : Runs separator sources chunks) :
    ∃ parts, List.Forall₂ IsTrimOf parts (sources.map (·.text)) ∧
      separator.intercalate (chunks.map (·.text)) = separator.intercalate parts := by
  obtain ⟨runs, rfl, hruns⟩ := h
  have hgroups : ∃ groups : List (List Text), (∀ group ∈ groups, group ≠ []) ∧
      List.Forall₂ IsTrimOf groups.flatten (runs.flatten.map (·.text)) ∧
      chunks.map (·.text) = groups.map separator.intercalate := by
    induction hruns with
    | nil => exact ⟨[], nofun, .nil, rfl⟩
    | @cons run chunk runs chunks hrun hruns ih =>
      obtain ⟨groups, hsome, hparts, htexts⟩ := ih
      obtain ⟨parts, hfirst, htext⟩ := hrun.text
      refine ⟨parts :: groups, ?_, ?_, ?_⟩
      · exact List.forall_mem_cons.mpr ⟨hrun.parts_ne_nil hfirst, hsome⟩
      · rw [List.flatten_cons, List.flatten_cons, List.map_append]
        exact List.rel_append hfirst hparts
      · rw [List.map_cons, List.map_cons, htext, htexts]
  obtain ⟨groups, hsome, hparts, htexts⟩ := hgroups
  refine ⟨groups.flatten, hparts, ?_⟩
  rw [htexts, intercalate_map_intercalate separator hsome]

theorem Runs.images (h : Runs separator sources chunks) :
    chunks.flatMap (·.associatedImages) = sources.flatMap (·.associatedImages) := by
  obtain ⟨runs, rfl, hruns⟩ := h
  induction hruns with
  | nil => rfl
  | cons hrun hruns ih =>
    rw [List.flatMap_cons, List.flatten_cons, List.flatMap_append, hrun.images, ih]

theorem Runs.length_le (h : Runs separator sources chunks) : chunks.length ≤ sources.length := by
  obtain ⟨runs, rfl, hruns⟩ := h
  induction hruns with
  | nil => exact le_rfl
  | @cons run chunk runs chunks hrun hruns ih =>
    have hpos : 0 < run.length := List.length_pos_iff.mpr hrun.some
    rw [List.flatten_cons, List.length_append, List.length_cons]
    omega

/-! ## The law of `merge_small_chunks` -/

/-- Only their texts decide whether two chunks are merged. -/
theorem mergeIntoPrevious_eq_none {prev' chunk' : Chunk Value Image} (hprev : prev'.text = prev.text)
    (hchunk : chunk'.text = chunk.text)
    (h : mergeIntoPrevious countTokens digest limits separator prev chunk = none) :
    mergeIntoPrevious countTokens digest limits separator prev' chunk' = none := by
  have hnot := ite_eq_right_iff.mp h
  refine ite_eq_right_iff.mpr fun hmerge => ?_
  rw [hprev, hchunk] at hmerge
  cases hnot hmerge

theorem settled_reindexed (h : Settled countTokens digest limits separator chunks) :
    Settled countTokens digest limits separator (reindexed chunks) := by
  rw [← List.zipIdx_map_fst 0 chunks] at h
  have hchain := (List.isChain_map _).mp h
  refine (List.isChain_map _).mpr (hchain.imp ?_)
  rintro ⟨prev, i⟩ ⟨chunk, j⟩ hnone
  refine mergeIntoPrevious_eq_none ?_ ?_ hnone <;> rfl

end

/-! ## Where the stable merge fails -/

/-- Every character is a token. -/
def countCharacters (text : Text) : Nat := text.length

def chunkOf (text : String) : Chunk String String := { text := text.toList }

abbrev StableMergeOf (limits : MergeLimits) (chunks : List (Chunk String String)) : Prop :=
  StableMerge countCharacters id limits [] chunks
    (mergeSmallChunks countCharacters id limits [] chunks)

/-- Twelve chunks that begin with blanks, and a small one. -/
def leadingBlanks : List (Chunk String String) :=
  List.replicate 12 (chunkOf "             x") ++ [chunkOf "xx"]

end AiPlatform.Knowledge
