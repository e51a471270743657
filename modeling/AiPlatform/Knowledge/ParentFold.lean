/-
  AiPlatform.Knowledge.ParentFold

  Folding child hits into their parents (`fold_candidates_to_parents` of
  `parent_child_retrieval.py`).

  Grouping, the choice of the best child, the representatives and the emission are
  passes over positions.  `rowAt` says what the passes make of one position.
-/

import AiPlatform.Knowledge.Candidates
import AiPlatform.Lib.Grouping
import Mathlib.Data.Finset.Union
import Mathlib.Order.Bounds.Basic

namespace AiPlatform.Knowledge

open Grouping

inductive ReturnMode where
  | parent
  | context
  deriving DecidableEq, Repr

/-- What awaiting `db.get_segment_scoped` came to. -/
inductive Fetched where
  | value (row : PyJson)
  | raised
  | cancelled

/-- `asyncio.CancelledError` -/
inductive CancelledError where
  | cancelled
  deriving DecidableEq, Repr

structure FoldStats where
  mode : ReturnMode
  childHits : Nat
  parents : Nat
  collapsedChildren : Nat
  unresolvedParents : Nat
  authorityUnavailable : Bool
  deriving DecidableEq, Repr

section

variable {Score : Type} [LinearOrder Score] [Zero Score]
variable (str : PyJson → PyStr) (rounded : Score → PyJson)

/-! ## The passes -/

/-- The parent that a candidate is grouped under. -/
def parentKey (candidate : Candidate Score) : Option PyStr :=
  let parentId := candidateParentId str candidate
  if parentId = [] then none else some parentId

def scoreAt (candidates : List (Candidate Score)) (index : Nat) : Score :=
  (candidates[index]?.map Candidate.score).getD 0

/-- The groups of `_group_children`, each with its best child first. -/
def groupChildren (candidates : List (Candidate Score)) : List (PyStr × List Nat) :=
  (collect (candidates.map (parentKey str))).map fun group =>
    (group.1, byScore (scoreAt candidates) group.2)

def addSources (sources : Finset PyStr) (candidate : Candidate Score) : Finset PyStr :=
  match candidate.sources with
  | .set members => sources ∪ members
  | .list members => sources ∪ members.toFinset
  | .absent => sources

/-- `merged.setdefault(key, value)` for each member of the payload. -/
def setDefaults (merged payload : List (PyStr × PyJson)) : List (PyStr × PyJson) :=
  payload.foldl (fun merged member =>
    if (merged.lookup member.1).isSome then merged else Assoc.set member.1 member.2 merged) merged

/-- The text of the parent, nothing where there is no row. -/
def parentText (parentRow : Option PyJson) : PyStr :=
  stripText (strOr str ((parentRow.getD (.dict [])).get (lit "text")))

def childRow (candidate : Candidate Score) : PyJson :=
  .dict [(lit "segment_id", .str candidate.segmentId), (lit "score", rounded candidate.score)]

/-- `_build_parent_row` -/
def buildParentRow (bestChild : Candidate Score) (group : List (Candidate Score))
    (parentId : PyStr) (parentRow : Option PyJson) (mode : ReturnMode) : Candidate Score :=
  let parent := parentRow.getD (.dict [])
  let text := parentText str parentRow
  let payload := match parent.get (lit "metadata") with
    | .dict members => setDefaults members bestChild.metadata
    | _ => bestChild.metadata
  let payload := Assoc.set (lit "parent_segment_id") (.str parentId) payload
  let payload := if text = [] then payload else match mode with
    | .parent => Assoc.set (lit "segment_id") (.str parentId) payload
    | .context => Assoc.set (lit "parent_context") (.str text) payload
  let status := if text ≠ [] then "resolved" else "parent_text_missing"
  let parentDocument := parent.get (lit "document_id")
  let contentType := stripText (strOr str (parent.get (lit "content_type")))
  let payload := if contentType ≠ [] then
      Assoc.set (lit "content_type") (.str contentType) payload
    else payload
  let sources := group.foldl addSources ∅
  let provenance : PyJson := .dict
    [(lit "mode", .str (lit (match mode with | .parent => "parent" | .context => "context"))),
      (lit "status", .str (lit status)), (lit "parent_segment_id", .str parentId),
      (lit "children", .list (group.map (childRow rounded)))]
  { bestChild with
    -- in this mode the row is the parent itself
    segmentId := if mode = .parent ∧ text ≠ [] then parentId else bestChild.segmentId
    text := if mode = .parent ∧ text ≠ [] then .str text else bestChild.text
    documentId := .str (strOr str
      (if parentDocument.truthy then parentDocument else bestChild.documentId))
    sources := if sources = ∅ then bestChild.sources else .set sources
    metadata := Assoc.set (lit "_parent_child") provenance payload }

/-- The first candidate with the highest score. -/
def bestOf (first : Candidate Score) (rest : List (Candidate Score)) : Candidate Score :=
  rest.foldl (fun best candidate => if best.score < candidate.score then candidate else best) first

def highestOf (first : Candidate Score) (rest : List (Candidate Score)) : Score :=
  rest.foldl (fun score candidate => max score candidate.score) first.score

/-- The row that stands for a group. -/
def representative (first : Candidate Score) (rest : List (Candidate Score)) (parentId : PyStr)
    (parentRow : Option PyJson) (mode : ReturnMode) : Candidate Score :=
  { buildParentRow str rounded (bestOf first rest) (first :: rest) parentId parentRow mode with
    finalScore := some (highestOf first rest) }

/-- A row of the authority, where it is the parent's own. -/
def ownRow (parentId : PyStr) (row : PyJson) : Option PyJson :=
  if row.isDict ∧ strOr str (row.get (lit "segment_id")) = parentId then some row else none

def fetchParents (getSegment : PyStr → Fetched) :
    List (PyStr × List Nat) → Except CancelledError (List (PyStr × PyJson))
  | [] => .ok []
  | (parentId, _) :: rest =>
    match getSegment parentId with
    | .cancelled => .error .cancelled
    | .raised => fetchParents getSegment rest
    | .value row =>
      match ownRow str parentId row with
      | some row => (fetchParents getSegment rest).map fun rows => (parentId, row) :: rows
      | none => fetchParents getSegment rest

structure Representatives (Score : Type) where
  byBestIndex : List (Nat × Candidate Score)
  skip : Finset Nat

/-- The body of the loop over the groups; no group is empty. -/
def represent (candidates : List (Candidate Score)) (parentRows : List (PyStr × PyJson))
    (mode : ReturnMode) (state : Representatives Score) (group : PyStr × List Nat) :
    Representatives Score :=
  match group.2.head?, group.2.filterMap (candidates[·]?) with
  | some bestIndex, first :: rest =>
    { byBestIndex := Assoc.set bestIndex
        (representative str rounded first rest group.1 (parentRows.lookup group.1) mode)
        state.byBestIndex
      skip := (state.skip ∪ group.2.toFinset).erase bestIndex }
  | _, _ => state

/-- The emission of one position. -/
def emit (state : Representatives Score) (entry : Candidate Score × Nat) :
    Option (Candidate Score) :=
  match state.byBestIndex.lookup entry.2 with
  | some row => some row
  | none => if entry.2 ∈ state.skip then none else some entry.1

/-- The scoped authority is missing where `db` has no such method. -/
def foldCandidatesToParents (candidates : List (Candidate Score)) (mode : ReturnMode)
    (getSegment : Option (PyStr → Fetched)) :
    Except CancelledError (List (Candidate Score) × FoldStats) :=
  let groups := groupChildren str candidates
  let stats : FoldStats :=
    { mode
      childHits := (groups.map fun group => group.2.length).sum
      parents := groups.length
      collapsedChildren := (groups.map fun group => group.2.length - 1).sum
      unresolvedParents := 0
      authorityUnavailable := false }
  if groups = [] then .ok (candidates, stats)
  else do
    let parentRows ← match getSegment with
      | some getSegment => fetchParents str getSegment groups
      | none => .ok []
    let state := groups.foldl (represent str rounded candidates parentRows mode) ⟨[], ∅⟩
    .ok (candidates.zipIdx.filterMap (emit state),
      { stats with
        unresolvedParents := groups.countP fun group => (parentRows.lookup group.1).isNone
        authorityUnavailable := getSegment.isNone })

/-! ## The law -/

/-- The row that the authority gives for a parent, none where it is missing, raises
    or answers with another row. -/
def resolvedRow (getSegment : Option (PyStr → Fetched)) (parentId : PyStr) : Option PyJson :=
  match getSegment with
  | none => none
  | some getSegment =>
    match getSegment parentId with
    | .value row => ownRow str parentId row
    | .raised | .cancelled => none

/-- The positions of a parent's children. -/
def childrenOf (candidates : List (Candidate Score)) (parentId : PyStr) : List Nat :=
  positions (candidates.map (parentKey str)) parentId

/-- A position that gets a row: that of a candidate without a parent, or of the first
    best child of one. -/
def Keeps (candidates : List (Candidate Score)) (index : Nat) : Prop :=
  ∀ candidate parentId, candidates[index]? = some candidate →
    parentKey str candidate = some parentId →
      FirstBest (scoreAt candidates) (childrenOf str candidates parentId) index

variable (mode : ReturnMode) (getSegment : Option (PyStr → Fetched))

/-- The parent is served in place of its children. -/
def Serves (parentId : PyStr) : Prop :=
  mode = .parent ∧ parentText str (resolvedRow str getSegment parentId) ≠ []

/-- What the row of a group says. -/
structure GroupRow (candidates : List (Candidate Score)) (candidate : Candidate Score)
    (parentId : PyStr) (row : Candidate Score) : Prop where
  score : IsGreatest {score | ∃ i ∈ childrenOf str candidates parentId, scoreAt candidates i = score}
    row.score
  served : Serves str mode getSegment parentId → row.segmentId = parentId ∧
    row.text = .str (parentText str (resolvedRow str getSegment parentId))
  child : ¬ Serves str mode getSegment parentId →
    row.segmentId = candidate.segmentId ∧ row.text = candidate.text

def RowAt (candidates : List (Candidate Score)) (index : Nat) (row : Candidate Score) : Prop :=
  ∃ candidate, candidates[index]? = some candidate ∧
    match parentKey str candidate with
    | none => row = candidate
    | some parentId => GroupRow str mode getSegment candidates candidate parentId row

structure ParentFold (candidates rows : List (Candidate Score)) : Prop where
  slots : ∃ indices : List Nat, indices.Pairwise (· < ·) ∧
    (∀ i, i ∈ indices ↔ i < candidates.length ∧ Keeps str candidates i) ∧
    List.Forall₂ (RowAt str mode getSegment candidates) indices rows
  oneEach : ∀ parentId, childrenOf str candidates parentId ≠ [] →
    ∃! i, FirstBest (scoreAt candidates) (childrenOf str candidates parentId) i
  distinct : mode = .parent → (rows.map Candidate.segmentId).Nodup

/-- No candidate that keeps its own row carries the id of a parent that is served. -/
def NoIdClash (candidates : List (Candidate Score)) : Prop :=
  ∀ parentId, childrenOf str candidates parentId ≠ [] → Serves str mode getSegment parentId →
    ∀ i candidate, candidates[i]? = some candidate → Keeps str candidates i →
      (∀ other, parentKey str candidate = some other → ¬ Serves str mode getSegment other) →
        candidate.segmentId ≠ parentId

/-! ## The best child -/

section

variable {str mode getSegment rounded}
variable {candidates : List (Candidate Score)} {first candidate : Candidate Score}
  {rest : List (Candidate Score)} {index : Nat} {parentId : PyStr}

theorem bestOf_eq (h : ∀ candidate ∈ rest, candidate.score ≤ first.score) :
    bestOf first rest = first := by
  induction rest with
  | nil => rfl
  | cons candidate rest ih =>
    rw [bestOf, List.foldl_cons, if_neg (not_lt.mpr (h candidate List.mem_cons_self))]
    exact ih fun other hother => h other (List.mem_cons_of_mem _ hother)

theorem highestOf_eq (h : ∀ candidate ∈ rest, candidate.score ≤ first.score) :
    highestOf first rest = first.score := by
  rw [highestOf]
  induction rest with
  | nil => rfl
  | cons candidate rest ih =>
    rw [List.foldl_cons, max_eq_left (h candidate List.mem_cons_self)]
    exact ih fun other hother => h other (List.mem_cons_of_mem _ hother)

omit [LinearOrder Score] [Zero Score] in
theorem mem_childrenOf : index ∈ childrenOf str candidates parentId ↔
    ∃ candidate, candidates[index]? = some candidate ∧ parentKey str candidate = some parentId := by
  rw [childrenOf, mem_positions, List.getElem?_map, Option.map_eq_some_iff]

omit [LinearOrder Score] in
theorem scoreAt_eq (h : candidates[index]? = some candidate) :
    scoreAt candidates index = candidate.score := by
  rw [scoreAt, h, Option.map_some, Option.getD_some]

/-- The children of a group, best first. -/
theorem exists_group (h : childrenOf str candidates parentId ≠ []) :
    ∃ best others, byScore (scoreAt candidates) (childrenOf str candidates parentId) = best :: others ∧
      FirstBest (scoreAt candidates) (childrenOf str candidates parentId) best := by
  cases hsorted : byScore (scoreAt candidates) (childrenOf str candidates parentId) with
  | nil =>
    have hmem : ∀ i, i ∉ childrenOf str candidates parentId := by
      intro i hi
      rw [← mem_byScore (scoreAt candidates), hsorted] at hi
      cases hi
    exact absurd (List.eq_nil_iff_forall_not_mem.mpr hmem) h
  | cons best others => exact ⟨best, others, rfl, firstBest_head pairwise_positions hsorted⟩

theorem oneEach (h : childrenOf str candidates parentId ≠ []) :
    ∃! i, FirstBest (scoreAt candidates) (childrenOf str candidates parentId) i := by
  obtain ⟨best, -, -, hbest⟩ := exists_group h
  exact ⟨best, hbest, fun other hother => hother.unique hbest⟩

/-! ## The representatives -/

/-- The row of a group. -/
def groupRow (str : PyJson → PyStr) (rounded : Score → PyJson) (candidates : List (Candidate Score))
    (parentRows : List (PyStr × PyJson)) (mode : ReturnMode) (group : PyStr × List Nat) :
    Option (Candidate Score) :=
  match group.2.filterMap (candidates[·]?) with
  | first :: rest =>
    some (representative str rounded first rest group.1 (parentRows.lookup group.1) mode)
  | [] => none

variable {parentRows : List (PyStr × PyJson)} {state : Representatives Score}
  {group : PyStr × List Nat} {groups : List (PyStr × List Nat)}

variable (str) (rounded) (mode) (candidates) (parentRows) (state) in
/-- A group leaves the other positions alone. -/
theorem represent_frame (h : index ∉ group.2) :
    (represent str rounded candidates parentRows mode state group).byBestIndex.lookup index =
        state.byBestIndex.lookup index ∧
      (index ∈ (represent str rounded candidates parentRows mode state group).skip ↔
        index ∈ state.skip) := by
  unfold represent
  split
  · rename_i bestIndex first rest hhead hfirst
    have hne : index ≠ bestIndex := fun heq => h (heq ▸ List.mem_of_mem_head? hhead)
    constructor
    · exact Assoc.lookup_set_ne hne
    · rw [Finset.mem_erase, Finset.mem_union, List.mem_toFinset]
      exact ⟨fun hmem => hmem.2.resolve_right h, fun hmem => ⟨hne, .inl hmem⟩⟩
  · exact ⟨rfl, Iff.rfl⟩

variable (str) (rounded) (mode) (candidates) (parentRows) (state) in
theorem represent_frame_all (h : ∀ group ∈ groups, index ∉ group.2) :
    (groups.foldl (represent str rounded candidates parentRows mode) state).byBestIndex.lookup index =
        state.byBestIndex.lookup index ∧
      (index ∈ (groups.foldl (represent str rounded candidates parentRows mode) state).skip ↔
        index ∈ state.skip) := by
  induction groups generalizing state with
  | nil => exact ⟨rfl, Iff.rfl⟩
  | cons group rest ih =>
    rw [List.foldl_cons]
    obtain ⟨hlookup, hskip⟩ := ih (represent str rounded candidates parentRows mode state group)
      fun group hgroup => h group (List.mem_cons_of_mem _ hgroup)
    obtain ⟨hlookup', hskip'⟩ := represent_frame str rounded mode candidates parentRows state
      (h group List.mem_cons_self)
    exact ⟨hlookup.trans hlookup', hskip.trans hskip'⟩

variable (str) (rounded) (mode) (candidates) (parentRows) (state) in
/-- What a group makes of its own positions. -/
theorem represent_own {bestIndex : Nat} (hhead : group.2.head? = some bestIndex)
    (hbest : bestIndex < candidates.length) (hindex : index ∈ group.2) :
    (represent str rounded candidates parentRows mode state group).byBestIndex.lookup index =
        (if index = bestIndex then groupRow str rounded candidates parentRows mode group
          else state.byBestIndex.lookup index) ∧
      (index ∈ (represent str rounded candidates parentRows mode state group).skip ↔
        index ≠ bestIndex) := by
  obtain ⟨others, hgroup⟩ := List.head?_eq_some_iff.mp hhead
  have hfirst : group.2.filterMap (candidates[·]?) =
      candidates[bestIndex] :: others.filterMap (candidates[·]?) := by
    rw [hgroup, List.filterMap_cons_some (List.getElem?_eq_getElem hbest)]
  unfold represent groupRow
  rw [hhead, hfirst]
  dsimp only
  constructor
  · by_cases heq : index = bestIndex
    · rw [if_pos heq, heq, Assoc.lookup_set_self]
    · rw [if_neg heq, Assoc.lookup_set_ne heq]
  · rw [Finset.mem_erase, Finset.mem_union, List.mem_toFinset, and_iff_left (.inr hindex)]

/-! ## The groups of the list -/

theorem mem_groupChildren : group ∈ groupChildren str candidates ↔
    group.2 = byScore (scoreAt candidates) (childrenOf str candidates group.1) ∧
      childrenOf str candidates group.1 ≠ [] := by
  obtain ⟨parentId, indices⟩ := group
  rw [groupChildren, List.mem_map]
  constructor
  · rintro ⟨⟨key, members⟩, hmem, heq⟩
    obtain ⟨rfl, rfl⟩ := Prod.mk.inj heq
    obtain ⟨rfl, hne⟩ := mem_collect.mp hmem
    exact ⟨rfl, hne⟩
  · rintro ⟨hsorted, hne⟩
    refine ⟨(parentId, childrenOf str candidates parentId), mem_collect.mpr ⟨rfl, hne⟩, ?_⟩
    exact Prod.ext rfl hsorted.symm

theorem nodup_groupChildren : (groupChildren str candidates).Nodup := by
  refine List.Nodup.of_map Prod.fst ?_
  rw [groupChildren, List.map_map]
  exact nodup_collect

/-- A position of a group has the group's parent. -/
theorem parentKey_of_mem_group (hgroup : group ∈ groupChildren str candidates)
    (hindex : index ∈ group.2) :
    ∃ candidate, candidates[index]? = some candidate ∧
      parentKey str candidate = some group.1 := by
  rw [(mem_groupChildren.mp hgroup).1, mem_byScore, mem_childrenOf] at hindex
  exact hindex

theorem group_eq_of_mem {other : PyStr × List Nat} (hgroup : group ∈ groupChildren str candidates)
    (hother : other ∈ groupChildren str candidates) (hindex : index ∈ group.2)
    (hindex' : index ∈ other.2) : other = group := by
  obtain ⟨candidate, hcandidate, hkey⟩ := parentKey_of_mem_group hgroup hindex
  obtain ⟨candidate', hcandidate', hkey'⟩ := parentKey_of_mem_group hother hindex'
  obtain rfl := Option.some.inj (hcandidate.symm.trans hcandidate')
  have hid : other.1 = group.1 := Option.some.inj (hkey'.symm.trans hkey)
  refine Prod.ext hid ?_
  rw [(mem_groupChildren.mp hgroup).1, (mem_groupChildren.mp hother).1, hid]

/-- The representatives of all groups. -/
def representAll (str : PyJson → PyStr) (rounded : Score → PyJson)
    (candidates : List (Candidate Score)) (parentRows : List (PyStr × PyJson)) (mode : ReturnMode) :
    Representatives Score :=
  (groupChildren str candidates).foldl (represent str rounded candidates parentRows mode) ⟨[], ∅⟩

variable (rounded) (mode) (parentRows) in
theorem representAll_none (hcandidate : candidates[index]? = some candidate)
    (hkey : parentKey str candidate = none) :
    (representAll str rounded candidates parentRows mode).byBestIndex.lookup index = none ∧
      index ∉ (representAll str rounded candidates parentRows mode).skip := by
  have hframe : ∀ group ∈ groupChildren str candidates, index ∉ group.2 := by
      intro group hgroup hindex
      obtain ⟨candidate', hcandidate', hkey'⟩ := parentKey_of_mem_group hgroup hindex
      obtain rfl := Option.some.inj (hcandidate.symm.trans hcandidate')
      rw [hkey] at hkey'
      cases hkey'
  obtain ⟨hlookup, hskip⟩ :=
    represent_frame_all str rounded mode candidates parentRows ⟨[], ∅⟩ hframe
  exact ⟨hlookup, fun hmem => by simpa using hskip.mp hmem⟩

variable (rounded) (mode) (parentRows) in
theorem representAll_some {bestIndex : Nat} (hgroup : group ∈ groupChildren str candidates)
    (hindex : index ∈ group.2) (hhead : group.2.head? = some bestIndex) :
    (representAll str rounded candidates parentRows mode).byBestIndex.lookup index =
        (if index = bestIndex then groupRow str rounded candidates parentRows mode group else none) ∧
      (index ∈ (representAll str rounded candidates parentRows mode).skip ↔ index ≠ bestIndex) := by
  have hbest : bestIndex < candidates.length := by
    obtain ⟨_, hbest, -⟩ := parentKey_of_mem_group hgroup (List.mem_of_mem_head? hhead)
    exact (List.getElem?_eq_some_iff.mp hbest).1
  obtain ⟨before, after, hsplit⟩ := List.append_of_mem hgroup
  have hnodup : (groupChildren str candidates).Nodup := nodup_groupChildren
  rw [hsplit, List.nodup_middle, List.nodup_cons, List.mem_append, not_or] at hnodup
  -- the position is in no other group
  have hframe : ∀ other ∈ groupChildren str candidates, other ≠ group → index ∉ other.2 :=
    fun other hother hne hmem => hne (group_eq_of_mem hgroup hother hindex hmem)
  have hbefore : ∀ other ∈ before, index ∉ other.2 := by
    refine fun other hother => hframe other ?_ fun heq => hnodup.1.1 (heq ▸ hother)
    rw [hsplit]
    exact List.mem_append_left _ hother
  have hafter : ∀ other ∈ after, index ∉ other.2 := by
    refine fun other hother => hframe other ?_ fun heq => hnodup.1.2 (heq ▸ hother)
    rw [hsplit]
    exact List.mem_append_right _ (List.mem_cons_of_mem _ hother)
  rw [representAll, hsplit, List.foldl_append, List.foldl_cons]
  generalize hstart : before.foldl (represent str rounded candidates parentRows mode) ⟨[], ∅⟩ = start
  have hlookup := (represent_frame_all str rounded mode candidates parentRows ⟨[], ∅⟩ hbefore).1
  rw [hstart] at hlookup
  obtain ⟨hlookup', hskip'⟩ :=
    represent_own str rounded mode candidates parentRows start hhead hbest hindex
  obtain ⟨hlookup'', hskip''⟩ := represent_frame_all str rounded mode candidates parentRows
    (represent str rounded candidates parentRows mode start group) hafter
  rw [hlookup'', hlookup', hlookup, hskip'', hskip']
  exact ⟨rfl, Iff.rfl⟩

/-! ## The rows -/

variable (rounded) (mode) in
theorem groupRow_spec {bestIndex : Nat} {others : List Nat}
    (hrows : parentRows.lookup parentId = resolvedRow str getSegment parentId)
    (hsorted : byScore (scoreAt candidates) (childrenOf str candidates parentId) =
      bestIndex :: others)
    (hcandidate : candidates[bestIndex]? = some candidate) :
    ∃ row, groupRow str rounded candidates parentRows mode (parentId, bestIndex :: others) =
      some row ∧ GroupRow str mode getSegment candidates candidate parentId row := by
  have hbest := firstBest_head pairwise_positions hsorted
  have hle : ∀ other ∈ others.filterMap (candidates[·]?), other.score ≤ candidate.score := by
    intro other hother
    obtain ⟨i, hi, hother⟩ := List.mem_filterMap.mp hother
    have hmem : i ∈ childrenOf str candidates parentId := by
      rw [← mem_byScore (scoreAt candidates), hsorted]
      exact List.mem_cons_of_mem _ hi
    have hscore := hbest.le i hmem
    rwa [scoreAt_eq hother, scoreAt_eq hcandidate] at hscore
  refine ⟨_, by rw [groupRow, List.filterMap_cons_some hcandidate], ?_⟩
  rw [representative, bestOf_eq hle, highestOf_eq hle, hrows]
  have hscore : scoreAt candidates bestIndex = candidate.score := scoreAt_eq hcandidate
  constructor
  · refine ⟨⟨bestIndex, hbest.mem, hscore⟩, ?_⟩
    rintro score ⟨i, hi, rfl⟩
    exact (hbest.le i hi).trans_eq hscore
  · exact fun hserves => ⟨if_pos hserves, if_pos hserves⟩
  · exact fun hserves => ⟨if_neg hserves, if_neg hserves⟩

variable (rounded) (mode) in
/-- What is emitted at a position. -/
theorem emit_spec
    (hrows : ∀ parentId, childrenOf str candidates parentId ≠ [] →
      parentRows.lookup parentId = resolvedRow str getSegment parentId)
    (hcandidate : candidates[index]? = some candidate) :
    (Keeps str candidates index ∧ ∃ row,
        emit (representAll str rounded candidates parentRows mode) (candidate, index) = some row ∧
          RowAt str mode getSegment candidates index row) ∨
      (¬ Keeps str candidates index ∧
        emit (representAll str rounded candidates parentRows mode) (candidate, index) = none) := by
  cases hkey : parentKey str candidate with
  | none =>
    obtain ⟨hlookup, hskip⟩ := representAll_none rounded mode parentRows hcandidate hkey
    refine .inl ⟨fun candidate' parentId hcandidate' hkey' => ?_, candidate, ?_, candidate,
      hcandidate, ?_⟩
    · obtain rfl := Option.some.inj (hcandidate.symm.trans hcandidate')
      rw [hkey] at hkey'
      cases hkey'
    · rw [emit, hlookup]
      exact if_neg hskip
    · rw [hkey]
  | some parentId =>
    have hmem : index ∈ childrenOf str candidates parentId :=
      mem_childrenOf.mpr ⟨candidate, hcandidate, hkey⟩
    have hne : childrenOf str candidates parentId ≠ [] := List.ne_nil_of_mem hmem
    obtain ⟨bestIndex, others, hsorted, hbest⟩ := exists_group hne
    have hgroup : (parentId, bestIndex :: others) ∈ groupChildren str candidates :=
      mem_groupChildren.mpr ⟨hsorted.symm, hne⟩
    have hindex : index ∈ bestIndex :: others := by
      rw [← hsorted]
      exact (mem_byScore _).mpr hmem
    obtain ⟨hlookup, hskip⟩ := representAll_some rounded mode parentRows hgroup hindex rfl
    by_cases heq : index = bestIndex
    · subst heq
      obtain ⟨row, hrow, hspec⟩ := groupRow_spec rounded mode
        (hrows parentId hne) hsorted hcandidate
      refine .inl ⟨fun candidate' parentId' hcandidate' hkey' => ?_, row, ?_, candidate,
        hcandidate, ?_⟩
      · obtain rfl := Option.some.inj (hcandidate.symm.trans hcandidate')
        obtain rfl := Option.some.inj (hkey.symm.trans hkey')
        exact hbest
      · rw [emit, hlookup, if_pos rfl, hrow]
      · rw [hkey]
        exact hspec
    · refine .inr ⟨fun hkeeps => heq ((hkeeps candidate parentId hcandidate hkey).unique hbest), ?_⟩
      rw [emit, hlookup, if_neg heq]
      exact if_pos (hskip.mpr heq)

/-! ## The list of rows -/

theorem lookup_fetchParents {fetch : PyStr → Fetched} {rows : List (PyStr × PyJson)}
    (h : fetchParents str fetch groups = .ok rows) (parentId : PyStr) :
    rows.lookup parentId =
      if parentId ∈ groups.map Prod.fst then resolvedRow str (some fetch) parentId else none := by
  induction groups generalizing rows with
  | nil =>
    obtain rfl := Except.ok.inj h
    rfl
  | cons group rest ih =>
    have hskip : resolvedRow str (some fetch) group.1 = none →
        fetchParents str fetch rest = .ok rows → rows.lookup parentId =
          if parentId ∈ (group :: rest).map Prod.fst then resolvedRow str (some fetch) parentId
          else none := by
      intro hnone hrest
      rw [ih hrest, List.map_cons]
      by_cases heq : parentId = group.1
      · rw [heq, hnone, ite_self, ite_self]
      · simp only [List.mem_cons, heq, false_or]
    rw [fetchParents] at h
    split at h
    · cases h
    · rename_i hraised
      exact hskip (by rw [resolvedRow, hraised]) h
    · rename_i row hvalue
      have hown : resolvedRow str (some fetch) group.1 = ownRow str group.1 row := by
        rw [resolvedRow, hvalue]
      split at h
      · rename_i own hrow
        obtain ⟨rows', hrest, heq⟩ : ∃ rows', fetchParents str fetch rest = .ok rows' ∧
            (group.1, own) :: rows' = rows := by
          cases hrest : fetchParents str fetch rest with
          | error _ => rw [hrest] at h; cases h
          | ok rows' => rw [hrest] at h; exact ⟨rows', rfl, Except.ok.inj h⟩
        subst heq
        rw [List.map_cons]
        by_cases heq : parentId = group.1
        · subst heq
          rw [List.lookup_cons_self, if_pos List.mem_cons_self, hown, hrow]
        · have hne : (parentId == group.1) = false := by simpa using heq
          rw [List.lookup_cons, hne, ih hrest]
          simp only [List.mem_cons, heq, false_or]
      · rename_i hrow
        exact hskip (hown.trans hrow) h

omit [LinearOrder Score] [Zero Score] in
/-- Where nothing is grouped every candidate is emitted. -/
theorem filterMap_emit_start : candidates.zipIdx.filterMap (emit ⟨[], ∅⟩) = candidates := by
  have hemit : (emit ⟨[], ∅⟩ : Candidate Score × Nat → Option (Candidate Score)) =
      fun entry => some entry.1 := by
    funext entry
    rfl
  rw [hemit, List.filterMap_eq_map', List.zipIdx_map_fst]

/-- What a fold returns. -/
theorem rows_eq {rows : List (Candidate Score)} {stats : FoldStats}
    (h : foldCandidatesToParents str rounded candidates mode getSegment = .ok (rows, stats)) :
    ∃ parentRows : List (PyStr × PyJson),
      (∀ parentId, childrenOf str candidates parentId ≠ [] →
        parentRows.lookup parentId = resolvedRow str getSegment parentId) ∧
      rows = candidates.zipIdx.filterMap
        (emit (representAll str rounded candidates parentRows mode)) := by
  have hmem : ∀ parentId, childrenOf str candidates parentId ≠ [] →
      parentId ∈ (groupChildren str candidates).map Prod.fst := fun parentId hne =>
    List.mem_map_of_mem (f := Prod.fst)
      (mem_groupChildren.mpr
        (show (parentId, byScore (scoreAt candidates) (childrenOf str candidates parentId)).2 = _ ∧ _
          from ⟨rfl, hne⟩))
  unfold foldCandidatesToParents at h
  dsimp only at h
  split at h
  · rename_i hnil
    obtain ⟨rfl, -⟩ := Prod.mk.inj (Except.ok.inj h)
    refine ⟨[], fun parentId hne => ?_, ?_⟩
    · have habsent := hmem parentId hne
      rw [hnil] at habsent
      cases habsent
    · rw [representAll, hnil]
      exact filterMap_emit_start.symm
  · cases getSegment with
    | none =>
      obtain ⟨rfl, -⟩ := Prod.mk.inj (Except.ok.inj h)
      exact ⟨[], fun _ _ => rfl, rfl⟩
    | some fetch =>
      dsimp only at h
      cases hfetch : fetchParents str fetch (groupChildren str candidates) with
      | error _ =>
        rw [hfetch] at h
        cases h
      | ok parentRows =>
        rw [hfetch] at h
        obtain ⟨rfl, -⟩ := Prod.mk.inj (Except.ok.inj h)
        refine ⟨parentRows, fun parentId hne => ?_, rfl⟩
        rw [lookup_fetchParents hfetch, if_pos (hmem parentId hne)]

/-- The rows and the positions they are emitted at. -/
theorem slots_of_rows_eq {rows : List (Candidate Score)}
    (hrows : ∀ parentId, childrenOf str candidates parentId ≠ [] →
      parentRows.lookup parentId = resolvedRow str getSegment parentId)
    (h : rows = candidates.zipIdx.filterMap
      (emit (representAll str rounded candidates parentRows mode))) :
    ∃ indices : List Nat, indices.Pairwise (· < ·) ∧
      (∀ i, i ∈ indices ↔ i < candidates.length ∧ Keeps str candidates i) ∧
      List.Forall₂ (RowAt str mode getSegment candidates) indices rows := by
  obtain ⟨indices, hincreasing, hmem, hemitted⟩ := exists_emitted candidates
    (emit (representAll str rounded candidates parentRows mode))
  subst h
  refine ⟨indices, hincreasing, fun i => ?_, hemitted.imp ?_⟩
  · rw [hmem]
    constructor
    · rintro ⟨candidate, hcandidate, hsome⟩
      refine ⟨(List.getElem?_eq_some_iff.mp hcandidate).1, ?_⟩
      rcases emit_spec rounded mode hrows hcandidate with
        ⟨hkeeps, -⟩ | ⟨-, hnone⟩
      · exact hkeeps
      · rw [hnone] at hsome
        cases hsome
    · rintro ⟨hlt, hkeeps⟩
      refine ⟨candidates[i], List.getElem?_eq_getElem hlt, ?_⟩
      rcases emit_spec rounded mode hrows (List.getElem?_eq_getElem hlt) with
        ⟨-, row, hrow, -⟩ | ⟨hdrops, -⟩
      · rw [hrow]
        rfl
      · exact absurd hkeeps hdrops
  · rintro i row ⟨candidate, hcandidate, hrow⟩
    rcases emit_spec rounded mode hrows hcandidate with
      ⟨-, row', hrow', hspec⟩ | ⟨-, hnone⟩
    · obtain rfl := Option.some.inj (hrow.symm.trans hrow')
      exact hspec
    · rw [hnone] at hrow
      cases hrow

/-! ## The ids of the rows -/

/-- The parent that is served at a candidate's position, if one is. -/
def servedParent (str : PyJson → PyStr) (mode : ReturnMode)
    (getSegment : Option (PyStr → Fetched)) (candidate : Candidate Score) : Option PyStr :=
  (parentKey str candidate).filter fun parentId =>
    decide (mode = .parent) && decide (parentText str (resolvedRow str getSegment parentId) ≠ [])

def rowId (str : PyJson → PyStr) (mode : ReturnMode) (getSegment : Option (PyStr → Fetched))
    (candidates : List (Candidate Score)) (index : Nat) : PyStr :=
  match candidates[index]? with
  | some candidate => (servedParent str mode getSegment candidate).getD candidate.segmentId
  | none => []

omit [LinearOrder Score] [Zero Score] in
theorem servedParent_eq_some : servedParent str mode getSegment candidate = some parentId ↔
    parentKey str candidate = some parentId ∧ Serves str mode getSegment parentId := by
  rw [servedParent, Option.filter_eq_some_iff, Bool.and_eq_true, decide_eq_true_iff,
    decide_eq_true_iff]
  rfl

theorem RowAt.segmentId {row : Candidate Score}
    (h : RowAt str mode getSegment candidates index row) :
    row.segmentId = rowId str mode getSegment candidates index := by
  obtain ⟨candidate, hcandidate, hrow⟩ := h
  rw [rowId, hcandidate]
  dsimp only
  cases hkey : parentKey str candidate with
  | none =>
    rw [hkey] at hrow
    obtain rfl := hrow
    rw [servedParent, hkey]
    rfl
  | some parentId =>
    rw [hkey] at hrow
    by_cases hserves : Serves str mode getSegment parentId
    · rw [servedParent_eq_some.mpr ⟨hkey, hserves⟩, Option.getD_some]
      exact (hrow.served hserves).1
    · have hnone : servedParent str mode getSegment candidate = none := by
        cases hserved : servedParent str mode getSegment candidate with
        | none => rfl
        | some other =>
          obtain ⟨hkey', hserves'⟩ := servedParent_eq_some.mp hserved
          obtain rfl := Option.some.inj (hkey.symm.trans hkey')
          exact absurd hserves' hserves
      rw [hnone, Option.getD_none]
      exact (hrow.child hserves).1

theorem map_segmentId {indices : List Nat} {rows : List (Candidate Score)}
    (h : List.Forall₂ (RowAt str mode getSegment candidates) indices rows) :
    rows.map Candidate.segmentId = indices.map (rowId str mode getSegment candidates) := by
  induction h with
  | nil => rfl
  | cons hrow _ ih => rw [List.map_cons, List.map_cons, hrow.segmentId, ih]

omit [LinearOrder Score] [Zero Score] in
theorem rowId_of_served (hcandidate : candidates[index]? = some candidate)
    (hserved : servedParent str mode getSegment candidate = some parentId) :
    rowId str mode getSegment candidates index = parentId := by
  rw [rowId, hcandidate]
  dsimp only
  rw [hserved, Option.getD_some]

omit [LinearOrder Score] [Zero Score] in
theorem rowId_of_own (hcandidate : candidates[index]? = some candidate)
    (hserved : servedParent str mode getSegment candidate = none) :
    rowId str mode getSegment candidates index = candidate.segmentId := by
  rw [rowId, hcandidate]
  dsimp only
  rw [hserved, Option.getD_none]

omit [LinearOrder Score] [Zero Score] in
/-- A candidate keeps its own row where the parent it may have is not served. -/
theorem servedParent_eq_none : servedParent str mode getSegment candidate = none ↔
    ∀ other, parentKey str candidate = some other → ¬ Serves str mode getSegment other := by
  rw [Option.eq_none_iff_forall_ne_some]
  refine forall_congr' fun other => ?_
  rw [ne_eq, servedParent_eq_some, not_and]

/-- Two positions that give a row to the same served parent are one. -/
theorem eq_of_served {other : Nat} {candidate' : Candidate Score}
    (hkeeps : Keeps str candidates index) (hkeeps' : Keeps str candidates other)
    (hcandidate : candidates[index]? = some candidate)
    (hcandidate' : candidates[other]? = some candidate')
    (hserved : servedParent str mode getSegment candidate = some parentId)
    (hserved' : servedParent str mode getSegment candidate' = some parentId) : index = other :=
  (hkeeps candidate parentId hcandidate (servedParent_eq_some.mp hserved).1).unique
    (hkeeps' candidate' parentId hcandidate' (servedParent_eq_some.mp hserved').1)

theorem rowId_injOn (hclash : NoIdClash str mode getSegment candidates)
    (hids : (candidates.map Candidate.segmentId).Nodup) {i j : Nat}
    (hi : i < candidates.length ∧ Keeps str candidates i)
    (hj : j < candidates.length ∧ Keeps str candidates j)
    (heq : rowId str mode getSegment candidates i = rowId str mode getSegment candidates j) :
    i = j := by
  have hleft := List.getElem?_eq_getElem hi.1
  have hright := List.getElem?_eq_getElem hj.1
  cases hservedLeft : servedParent str mode getSegment candidates[i] with
  | some parentId =>
    rw [rowId_of_served hleft hservedLeft] at heq
    obtain ⟨hkey, hserves⟩ := servedParent_eq_some.mp hservedLeft
    have hne : childrenOf str candidates parentId ≠ [] :=
      List.ne_nil_of_mem (mem_childrenOf.mpr ⟨_, hleft, hkey⟩)
    cases hservedRight : servedParent str mode getSegment candidates[j] with
    | some other =>
      rw [rowId_of_served hright hservedRight] at heq
      subst heq
      exact eq_of_served hi.2 hj.2 hleft hright hservedLeft hservedRight
    | none =>
      rw [rowId_of_own hright hservedRight] at heq
      exact absurd heq.symm
        (hclash parentId hne hserves j _ hright hj.2 (servedParent_eq_none.mp hservedRight))
  | none =>
    rw [rowId_of_own hleft hservedLeft] at heq
    cases hservedRight : servedParent str mode getSegment candidates[j] with
    | some parentId =>
      rw [rowId_of_served hright hservedRight] at heq
      obtain ⟨hkey, hserves⟩ := servedParent_eq_some.mp hservedRight
      have hne : childrenOf str candidates parentId ≠ [] :=
        List.ne_nil_of_mem (mem_childrenOf.mpr ⟨_, hright, hkey⟩)
      exact absurd heq
        (hclash parentId hne hserves i _ hleft hi.2 (servedParent_eq_none.mp hservedLeft))
    | none =>
      rw [rowId_of_own hright hservedRight] at heq
      have hlt : i < (candidates.map Candidate.segmentId).length := by
        rw [List.length_map]
        exact hi.1
      have hlt' : j < (candidates.map Candidate.segmentId).length := by
        rw [List.length_map]
        exact hj.1
      have hsame : (candidates.map Candidate.segmentId)[i] =
          (candidates.map Candidate.segmentId)[j] := by
        rw [List.getElem_map, List.getElem_map, heq]
      exact hids.getElem_inj_iff.mp hsame

theorem noIdClash_of_nodup {indices : List Nat}
    (hmem : ∀ i, i ∈ indices ↔ i < candidates.length ∧ Keeps str candidates i)
    (hnodup : (indices.map (rowId str mode getSegment candidates)).Nodup) :
    NoIdClash str mode getSegment candidates := by
  intro parentId hne hserves i candidate hcandidate hkeeps hown heq
  obtain ⟨best, -, -, hbest⟩ := exists_group hne
  obtain ⟨child, hchild, hkey⟩ := mem_childrenOf.mp hbest.mem
  have hbestKeeps : Keeps str candidates best := by
    intro child' parentId' hchild' hkey'
    obtain rfl := Option.some.inj (hchild.symm.trans hchild')
    obtain rfl := Option.some.inj (hkey.symm.trans hkey')
    exact hbest
  have hserved := servedParent_eq_some.mpr ⟨hkey, hserves⟩
  have hnone := servedParent_eq_none.mpr hown
  have hsame : rowId str mode getSegment candidates best =
      rowId str mode getSegment candidates i := by
    rw [rowId_of_served hchild hserved, rowId_of_own hcandidate hnone, heq]
  have hindex := (List.nodup_map_iff_inj_on (List.Nodup.of_map _ hnodup)).mp hnodup best
    ((hmem best).mpr ⟨(List.getElem?_eq_some_iff.mp hchild).1, hbestKeeps⟩) i
    ((hmem i).mpr ⟨(List.getElem?_eq_some_iff.mp hcandidate).1, hkeeps⟩) hsame
  subst hindex
  obtain rfl := Option.some.inj (hchild.symm.trans hcandidate)
  rw [hserved] at hnone
  cases hnone

/-- The law of the returned rows rules a clash out. -/
theorem ParentFold.noIdClash {rows : List (Candidate Score)} {stats : FoldStats}
    (hfold : foldCandidatesToParents str rounded candidates mode getSegment = .ok (rows, stats))
    (h : ParentFold str mode getSegment candidates rows) :
    NoIdClash str mode getSegment candidates := by
  obtain ⟨parentRows, hrows, heq⟩ := rows_eq hfold
  obtain ⟨indices, -, hmem, hforall⟩ := slots_of_rows_eq hrows heq
  intro parentId hne hserves
  have hnodup := h.distinct hserves.1
  rw [map_segmentId hforall] at hnodup
  exact noIdClash_of_nodup hmem hnodup parentId hne hserves

/-- A fold keeps the whole law exactly when no row of a candidate carries the id of a
    parent that is served. -/
theorem parentFold_iff {rows : List (Candidate Score)} {stats : FoldStats}
    (hids : (candidates.map Candidate.segmentId).Nodup)
    (hfold : foldCandidatesToParents str rounded candidates mode getSegment = .ok (rows, stats)) :
    ParentFold str mode getSegment candidates rows ↔ NoIdClash str mode getSegment candidates := by
  constructor
  · exact ParentFold.noIdClash hfold
  · intro hclash
    obtain ⟨parentRows, hrows, heq⟩ := rows_eq hfold
    obtain ⟨indices, hincreasing, hmem, hforall⟩ := slots_of_rows_eq hrows heq
    refine ⟨⟨indices, hincreasing, hmem, hforall⟩, fun _ hne => oneEach hne, fun _ => ?_⟩
    rw [map_segmentId hforall]
    refine (List.nodup_map_iff_inj_on hincreasing.nodup).mpr fun i hi j hj => ?_
    exact rowId_injOn hclash hids ((hmem i).mp hi) ((hmem j).mp hj)

/-- Where no fetch is cancelled the fold returns. -/
theorem exists_fold (str : PyJson → PyStr) (rounded : Score → PyJson)
    (candidates : List (Candidate Score)) (mode : ReturnMode) {fetch : PyStr → Fetched}
    (h : ∀ parentId, fetch parentId ≠ .cancelled) : ∃ rows stats,
      foldCandidatesToParents str rounded candidates mode (some fetch) = .ok (rows, stats) := by
  have hfetch : ∀ groups, ∃ rows, fetchParents str fetch groups = .ok rows := by
    intro groups
    induction groups with
    | nil => exact ⟨[], rfl⟩
    | cons group rest ih =>
      obtain ⟨rows, hrows⟩ := ih
      rw [fetchParents]
      split
      · rename_i hcancelled
        exact absurd hcancelled (h group.1)
      · exact ⟨rows, hrows⟩
      · split
        · exact ⟨_, by rw [hrows]; rfl⟩
        · exact ⟨rows, hrows⟩
  unfold foldCandidatesToParents
  dsimp only
  split
  · exact ⟨_, _, rfl⟩
  · obtain ⟨rows, hrows⟩ := hfetch (groupChildren str candidates)
    rw [hrows]
    exact ⟨_, _, rfl⟩

end

end

/-- A hit with a score, and a link to its parent where it has one. -/
def hit (id : String) (score : Nat) (parent : Option String) : Candidate Nat :=
  { segmentId := lit id, documentId := .none, text := .str (lit "child"), finalScore := some score
    fusionScore := none, sources := .absent
    metadata := match parent with
      | some parent => [(lit "parent_segment_id", .str (lit parent))]
      | none => [] }

/-- The authority has a row for every parent. -/
def allResolved (parentId : PyStr) : Fetched :=
  .value (.dict [(lit "segment_id", .str parentId), (lit "text", .str (lit "parent"))])

theorem allResolved_answers (parentId : PyStr) : allResolved parentId ≠ .cancelled := nofun

/-- The parent of a hit was hit itself, and is returned twice. -/
theorem not_parentFold_of_direct_hit :
    ¬ ∀ (candidates rows : List (Candidate Nat)) (stats : FoldStats),
      (candidates.map Candidate.segmentId).Nodup →
        foldCandidatesToParents (fun _ => []) (fun _ => .none) candidates .parent
            (some allResolved) = .ok (rows, stats) →
          ParentFold (fun _ => []) .parent (some allResolved) candidates rows := by
  intro h
  obtain ⟨rows, stats, hfold⟩ := exists_fold (fun _ => []) (fun _ => .none)
    [hit "child" 2 (some "parent"), hit "parent" 1 none] .parent allResolved_answers
  have hclash := (h _ rows stats (by decide) hfold).noIdClash hfold
  have hnone : parentKey (fun _ => []) (hit "parent" 1 none) = none := by decide
  refine hclash (lit "parent") (by decide) ⟨rfl, by decide⟩ 1 _ rfl ?_ ?_ rfl
  · intro candidate parentId hcandidate hkey
    obtain rfl := Option.some.inj hcandidate
    exact absurd (hnone.symm.trans hkey) nofun
  · intro other hkey
    exact absurd (hnone.symm.trans hkey) nofun

/-- Two hits of one parent around a hit without one. -/
theorem parentFold_of_interleaved : ∃ rows stats,
    foldCandidatesToParents (fun _ => []) (fun _ => .none)
        [hit "first" 2 (some "parent"), hit "alone" 1 none, hit "second" 3 (some "parent")] .parent
        (some allResolved) = .ok (rows, stats) ∧
      (ParentFold (fun _ => []) .parent (some allResolved)
          [hit "first" 2 (some "parent"), hit "alone" 1 none, hit "second" 3 (some "parent")] rows ↔
        NoIdClash (fun _ => []) .parent (some allResolved)
          [hit "first" 2 (some "parent"), hit "alone" 1 none, hit "second" 3 (some "parent")]) := by
  obtain ⟨rows, stats, hfold⟩ := exists_fold (fun _ => []) (fun _ => .none)
    [hit "first" 2 (some "parent"), hit "alone" 1 none, hit "second" 3 (some "parent")] .parent
    allResolved_answers
  exact ⟨rows, stats, hfold, parentFold_iff (by decide) hfold⟩

end AiPlatform.Knowledge
