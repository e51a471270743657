/-
  AiPlatform.Knowledge.SummaryMerge

  Folding summary hits into the blocks they summarise (`merge_summary_siblings` of
  `parent_child_retrieval.py`).

  The candidates are a dict in insertion order, which the loop shortens as it walks
  the ids of the summaries.  Where no summary that goes is itself summarised, a
  block takes in its summaries in turn and `absorbed` is what becomes of it.
-/

import AiPlatform.Knowledge.Candidates
import Mathlib.Data.List.Induction
import Mathlib.Order.Bounds.Basic

namespace AiPlatform.Knowledge

structure SummaryIndexSettings where
  prependSummary : Bool

structure MergeStats where
  merged : Nat
  unresolved : Nat
  deriving DecidableEq, Repr

section

variable {Score : Type} [LinearOrder Score] [Zero Score]

abbrev CandidateMap (Score : Type) := List (PyStr × Candidate Score)

/-- `sources.update(summary_sources)`, where both are collections. -/
def Sources.updated : Sources → Sources → Sources
  | .set members, .set others => .set (members ∪ others)
  | .set members, .list others => .set (members ∪ others.toFinset)
  | sources, _ => sources

variable (str : PyJson → PyStr) (settings : SummaryIndexSettings)

/-- The block with a summary folded into it. -/
def absorb (segId : PyStr) (summary target : Candidate Score) : Candidate Score :=
  let combined := max summary.score target.score
  let payload := if settings.prependSummary then
      Assoc.set (lit "_summary_prefix") (.str (strOr str summary.text)) target.metadata
    else target.metadata
  { target with
    finalScore := some combined
    fusionScore := if target.score < combined then some combined else target.fusionScore
    metadata := Assoc.set (lit "_summary_segment_id") (.str segId)
      (Assoc.set (lit "_summary_hit") (.bool true) payload)
    sources := target.sources.updated summary.sources }

/-- The body of the loop. -/
def mergeSummary (state : CandidateMap Score × MergeStats) (segId : PyStr) :
    CandidateMap Score × MergeStats :=
  let (candidates, stats) := state
  match candidates.lookup segId with
  -- a summary is not removed before its turn
  | none => state
  | some summary =>
    let originalId := (summaryLink str summary).2
    match if originalId ≠ [] then candidates.lookup originalId else none with
    | none => (candidates, { stats with unresolved := stats.unresolved + 1 })
    | some target =>
      if originalId = segId then (candidates, { stats with unresolved := stats.unresolved + 1 })
      else
        (Assoc.erase segId
            (Assoc.set originalId (absorb str settings segId summary target) candidates),
          { stats with merged := stats.merged + 1 })

/-- The ids of the summaries, in the order of the map. -/
def summaryIds (candidates : CandidateMap Score) : List PyStr :=
  (candidates.filter fun entry => (summaryLink str entry.2).1).map Prod.fst

def mergeSummarySiblings (candidates : CandidateMap Score) : CandidateMap Score × MergeStats :=
  (summaryIds str candidates).foldl (mergeSummary str settings) (candidates, ⟨0, 0⟩)

/-! ## The law -/

/-- The other entry of the map that the entry summarises. -/
def originalOf (candidates : CandidateMap Score) (id : PyStr) : Option PyStr :=
  (candidates.lookup id).bind fun candidate =>
    let (isSummary, originalId) := summaryLink str candidate
    if isSummary ∧ originalId ≠ [] ∧ originalId ≠ id ∧ (candidates.lookup originalId).isSome then
      some originalId
    else none

/-- The scores that the score of a block is the greatest of. -/
def scoresOf (candidates : CandidateMap Score) (id : PyStr) : Set Score :=
  {score | ∃ other candidate, candidates.lookup other = some candidate ∧ candidate.score = score ∧
    (other = id ∨ originalOf str candidates other = some id)}

/-- What merging makes of one map: the summaries of other entries go, and nothing else. -/
structure Merges (before after : CandidateMap Score) : Prop where
  survivors : after.map Prod.fst =
    (before.map Prod.fst).filter fun id => (originalOf str before id).isNone
  untouched : ∀ id candidate, before.lookup id = some candidate →
    originalOf str before id = none → (∀ other, originalOf str before other ≠ some id) →
      after.lookup id = some candidate
  scores : ∀ id candidate, after.lookup id = some candidate →
    IsGreatest (scoresOf str before id) candidate.score

/-- Every insertion order of the entries is merged so, with the same survivors and
    the same scores. -/
structure MergesInAnyOrder (candidates : CandidateMap Score) : Prop where
  merges : ∀ order : CandidateMap Score, order.Perm candidates →
    Merges str order (mergeSummarySiblings str settings order).1
  orderFree : ∀ order other : CandidateMap Score, order.Perm candidates → other.Perm candidates →
    ∀ id, ((mergeSummarySiblings str settings order).1.lookup id).map Candidate.score =
      ((mergeSummarySiblings str settings other).1.lookup id).map Candidate.score

/-- No summary that goes is named as the original of another. -/
def NoSummaryOfSummary (candidates : CandidateMap Score) : Prop :=
  ∀ id other, originalOf str candidates id = some other → originalOf str candidates other = none

/-! ## A block and its summaries -/

/-- A block after the summaries in the list have had their turn. -/
def absorbed (candidates : CandidateMap Score) (done : List PyStr) (id : PyStr)
    (block : Candidate Score) : Candidate Score :=
  done.foldl (fun target segId =>
    match candidates.lookup segId with
    | none => target
    | some summary =>
      if originalOf str candidates segId = some id then absorb str settings segId summary target
      else target) block

variable {str settings}
variable {candidates state : CandidateMap Score} {done : List PyStr} {id segId originalId : PyStr}
  {summary block target : Candidate Score}

omit [LinearOrder Score] [Zero Score] in
theorem originalOf_eq_some : originalOf str candidates id = some originalId ↔
    ∃ candidate, candidates.lookup id = some candidate ∧ (summaryLink str candidate).1 = true ∧
      (summaryLink str candidate).2 = originalId ∧ originalId ≠ [] ∧ originalId ≠ id ∧
      (candidates.lookup originalId).isSome = true := by
  unfold originalOf
  cases candidates.lookup id with
  | none => simp
  | some candidate =>
    rw [Option.bind_some]
    dsimp only
    split
    · rename_i h
      constructor
      · intro heq
        obtain rfl := Option.some.inj heq
        exact ⟨candidate, rfl, h.1, rfl, h.2.1, h.2.2.1, h.2.2.2⟩
      · rintro ⟨candidate', heq, -, horiginal, -⟩
        obtain rfl := Option.some.inj heq
        exact congrArg some horiginal
    · rename_i h
      refine iff_of_false nofun ?_
      rintro ⟨candidate', heq, hsummary, rfl, hne, hself, hfound⟩
      obtain rfl := Option.some.inj heq
      exact h ⟨hsummary, hne, hself, hfound⟩

/-- Folding a summary in does not change what the block itself summarises. -/
theorem summaryLink_absorb :
    summaryLink str (absorb str settings segId summary target) = summaryLink str target := by
  have hget : ∀ key ∈ [lit "metadata", lit "is_summary", lit "original_chunk_id"],
      (absorb str settings segId summary target).payload.get key = target.payload.get key := by
    intro key hkey
    have hne : key ≠ lit "_summary_prefix" ∧ key ≠ lit "_summary_hit" ∧
        key ≠ lit "_summary_segment_id" := by
      rcases List.mem_cons.mp hkey with rfl | hkey
      · decide
      · rcases List.mem_pair.mp hkey with rfl | rfl <;> decide
    simp only [absorb, Candidate.payload, PyJson.get_dict]
    rw [Assoc.lookup_set_ne hne.2.2, Assoc.lookup_set_ne hne.2.1]
    split
    · rw [Assoc.lookup_set_ne hne.1]
    · rfl
  have hmetadata := hget (lit "metadata") (by simp)
  have hisSummary := hget (lit "is_summary") (by simp)
  have horiginal := hget (lit "original_chunk_id") (by simp)
  simp only [summaryLink, hmetadata, hisSummary, horiginal]

theorem absorbed_concat (hsummary : candidates.lookup segId = some summary) :
    absorbed str settings candidates (done ++ [segId]) id block =
      if originalOf str candidates segId = some id then
        absorb str settings segId summary (absorbed str settings candidates done id block)
      else absorbed str settings candidates done id block := by
  rw [absorbed, List.foldl_append, List.foldl_cons, List.foldl_nil, hsummary]
  rfl

theorem absorbed_of_none (h : ∀ other, originalOf str candidates other ≠ some id) :
    absorbed str settings candidates done id block = block := by
  induction done with
  | nil => rfl
  | cons segId rest ih =>
    rw [absorbed, List.foldl_cons]
    cases candidates.lookup segId with
    | none => exact ih
    | some summary =>
      dsimp only
      rw [if_neg (h segId)]
      exact ih

theorem summaryLink_absorbed :
    summaryLink str (absorbed str settings candidates done id block) = summaryLink str block := by
  induction done generalizing block with
  | nil => rfl
  | cons segId rest ih =>
    rw [absorbed, List.foldl_cons]
    refine ih.trans ?_
    cases candidates.lookup segId with
    | none => rfl
    | some summary =>
      dsimp only
      split
      · exact summaryLink_absorb
      · rfl

theorem score_absorb : (absorb str settings segId summary target).score =
    max summary.score target.score := rfl

variable (str) (settings) (id) (block) in
/-- The score of a block is the greatest of its own and those of its summaries. -/
theorem isGreatest_score_absorbed (hfound : ∀ segId ∈ done, (candidates.lookup segId).isSome) :
    IsGreatest {score | block.score = score ∨ ∃ other ∈ done, ∃ candidate,
        candidates.lookup other = some candidate ∧ candidate.score = score ∧
          originalOf str candidates other = some id}
      (absorbed str settings candidates done id block).score := by
  induction done using List.reverseRecOn with
  | nil =>
    refine ⟨.inl rfl, ?_⟩
    rintro score (rfl | ⟨other, hother, -⟩)
    · exact le_rfl
    · cases hother
  | append_singleton earlier segId ih =>
    obtain ⟨hmem, hupper⟩ := ih fun segId hmem => hfound segId (List.mem_append_left _ hmem)
    obtain ⟨summary, hsummary⟩ := Option.isSome_iff_exists.mp
      (hfound segId (List.mem_append_right _ List.mem_cons_self))
    rw [absorbed_concat hsummary]
    -- what holds of the earlier summaries stays so with one more
    have hmono : ∀ score, (block.score = score ∨ ∃ other ∈ earlier, ∃ candidate,
        candidates.lookup other = some candidate ∧ candidate.score = score ∧
          originalOf str candidates other = some id) →
        block.score = score ∨ ∃ other ∈ earlier ++ [segId], ∃ candidate,
          candidates.lookup other = some candidate ∧ candidate.score = score ∧
            originalOf str candidates other = some id := by
      rintro score (hown | ⟨other, hother, h⟩)
      · exact .inl hown
      · exact .inr ⟨other, List.mem_append_left _ hother, h⟩
    split
    · rename_i horiginal
      rw [score_absorb]
      constructor
      · rcases max_choice summary.score
          (absorbed str settings candidates earlier id block).score with h | h <;> rw [h]
        · exact .inr ⟨segId, List.mem_append_right _ List.mem_cons_self, summary, hsummary, rfl,
            horiginal⟩
        · exact hmono _ hmem
      · rintro score (hown | ⟨other, hother, candidate, hlookup, rfl, h⟩)
        · exact le_max_of_le_right (hupper (.inl hown))
        · rcases List.mem_append.mp hother with hother | hother
          · exact le_max_of_le_right (hupper (.inr ⟨other, hother, candidate, hlookup, rfl, h⟩))
          · obtain rfl := List.mem_singleton.mp hother
            obtain rfl := Option.some.inj (hsummary.symm.trans hlookup)
            exact le_max_left _ _
    · rename_i horiginal
      refine ⟨hmono _ hmem, ?_⟩
      rintro score (hown | ⟨other, hother, candidate, hlookup, rfl, h⟩)
      · exact hupper (.inl hown)
      · rcases List.mem_append.mp hother with hother | hother
        · exact hupper (.inr ⟨other, hother, candidate, hlookup, rfl, h⟩)
        · obtain rfl := List.mem_singleton.mp hother
          exact absurd h horiginal

/-! ## The walk over the summaries -/

/-- The map after the summaries in the list have had their turn. -/
structure Walked (str : PyJson → PyStr) (settings : SummaryIndexSettings)
    (candidates : CandidateMap Score) (done : List PyStr) (state : CandidateMap Score) : Prop where
  keys : state.map Prod.fst = (candidates.map Prod.fst).filter fun id =>
    decide (¬(id ∈ done ∧ (originalOf str candidates id).isSome))
  found : ∀ id block, candidates.lookup id = some block →
    id ∉ done ∨ originalOf str candidates id = none →
      state.lookup id = some (absorbed str settings candidates done id block)

theorem Walked.start : Walked str settings candidates [] candidates where
  keys := by simp
  found := fun id block hlookup _ => hlookup

theorem Walked.mem_of_lookup (h : Walked str settings candidates done state)
    (hlookup : state.lookup id = some block) : (candidates.lookup id).isSome = true := by
  have hmem := Assoc.mem_keys_of_lookup hlookup
  rw [h.keys, List.mem_filter] at hmem
  exact Option.isSome_iff_exists.mpr (Assoc.exists_lookup_of_mem hmem.1)

/-- A summary of no other entry leaves the map alone. -/
theorem Walked.skip (h : Walked str settings candidates done state)
    (hsummary : candidates.lookup segId = some summary)
    (hnone : originalOf str candidates segId = none) :
    Walked str settings candidates (done ++ [segId]) state where
  keys := by
    rw [h.keys]
    refine List.filter_congr fun id _ => decide_eq_decide.mpr (not_congr ?_)
    rw [List.mem_append, List.mem_singleton]
    constructor
    · exact fun ⟨hdone, hsome⟩ => ⟨.inl hdone, hsome⟩
    · rintro ⟨hdone | rfl, hsome⟩
      · exact ⟨hdone, hsome⟩
      · rw [hnone] at hsome
        cases hsome
  found := by
    intro id block hlookup hid
    rw [absorbed_concat hsummary, if_neg (by rw [hnone]; nofun)]
    exact h.found id block hlookup
      (hid.imp_left fun hdone hmem => hdone (List.mem_append_left _ hmem))

/-- A summary is folded into its original and goes. -/
theorem Walked.fold (h : Walked str settings candidates done state)
    (hsummary : candidates.lookup segId = some summary)
    (htarget : candidates.lookup originalId = some target)
    (horiginal : originalOf str candidates segId = some originalId)
    (hfree : originalOf str candidates originalId = none) (hne : originalId ≠ segId) :
    Walked str settings candidates (done ++ [segId])
      (Assoc.erase segId (Assoc.set originalId (absorb str settings segId summary
        (absorbed str settings candidates done originalId target)) state)) where
  keys := by
    have hmem : originalId ∈ state.map Prod.fst := by
      by_contra hnot
      rw [← Assoc.lookup_eq_none_iff, h.found originalId target htarget (.inr hfree)] at hnot
      cases hnot
    rw [Assoc.keys_erase, Assoc.keys_set_of_mem hmem, h.keys, List.filter_filter]
    refine List.filter_congr fun id _ => ?_
    rw [← Bool.decide_and]
    refine decide_eq_decide.mpr ?_
    rw [List.mem_append, List.mem_singleton]
    constructor
    · rintro ⟨hid, hdone⟩ ⟨hmem | rfl, hsome⟩
      · exact hdone ⟨hmem, hsome⟩
      · exact hid rfl
    · intro hkeep
      refine ⟨fun heq => hkeep ⟨.inr heq, ?_⟩, fun hdone => hkeep ⟨.inl hdone.1, hdone.2⟩⟩
      rw [heq, horiginal]
      rfl
  found := by
    intro id block hlookup hid
    have hnot : id ≠ segId := by
      rintro rfl
      rcases hid with hdone | hnone
      · exact hdone (List.mem_append_right _ List.mem_cons_self)
      · rw [horiginal] at hnone
        cases hnone
    rw [Assoc.lookup_erase_ne hnot, absorbed_concat hsummary, horiginal]
    by_cases heq : id = originalId
    · subst heq
      obtain rfl := Option.some.inj (htarget.symm.trans hlookup)
      rw [Assoc.lookup_set_self, if_pos rfl]
    · rw [Assoc.lookup_set_ne heq, if_neg fun hsame => heq (Option.some.inj hsame).symm]
      exact h.found id block hlookup
        (hid.imp_left fun hdone hmem => hdone (List.mem_append_left _ hmem))

/-- One turn of the loop. -/
theorem Walked.step (stats : MergeStats) (h : Walked str settings candidates done state)
    (hflat : NoSummaryOfSummary str candidates) (hnew : segId ∉ done)
    (hsummary : candidates.lookup segId = some summary)
    (hlink : (summaryLink str summary).1 = true) :
    Walked str settings candidates (done ++ [segId])
      (mergeSummary str settings (state, stats) segId).1 := by
  have hfound := h.found segId summary hsummary (.inl hnew)
  simp only [mergeSummary, hfound, summaryLink_absorbed]
  cases horiginal : originalOf str candidates segId with
  | none =>
    have hskip := h.skip hsummary horiginal
    split
    · exact hskip
    · rename_i target htarget
      split
      · exact hskip
      · rename_i hne
        -- the original would be another entry
        split at htarget
        · rename_i hempty
          have hmem := h.mem_of_lookup htarget
          rw [originalOf_eq_some.mpr ⟨summary, hsummary, hlink, rfl, hempty, hne, hmem⟩] at horiginal
          cases horiginal
        · cases htarget
  | some originalId =>
    obtain ⟨summary', hsummary', -, rfl, hempty, hne, htarget⟩ := originalOf_eq_some.mp horiginal
    obtain rfl := Option.some.inj (hsummary.symm.trans hsummary')
    obtain ⟨target, htarget⟩ := Option.isSome_iff_exists.mp htarget
    have hfree := hflat _ _ horiginal
    have hself : ∀ other, originalOf str candidates other ≠ some segId := by
      intro other hother
      rw [hflat other segId hother] at horiginal
      cases horiginal
    rw [if_pos hempty, h.found _ target htarget (.inr hfree)]
    dsimp only
    rw [if_neg hne, absorbed_of_none hself]
    exact h.fold hsummary htarget horiginal hfree hne

theorem Walked.run {ids : List PyStr} {stats : MergeStats}
    (h : Walked str settings candidates done state)
    (hflat : NoSummaryOfSummary str candidates) (hnodup : (done ++ ids).Nodup)
    (hids : ∀ segId ∈ ids, ∃ summary, candidates.lookup segId = some summary ∧
      (summaryLink str summary).1 = true) :
    Walked str settings candidates (done ++ ids)
      (ids.foldl (mergeSummary str settings) (state, stats)).1 := by
  induction ids generalizing done state stats with
  | nil => simpa using h
  | cons segId rest ih =>
    obtain ⟨summary, hsummary, hlink⟩ := hids segId List.mem_cons_self
    have hnew : segId ∉ done := fun hmem =>
      (List.nodup_append.mp hnodup).2.2 segId hmem segId List.mem_cons_self rfl
    have hstep := h.step stats hflat hnew hsummary hlink
    rw [List.append_cons] at hnodup ⊢
    exact ih hstep hnodup fun segId hmem => hids segId (List.mem_cons_of_mem _ hmem)

omit [LinearOrder Score] [Zero Score] in
theorem mem_summaryIds (hdistinct : (candidates.map Prod.fst).Nodup) :
    segId ∈ summaryIds str candidates ↔
      ∃ summary, candidates.lookup segId = some summary ∧ (summaryLink str summary).1 = true := by
  rw [summaryIds, List.mem_map]
  constructor
  · rintro ⟨⟨id, summary⟩, hmem, rfl⟩
    obtain ⟨hmem, hlink⟩ := List.mem_filter.mp hmem
    exact ⟨summary, Assoc.lookup_of_mem hdistinct hmem, hlink⟩
  · rintro ⟨summary, hlookup, hlink⟩
    exact ⟨(segId, summary), List.mem_filter.mpr ⟨Assoc.mem_of_lookup hlookup, hlink⟩, rfl⟩

omit [LinearOrder Score] [Zero Score] in
theorem nodup_summaryIds (hdistinct : (candidates.map Prod.fst).Nodup) :
    (summaryIds str candidates).Nodup :=
  hdistinct.sublist (List.filter_sublist.map Prod.fst)

variable (settings) in
theorem walked_mergeSummarySiblings (hdistinct : (candidates.map Prod.fst).Nodup)
    (hflat : NoSummaryOfSummary str candidates) :
    Walked str settings candidates (summaryIds str candidates)
      (mergeSummarySiblings str settings candidates).1 :=
  Walked.start.run hflat (nodup_summaryIds hdistinct) fun _ hmem => (mem_summaryIds hdistinct).mp hmem

omit [LinearOrder Score] [Zero Score] in
/-- A summary of another entry has its turn. -/
theorem mem_summaryIds_of_originalOf (hdistinct : (candidates.map Prod.fst).Nodup)
    (h : originalOf str candidates segId = some originalId) : segId ∈ summaryIds str candidates := by
  obtain ⟨summary, hsummary, hlink, -⟩ := originalOf_eq_some.mp h
  exact (mem_summaryIds hdistinct).mpr ⟨summary, hsummary, hlink⟩

theorem merges_of_flat (hdistinct : (candidates.map Prod.fst).Nodup)
    (hflat : NoSummaryOfSummary str candidates) :
    Merges str candidates (mergeSummarySiblings str settings candidates).1 := by
  have hwalked := walked_mergeSummarySiblings settings hdistinct hflat
  have hkeys : (mergeSummarySiblings str settings candidates).1.map Prod.fst =
      (candidates.map Prod.fst).filter fun id => (originalOf str candidates id).isNone := by
    rw [hwalked.keys]
    refine List.filter_congr fun id _ => ?_
    cases horiginal : originalOf str candidates id with
    | none => simp
    | some originalId => simp [mem_summaryIds_of_originalOf hdistinct horiginal]
  constructor
  · exact hkeys
  · intro id block hlookup hnone hfree
    rw [hwalked.found id block hlookup (.inr hnone), absorbed_of_none hfree]
  · intro id block hlookup
    have hmem := Assoc.mem_keys_of_lookup hlookup
    rw [hkeys, List.mem_filter] at hmem
    have hnone := Option.isNone_iff_eq_none.mp hmem.2
    obtain ⟨own, hown⟩ := Assoc.exists_lookup_of_mem hmem.1
    rw [hwalked.found id own hown (.inr hnone)] at hlookup
    obtain rfl := Option.some.inj hlookup
    have hfound : ∀ segId ∈ summaryIds str candidates, (candidates.lookup segId).isSome := by
        intro segId hmem
        obtain ⟨summary, hsummary, -⟩ := (mem_summaryIds hdistinct).mp hmem
        rw [hsummary]
        rfl
    have hgreatest := isGreatest_score_absorbed str settings id own hfound
    have hscores : scoresOf str candidates id = {score | own.score = score ∨
        ∃ other ∈ summaryIds str candidates, ∃ candidate,
          candidates.lookup other = some candidate ∧ candidate.score = score ∧
            originalOf str candidates other = some id} := by
      ext score
      constructor
      · rintro ⟨other, candidate, hcandidate, hscore, rfl | horiginal⟩
        · obtain rfl := Option.some.inj (hown.symm.trans hcandidate)
          exact .inl hscore
        · exact .inr ⟨other, mem_summaryIds_of_originalOf hdistinct horiginal, candidate, hcandidate,
            hscore, horiginal⟩
      · rintro (hscore | ⟨other, -, candidate, hcandidate, hscore, horiginal⟩)
        · exact ⟨id, own, hown, hscore, .inl rfl⟩
        · exact ⟨other, candidate, hcandidate, hscore, .inr horiginal⟩
    rw [hscores]
    exact hgreatest

/-! ## Orders of insertion -/

omit [LinearOrder Score] [Zero Score] in
theorem originalOf_of_perm {order : CandidateMap Score} (hperm : order.Perm candidates)
    (hdistinct : (candidates.map Prod.fst).Nodup) (id : PyStr) :
    originalOf str order id = originalOf str candidates id := by
  simp only [originalOf, Assoc.lookup_of_perm hperm hdistinct]

omit [LinearOrder Score] in
theorem scoresOf_of_perm {order : CandidateMap Score} (hperm : order.Perm candidates)
    (hdistinct : (candidates.map Prod.fst).Nodup) (id : PyStr) :
    scoresOf str order id = scoresOf str candidates id := by
  simp only [scoresOf, originalOf_of_perm hperm hdistinct, Assoc.lookup_of_perm hperm hdistinct]

/-- What the law says of the map after merging does not depend on the order. -/
theorem Merges.score_eq {order order' after after' : CandidateMap Score}
    (hdistinct : (candidates.map Prod.fst).Nodup)
    (hperm : order.Perm candidates) (hperm' : order'.Perm candidates)
    (h : Merges str order after) (h' : Merges str order' after') (id : PyStr) :
    (after.lookup id).map Candidate.score = (after'.lookup id).map Candidate.score := by
  have hkeys : id ∈ after.map Prod.fst ↔ id ∈ after'.map Prod.fst := by
    rw [h.survivors, h'.survivors, List.mem_filter, List.mem_filter,
      originalOf_of_perm hperm hdistinct, originalOf_of_perm hperm' hdistinct,
      (hperm.map Prod.fst).mem_iff, (hperm'.map Prod.fst).mem_iff]
  by_cases hmem : id ∈ after.map Prod.fst
  · obtain ⟨block, hblock⟩ := Assoc.exists_lookup_of_mem hmem
    obtain ⟨block', hblock'⟩ := Assoc.exists_lookup_of_mem (hkeys.mp hmem)
    have hgreatest := h.scores id block hblock
    have hgreatest' := h'.scores id block' hblock'
    rw [scoresOf_of_perm hperm hdistinct] at hgreatest
    rw [scoresOf_of_perm hperm' hdistinct] at hgreatest'
    rw [hblock, hblock', Option.map_some, Option.map_some, hgreatest.unique hgreatest']
  · rw [Assoc.lookup_eq_none_iff.mpr hmem, Assoc.lookup_eq_none_iff.mpr (mt hkeys.mpr hmem)]

/-- A summary whose original has gone stays. -/
structure Orphaned (str : PyJson → PyStr) (segId originalId : PyStr) (state : CandidateMap Score) :
    Prop where
  gone : originalId ∉ state.map Prod.fst
  stays : ∃ summary, state.lookup segId = some summary ∧ (summaryLink str summary).2 = originalId

theorem Orphaned.step {stats : MergeStats} (h : Orphaned str segId originalId state) (id : PyStr) :
    Orphaned str segId originalId (mergeSummary str settings (state, stats) id).1 := by
  obtain ⟨orphan, horphan, hlink⟩ := h.stays
  simp only [mergeSummary]
  cases hsummary : state.lookup id with
  | none => exact h
  | some summary =>
    dsimp only
    split
    · exact h
    · rename_i target htarget
      split
      · exact h
      · rename_i hne
        split at htarget
        · have hmem := Assoc.mem_keys_of_lookup htarget
          have hid : segId ≠ id := by
            rintro rfl
            obtain rfl := Option.some.inj (horphan.symm.trans hsummary)
            rw [hlink] at hmem
            exact h.gone hmem
          constructor
          · rw [Assoc.keys_erase, Assoc.keys_set_of_mem hmem]
            exact fun hkept => h.gone (List.mem_filter.mp hkept).1
          · rw [Assoc.lookup_erase_ne hid]
            by_cases hsame : segId = (summaryLink str summary).2
            · rw [← hsame, Assoc.lookup_set_self]
              refine ⟨_, rfl, ?_⟩
              rw [← hsame, horphan] at htarget
              rw [summaryLink_absorb, ← Option.some.inj htarget, hlink]
            · rw [Assoc.lookup_set_ne hsame]
              exact h.stays
        · cases htarget

theorem Orphaned.run (settings : SummaryIndexSettings) (ids : List PyStr) (stats : MergeStats)
    (h : Orphaned str segId originalId state) :
    Orphaned str segId originalId (ids.foldl (mergeSummary str settings) (state, stats)).1 := by
  induction ids generalizing state stats with
  | nil => exact h
  | cons id rest ih => exact ih _ (h.step id)

/-- The first entry, being a summary of another one, is folded into it and goes. -/
theorem mergeSummary_first (settings : SummaryIndexSettings) (stats : MergeStats)
    (hsummary : candidates.lookup segId = some summary)
    (horiginal : originalOf str candidates segId = some originalId) :
    ∃ target, candidates.lookup originalId = some target ∧
      (mergeSummary str settings (candidates, stats) segId).1 =
        Assoc.erase segId
          (Assoc.set originalId (absorb str settings segId summary target) candidates) := by
  obtain ⟨summary', hsummary', -, rfl, hempty, hne, htarget⟩ := originalOf_eq_some.mp horiginal
  obtain rfl := Option.some.inj (hsummary.symm.trans hsummary')
  obtain ⟨target, htarget⟩ := Option.isSome_iff_exists.mp htarget
  refine ⟨target, htarget, ?_⟩
  simp only [mergeSummary, hsummary, if_pos hempty, htarget, if_neg hne]

/-- Where a summary of a summary comes second it is not merged. -/
theorem Orphaned.of_first {id other : PyStr} {middle : Candidate Score}
    {rest : CandidateMap Score} (settings : SummaryIndexSettings) (stats : MergeStats)
    (hdistinct : (((other, middle) :: rest).map Prod.fst).Nodup)
    (hid : originalOf str ((other, middle) :: rest) id = some other)
    (hother : originalOf str ((other, middle) :: rest) other = some originalId) :
    Orphaned str id other (mergeSummary str settings ((other, middle) :: rest, stats) other).1 := by
  obtain ⟨target, htarget, hfirst⟩ := mergeSummary_first settings stats
    (Assoc.lookup_of_mem hdistinct List.mem_cons_self) hother
  obtain ⟨summary, hsummary, -, hlink, -, hne, -⟩ := originalOf_eq_some.mp hid
  rw [hfirst]
  constructor
  · rw [Assoc.keys_erase, List.mem_filter]
    exact fun hmem => of_decide_eq_true hmem.2 rfl
  · rw [Assoc.lookup_erase_ne (Ne.symm hne)]
    by_cases hcycle : id = originalId
    · subst hcycle
      obtain rfl := Option.some.inj (hsummary.symm.trans htarget)
      exact ⟨_, Assoc.lookup_set_self, by rw [summaryLink_absorb, hlink]⟩
    · rw [Assoc.lookup_set_ne hcycle]
      exact ⟨summary, hsummary, hlink⟩

theorem not_merges_of_chain {id other : PyStr} (settings : SummaryIndexSettings)
    (hdistinct : (candidates.map Prod.fst).Nodup)
    (hid : originalOf str candidates id = some other)
    (hother : originalOf str candidates other = some originalId) :
    ∃ order : CandidateMap Score, order.Perm candidates ∧
      ¬ Merges str order (mergeSummarySiblings str settings order).1 := by
  obtain ⟨middle, hmiddle, hlink, -⟩ := originalOf_eq_some.mp hother
  obtain ⟨earlier, later, hsplit⟩ := List.append_of_mem (Assoc.mem_of_lookup hmiddle)
  -- the entry that is both comes first
  have hperm : ((other, middle) :: (earlier ++ later)).Perm candidates := by
    rw [hsplit]
    exact List.perm_middle.symm
  have hdistinct' := (hperm.map Prod.fst).nodup_iff.mpr hdistinct
  rw [← originalOf_of_perm hperm hdistinct] at hid hother
  refine ⟨_, hperm, fun hmerges => ?_⟩
  have hids : summaryIds str ((other, middle) :: (earlier ++ later)) =
      other :: summaryIds str (earlier ++ later) := by
    rw [summaryIds, List.filter_cons, if_pos hlink, List.map_cons, summaryIds]
  have horphan := Orphaned.of_first settings ⟨0, 0⟩ hdistinct' hid hother
  obtain ⟨orphan, horphan, -⟩ := (horphan.run settings (summaryIds str (earlier ++ later))
    (mergeSummary str settings ((other, middle) :: (earlier ++ later), ⟨0, 0⟩) other).2).stays
  have hmem := Assoc.mem_keys_of_lookup horphan
  have hkeys := hmerges.survivors
  rw [mergeSummarySiblings, hids, List.foldl_cons] at hkeys
  rw [hkeys, List.mem_filter, hid] at hmem
  exact Bool.false_ne_true hmem.2

/-- Summaries are merged alike in any order exactly when no summary that goes is
    itself the original of one. -/
theorem mergesInAnyOrder_iff (hdistinct : (candidates.map Prod.fst).Nodup) :
    MergesInAnyOrder str settings candidates ↔ NoSummaryOfSummary str candidates := by
  constructor
  · intro h id other hid
    by_contra hother
    obtain ⟨originalId, hother⟩ := Option.ne_none_iff_exists'.mp hother
    obtain ⟨order, hperm, hnot⟩ := not_merges_of_chain settings hdistinct hid hother
    exact hnot (h.merges order hperm)
  · intro hflat
    have hmerges : ∀ order : CandidateMap Score, order.Perm candidates →
        Merges str order (mergeSummarySiblings str settings order).1 := by
      intro order hperm
      refine merges_of_flat ((hperm.map Prod.fst).nodup_iff.mpr hdistinct) fun id other hid => ?_
      rw [originalOf_of_perm hperm hdistinct] at hid ⊢
      exact hflat id other hid
    exact ⟨hmerges, fun order other hperm hperm' id =>
      (hmerges order hperm).score_eq hdistinct hperm hperm' (hmerges other hperm') id⟩

end

/-- A candidate with a score, and a link to its original where it is a summary. -/
def scored (id : String) (score : Nat) (original : Option String) : PyStr × Candidate Nat :=
  (lit id,
    { segmentId := lit id, documentId := .none, text := .none, finalScore := some score
      fusionScore := none, sources := .absent
      metadata := match original with
        | some original =>
          [(lit "is_summary", .bool true), (lit "original_chunk_id", .str (lit original))]
        | none => [] })

/-- A summary of a summary that comes after it is left over. -/
theorem not_mergesInAnyOrder_chain :
    ¬ ∀ candidates : CandidateMap Nat, (candidates.map Prod.fst).Nodup →
      MergesInAnyOrder (fun _ => []) ⟨true⟩ candidates := by
  intro h
  have hmerges := (h [scored "middle" 2 (some "block"), scored "outer" 3 (some "middle"),
    scored "block" 1 none] (by decide)).merges _ (List.Perm.refl _)
  exact absurd hmerges.survivors (by decide)

/-- A block between two summaries of it. -/
theorem mergesInAnyOrder_of_two :
    MergesInAnyOrder (fun _ => []) ⟨true⟩
        [scored "before" 3 (some "block"), scored "block" 1 none, scored "after" 2 (some "block")] ↔
      NoSummaryOfSummary (fun _ => [])
        [scored "before" 3 (some "block"), scored "block" 1 none, scored "after" 2 (some "block")] :=
  mergesInAnyOrder_iff (by decide)

end AiPlatform.Knowledge
