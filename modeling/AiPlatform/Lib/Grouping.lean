/-
  AiPlatform.Lib.Grouping

  Positions of a list grouped by a key, as a dict of the keys in the order in which
  they come first; and the first best position of a group.
-/

import AiPlatform.Lib.Assoc
import Mathlib.Data.List.Induction
import Mathlib.Data.List.Forall2
import Mathlib.Data.List.Sort

namespace Grouping

section Groups

variable {κ : Type} [DecidableEq κ]

/-- `groups.setdefault(key, []).append(position)` -/
def add (groups : List (κ × List Nat)) (key : κ) (position : Nat) : List (κ × List Nat) :=
  Assoc.set key ((groups.lookup key).getD [] ++ [position]) groups

/-- An element without a key is in no group. -/
def addAt (groups : List (κ × List Nat)) (entry : Option κ × Nat) : List (κ × List Nat) :=
  match entry.1 with
  | some key => add groups key entry.2
  | none => groups

def collect (keys : List (Option κ)) : List (κ × List Nat) := keys.zipIdx.foldl addAt []

/-- The positions of a key. -/
def positions (keys : List (Option κ)) (key : κ) : List Nat :=
  (List.range keys.length).filter fun i => decide (keys[i]? = some (some key))

variable {keys : List (Option κ)} {key : κ}

theorem mem_positions {i : Nat} : i ∈ positions keys key ↔ keys[i]? = some (some key) := by
  rw [positions, List.mem_filter, List.mem_range, decide_eq_true_iff, and_iff_right_iff_imp]
  exact fun h => (List.getElem?_eq_some_iff.mp h).1

theorem pairwise_positions : (positions keys key).Pairwise (· < ·) :=
  List.pairwise_lt_range.filter _

theorem positions_concat (last : Option κ) : positions (keys ++ [last]) key =
    positions keys key ++ if last = some key then [keys.length] else [] := by
  rw [positions, List.length_append, List.length_singleton, List.range_succ, List.filter_append]
  congr 1
  · refine List.filter_congr fun i hi => ?_
    rw [List.getElem?_append_left (List.mem_range.mp hi)]
  · rw [List.filter_singleton, List.getElem?_concat_length]
    by_cases h : last = some key <;> simp [h]

theorem collect_concat (last : Option κ) :
    collect (keys ++ [last]) = addAt (collect keys) (last, keys.length) := by
  rw [collect, List.zipIdx_append, List.foldl_append]
  simp [collect]

/-- The dict holds the positions of each key that comes at all. -/
theorem lookup_collect : (collect keys).lookup key =
    if positions keys key = [] then none else some (positions keys key) := by
  induction keys using List.reverseRecOn with
  | nil => rfl
  | append_singleton earlier last ih =>
    rw [collect_concat, positions_concat]
    cases last with
    | none => simpa [addAt] using ih
    | some other =>
      dsimp only [addAt]
      unfold add
      by_cases heq : key = other
      · subst heq
        rw [Assoc.lookup_set_self, if_pos rfl, if_neg (by simp), ih]
        split
        · rename_i hnil
          rw [hnil, Option.getD_none]
        · rw [Option.getD_some]
      · rw [Assoc.lookup_set_ne heq, if_neg fun h => heq (Option.some.inj h).symm,
          List.append_nil, ih]

theorem nodup_collect : ((collect keys).map Prod.fst).Nodup := by
  induction keys using List.reverseRecOn with
  | nil => exact List.nodup_nil
  | append_singleton earlier last ih =>
    rw [collect_concat]
    cases last with
    | none => exact ih
    | some key => exact Assoc.nodup_keys_set ih

theorem mem_collect {indices : List Nat} :
    (key, indices) ∈ collect keys ↔ indices = positions keys key ∧ positions keys key ≠ [] := by
  constructor
  · intro hmem
    have hlookup := Assoc.lookup_of_mem nodup_collect hmem
    rw [lookup_collect] at hlookup
    split at hlookup
    · cases hlookup
    · rename_i hne
      exact ⟨(Option.some.inj hlookup).symm, hne⟩
  · rintro ⟨rfl, hne⟩
    refine Assoc.mem_of_lookup ?_
    rw [lookup_collect, if_neg hne]

end Groups

section Best

variable {σ : Type} [LinearOrder σ] (score : Nat → σ)

/-- `sorted(indices, key=lambda i: -score(i))` -/
def byScore (indices : List Nat) : List Nat :=
  indices.mergeSort fun i j => decide (score j ≤ score i)

/-- The first of the positions with the highest score. -/
structure FirstBest (indices : List Nat) (best : Nat) : Prop where
  mem : best ∈ indices
  le : ∀ i ∈ indices, score i ≤ score best
  first : ∀ i ∈ indices, score i = score best → best ≤ i

variable {indices : List Nat} {best other : Nat}

theorem mem_byScore {i : Nat} : i ∈ byScore score indices ↔ i ∈ indices := List.mem_mergeSort

/-- `score(j) ≤ score(i)` as a test orders the positions. -/
theorem byScore_trans (i j k : Nat) (hij : decide (score j ≤ score i) = true)
    (hjk : decide (score k ≤ score j) = true) : decide (score k ≤ score i) = true :=
  decide_eq_true ((of_decide_eq_true hjk).trans (of_decide_eq_true hij))

theorem byScore_total (i j : Nat) :
    (decide (score j ≤ score i) || decide (score i ≤ score j)) = true := by
  rw [Bool.or_eq_true, decide_eq_true_iff, decide_eq_true_iff]
  exact le_total _ _

theorem pairwise_byScore (indices : List Nat) :
    (byScore score indices).Pairwise fun i j => score j ≤ score i :=
  (List.pairwise_mergeSort (byScore_trans score) (byScore_total score) indices).imp of_decide_eq_true

variable {score}

theorem FirstBest.unique (h : FirstBest score indices best) (h' : FirstBest score indices other) :
    best = other := by
  have heq : score best = score other := le_antisymm (h'.le best h.mem) (h.le other h'.mem)
  exact le_antisymm (h.first other h'.mem heq.symm) (h'.first best h.mem heq)

/-- A stable sort puts the first best in front. -/
theorem firstBest_head {rest : List Nat} (hincreasing : indices.Pairwise (· < ·))
    (h : byScore score indices = best :: rest) : FirstBest score indices best := by
  have hmem : ∀ {i}, i ∈ indices ↔ i = best ∨ i ∈ rest := by
    intro i
    rw [← mem_byScore score, h, List.mem_cons]
  have hsorted := pairwise_byScore score indices
  have hnodup : (best :: rest).Nodup := by
    rw [← h]
    exact (List.mergeSort_perm _ _).nodup_iff.mpr hincreasing.nodup
  rw [h] at hsorted
  refine ⟨hmem.mpr (.inl rfl), fun i hi => ?_, fun i hi heq => ?_⟩
  · rcases hmem.mp hi with rfl | hrest
    · exact le_rfl
    · exact List.rel_of_pairwise_cons hsorted hrest
  · by_contra hlt
    -- equal scores would keep their order
    have hpair : List.Sublist [i, best] indices := by
      have hpairwise : [i, best].Pairwise (· < ·) := by simpa using hlt
      have hsubset : [i, best] ⊆ indices := by
        intro position hposition
        rcases List.mem_pair.mp hposition with rfl | rfl
        · exact hi
        · exact hmem.mpr (.inl rfl)
      exact List.sublist_of_subperm_of_pairwise
        (List.subperm_of_subset hpairwise.nodup hsubset) hpairwise hincreasing
    have hstable : List.Sublist [i, best] (byScore score indices) :=
      List.pair_sublist_mergeSort (byScore_trans score) (byScore_total score)
        (decide_eq_true heq.ge) hpair
    rw [h] at hstable
    cases hstable with
    | cons _ hrest =>
      exact (List.nodup_cons.mp hnodup).1 (hrest.subset (List.mem_cons_of_mem _ List.mem_cons_self))
    | cons_cons _ _ => exact hlt le_rfl

end Best

section Emission

variable {α β : Type}

/-- What the elements of a list emit, and the positions it is emitted at. -/
theorem exists_emitted (elements : List α) (f : α × Nat → Option β) :
    ∃ indices : List Nat, indices.Pairwise (· < ·) ∧
      (∀ i, i ∈ indices ↔ ∃ a, elements[i]? = some a ∧ (f (a, i)).isSome = true) ∧
      List.Forall₂ (fun i row => ∃ a, elements[i]? = some a ∧ f (a, i) = some row) indices
        (elements.zipIdx.filterMap f) := by
  refine ⟨(elements.zipIdx.filter fun entry => (f entry).isSome).map Prod.snd, ?_, fun i => ?_, ?_⟩
  · have hpositions : (elements.zipIdx.map Prod.snd).Pairwise (· < ·) := by
      rw [List.zipIdx_map_snd]
      exact List.pairwise_lt_range'
    exact hpositions.sublist (List.filter_sublist.map Prod.snd)
  · rw [List.mem_map]
    constructor
    · rintro ⟨⟨a, position⟩, hmem, rfl⟩
      obtain ⟨hmem, hsome⟩ := List.mem_filter.mp hmem
      exact ⟨a, List.mem_zipIdx_iff_getElem?.mp hmem, hsome⟩
    · rintro ⟨a, ha, hsome⟩
      exact ⟨(a, i), List.mem_filter.mpr ⟨List.mem_zipIdx_iff_getElem?.mpr ha, hsome⟩, rfl⟩
  · have hmem : ∀ entry ∈ elements.zipIdx, elements[entry.2]? = some entry.1 := fun entry h =>
      List.mem_zipIdx_iff_getElem?.mp h
    rw [List.forall₂_map_left_iff]
    generalize elements.zipIdx = entries at hmem
    induction entries with
    | nil => exact .nil
    | cons entry rest ih =>
      have hrest := ih fun other hother => hmem other (List.mem_cons_of_mem _ hother)
      cases hf : f entry with
      | none => rwa [List.filter_cons_of_neg (by simp [hf]), List.filterMap_cons_none hf]
      | some row =>
        rw [List.filter_cons_of_pos (by simp [hf]), List.filterMap_cons_some hf]
        exact .cons ⟨entry.1, hmem entry List.mem_cons_self, hf⟩ hrest

end Emission

end Grouping
