/-
  AiPlatform.Lib.FirstMax

  The scan for the first greatest score above a floor, over elements of which some
  have no score.
-/

import Mathlib.Data.List.Basic
import Mathlib.Data.List.Induction
import Mathlib.Data.List.Nodup
import Mathlib.Order.Basic
import Mathlib.Tactic.Common
import Mathlib.Order.Lattice

namespace FirstMax

variable {α β γ : Type} [LinearOrder α]

/-- The best element so far, if any, and its score. -/
def pick (score : β → Option α) (best : Option β × α) (x : β) : Option β × α :=
  match score x with
  | some value => if best.2 < value then (some x, value) else best
  | none => best

def scan (score : β → Option α) (floor : α) (xs : List β) : Option β × α :=
  xs.foldl (pick score) (none, floor)

variable {score other : β → Option α} {floor value : α} {best : Option β × α} {x : β} {xs : List β}

theorem scan_concat (x : β) : scan score floor (xs ++ [x]) = pick score (scan score floor xs) x := by
  rw [scan, List.foldl_append]
  rfl

theorem pick_of_none (h : score x = none) : pick score best x = best := by
  rw [pick, h]

theorem pick_of_lt (h : score x = some value) (hlt : best.2 < value) :
    pick score best x = (some x, value) := by
  rw [pick, h]
  exact if_pos hlt

theorem pick_of_le (h : ∀ value, score x = some value → value ≤ best.2) : pick score best x = best := by
  unfold pick
  split
  · rename_i value hvalue
    rw [if_neg (not_lt_of_ge (h value hvalue))]
  · rfl

/-- An element is picked for a greater score, and else passed over. -/
theorem pick_cases (score : β → Option α) (best : Option β × α) (x : β) :
    (∃ value, score x = some value ∧ best.2 < value ∧ pick score best x = (some x, value)) ∨
      (∀ value, score x = some value → value ≤ best.2) ∧ pick score best x = best := by
  by_cases h : ∀ value, score x = some value → value ≤ best.2
  · exact .inr ⟨h, pick_of_le h⟩
  · obtain ⟨value, h⟩ := not_forall.mp h
    obtain ⟨hvalue, hlt⟩ := Classical.not_imp.mp h
    exact .inl ⟨value, hvalue, not_le.mp hlt, pick_of_lt hvalue (not_le.mp hlt)⟩

theorem le_pick : best.2 ≤ (pick score best x).2 := by
  rcases pick_cases score best x with ⟨value, -, hlt, heq⟩ | ⟨-, heq⟩
  · rw [heq]
    exact hlt.le
  · rw [heq]

theorem score_le_pick (h : score x = some value) : value ≤ (pick score best x).2 := by
  rcases pick_cases score best x with ⟨other, hother, -, heq⟩ | ⟨hle, heq⟩
  · rw [heq]
    exact (Option.some.inj (h.symm.trans hother)).le
  · rw [heq]
    exact hle value h

/-- No element has a greater score than the best. -/
theorem score_le_scan (hx : x ∈ xs) (h : score x = some value) : value ≤ (scan score floor xs).2 := by
  induction xs using List.reverseRecOn with
  | nil => cases hx
  | append_singleton earlier last ih =>
    rw [scan_concat]
    rcases List.mem_append.mp hx with hx | hx
    · exact (ih hx).trans le_pick
    · obtain rfl := List.mem_singleton.mp hx
      exact score_le_pick h

/-- The best element is one of the list, and has the score that is kept. -/
theorem scan_eq_some (h : (scan score floor xs).1 = some x) :
    x ∈ xs ∧ score x = some (scan score floor xs).2 := by
  induction xs using List.reverseRecOn with
  | nil => cases h
  | append_singleton earlier last ih =>
    rw [scan_concat] at h ⊢
    rcases pick_cases score (scan score floor earlier) last with ⟨value, hvalue, -, heq⟩ | ⟨-, heq⟩
    · rw [heq] at h ⊢
      obtain rfl := Option.some.inj h
      exact ⟨List.mem_append_right _ (List.mem_singleton_self _), hvalue⟩
    · rw [heq] at h ⊢
      obtain ⟨hmem, hscore⟩ := ih h
      exact ⟨List.mem_append_left _ hmem, hscore⟩

theorem scan_congr (h : ∀ x ∈ xs, score x = other x) : scan score floor xs = scan other floor xs := by
  refine List.foldl_ext _ _ _ fun best x hx => ?_
  unfold pick
  rw [h x hx]

/-- Elements without a score may be left out. -/
theorem scan_filter {keep : β → Bool} (h : ∀ x ∈ xs, keep x = false → score x = none) :
    scan score floor (xs.filter keep) = scan score floor xs := by
  induction xs using List.reverseRecOn with
  | nil => rfl
  | append_singleton earlier last ih =>
    have hlater := ih fun x hx => h x (List.mem_append_left _ hx)
    rw [List.filter_append]
    cases hkeep : keep last with
    | true => rw [List.filter_cons_of_pos hkeep, List.filter_nil, scan_concat, scan_concat, hlater]
    | false =>
      have hnone := h last (List.mem_append_right _ (List.mem_singleton_self _)) hkeep
      have hdrop : ¬ keep last = true := Bool.not_eq_true _ ▸ hkeep
      rw [List.filter_cons_of_neg hdrop, List.filter_nil, List.append_nil, scan_concat,
        pick_of_none hnone, hlater]

theorem eraseDups_concat [DecidableEq β] (x : β) :
    (xs ++ [x]).eraseDups = if x ∈ xs then xs.eraseDups else xs.eraseDups ++ [x] := by
  rw [List.eraseDups_append]
  by_cases hmem : x ∈ xs
  · simp [List.removeAll, hmem]
  · simp [List.removeAll, hmem, List.eraseDups_cons]

theorem nodup_eraseDups [DecidableEq β] (xs : List β) : xs.eraseDups.Nodup := by
  induction xs using List.reverseRecOn with
  | nil => exact List.nodup_nil
  | append_singleton earlier last ih =>
    rw [eraseDups_concat]
    split
    · exact ih
    · rename_i hnew
      refine List.nodup_append.mpr ⟨ih, List.nodup_singleton last, ?_⟩
      rintro x hx _ hlast rfl
      exact hnew (List.mem_eraseDups.mp (List.mem_singleton.mp hlast ▸ hx))

/-- An element that comes again is never picked again. -/
theorem scan_eraseDups [DecidableEq β] : scan score floor xs.eraseDups = scan score floor xs := by
  induction xs using List.reverseRecOn with
  | nil => rfl
  | append_singleton earlier last ih =>
    rw [eraseDups_concat, scan_concat]
    split
    · rename_i hmem
      rw [ih]
      exact (pick_of_le fun value hvalue => score_le_scan hmem hvalue).symm
    · rw [scan_concat, ih]

theorem scan_map {score : γ → Option α} (f : β → γ) :
    scan score floor (xs.map f) =
      ((scan (fun x => score (f x)) floor xs).1.map f, (scan (fun x => score (f x)) floor xs).2) := by
  induction xs using List.reverseRecOn with
  | nil => rfl
  | append_singleton earlier last ih =>
    rw [List.map_append, List.map_singleton, scan_concat, scan_concat, ih]
    rcases pick_cases (fun x => score (f x)) (scan (fun x => score (f x)) floor earlier) last with
      ⟨value, hvalue, hlt, heq⟩ | ⟨hle, heq⟩
    · rw [heq, pick_of_lt hvalue hlt]
      rfl
    · rw [heq, pick_of_le hle]

end FirstMax
