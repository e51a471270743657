/-
  AiPlatform.Lib.Windows

  A list taken in overlapping windows: every `step` elements a window of at most `size`.

  `Unrolls carried windows xs` says that the windows go through the list once and in order:
  each begins with the last `carried` elements of the one before, and goes on with at least
  one new element.  `unrolls_windows_iff` says when the windows of a list do: exactly when
  the last of them is not just the end of the one before.
-/

import Mathlib.Tactic.Common

namespace Windows

variable {α : Type}

/-- The windows at `range(0, len(xs), step)`. -/
def windows (size step : Nat) (xs : List α) : List (List α) :=
  (List.range ((xs.length + step - 1) / step)).map fun i => (xs.drop (i * step)).take size

/-- The windows go on after `previous` with the elements of `rest`. -/
def Follows (carried : Nat) (previous : List α) : List (List α) → List α → Prop
  | [], rest => rest = []
  | window :: later, rest =>
      ∃ shared fresh more, window = shared ++ fresh ∧ rest = fresh ++ more ∧
        shared.length = carried ∧ shared <:+ previous ∧ fresh ≠ [] ∧
        Follows carried window later more

/-- The windows go through the list. -/
def Unrolls (carried : Nat) : List (List α) → List α → Prop
  | [], xs => xs = []
  | window :: later, xs => ∃ rest, xs = window ++ rest ∧ Follows carried window later rest

theorem windows_nil (size step : Nat) : windows size step ([] : List α) = [] := by
  cases step with
  | zero => simp [windows]
  | succ step => simp [windows, Nat.div_eq_of_lt]

/-- The first window, and those of the list from the next step on. -/
theorem windows_eq {size step : Nat} (hstep : 0 < step) {xs : List α} (hne : xs ≠ []) :
    windows size step xs = xs.take size :: windows size step (xs.drop step) := by
  have hlength := List.length_pos_iff.mpr hne
  have hcount : (xs.length + step - 1) / step = ((xs.drop step).length + step - 1) / step + 1 := by
    rw [List.length_drop]
    by_cases hle : xs.length ≤ step
    · rw [Nat.sub_eq_zero_of_le hle, Nat.zero_add, Nat.div_eq_of_lt (Nat.sub_lt hstep Nat.one_pos)]
      exact Nat.div_eq_of_lt_le (by omega) (by omega)
    · rw [show xs.length + step - 1 = (xs.length - step + step - 1) + step by omega,
        Nat.add_div_right _ hstep]
  rw [windows, hcount, List.range_succ_eq_map, List.map_cons, List.map_map, Nat.zero_mul, List.drop_zero]
  refine congrArg _ (List.map_congr_left fun i _ => ?_)
  rw [Function.comp_apply, List.drop_drop, Nat.succ_mul, Nat.add_comm]

/-- Steps of one with windows of one: every element for itself. -/
theorem windows_one (xs : List α) : windows 1 1 xs = xs.map fun x => [x] := by
  induction xs with
  | nil => exact windows_nil 1 1
  | cons x xs ih =>
    rw [windows_eq Nat.one_pos (List.cons_ne_nil x xs)]
    exact congrArg _ ih

/-- Every element is in some window when no step is larger than a window. -/
theorem exists_mem_windows {size step : Nat} (hstep : 0 < step) (hle : step ≤ size) {xs : List α} {x : α}
    (hx : x ∈ xs) : ∃ window ∈ windows size step xs, x ∈ window := by
  generalize hlength : xs.length = n
  induction n using Nat.strongRecOn generalizing xs with
  | ind n ih =>
    rw [windows_eq hstep (List.ne_nil_of_mem hx)]
    by_cases hfirst : x ∈ xs.take size
    · exact ⟨_, List.mem_cons_self, hfirst⟩
    · have hrest : x ∈ xs.drop step := by
        rw [← List.take_append_drop step xs] at hx
        refine (List.mem_append.mp hx).resolve_left fun hmem => hfirst ?_
        exact List.take_subset_take_left xs hle hmem
      have hshorter : (xs.drop step).length < n := by
        have := List.length_pos_of_mem hrest
        rw [List.length_drop] at this ⊢
        omega
      obtain ⟨window, hwindow, hmem⟩ := ih _ hshorter hrest rfl
      exact ⟨window, List.mem_cons_of_mem _ hwindow, hmem⟩

theorem windows_sublist {size step : Nat} {xs window : List α} (h : window ∈ windows size step xs) :
    window.Sublist xs ∧ window.length ≤ size := by
  obtain ⟨i, -, rfl⟩ := List.mem_map.mp h
  exact ⟨(List.take_sublist _ _).trans (List.drop_sublist _ _), List.length_take_le _ _⟩

/-- The last window holds more than what it carries over from the one before. -/
def LastIsNew (size step n : Nat) : Prop := n ≤ step ∨ size - step ≤ (n - 1) % step

instance (size step n : Nat) : Decidable (LastIsNew size step n) :=
  inferInstanceAs (Decidable (_ ∨ _))

theorem lastIsNew_sub {size step n : Nat} (hstep : 0 < step) (hlt : size < n) (hle : step ≤ size) :
    LastIsNew size step (n - step) ↔ LastIsNew size step n := by
  have hmod : (n - 1) % step = (n - step - 1) % step := by
    rw [show n - 1 = (n - step - 1) + step by omega, Nat.add_mod_right]
  unfold LastIsNew
  rw [hmod]
  constructor
  · rintro (hshort | hlast)
    · rw [Nat.mod_eq_of_lt (by omega)]
      omega
    · exact .inr hlast
  · rintro (hshort | hlast)
    · omega
    · exact .inr hlast

theorem not_lastIsNew {size step n : Nat} (hstep : step < n) (hle : n ≤ size) (hpos : 0 < step) :
    ¬ LastIsNew size step n := by
  rintro (hshort | hlast)
  · omega
  · have hlt := Nat.mod_lt (n - 1) hpos
    have hdiv := Nat.div_add_mod (n - 1) step
    have hquot : 1 ≤ (n - 1) / step := (Nat.one_le_div_iff hpos).mpr (by omega)
    have hmul : step ≤ step * ((n - 1) / step) := Nat.le_mul_of_pos_right step hquot
    omega

/-- The windows after the first go on with the rest of the list, or the last carries nothing
    new. -/
theorem follows_windows_iff {size step : Nat} (hstep : 0 < step) (hle : step ≤ size) (xs : List α) :
    Follows (size - step) (xs.take size) (windows size step (xs.drop step)) (xs.drop size) ↔
      LastIsNew size step xs.length := by
  generalize hlength : xs.length = n
  induction n using Nat.strongRecOn generalizing xs with
  | ind n ih =>
    by_cases hshort : n ≤ step
    · rw [List.drop_eq_nil_of_le (hlength ▸ hshort), windows_nil]
      exact iff_of_true (List.drop_eq_nil_of_le (by omega)) (.inl hshort)
    · have hne : xs.drop step ≠ [] := by
        intro hnil
        have := congrArg List.length hnil
        rw [List.length_drop, List.length_nil] at this
        omega
      rw [windows_eq hstep hne]
      by_cases hwithin : n ≤ size
      -- the first window reaches the end
      · refine iff_of_false ?_ (not_lastIsNew (by omega) hwithin hstep)
        rintro ⟨shared, fresh, more, -, hrest, -, -, hfresh, -⟩
        rw [List.drop_eq_nil_of_le (hlength ▸ hwithin)] at hrest
        exact hfresh (List.append_eq_nil_iff.mp hrest.symm).1
      · have htake : (xs.drop step).take size =
            (xs.drop step).take (size - step) ++ (xs.drop size).take step := by
          rw [show size = (size - step) + step by omega, List.take_add, List.drop_drop]
          rw [show size - step + step = size by omega, show step + (size - step) = size by omega]
        have hdrop : (xs.drop step).drop size = (xs.drop size).drop step := by
          rw [List.drop_drop, List.drop_drop, Nat.add_comm]
        have ih' := ih (n - step) (by omega) (xs.drop step) (by rw [List.length_drop, hlength])
        rw [lastIsNew_sub hstep (by omega) hle] at ih'
        rw [← ih']
        constructor
        · rintro ⟨shared, fresh, more, hwindow, hrest, hcarried, -, -, hlater⟩
          have hmore : more = (xs.drop step).drop size := by
            rw [htake] at hwindow
            have hlen : ((xs.drop step).take (size - step)).length = shared.length := by
              rw [List.length_take, List.length_drop, hlength, hcarried]
              omega
            obtain ⟨-, rfl⟩ := List.append_inj hwindow hlen
            rw [hdrop]
            exact List.append_cancel_left (hrest.symm.trans (List.take_append_drop step _).symm)
          rwa [hmore] at hlater
        · intro hlater
          refine ⟨(xs.drop step).take (size - step), (xs.drop size).take step, (xs.drop step).drop size,
            htake, ?_, ?_, ?_, ?_, hlater⟩
          · rw [hdrop, List.take_append_drop]
          · rw [List.length_take, List.length_drop, hlength]
            omega
          · rw [← List.drop_take]
            exact List.drop_suffix step _
          · intro hnil
            have := congrArg List.length hnil
            rw [List.length_take, List.length_drop, List.length_nil] at this
            omega

/-- The windows of a list go through it once and in order exactly when the last one is not
    just the end of the one before. -/
theorem unrolls_windows_iff {size step : Nat} (hstep : 0 < step) (hle : step ≤ size) {xs : List α}
    (hne : xs ≠ []) :
    Unrolls (size - step) (windows size step xs) xs ↔ LastIsNew size step xs.length := by
  rw [windows_eq hstep hne, ← follows_windows_iff hstep hle]
  constructor
  · rintro ⟨rest, heq, hfollows⟩
    have hrest : rest = xs.drop size :=
      List.append_cancel_left (heq.symm.trans (List.take_append_drop size xs).symm)
    rwa [hrest] at hfollows
  · intro hfollows
    exact ⟨xs.drop size, (List.take_append_drop size xs).symm, hfollows⟩

end Windows
