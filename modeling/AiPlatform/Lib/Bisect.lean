/-
  AiPlatform.Lib.Bisect

  Binary search for the last position that fits, with the best position found so far
  carried along.  `lastFitting_cases` says what the search leaves with when whatever lies
  below a fitting position of the window fits as well.
-/

import Mathlib.Tactic.Common

namespace Bisect

/-- `while lo <= hi`: the upper half of the window when the middle fits, the lower half when
    it does not.  A window that starts above `0` loses a position in every turn. -/
def lastFitting (fits : Nat → Bool) (lo hi best : Nat) (hlo : 0 < lo) : Nat :=
  if h : lo ≤ hi then
    let mid := (lo + hi) / 2
    if fits mid then lastFitting fits (mid + 1) hi mid (Nat.succ_pos mid)
    else lastFitting fits lo (mid - 1) best hlo
  else best
termination_by hi + 1 - lo

variable {fits : Nat → Bool}

/-- Nothing of the window fits and the best stays, or the last position of it that fits is
    found. -/
theorem lastFitting_cases (lo hi best : Nat) (hlo : 0 < lo)
    (hfits : ∀ i j, lo ≤ i → i ≤ j → j ≤ hi → fits j = true → fits i = true) :
    (lastFitting fits lo hi best hlo = best ∧ ∀ i, lo ≤ i → i ≤ hi → fits i = false) ∨
    (lo ≤ lastFitting fits lo hi best hlo ∧ lastFitting fits lo hi best hlo ≤ hi ∧
      fits (lastFitting fits lo hi best hlo) = true ∧
      ∀ i, lastFitting fits lo hi best hlo < i → i ≤ hi → fits i = false) := by
  fun_induction lastFitting fits lo hi best hlo with
  | case1 lo hi best hlo hle mid hmid ih =>
    have hwindow : lo ≤ mid ∧ mid ≤ hi := by omega
    rcases ih fun i j hi => hfits i j (by omega) with ⟨heq, hnone⟩ | ⟨hlow, hhigh, hfit, hlast⟩
    · right
      rw [heq]
      exact ⟨hwindow.1, hwindow.2, hmid, fun i hlt hi => hnone i hlt hi⟩
    · exact .inr ⟨by omega, hhigh, hfit, hlast⟩
  | case2 lo hi best hlo hle mid hmid ih =>
    have hwindow : lo ≤ mid ∧ mid ≤ hi := by omega
    -- nothing from the middle on fits
    have habove : ∀ i, mid ≤ i → i ≤ hi → fits i = false := fun i hmi hhigh =>
      Bool.eq_false_iff.mpr fun hfit => hmid (hfits mid i hwindow.1 hmi hhigh hfit)
    rcases ih fun i j hi hij hj => hfits i j hi hij (by omega) with
      ⟨heq, hnone⟩ | ⟨hlow, hhigh, hfit, hlast⟩
    · refine .inl ⟨heq, fun i hlow hhigh => ?_⟩
      by_cases hi : i ≤ mid - 1
      · exact hnone i hlow hi
      · exact habove i (by omega) hhigh
    · refine .inr ⟨hlow, by omega, hfit, fun i hlt hhigh => ?_⟩
      by_cases hi : i ≤ mid - 1
      · exact hlast i hlt hi
      · exact habove i (by omega) hhigh
  | case3 lo hi best hlo hle =>
    exact .inl ⟨rfl, fun i hlow hhigh => absurd (Nat.le_trans hlow hhigh) hle⟩

end Bisect
