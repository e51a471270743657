/-
  AiPlatform.Lib.Ranges

  Consecutive half-open ranges of positions.  `Tiles a b ranges` says that the ranges
  follow one another from `a` to `b` and that none of them is empty: every position
  from `a` on and before `b` then lies in exactly one of them.
-/

import Mathlib.Tactic.Common

namespace Ranges

/-- The ranges lie end to end between `a` and `b`, and each holds a position. -/
def Tiles (a b : Nat) : List (Nat × Nat) → Prop
  | [] => a = b
  | (first, last) :: rest => first = a ∧ first < last ∧ Tiles last b rest

/-- One more range at the end. -/
theorem Tiles.snoc {a b c : Nat} {ranges : List (Nat × Nat)} (h : Tiles a b ranges)
    (hlt : b < c) : Tiles a c (ranges ++ [(b, c)]) := by
  induction ranges generalizing a with
  | nil =>
    obtain rfl : a = b := h
    exact ⟨rfl, hlt, rfl⟩
  | cons range rest ih =>
    obtain ⟨rfl, hrange, hrest⟩ := h
    exact ⟨rfl, hrange, ih hrest⟩

end Ranges
