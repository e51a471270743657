/-
  AiPlatform.Lib.SlidingLog

  A log of instants from whose front the old ones are taken off.

  `Keeps recorded log start` says that the log holds all that was recorded but some
  instants before `start`.  Whoever records only while the log is short has recorded few
  instants in any one window.
-/

import Mathlib.Data.List.TakeWhile
import Mathlib.Order.Lattice
import Mathlib.Tactic.Common

namespace SlidingLog

variable {α : Type} [LinearOrder α] {recorded log : List α} {start later now low high : α}

/-- The log without the old instants at its front. -/
def prune (start : α) (log : List α) : List α := log.dropWhile fun instant => instant < start

/-- What was recorded and is not in the log any more lies before `start`. -/
def Keeps (recorded log : List α) (start : α) : Prop :=
  ∃ gone, recorded = gone ++ log ∧ ∀ instant ∈ gone, instant < start

theorem prune_suffix (start : α) (log : List α) : prune start log <:+ log :=
  List.dropWhile_suffix _

theorem length_prune_le (start : α) (log : List α) : (prune start log).length ≤ log.length :=
  (prune_suffix start log).length_le

/-- The first instant that is left is not old. -/
theorem le_of_prune_eq_cons {first : α} {rest : List α} (h : prune start log = first :: rest) :
    start ≤ first := by
  have hhead := List.head?_dropWhile_not (fun instant => decide (instant < start)) log
  rw [show log.dropWhile (fun instant => decide (instant < start)) = first :: rest from h] at hhead
  simpa using hhead

/-- A log that begins with an old instant gets shorter. -/
theorem length_prune_lt {first : α} {rest : List α} (h : first < start) :
    (prune start (first :: rest)).length < (first :: rest).length := by
  rw [prune, List.dropWhile_cons_of_pos (by simpa using h)]
  exact Nat.lt_succ_of_le (length_prune_le start rest)

theorem keeps_nil (start : α) : Keeps [] [] start := ⟨[], rfl, nofun⟩

theorem Keeps.prune (h : Keeps recorded log start) (hle : start ≤ later) :
    Keeps recorded (prune later log) later := by
  obtain ⟨gone, rfl, hgone⟩ := h
  refine ⟨gone ++ log.takeWhile (fun instant => instant < later), ?_, ?_⟩
  · rw [List.append_assoc, SlidingLog.prune, List.takeWhile_append_dropWhile]
  · intro instant hmem
    rcases List.mem_append.mp hmem with hold | hfront
    · exact lt_of_lt_of_le (hgone instant hold) hle
    · simpa using List.mem_takeWhile_imp hfront

theorem Keeps.record (h : Keeps recorded log start) (now : α) :
    Keeps (recorded ++ [now]) (log ++ [now]) start := by
  obtain ⟨gone, rfl, hgone⟩ := h
  exact ⟨gone, List.append_assoc gone log [now], hgone⟩

/-- All that was recorded from `start` on is in the log. -/
theorem Keeps.countP_le (h : Keeps recorded log start) (hle : start ≤ low) :
    recorded.countP (fun instant => low ≤ instant ∧ instant ≤ high) ≤ log.length := by
  obtain ⟨gone, rfl, hgone⟩ := h
  have hnone : gone.countP (fun instant => decide (low ≤ instant ∧ instant ≤ high)) = 0 := by
    refine List.countP_eq_zero.mpr fun instant hmem => ?_
    simpa using fun hlow => absurd (lt_of_lt_of_le (hgone instant hmem) (le_trans hle hlow))
      (lt_irrefl instant)
  rw [List.countP_append, hnone, Nat.zero_add]
  exact List.countP_le_length

end SlidingLog
