/-
  AiPlatform.Lib.Lifecycles

  Logs of what is started and finished, each by its key.

  A log is proper if nothing starts twice and nothing finishes before it has started.
-/

import Mathlib.Tactic.Common

namespace Lifecycles

variable {κ : Type} [DecidableEq κ]

inductive Mark (κ : Type) where
  | started (key : κ)
  | finished (key : κ)
  deriving DecidableEq, Repr

/-- Nothing starts twice, and nothing finishes that has not started. -/
structure Proper (log : List (Mark κ)) : Prop where
  starts_once : ∀ key, log.count (.started key) ≤ 1
  finish_after : ∀ front key rest, log = front ++ .finished key :: rest → .started key ∈ front

theorem proper_nil : Proper ([] : List (Mark κ)) where
  starts_once key := Nat.zero_le 1
  finish_after front key rest h := by cases front <;> cases h

end Lifecycles
