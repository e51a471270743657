/-
  AiPlatform.Lib.Metering

  A counter that is to show what was recorded in the current period of time.

  It is added to in place, and somebody zeroes it at an instant of their own.  What
  it shows is what was recorded since it was zeroed last; what it is to show is what
  was recorded since the period began.  The two differ by the records that lie
  between these two instants, whichever comes first.
-/

import Mathlib.Algebra.BigOperators.Group.List.Basic
import Mathlib.Algebra.Order.Ring.Nat
import Mathlib.Tactic.Common

namespace Metering

/-- Time cut into consecutive periods: the number of the period of an instant, and the
    first instant of the period after it. -/
structure Periods where
  index : Nat → Nat
  next : Nat → Nat
  mono : Monotone index
  next_le : ∀ now later, next now ≤ later ↔ index now < index later

/-- What was recorded, by the instant, in order: before the counter was zeroed last,
    and since. -/
structure Log (α : Type*) where
  before : List (Nat × α)
  since : List (Nat × α)

variable {α : Type*}

namespace Log

def record (now : Nat) (amount : α) (log : Log α) : Log α :=
  { log with since := log.since ++ [(now, amount)] }

def zero (log : Log α) : Log α := ⟨log.before ++ log.since, []⟩

end Log

def amounts [AddCommMonoid α] (records : List (Nat × α)) : α := (records.map Prod.snd).sum

/-- What was recorded in the period of the instant. -/
def Log.inPeriod [AddCommMonoid α] (periods : Periods) (now : Nat) (log : Log α) : α :=
  amounts ((log.before ++ log.since).filter fun record =>
    periods.index record.1 = periods.index now)

/-- The records between the last zeroing and the beginning of the period: those of
    this period that were zeroed, and those of earlier ones that were not. -/
def Log.misplaced (periods : Periods) (now : Nat) (log : Log α) : List (Nat × α) :=
  log.before.filter (fun record => periods.index record.1 = periods.index now) ++
    log.since.filter fun record => periods.index record.1 ≠ periods.index now

/-- The records come in order, and the counter was zeroed between two of them. -/
structure Log.InOrder (now : Nat) (log : Log α) : Prop where
  past : ∀ record ∈ log.before ++ log.since, record.1 ≤ now
  zeroed : log.before = [] ∨ ∃ at', at' ≤ now ∧ (∀ record ∈ log.before, record.1 ≤ at') ∧
    ∀ record ∈ log.since, at' ≤ record.1

variable {periods : Periods} {log : Log α} {now now' : Nat} {amount : α}

theorem Log.InOrder.mono (h : log.InOrder now) (hnow : now ≤ now') : log.InOrder now' where
  past record hmem := (h.past record hmem).trans hnow
  zeroed := h.zeroed.imp_right fun ⟨at', hat, hsplit⟩ => ⟨at', hat.trans hnow, hsplit⟩

theorem Log.InOrder.record (h : log.InOrder now) : (log.record now amount).InOrder now where
  past record hmem := by
    rw [Log.record, ← List.append_assoc] at hmem
    rcases List.mem_append.mp hmem with hold | hnew
    · exact h.past record hold
    · rw [List.mem_singleton.mp hnew]
  zeroed := by
    refine h.zeroed.imp_right fun ⟨at', hat, hbefore, hsince⟩ => ⟨at', hat, hbefore, ?_⟩
    intro record hmem
    rcases List.mem_append.mp hmem with hold | hnew
    · exact hsince record hold
    · rw [List.mem_singleton.mp hnew]
      exact hat

theorem Log.InOrder.zero (h : log.InOrder now) : log.zero.InOrder now where
  past record hmem := h.past record (by rwa [Log.zero, List.append_nil] at hmem)
  zeroed := .inr ⟨now, Nat.le_refl now, h.past, nofun⟩

section

variable [AddCommGroup α]

theorem amounts_append (left right : List (Nat × α)) :
    amounts (left ++ right) = amounts left + amounts right := by
  rw [amounts, List.map_append, List.sum_append, amounts, amounts]

/-- A sum in two parts, by a test of the record. -/
theorem amounts_filter (p : Nat × α → Bool) (records : List (Nat × α)) :
    amounts records = amounts (records.filter p) + amounts (records.filter fun record => !p record) := by
  induction records with
  | nil => exact (add_zero _).symm
  | cons first rest ih =>
    have hcons : amounts (first :: rest) = first.2 + amounts rest := List.sum_cons
    rw [hcons, ih]
    cases hp : p first with
    | true =>
      rw [List.filter_cons_of_pos hp, List.filter_cons_of_neg (by simp [hp])]
      exact (add_assoc _ _ _).symm
    | false =>
      rw [List.filter_cons_of_neg (by simp [hp]), List.filter_cons_of_pos (by simp [hp])]
      exact add_left_comm _ _ _

/-- The counter shows what was recorded in the period exactly when what is misplaced
    comes to nothing. -/
theorem since_eq_inPeriod (h : log.InOrder now) :
    amounts log.since = log.inPeriod periods now ↔ amounts (log.misplaced periods now) = 0 := by
  have hperiod : log.inPeriod periods now =
      amounts (log.before.filter fun record => periods.index record.1 = periods.index now) +
        amounts (log.since.filter fun record => periods.index record.1 = periods.index now) := by
    rw [Log.inPeriod, List.filter_append, amounts_append]
  have hsince := amounts_filter (fun record => decide (periods.index record.1 = periods.index now))
    log.since
  have hmisplaced : amounts (log.misplaced periods now) =
      amounts (log.before.filter fun record => periods.index record.1 = periods.index now) +
        amounts (log.since.filter fun record => !decide (periods.index record.1 = periods.index now)) := by
    rw [Log.misplaced, amounts_append]
    simp only [decide_not]
  rw [hperiod, hmisplaced, hsince, add_comm, add_left_inj]
  -- One of the two is empty: the counter was zeroed in this period or before it.
  have hempty : log.before.filter (fun record => periods.index record.1 = periods.index now) = [] ∨
      log.since.filter (fun record => !decide (periods.index record.1 = periods.index now)) = [] := by
    rcases h.zeroed with hnil | ⟨at', hat, hbefore, hafter⟩
    · rw [hnil]
      exact .inl rfl
    · rcases Nat.lt_or_eq_of_le (periods.mono hat) with hlt | heq
      · refine .inl (List.filter_eq_nil_iff.mpr fun record hmem hin => ?_)
        have hle := periods.mono (hbefore record hmem)
        have hin := of_decide_eq_true hin
        omega
      · refine .inr (List.filter_eq_nil_iff.mpr fun record hmem hout => ?_)
        have hle := periods.mono (hafter record hmem)
        have hle' := periods.mono (h.past record (List.mem_append_right _ hmem))
        simp only [Bool.not_eq_true', decide_eq_false_iff_not] at hout
        omega
  rcases hempty with hnil | hnil
  · rw [hnil]
    simp [amounts]
  · rw [hnil]
    simp [amounts, eq_comm]

end

end Metering
