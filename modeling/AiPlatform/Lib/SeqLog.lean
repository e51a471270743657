/-
  AiPlatform.Lib.SeqLog

  Logs whose entries carry increasing sequence numbers, read from a cursor on.

  A reader takes a page of what lies after its cursor and moves the cursor to
  the last entry of the page.  `Ordered.page_append` says that what it takes and
  what it has still to take is what lay before it, so a reader that goes on until
  nothing is left has taken every entry once and in order.
-/

import Mathlib.Tactic.Common
import Mathlib.Data.List.Basic

namespace SeqLog

variable {α : Type*} {seq : α → Nat} {xs ys : List α} {c d : Nat} {e : α}

/-- The numbers increase along the log. -/
def Ordered (seq : α → Nat) (xs : List α) : Prop :=
  xs.Pairwise (fun a b => seq a < seq b)

/-- The entries after a cursor. -/
def after (seq : α → Nat) (c : Nat) (xs : List α) : List α :=
  xs.filter (fun a => c < seq a)

/-- The cursor after a page. -/
def cursor (seq : α → Nat) (c : Nat) (page : List α) : Nat :=
  (page.getLast?.map seq).getD c

@[simp] theorem after_nil : after seq c [] = [] := rfl

theorem mem_after : e ∈ after seq c xs ↔ e ∈ xs ∧ c < seq e := by
  simp [after]

theorem after_append : after seq c (xs ++ ys) = after seq c xs ++ after seq c ys :=
  List.filter_append ..

/-- A later cursor needs only what an earlier one leaves. -/
theorem after_after (h : c ≤ d) : after seq d (after seq c xs) = after seq d xs := by
  unfold after
  rw [List.filter_filter]
  refine List.filter_congr ?_
  intro a _
  by_cases hd : d < seq a
  · have hc : c < seq a := by omega
    simp [hd, hc]
  · simp [hd]

@[simp] theorem cursor_nil : cursor seq c [] = c := rfl

theorem cursor_cons (page : List α) : cursor seq c (e :: page) = cursor seq (seq e) page := by
  cases page with
  | nil => rfl
  | cons a rest =>
      simp only [cursor, List.getLast?_cons_cons]
      rw [List.getLast?_eq_getLast_of_ne_nil (List.cons_ne_nil a rest)]
      rfl

/-- Numbers without a gap increase. -/
theorem ordered_of_range {n k : Nat} (h : xs.map seq = List.range' n k) :
    Ordered seq xs := by
  have hp : (xs.map seq).Pairwise (· < ·) := by
    rw [h]
    exact List.pairwise_lt_range'
  exact List.pairwise_map.mp hp

namespace Ordered

theorem after (h : Ordered seq xs) (c : Nat) : Ordered seq (after seq c xs) :=
  List.Pairwise.sublist List.filter_sublist h

/-- What follows the first entry after a cursor is what lies after that entry. -/
theorem after_head {rest : List α} (h : Ordered seq xs)
    (hxs : SeqLog.after seq c xs = e :: rest) : rest = SeqLog.after seq (seq e) xs := by
  have hmem : e ∈ SeqLog.after seq c xs := by
    rw [hxs]
    exact List.mem_cons_self ..
  have hc : c ≤ seq e := Nat.le_of_lt (mem_after.mp hmem).2
  have hrest : ∀ a ∈ rest, seq e < seq a := by
    have := h.after c
    rw [hxs] at this
    exact (List.pairwise_cons.mp this).1
  rw [← after_after hc, hxs]
  simp only [SeqLog.after, List.filter_cons, Nat.lt_irrefl, decide_false,
    Bool.false_eq_true, if_false]
  exact (List.filter_eq_self.mpr (fun a ha => decide_eq_true (hrest a ha))).symm

/-- An entry with nothing between it and the cursor is the first one after it. -/
theorem after_eq_cons (h : Ordered seq xs) (he : e ∈ xs) (hc : c < seq e)
    (hgap : ∀ b ∈ xs, c < seq b → seq e ≤ seq b) :
    SeqLog.after seq c xs = e :: SeqLog.after seq (seq e) xs := by
  have hmem : e ∈ SeqLog.after seq c xs := mem_after.mpr ⟨he, hc⟩
  cases hxs : SeqLog.after seq c xs with
  | nil => simp [hxs] at hmem
  | cons first rest =>
      have hfirst : first ∈ SeqLog.after seq c xs := by
        rw [hxs]
        exact List.mem_cons_self ..
      rw [hxs] at hmem
      rcases List.mem_cons.mp hmem with rfl | hrest
      · rw [h.after_head hxs]
      · have hlt : seq first < seq e := by
          have := h.after c
          rw [hxs] at this
          exact (List.pairwise_cons.mp this).1 e hrest
        have hle := hgap first (mem_after.mp hfirst).1 (mem_after.mp hfirst).2
        omega

/-- A page and what lies after its cursor are what lay after the cursor before. -/
theorem page_append (h : Ordered seq xs) (c k : Nat) :
    (SeqLog.after seq c xs).take k ++
        SeqLog.after seq (cursor seq c ((SeqLog.after seq c xs).take k)) xs =
      SeqLog.after seq c xs := by
  induction k generalizing c with
  | zero => simp
  | succ k ih =>
      cases hxs : SeqLog.after seq c xs with
      | nil => simp [hxs]
      | cons e rest =>
          obtain rfl := h.after_head hxs
          rw [List.take_succ_cons, cursor_cons, List.cons_append, ih (seq e)]

end Ordered

end SeqLog
