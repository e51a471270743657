/-
  AiPlatform.Lib.Coalescing

  Neighbours of a list put together, over any items.  A pass takes the items in order and
  joins each to the one before it where a partial `join` has a result; rounds of passes go
  on until a pass joins nothing.

  `Runs R sources items` says that each item is made of a run of the sources, in order.
  What one `join` keeps of it a pass keeps, and rounds that ended because nothing was left
  to join leave a `Settled` list.
-/

import Mathlib.Data.List.Chain
import Mathlib.Data.List.Forall2
import Mathlib.Tactic.Common

namespace Coalescing

variable {σ β : Type}

/-! ## Passes -/

section

variable (join : β → β → Option β)

/-- The item joined to the last of those that are done. -/
def absorb (done : List β) (item : β) : Option (List β) :=
  match done.getLast? with
  | none => none
  | some last => (join last item).map fun joined => done.dropLast ++ [joined]

def put (done : List β) (item : β) : List β := (absorb join done item).getD (done ++ [item])

/-- `put` that keeps whether anything was joined. -/
def step (state : List β × Bool) (item : β) : List β × Bool :=
  match absorb join state.1 item with
  | some done => (done, true)
  | none => (state.1 ++ [item], state.2)

def pass (items : List β) : List β × Bool := items.foldl (step join) ([], false)

/-- At most the given number of passes, and whether the last one still joined something. -/
def rounds : Nat → List β → List β × Bool
  | 0, items => (items, true)
  | n + 1, items =>
    if (pass join items).2 then rounds n (pass join items).1 else ((pass join items).1, false)

/-- No item can be joined to the one before it. -/
def Settled (items : List β) : Prop := items.IsChain fun last item => join last item = none

end

variable {join : β → β → Option β} {done items : List β} {item joined : β} {state : List β × Bool}

theorem absorb_eq_some (h : absorb join done item = some items) :
    ∃ front last joined, done = front ++ [last] ∧ join last item = some joined ∧
      items = front ++ [joined] := by
  unfold absorb at h
  split at h
  · cases h
  · rename_i last hlast
    obtain ⟨joined, hjoined, rfl⟩ := Option.map_eq_some_iff.mp h
    obtain ⟨front, rfl⟩ := List.getLast?_eq_some_iff.mp hlast
    refine ⟨front, last, joined, rfl, hjoined, ?_⟩
    rw [List.dropLast_concat]

theorem absorb_eq_none (h : absorb join done item = none) :
    ∀ last ∈ done.getLast?, join last item = none := by
  intro last hlast
  unfold absorb at h
  rw [Option.mem_def.mp hlast] at h
  exact Option.map_eq_none_iff.mp h

theorem step_fst (join : β → β → Option β) (state : List β × Bool) (item : β) :
    (step join state item).1 = put join state.1 item := by
  unfold step put
  cases absorb join state.1 item with
  | none => rfl
  | some done => rfl

/-! ## Runs -/

/-- The items are made of runs of the sources, in order. -/
def Runs (R : List σ → β → Prop) (sources : List σ) (items : List β) : Prop :=
  ∃ runs : List (List σ), runs.flatten = sources ∧ List.Forall₂ R runs items

/-- What is joined is made of the sources of both. -/
def Closed (R : List σ → β → Prop) (join : β → β → Option β) : Prop :=
  ∀ {run more : List σ} {last item joined : β}, R run last → R more item →
    join last item = some joined → R (run ++ more) joined

variable {R : List σ → β → Prop} {sources more run : List σ}

theorem Runs.nil : Runs R [] ([] : List β) := ⟨[], rfl, .nil⟩

theorem Runs.concat (h : Runs R sources items) (hrun : R run item) :
    Runs R (sources ++ run) (items ++ [item]) := by
  obtain ⟨runs, rfl, hruns⟩ := h
  refine ⟨runs ++ [run], ?_, List.rel_append hruns (.cons hrun .nil)⟩
  rw [List.flatten_append, List.flatten_singleton]

/-- The run of the last item, and those of the items before it. -/
theorem Runs.of_concat (h : Runs R sources (items ++ [item])) :
    ∃ before run, sources = before ++ run ∧ Runs R before items ∧ R run item := by
  obtain ⟨runs, rfl, hruns⟩ := h
  have hfront := List.forall₂_take_append runs items [item] hruns
  have hlast := List.forall₂_drop_append runs items [item] hruns
  obtain ⟨run, rest, hrun, hrest, hdrop⟩ := List.forall₂_cons_right_iff.mp hlast
  obtain rfl := List.forall₂_nil_right_iff.mp hrest
  refine ⟨(runs.take items.length).flatten, run, ?_, ⟨_, rfl, hfront⟩, hrun⟩
  rw [← List.flatten_singleton (l := run), ← hdrop, ← List.flatten_append, List.take_append_drop]

theorem Runs.put (hclosed : Closed R join) (h : Runs R sources done) (hrun : R run item) :
    Runs R (sources ++ run) (put join done item) := by
  unfold Coalescing.put
  cases habsorb : absorb join done item with
  | none => exact h.concat hrun
  | some joinedItems =>
    obtain ⟨front, last, joined, rfl, hjoined, rfl⟩ := absorb_eq_some habsorb
    obtain ⟨before, lastRun, rfl, hbefore, hlast⟩ := h.of_concat
    rw [List.append_assoc]
    exact hbefore.concat (hclosed hlast hrun hjoined)

theorem Runs.steps (hclosed : Closed R join) (h : Runs R sources state.1) (hitems : Runs R more items) :
    Runs R (sources ++ more) (items.foldl (step join) state).1 := by
  obtain ⟨runs, rfl, hruns⟩ := hitems
  induction hruns generalizing sources state with
  | nil => exact (List.append_nil sources).symm ▸ h
  | @cons run item runs items hrun hruns ih =>
    rw [List.flatten_cons, ← List.append_assoc, List.foldl_cons]
    refine ih ?_
    rw [step_fst]
    exact h.put hclosed hrun

theorem Runs.pass (hclosed : Closed R join) (h : Runs R sources items) :
    Runs R sources (pass join items).1 := by
  have hstart : Runs R [] (([], false) : List β × Bool).1 := Runs.nil
  exact hstart.steps hclosed h

theorem Runs.rounds (hclosed : Closed R join) (n : Nat) (h : Runs R sources items) :
    Runs R sources (rounds join n items).1 := by
  induction n generalizing items with
  | zero => exact h
  | succ n ih =>
    unfold Coalescing.rounds
    split
    · exact ih (h.pass hclosed)
    · exact h.pass hclosed

/-! ## Lengths -/

/-- The list is no longer than what it came from, and shorter where something was joined. -/
def Shrunk (count : Nat) (state : List β × Bool) : Prop :=
  state.1.length ≤ count ∧ (state.2 = true → state.1.length < count)

theorem Shrunk.step {count : Nat} (h : Shrunk count state) : Shrunk (count + 1) (step join state item) := by
  obtain ⟨hle, hlt⟩ := h
  unfold Coalescing.step
  cases habsorb : absorb join state.1 item with
  | none =>
    refine ⟨?_, fun hchanged => ?_⟩
    · rw [List.length_append, List.length_singleton]
      exact Nat.succ_le_succ hle
    · rw [List.length_append, List.length_singleton]
      exact Nat.succ_lt_succ (hlt hchanged)
  | some joinedItems =>
    obtain ⟨front, last, joined, hdone, -, rfl⟩ := absorb_eq_some habsorb
    rw [hdone, List.length_append, List.length_singleton] at hle
    refine ⟨?_, fun _ => ?_⟩ <;>
      rw [List.length_append, List.length_singleton] <;> omega

theorem Shrunk.steps {count : Nat} (h : Shrunk count state) :
    Shrunk (count + items.length) (items.foldl (Coalescing.step join) state) := by
  induction items generalizing count state with
  | nil => exact h
  | cons item later ih =>
    rw [List.length_cons, List.foldl_cons, Nat.add_comm later.length, ← Nat.add_assoc]
    exact ih h.step

theorem shrunk_pass (join : β → β → Option β) (items : List β) :
    Shrunk items.length (pass join items) := by
  have hstart : Shrunk 0 (([], false) : List β × Bool) := ⟨le_rfl, nofun⟩
  rw [← Nat.zero_add items.length]
  exact hstart.steps

/-- Every round that joined something has left fewer items. -/
theorem length_rounds (join : β → β → Option β) (n : Nat) (items : List β) :
    (rounds join n items).1.length ≤ items.length ∧
      ((rounds join n items).2 = true → (rounds join n items).1.length + n ≤ items.length) := by
  induction n generalizing items with
  | zero => exact ⟨le_rfl, fun _ => le_rfl⟩
  | succ n ih =>
    obtain ⟨hle, hlt⟩ := shrunk_pass join items
    unfold rounds
    split
    · rename_i hchanged
      have hshorter := hlt hchanged
      obtain ⟨hrest, hall⟩ := ih (pass join items).1
      refine ⟨hrest.trans hle, fun hstill => ?_⟩
      have hcount := hall hstill
      omega
    · exact ⟨hle, nofun⟩

/-! ## Settled lists -/

theorem steps_changed (h : state.2 = true) : (items.foldl (step join) state).2 = true := by
  induction items generalizing state with
  | nil => exact h
  | cons item later ih =>
    rw [List.foldl_cons]
    refine ih ?_
    unfold step
    split
    · rfl
    · exact h

/-- Steps that joined nothing leave every item where it could not be joined. -/
theorem settled_steps (h : (items.foldl (step join) state).2 = false) (hsettled : Settled join state.1) :
    Settled join (items.foldl (step join) state).1 := by
  induction items generalizing state with
  | nil => exact hsettled
  | cons item later ih =>
    rw [List.foldl_cons] at h ⊢
    cases habsorb : absorb join state.1 item with
    | none =>
      have hstep : step join state item = (state.1 ++ [item], state.2) := by
        rw [step, habsorb]
      rw [hstep] at h ⊢
      refine ih h (List.IsChain.append hsettled (List.isChain_singleton item) ?_)
      intro last hlast next hnext
      obtain rfl : item = next := Option.some.inj hnext
      exact absorb_eq_none habsorb last hlast
    | some joinedItems =>
      have hstep : step join state item = (joinedItems, true) := by
        rw [step, habsorb]
      have hchanged : (later.foldl (step join) (step join state item)).2 = true := by
        rw [hstep]
        exact steps_changed rfl
      rw [h] at hchanged
      cases hchanged

theorem settled_rounds {n : Nat} (h : (rounds join n items).2 = false) :
    Settled join (rounds join n items).1 := by
  induction n generalizing items with
  | zero => cases h
  | succ n ih =>
    unfold rounds at h ⊢
    by_cases hchanged : (pass join items).2 = true
    · rw [if_pos hchanged] at h ⊢
      exact ih h
    · rw [if_neg hchanged]
      exact settled_steps (Bool.eq_false_iff.mpr hchanged) List.isChain_nil

end Coalescing
