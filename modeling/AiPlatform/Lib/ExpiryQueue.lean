/-
  AiPlatform.Lib.ExpiryQueue

  A bounded dictionary whose entries expire, against the log of all that was ever
  put into it.

  The dictionary lists its entries in the order they were last put.  It drops
  entries from the front only: stale ones, and those beyond its capacity.  So it is
  a suffix of the log, and what it still holds of the log is decided by the log
  alone: an entry is there as long as it is live and fewer others than the capacity
  were put after it.
-/

import Mathlib.Data.List.Infix
import Mathlib.Data.List.Nodup
import Mathlib.Tactic.Common

namespace ExpiryQueue

variable {κ : Type*}

/-- `d[key] = expires; d.move_to_end(key)` -/
def put [DecidableEq κ] (key : κ) (expires : Int) (entries : List (κ × Int)) : List (κ × Int) :=
  entries.filter (fun entry => decide (entry.1 ≠ key)) ++ [(key, expires)]

/-- Pops the entries in front that have expired, up to the first that has not. -/
def dropStale (now : Int) (entries : List (κ × Int)) : List (κ × Int) :=
  entries.dropWhile fun entry => decide (entry.2 ≤ now)

/-- `while len(d) > capacity: d.popitem(last=False)` -/
def dropBeyond (capacity : Nat) (entries : List (κ × Int)) : List (κ × Int) :=
  entries.drop (entries.length - capacity)

/-- The last entry of the key has not expired, and fewer others than the capacity
    were put after it. -/
def Live (capacity : Nat) (now : Int) (log : List (κ × Int)) (key : κ) : Prop :=
  ∃ expires later, ((key, expires) :: later) <:+ log ∧ now < expires ∧ later.length < capacity

/-- The entries hold of the log what is live. -/
structure Keeps (capacity : Nat) (now : Int) (log entries : List (κ × Int)) : Prop where
  nodup : (log.map Prod.fst).Nodup
  suffix : entries <:+ log
  bounded : entries.length ≤ capacity
  live : ∀ entry later, (entry :: later) <:+ log → now < entry.2 → later.length < capacity →
    (entry :: later) <:+ entries

variable {capacity : Nat} {now now' expires : Int} {key : κ} {log entries : List (κ × Int)}

/-! ## Suffixes -/

theorem suffix_dropWhile {α : Type*} {p : α → Bool} {x : α} {later l : List α}
    (h : (x :: later) <:+ l) (hx : p x = false) : (x :: later) <:+ l.dropWhile p := by
  induction l with
  | nil => exact absurd (List.suffix_nil.mp h) (List.cons_ne_nil _ _)
  | cons y rest ih =>
    rw [List.dropWhile_cons]
    split
    · rename_i hy
      rcases List.suffix_cons_iff.mp h with heq | h
      · obtain ⟨rfl, -⟩ := List.cons.inj heq
        rw [hx] at hy
        cases hy
      · exact ih h
    · exact h

theorem suffix_drop {α : Type*} {s l : List α} {n : Nat} (h : s <:+ l) (hn : s.length ≤ n) :
    s <:+ l.drop (l.length - n) := by
  refine List.suffix_of_suffix_length_le h (List.drop_suffix _ _) ?_
  have hle := h.length_le
  rw [List.length_drop]
  omega

/-- Among distinct keys a filter by one key takes away one entry at most. -/
theorem length_le_filter_ne [DecidableEq κ] (key : κ) {l : List (κ × Int)} (h : (l.map Prod.fst).Nodup) :
    l.length ≤ (l.filter fun entry => decide (entry.1 ≠ key)).length + 1 := by
  induction l with
  | nil => exact Nat.zero_le _
  | cons first rest ih =>
    rw [List.map_cons] at h
    obtain ⟨hnew, hrest⟩ := List.nodup_cons.mp h
    by_cases hkey : first.1 = key
    · have hall : rest.filter (fun entry => decide (entry.1 ≠ key)) = rest := by
        refine List.filter_eq_self.mpr fun entry hentry => decide_eq_true fun heq => ?_
        exact hnew (List.mem_map.mpr ⟨entry, hentry, heq.trans hkey.symm⟩)
      rw [List.filter_cons_of_neg (by simp [hkey]), hall, List.length_cons]
    · rw [List.filter_cons_of_pos (by simp [hkey]), List.length_cons, List.length_cons]
      exact Nat.succ_le_succ (ih hrest)

/-- A suffix of a filtered list that begins with an element comes from the suffix
    that begins there. -/
theorem suffix_of_suffix_filter {α : Type*} {p : α → Bool} {x : α} {later l : List α}
    (h : (x :: later) <:+ l.filter p) : ∃ later', (x :: later') <:+ l ∧ later'.filter p = later := by
  obtain ⟨front, heq⟩ := h
  obtain ⟨left, right, rfl, -, hright⟩ := List.filter_eq_append_iff.mp heq.symm
  obtain ⟨skipped, kept, rfl, -, -, hkept⟩ := List.filter_eq_cons_iff.mp hright
  exact ⟨kept, ⟨left ++ skipped, by simp⟩, hkept⟩

/-! ## What the entries hold -/

theorem keeps_nil : Keeps capacity now ([] : List (κ × Int)) [] where
  nodup := List.nodup_nil
  suffix := List.nil_suffix
  bounded := Nat.zero_le _
  live _ _ h := absurd (List.suffix_nil.mp h) (List.cons_ne_nil _ _)

theorem Keeps.mono (h : Keeps capacity now log entries) (hnow : now ≤ now') :
    Keeps capacity now' log entries where
  nodup := h.nodup
  suffix := h.suffix
  bounded := h.bounded
  live entry later hlog hlive := h.live entry later hlog (Int.lt_of_le_of_lt hnow hlive)

/-- Popping stale entries in front loses nothing that is live. -/
theorem Keeps.dropStale (h : Keeps capacity now log entries) :
    Keeps capacity now log (dropStale now entries) where
  nodup := h.nodup
  suffix := (List.dropWhile_suffix _).trans h.suffix
  bounded := (List.dropWhile_suffix _).length_le.trans h.bounded
  live entry later hlog hlive hfew :=
    suffix_dropWhile (h.live entry later hlog hlive hfew) (decide_eq_false (Int.not_le.mpr hlive))

theorem nodup_put [DecidableEq κ] (h : (log.map Prod.fst).Nodup) : ((put key expires log).map Prod.fst).Nodup := by
  rw [put, List.map_append, List.map_singleton]
  refine List.nodup_append.mpr ⟨?_, List.nodup_singleton _, ?_⟩
  · exact h.sublist (List.filter_sublist.map _)
  · intro a ha b hb hab
    obtain ⟨entry, hentry, rfl⟩ := List.mem_map.mp ha
    rw [List.mem_singleton.mp hb] at hab
    exact of_decide_eq_true (List.mem_filter.mp hentry).2 hab

theorem Keeps.put [DecidableEq κ] (h : Keeps capacity now log entries) :
    Keeps capacity now (put key expires log) (dropBeyond capacity (put key expires entries)) where
  nodup := nodup_put h.nodup
  suffix := by
    obtain ⟨front, hfront⟩ := h.suffix
    refine (List.drop_suffix _ _).trans ⟨front.filter fun entry => decide (entry.1 ≠ key), ?_⟩
    rw [ExpiryQueue.put, ExpiryQueue.put, ← List.append_assoc, ← List.filter_append, hfront]
  bounded := by
    rw [dropBeyond, List.length_drop]
    omega
  live entry later hlog hlive hfew := by
    refine suffix_drop ?_ hfew
    rcases List.eq_nil_or_concat later with rfl | ⟨before, last, rfl⟩
    · -- The entry that was put just now.
      obtain ⟨front, hfront⟩ := hlog
      obtain ⟨-, heq⟩ := List.append_inj' hfront rfl
      exact ⟨entries.filter fun entry => decide (entry.1 ≠ key), by rw [ExpiryQueue.put, heq]⟩
    · rw [List.concat_eq_append] at hlog hfew ⊢
      obtain ⟨front, hfront⟩ := hlog
      rw [← List.cons_append, ← List.append_assoc] at hfront
      obtain ⟨hfilter, hlast⟩ := List.append_inj' hfront rfl
      obtain ⟨before', hsuffix, hbefore⟩ := suffix_of_suffix_filter ⟨front, hfilter⟩
      have hnodup : (before'.map Prod.fst).Nodup :=
        (h.nodup.sublist (hsuffix.sublist.map _)).of_cons
      have hfew' : before'.length < capacity := by
        have hone := length_le_filter_ne key hnodup
        rw [hbefore] at hone
        rw [List.length_append, List.length_singleton] at hfew
        omega
      obtain ⟨front', hfront'⟩ := h.live entry before' hsuffix hlive hfew'
      have hmem : entry ∈ log.filter fun entry => decide (entry.1 ≠ key) :=
        hfilter ▸ List.mem_append_right _ List.mem_cons_self
      have hkept : (entry :: before').filter (fun entry => decide (entry.1 ≠ key)) =
          entry :: before := by
        rw [List.filter_cons, if_pos (List.mem_filter.mp hmem).2, hbefore]
      refine ⟨front'.filter fun entry => decide (entry.1 ≠ key), ?_⟩
      rw [ExpiryQueue.put, ← hfront', List.filter_append, hkept, ← hlast]
      simp

/-- The entry of the key as it is looked up. -/
theorem Keeps.lookup_live [DecidableEq κ] (h : Keeps capacity now log entries) :
    (entries.lookup key).any (fun expires => decide (now < expires)) = true ↔
      Live capacity now log key := by
  rw [Option.any_eq_true]
  constructor
  · rintro ⟨expires, hlookup, hlive⟩
    obtain ⟨front, later, hsplit, -⟩ := List.lookup_eq_some_iff.mp hlookup
    have hsuffix : ((key, expires) :: later) <:+ entries := ⟨front, hsplit.symm⟩
    refine ⟨expires, later, hsuffix.trans h.suffix, of_decide_eq_true hlive, ?_⟩
    exact Nat.lt_of_lt_of_le (Nat.lt_succ_self _) (hsuffix.length_le.trans h.bounded)
  · rintro ⟨expires, later, hlog, hlive, hfew⟩
    obtain ⟨front, hfront⟩ := h.live (key, expires) later hlog hlive hfew
    refine ⟨expires, List.lookup_eq_some_iff.mpr ⟨front, later, hfront.symm, ?_⟩,
      decide_eq_true hlive⟩
    intro entry hentry
    have hnodup := h.nodup.sublist (h.suffix.sublist.map Prod.fst)
    rw [← hfront, List.map_append] at hnodup
    have hne := (List.nodup_append.mp hnodup).2.2 entry.1 (List.mem_map_of_mem hentry) key
      (by simp)
    simpa using fun heq => hne heq.symm

end ExpiryQueue
