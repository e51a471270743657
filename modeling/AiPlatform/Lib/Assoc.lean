/-
  AiPlatform.Lib.Assoc

  Dicts that keep the order in which their keys came, as lists of entries.

  A key that is there already keeps its place when it is assigned to.
-/

import Mathlib.Tactic.Common

namespace Assoc

variable {κ β : Type} [DecidableEq κ]

/-- `entries[key] = value` -/
def set (key : κ) (value : β) : List (κ × β) → List (κ × β)
  | [] => [(key, value)]
  | entry :: rest => if entry.1 = key then (key, value) :: rest else entry :: set key value rest

/-- `entries.pop(key, None)` -/
def erase (key : κ) (entries : List (κ × β)) : List (κ × β) := entries.filter fun entry => decide (entry.1 ≠ key)

variable {key other : κ} {value : β} {entries : List (κ × β)}

/-! ## Keys -/

theorem mem_keys_set : other ∈ (set key value entries).map Prod.fst ↔ other = key ∨ other ∈ entries.map Prod.fst := by
  induction entries with
  | nil => simp [set]
  | cons entry rest ih =>
    rw [set]
    split
    · case isTrue heq => simp [heq]
    · rw [List.map_cons, List.mem_cons, ih, List.map_cons, List.mem_cons]
      exact or_left_comm

theorem set_of_not_mem (h : key ∉ entries.map Prod.fst) : set key value entries = entries ++ [(key, value)] := by
  induction entries with
  | nil => rfl
  | cons entry rest ih =>
    rw [List.map_cons, List.mem_cons, not_or] at h
    rw [set, if_neg (Ne.symm h.1), ih h.2]
    rfl

theorem keys_set_of_mem (h : key ∈ entries.map Prod.fst) : (set key value entries).map Prod.fst = entries.map Prod.fst := by
  induction entries with
  | nil => cases h
  | cons entry rest ih =>
    rw [set]
    split
    · case isTrue heq => rw [List.map_cons, List.map_cons, heq]
    · case isFalse hne =>
      rw [List.map_cons, List.map_cons, ih ((List.mem_cons.mp h).resolve_left (Ne.symm hne))]

theorem keys_erase : (erase key entries).map Prod.fst = (entries.map Prod.fst).filter fun other => decide (other ≠ key) := by
  rw [erase, List.filter_map]
  rfl

theorem nodup_keys_set (h : (entries.map Prod.fst).Nodup) : ((set key value entries).map Prod.fst).Nodup := by
  induction entries with
  | nil => simp [set]
  | cons entry rest ih =>
    obtain ⟨hentry, hrest⟩ := List.nodup_cons.mp h
    rw [set]
    split
    · case isTrue heq => exact List.nodup_cons.mpr ⟨heq ▸ hentry, hrest⟩
    · case isFalse hne =>
      refine List.nodup_cons.mpr ⟨fun hmem => ?_, ih hrest⟩
      exact (mem_keys_set.mp hmem).elim hne hentry

theorem erase_of_not_mem (h : key ∉ entries.map Prod.fst) : erase key entries = entries := by
  refine List.filter_eq_self.mpr fun entry hmem => decide_eq_true fun heq => h ?_
  rw [← heq]
  exact List.mem_map_of_mem hmem

/-- Members with distinct keys, assigned in turn. -/
theorem foldl_set (members : List (κ × β)) (h : (members.map Prod.fst).Nodup) :
    members.foldl (fun dict member => set member.1 member.2 dict) [] = members := by
  have hfold : ∀ rest dict : List (κ × β), ((dict ++ rest).map Prod.fst).Nodup →
      rest.foldl (fun dict member => set member.1 member.2 dict) dict = dict ++ rest := by
    intro rest
    induction rest with
    | nil => exact fun dict _ => (List.append_nil dict).symm
    | cons member rest ih =>
      intro dict hdistinct
      have hnew : member.1 ∉ dict.map Prod.fst := by
        rw [List.map_append, List.map_cons, List.nodup_append] at hdistinct
        exact fun hmem => hdistinct.2.2 _ hmem _ List.mem_cons_self rfl
      rw [List.foldl_cons, set_of_not_mem hnew, ih, List.append_assoc]
      · rfl
      · rwa [List.append_assoc]
  exact hfold members [] h

/-! ## Lookups -/

section Lookup

variable [BEq κ] [LawfulBEq κ]

theorem lookup_eq_none_iff : entries.lookup key = none ↔ key ∉ entries.map Prod.fst := by
  induction entries with
  | nil => simp
  | cons entry rest ih =>
    rw [List.lookup_cons, List.map_cons, List.mem_cons, not_or]
    split
    · case h_1 heq => exact iff_of_false (by simp) fun h => h.1 (by simpa using heq)
    · case h_2 hne => exact ih.trans ⟨fun h => ⟨by simpa using hne, h⟩, And.right⟩

theorem lookup_set_self : (set key value entries).lookup key = some value := by
  induction entries with
  | nil => simp [set]
  | cons entry rest ih =>
    rw [set]
    split
    · simp
    · case isFalse hne =>
      have hother : (key == entry.1) = false := by simpa using Ne.symm hne
      rw [List.lookup_cons, hother]
      exact ih

theorem lookup_set_ne (h : other ≠ key) : (set key value entries).lookup other = entries.lookup other := by
  have hkey : (other == key) = false := by simpa using h
  induction entries with
  | nil =>
    rw [set, List.lookup_cons, hkey]
  | cons entry rest ih =>
    rw [set]
    split
    · case isTrue heq =>
      have hentry : (other == entry.1) = false := by rwa [heq]
      rw [List.lookup_cons, List.lookup_cons, hkey, hentry]
    · rw [List.lookup_cons, List.lookup_cons, ih]

theorem lookup_erase_ne (h : other ≠ key) : (erase key entries).lookup other = entries.lookup other := by
  induction entries with
  | nil => rfl
  | cons entry rest ih =>
    unfold erase at ih ⊢
    by_cases hkey : entry.1 = key
    · have hother : (other == entry.1) = false := by simpa [hkey] using h
      rw [List.filter_cons_of_neg (by simpa using hkey), List.lookup_cons, hother]
      exact ih
    · rw [List.filter_cons_of_pos (by simpa using hkey), List.lookup_cons, List.lookup_cons, ih]

/-- Under distinct keys an entry is what is found under its key. -/
theorem lookup_of_mem (hdistinct : (entries.map Prod.fst).Nodup) (hmem : (key, value) ∈ entries) :
    entries.lookup key = some value := by
  induction entries with
  | nil => cases hmem
  | cons entry rest ih =>
    obtain ⟨hentry, hrest⟩ := List.nodup_cons.mp hdistinct
    rcases List.mem_cons.mp hmem with rfl | hmem
    · simp
    · have hne : (key == entry.1) = false := by
        refine beq_eq_false_iff_ne.mpr fun heq => hentry ?_
        rw [← heq]
        exact List.mem_map_of_mem hmem
      rw [List.lookup_cons, hne]
      exact ih hrest hmem

theorem mem_of_lookup (h : entries.lookup key = some value) : (key, value) ∈ entries := by
  induction entries with
  | nil => cases h
  | cons entry rest ih =>
    rw [List.lookup_cons] at h
    split at h
    · case h_1 heq =>
      obtain rfl := Option.some.inj h
      obtain rfl : key = entry.1 := by simpa using heq
      exact List.mem_cons_self
    · exact List.mem_cons_of_mem _ (ih h)

theorem exists_lookup_of_mem (h : key ∈ entries.map Prod.fst) : ∃ value, entries.lookup key = some value := by
  cases hlookup : entries.lookup key with
  | none => exact absurd h (lookup_eq_none_iff.mp hlookup)
  | some value => exact ⟨value, rfl⟩

theorem mem_keys_of_lookup (h : entries.lookup key = some value) : key ∈ entries.map Prod.fst :=
  List.mem_map_of_mem (mem_of_lookup h)

/-- Under distinct keys the order of the entries does not matter to a lookup. -/
theorem lookup_of_perm {entries' : List (κ × β)} (hperm : entries'.Perm entries)
    (hdistinct : (entries.map Prod.fst).Nodup) : entries'.lookup key = entries.lookup key := by
  cases hlookup : entries.lookup key with
  | none =>
    rw [lookup_eq_none_iff] at hlookup ⊢
    exact fun hmem => hlookup ((hperm.map Prod.fst).mem_iff.mp hmem)
  | some value =>
    exact lookup_of_mem ((hperm.map Prod.fst).nodup_iff.mpr hdistinct)
      (hperm.mem_iff.mpr (mem_of_lookup hlookup))

end Lookup

/-! ## Assigning again -/

theorem set_set (value' : β) : set key value (set key value' entries) = set key value entries := by
  induction entries with
  | nil => simp [set]
  | cons entry rest ih =>
    rw [set, set]
    split
    · rw [set, if_pos rfl]
    · case isFalse hne => rw [set, if_neg hne, ih]

/-- Two keys can be assigned in either order if the one that is assigned first is there. -/
theorem set_comm (hne : key ≠ other) (hmem : key ∈ entries.map Prod.fst) (value' : β) :
    set key value (set other value' entries) = set other value' (set key value entries) := by
  induction entries with
  | nil => cases hmem
  | cons entry rest ih =>
    by_cases hother : entry.1 = other
    · have hkey : entry.1 ≠ key := fun heq => hne (heq.symm.trans hother)
      rw [set, if_pos hother, set, if_neg (Ne.symm hne), set, if_neg hkey, set, if_pos hother]
    · by_cases hkey : entry.1 = key
      · rw [set, if_neg hother, set, if_pos hkey, set, if_pos hkey, set, if_neg hne]
      · have hrest : key ∈ rest.map Prod.fst := (List.mem_cons.mp hmem).resolve_left (Ne.symm hkey)
        rw [set, if_neg hother, set, if_neg hkey, set, if_neg hkey, set, if_neg hother, ih hrest]

theorem set_eq_self [BEq κ] [LawfulBEq κ] (h : entries.lookup key = some value) : set key value entries = entries := by
  induction entries with
  | nil => cases h
  | cons entry rest ih =>
    rw [List.lookup_cons] at h
    rw [set]
    split at h
    · case h_1 heq =>
      obtain rfl := Option.some.inj h
      obtain rfl : key = entry.1 := by simpa using heq
      exact if_pos rfl
    · case h_2 hne =>
      rw [if_neg fun heq => by simp [heq] at hne, ih h]

theorem erase_set : erase key (set key value entries) = erase key entries := by
  induction entries with
  | nil => simp [set, erase]
  | cons entry rest ih =>
    unfold erase at ih ⊢
    rw [set]
    split
    · case isTrue heq => simp [heq]
    · case isFalse hne => rw [List.filter_cons, List.filter_cons, ih]

end Assoc
