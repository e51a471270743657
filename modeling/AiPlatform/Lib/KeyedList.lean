/-
  AiPlatform.Lib.KeyedList

  Lists of members with string keys, as an ordered map and an insertion-ordered
  map list them.

  For distinct keys the ordered map lists the members sorted, so two lists give
  the same map exactly when one is a reordering of the other; the
  insertion-ordered map gives the list back as it was.
-/

import Mathlib.Data.List.Induction
import Mathlib.Data.List.Sort
import Mathlib.Data.String.Basic
import Mathlib.Tactic.Common

namespace KeyedList

variable {β : Type*}

abbrev Keys (members : List (String × β)) : List String :=
  members.map Prod.fst

/-- Insertion where the keys increase. -/
def insertByKey (member : String × β) : List (String × β) → List (String × β)
  | [] => [member]
  | first :: rest =>
      if member.1 < first.1 then member :: first :: rest
      else if member.1 = first.1 then member :: rest
      else first :: insertByKey member rest

/-- Insertion at the end, or in the place of the member with the same key. -/
def insertLast (member : String × β) : List (String × β) → List (String × β)
  | [] => [member]
  | first :: rest =>
      if member.1 = first.1 then member :: rest else first :: insertLast member rest

def collectByKey (members : List (String × β)) : List (String × β) :=
  members.foldl (fun map member => insertByKey member map) []

def collectLast (members : List (String × β)) : List (String × β) :=
  members.foldl (fun map member => insertLast member map) []

/-- The keys increase. -/
def Sorted (members : List (String × β)) : Prop :=
  members.Pairwise fun a b => a.1 < b.1

variable {member : String × β} {members ns : List (String × β)}

/-! ## The ordered map -/

theorem insertByKey_perm (h : member.1 ∉ Keys members) :
    (insertByKey member members).Perm (member :: members) := by
  induction members with
  | nil => exact .refl _
  | cons first rest ih =>
    obtain ⟨hne, hrest⟩ := not_or.mp (List.mem_cons.not.mp h)
    rw [insertByKey]
    split
    · exact .refl _
    · exact ((ih hrest).cons first).trans (List.Perm.swap member first rest)

theorem forall_keys_insertByKey {P : String → Prop} (hmember : P member.1)
    (h : ∀ m ∈ members, P m.1) : ∀ m ∈ insertByKey member members, P m.1 := by
  induction members with
  | nil =>
    intro m hm
    rw [List.mem_singleton.mp hm]
    exact hmember
  | cons first rest ih =>
    obtain ⟨hfirst, hrest⟩ := List.forall_mem_cons.mp h
    rw [insertByKey]
    split
    · exact List.forall_mem_cons.mpr ⟨hmember, h⟩
    · split
      · exact List.forall_mem_cons.mpr ⟨hmember, hrest⟩
      · exact List.forall_mem_cons.mpr ⟨hfirst, ih hrest⟩

theorem mem_of_mem_insertByKey {m : String × β}
    (h : m ∈ insertByKey member members) : m = member ∨ m ∈ members := by
  induction members with
  | nil => exact .inl (List.mem_singleton.mp h)
  | cons first rest ih =>
    rw [insertByKey] at h
    split at h
    · exact List.mem_cons.mp h
    · split at h
      · rcases List.mem_cons.mp h with rfl | h
        · exact .inl rfl
        · exact .inr (List.mem_cons_of_mem _ h)
      · rcases List.mem_cons.mp h with rfl | h
        · exact .inr List.mem_cons_self
        · exact (ih h).imp_right (List.mem_cons_of_mem _)

theorem mem_of_mem_collectByKey {m : String × β}
    (h : m ∈ collectByKey members) : m ∈ members := by
  have hfold : ∀ (ms acc : List (String × β)),
      m ∈ ms.foldl (fun map member => insertByKey member map) acc → m ∈ ms ∨ m ∈ acc := by
    intro ms
    induction ms with
    | nil => exact fun acc h => .inr h
    | cons first rest ih =>
      intro acc h
      rcases ih _ h with h | h
      · exact .inl (List.mem_cons_of_mem _ h)
      · rcases mem_of_mem_insertByKey h with rfl | h
        · exact .inl List.mem_cons_self
        · exact .inr h
  exact (hfold members [] h).resolve_right List.not_mem_nil

theorem mem_keys_insertByKey {key : String} :
    key ∈ Keys (insertByKey member members) ↔ key = member.1 ∨ key ∈ Keys members := by
  induction members with
  | nil => exact List.mem_cons
  | cons first rest ih =>
    rw [insertByKey]
    split
    · exact List.mem_cons
    · split
      · rename_i heq
        rw [Keys, Keys, List.map_cons, List.map_cons, List.mem_cons, List.mem_cons, heq]
        exact ⟨fun h => .inr h, fun h => h.elim .inl id⟩
      · rw [Keys, Keys, List.map_cons, List.map_cons, List.mem_cons, List.mem_cons, ih]
        exact or_left_comm

theorem mem_keys_collectByKey {key : String} (h : key ∈ Keys members) :
    key ∈ Keys (collectByKey members) := by
  have hfold : ∀ (ms acc : List (String × β)), key ∈ Keys ms ∨ key ∈ Keys acc →
      key ∈ Keys (ms.foldl (fun map member => insertByKey member map) acc) := by
    intro ms
    induction ms with
    | nil => exact fun acc h => h.resolve_left List.not_mem_nil
    | cons first rest ih =>
      intro acc h
      refine ih _ ?_
      rw [mem_keys_insertByKey]
      rcases h with h | h
      · rcases List.mem_cons.mp h with rfl | h
        · exact .inr (.inl rfl)
        · exact .inl h
      · exact .inr (.inr h)
  exact hfold members [] (.inl h)

theorem sorted_insertByKey (h : Sorted members) : Sorted (insertByKey member members) := by
  induction members with
  | nil => exact List.pairwise_singleton _ _
  | cons first rest ih =>
    obtain ⟨hfirst, hrest⟩ := List.pairwise_cons.mp h
    rw [insertByKey]
    split
    · rename_i hlt
      refine List.pairwise_cons.mpr ⟨?_, h⟩
      exact List.forall_mem_cons.mpr ⟨hlt, fun m hm => lt_trans hlt (hfirst m hm)⟩
    · rename_i hnlt
      split
      · rename_i heq
        exact List.pairwise_cons.mpr ⟨fun m hm => heq ▸ hfirst m hm, hrest⟩
      · rename_i hne
        have hgt : first.1 < member.1 := lt_of_le_of_ne (not_lt.mp hnlt) (Ne.symm hne)
        exact List.pairwise_cons.mpr ⟨forall_keys_insertByKey hgt hfirst, ih hrest⟩

theorem sorted_collectByKey (members : List (String × β)) : Sorted (collectByKey members) := by
  have hfold : ∀ (ms acc : List (String × β)), Sorted acc →
      Sorted (ms.foldl (fun map member => insertByKey member map) acc) := by
    intro ms
    induction ms with
    | nil => exact fun acc h => h
    | cons m rest ih => exact fun acc h => ih _ (sorted_insertByKey h)
  exact hfold members [] List.Pairwise.nil

theorem collectByKey_perm (h : (Keys members).Nodup) : (collectByKey members).Perm members := by
  have hfold : ∀ (ms acc : List (String × β)), (Keys (ms ++ acc)).Nodup →
      (ms.foldl (fun map member => insertByKey member map) acc).Perm (ms ++ acc) := by
    intro ms
    induction ms with
    | nil => exact fun acc _ => .refl _
    | cons m rest ih =>
      intro acc hnodup
      have hnew : m.1 ∉ Keys (rest ++ acc) := (List.nodup_cons.mp hnodup).1
      have hacc : m.1 ∉ Keys acc := fun hin =>
        hnew (by rw [Keys, List.map_append]; exact List.mem_append_right _ hin)
      have hperm : (rest ++ insertByKey m acc).Perm (m :: (rest ++ acc)) :=
        ((insertByKey_perm hacc).append_left rest).trans List.perm_middle
      exact (ih _ ((hperm.map Prod.fst).nodup_iff.mpr hnodup)).trans hperm
  have hperm := hfold members [] (by rwa [List.append_nil])
  rwa [List.append_nil] at hperm

theorem eq_of_sorted (hm : Sorted members) (hn : Sorted ns) (h : members.Perm ns) :
    members = ns :=
  h.eq_of_pairwise (fun _ _ _ _ hab hba => absurd hba (lt_asymm hab)) hm hn

/-- Two lists make the same ordered map when one is a reordering of the other. -/
theorem collectByKey_eq_iff (hm : (Keys members).Nodup) (hn : (Keys ns).Nodup) :
    collectByKey members = collectByKey ns ↔ members.Perm ns := by
  constructor
  · intro h
    exact (collectByKey_perm hm).symm.trans (h ▸ collectByKey_perm hn)
  · intro h
    exact eq_of_sorted (sorted_collectByKey _) (sorted_collectByKey _)
      ((collectByKey_perm hm).trans (h.trans (collectByKey_perm hn).symm))

/-- An ordered map lists a sorted list as it is. -/
theorem collectByKey_of_sorted (h : Sorted members) : collectByKey members = members := by
  refine eq_of_sorted (sorted_collectByKey _) h (collectByKey_perm ?_)
  exact List.pairwise_map.mpr (h.imp fun hlt => ne_of_lt hlt)

/-- A function of the values commutes with the map. -/
theorem collectByKey_map {γ : Type*} (f : β → γ) (members : List (String × β)) :
    collectByKey (members.map fun m => (m.1, f m.2)) =
      (collectByKey members).map fun m => (m.1, f m.2) := by
  have hinsert : ∀ (m : String × β) (map : List (String × β)),
      insertByKey (m.1, f m.2) (map.map fun m => (m.1, f m.2)) =
        (insertByKey m map).map fun m => (m.1, f m.2) := by
    intro m map
    induction map with
    | nil => rfl
    | cons first rest ih =>
      rw [List.map_cons, insertByKey, insertByKey, ih]
      split
      · rfl
      · split <;> rfl
  have hfold : ∀ (ms acc : List (String × β)),
      (ms.map fun m => (m.1, f m.2)).foldl (fun map member => insertByKey member map)
          (acc.map fun m => (m.1, f m.2)) =
        (ms.foldl (fun map member => insertByKey member map) acc).map fun m => (m.1, f m.2) := by
    intro ms
    induction ms with
    | nil => exact fun _ => rfl
    | cons m rest ih =>
      intro acc
      rw [List.map_cons, List.foldl_cons, List.foldl_cons, hinsert]
      exact ih _
  exact hfold members []

/-- Sorting by key, as a stable sort does it. -/
def sortByKey (members : List (String × β)) : List (String × β) :=
  members.insertionSort fun a b => a.1 ≤ b.1

theorem sortByKey_eq (h : (Keys members).Nodup) : sortByKey members = collectByKey members := by
  have hperm : (sortByKey members).Perm members := List.perm_insertionSort _ _
  have hle : (sortByKey members).Pairwise fun a b => a.1 ≤ b.1 :=
    List.pairwise_insertionSort _ _
  refine eq_of_sorted ?_ (sorted_collectByKey _) (hperm.trans (collectByKey_perm h).symm)
  have hne : (sortByKey members).Pairwise fun a b => a.1 ≠ b.1 :=
    List.pairwise_map.mp ((hperm.map Prod.fst).nodup_iff.mpr h)
  exact (hle.and hne).imp fun hab => lt_of_le_of_ne hab.1 hab.2

/-- A list whose keys are those of its ordered map, in that order, is sorted. -/
theorem sorted_of_keys_eq (h : Keys (collectByKey members) = Keys members) : Sorted members := by
  have hsorted := List.pairwise_map.mpr (sorted_collectByKey members)
  rw [show (collectByKey members).map Prod.fst = members.map Prod.fst from h] at hsorted
  exact List.pairwise_map.mp hsorted

/-! ## The insertion-ordered map -/

theorem insertLast_eq (h : member.1 ∉ Keys members) :
    insertLast member members = members ++ [member] := by
  induction members with
  | nil => rfl
  | cons first rest ih =>
    obtain ⟨hne, hrest⟩ := not_or.mp (List.mem_cons.not.mp h)
    rw [insertLast, if_neg hne, ih hrest, List.cons_append]

theorem collectLast_eq (h : (Keys members).Nodup) : collectLast members = members := by
  have hfold : ∀ (ms acc : List (String × β)), (Keys (acc ++ ms)).Nodup →
      ms.foldl (fun map member => insertLast member map) acc = acc ++ ms := by
    intro ms
    induction ms with
    | nil => exact fun acc _ => (List.append_nil acc).symm
    | cons m rest ih =>
      intro acc hnodup
      have hacc : m.1 ∉ Keys acc := by
        intro hin
        rw [Keys, List.map_append] at hnodup
        exact (List.nodup_append.mp hnodup).2.2 m.1 hin m.1 List.mem_cons_self rfl
      rw [List.foldl_cons, insertLast_eq hacc, ih _ (by simpa using hnodup)]
      simp
  exact hfold members [] h

/-- The first key that passes a test, with the value last put under it. -/
theorem find?_insertLast (p : String → Bool) (member : String × β) (members : List (String × β)) :
    (insertLast member members).find? (fun m => p m.1) =
      match members.find? fun m => p m.1 with
      | some m => some (if m.1 = member.1 then member else m)
      | none => if p member.1 then some member else none := by
  induction members with
  | nil =>
    rw [insertLast, List.find?_singleton]
    rfl
  | cons first rest ih =>
    rw [insertLast]
    by_cases hkey : member.1 = first.1
    · rw [if_pos hkey, List.find?_cons, List.find?_cons, hkey]
      cases hfirst : p first.1 with
      | true => simp
      | false =>
        cases hrest : rest.find? fun m => p m.1 with
        | none => simp
        | some m =>
          have hm := List.find?_some hrest
          have hne : m.1 ≠ first.1 := fun heq => by
            rw [heq, hfirst] at hm
            cases hm
          simp [hne]
    · rw [if_neg hkey, List.find?_cons, List.find?_cons]
      cases hfirst : p first.1 with
      | true => simp [Ne.symm hkey]
      | false => exact ih

/-- The insertion-ordered map finds the first key that passes a test where the list
    has it, with the last value the list gives the key. -/
theorem find?_collectLast (p : String → Bool) (members : List (String × β)) :
    (collectLast members).find? (fun m => p m.1) =
      (members.find? fun m => p m.1).bind fun m =>
        (members.reverse.lookup m.1).map fun value => (m.1, value) := by
  induction members using List.reverseRecOn with
  | nil => rfl
  | append_singleton before last ih =>
    have hfold : collectLast (before ++ [last]) = insertLast last (collectLast before) := by
      rw [collectLast, List.foldl_append]
      rfl
    rw [hfold, find?_insertLast, ih, List.find?_append, List.find?_singleton,
      List.reverse_append, List.reverse_singleton, List.singleton_append]
    cases hbefore : before.find? fun m => p m.1 with
    | none =>
      have hself : (last :: before.reverse).lookup last.1 = some last.2 := by
        rw [List.lookup_cons, beq_self_eq_true]
      cases p last.1 with
      | false => simp
      | true => simp [hself]
    | some m =>
      have hmem : m ∈ before.reverse := List.mem_reverse.mpr (List.mem_of_find?_eq_some hbefore)
      obtain ⟨value, hvalue⟩ : ∃ value, before.reverse.lookup m.1 = some value :=
        Option.isSome_iff_exists.mp (List.lookup_isSome_iff.mpr ⟨m, hmem, by simp⟩)
      rw [Option.bind_some, hvalue, Option.map_some, Option.some_or, Option.bind_some,
        List.lookup_cons]
      by_cases hkey : m.1 = last.1
      · simp [hkey]
      · simp [hkey, beq_false_of_ne hkey, hvalue]

/-- The insertion-ordered map holds the last value of a key. -/
theorem mem_collectLast_of_lookup {key : String} {value : β}
    (h : members.reverse.lookup key = some value) : (key, value) ∈ collectLast members := by
  have hfind := find?_collectLast (· == key) members
  cases hfirst : members.find? fun m => m.1 == key with
  | none =>
    have hnone : members.reverse.lookup key = none := by
      refine List.lookup_eq_none_iff.mpr fun m hm => bne_iff_ne.mpr fun heq => ?_
      exact List.find?_eq_none.mp hfirst m (List.mem_reverse.mp hm) (beq_iff_eq.mpr heq.symm)
    rw [hnone] at h
    cases h
  | some m =>
    have hkey := List.find?_some hfirst
    rw [hfirst, Option.bind_some, beq_iff_eq.mp hkey, h] at hfind
    exact List.mem_of_find?_eq_some hfind

/-! ## Reorderings -/

theorem perm_iff (hm : (Keys members).Nodup) :
    members.Perm ns ↔ members.length = ns.length ∧ ∀ m ∈ members, m ∈ ns := by
  constructor
  · intro h
    exact ⟨h.length_eq, fun m hm => h.subset hm⟩
  · rintro ⟨hlength, hsub⟩
    exact (List.subperm_of_subset (List.Nodup.of_map _ hm) hsub).perm_of_length_le hlength.ge

end KeyedList
