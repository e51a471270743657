/-
  AiPlatform.Lib.OrdMap

  Reading an ordered map after an update, and reading it as a list of values.

  `Std.ExtTreeMap` states its update lemmas with the comparison (`cmp k a = .eq`);
  over a lawful comparison the statements below say the same with `k = a`.
-/

import Mathlib.Data.List.Sort
import Mathlib.Tactic.Common
import Std.Data.ExtTreeMap
import Std.Data.ExtTreeMap.Lemmas

namespace OrdMap

open Std

variable {α β : Type*} {cmp : α → α → Ordering} [TransCmp cmp] [LawfulEqCmp cmp]

theorem getElem?_insert (m : ExtTreeMap α β cmp) (k a : α) (v : β) [Decidable (k = a)] :
    (m.insert k v)[a]? = if k = a then some v else m[a]? := by
  rw [ExtTreeMap.getElem?_insert]
  by_cases h : k = a
  · subst h
    simp
  · rw [if_neg h, if_neg (fun hc => h (LawfulEqCmp.eq_of_compare hc))]

theorem getElem?_insert_ne {m : ExtTreeMap α β cmp} {k a : α} (v : β) (h : k ≠ a) :
    (m.insert k v)[a]? = m[a]? := by
  rw [ExtTreeMap.getElem?_insert, if_neg (fun hc => h (LawfulEqCmp.eq_of_compare hc))]

theorem getElem?_erase_ne {m : ExtTreeMap α β cmp} {k a : α} (h : k ≠ a) :
    (m.erase k)[a]? = m[a]? := by
  rw [ExtTreeMap.getElem?_erase, if_neg (fun hc => h (LawfulEqCmp.eq_of_compare hc))]

/-- The values of a map, by increasing key. -/
def values (m : ExtTreeMap α β cmp) : List β :=
  m.toList.map Prod.snd

theorem mem_values {m : ExtTreeMap α β cmp} {v : β} :
    v ∈ values m ↔ ∃ k : α, m[k]? = some v := by
  simp only [values, List.mem_map, Prod.exists, exists_eq_right,
    ExtTreeMap.mem_toList_iff_getElem?_eq_some]

theorem mem_keys {m : ExtTreeMap α β cmp} {k : α} : k ∈ m.keys ↔ ∃ v, m[k]? = some v := by
  rw [ExtTreeMap.mem_keys, ExtTreeMap.mem_iff_isSome_getElem?, Option.isSome_iff_exists]

/-- What a list of the entries selects is what the keys select by lookup. -/
theorem filterMap_toList {γ : Type*} (m : ExtTreeMap α β cmp) (f : α → β → Option γ) :
    m.toList.filterMap (fun p => f p.1 p.2) =
      m.keys.filterMap (fun k => m[k]?.bind (f k)) := by
  rw [← ExtTreeMap.map_fst_toList_eq_keys, List.filterMap_map]
  refine List.filterMap_congr fun p hp => ?_
  rw [Function.comp_apply, ExtTreeMap.mem_toList_iff_getElem?_eq_some.mp hp, Option.bind_some]

/-- Maps with the same keys list them in the same order. -/
theorem keys_eq_of_mem_iff {γ : Type*} {m : ExtTreeMap α β cmp} {n : ExtTreeMap α γ cmp}
    (h : ∀ k, k ∈ m.keys ↔ k ∈ n.keys) : m.keys = n.keys := by
  have : Std.Irrefl fun a b => cmp a b = .lt := ⟨fun a => by simp [ReflCmp.compare_self]⟩
  have : Std.Antisymm fun a b => cmp a b = .lt :=
    ⟨fun a b hab hba => by
      have hswap : cmp a b = (cmp b a).swap := OrientedCmp.eq_swap
      rw [hba, hab] at hswap
      cases hswap⟩
  exact List.Pairwise.eq_of_mem_iff m.ordered_keys n.ordered_keys h

end OrdMap
