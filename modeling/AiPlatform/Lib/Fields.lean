/-
  AiPlatform.Lib.Fields

  Texts made of fields with a separator between them.

  Splitting such a text gives the fields back when none holds the separator, and
  in general the pieces of each field in turn.  A field that may hold the
  separator is found again when what follows it can be told from its pieces.
-/

import Mathlib.Data.List.Basic
import Mathlib.Data.String.Basic

namespace Fields

/-- `sep.join(fields)` -/
def join (sep : Char) (fields : List String) : String :=
  (String.singleton sep).intercalate fields

/-- `text.split(sep)` -/
def split (sep : Char) (text : String) : List String :=
  (text.toList.splitOn sep).map String.ofList

variable {sep : Char} {field text : String} {fields : List String}

/-- A character of a text is there when more follows. -/
theorem getElem?_append_of_eq_some {front : String} (rest : String) {c : Char} {i : Nat}
    (h : front.toList[i]? = some c) : (front ++ rest).toList[i]? = some c := by
  rw [String.toList_append, List.getElem?_append_left, h]
  exact (List.getElem?_eq_some_iff.mp h).1

theorem split_append (left right : String) :
    split sep (left ++ String.singleton sep ++ right) = split sep left ++ split sep right := by
  simp only [split, String.toList_append, String.toList_singleton, List.append_assoc,
    List.singleton_append, List.splitOn_append_cons_self, List.map_append]

theorem split_bare (h : sep ∉ field.toList) : split sep field = [field] := by
  rw [split, List.splitOn_eq_singleton h, List.map_singleton, String.ofList_toList]

/-- Joined fields split into the pieces of each in turn. -/
theorem split_join (hne : fields ≠ []) :
    split sep (join sep fields) = fields.flatMap (split sep) := by
  induction fields with
  | nil => exact absurd rfl hne
  | cons first rest ih =>
    rw [List.flatMap_cons]
    cases rest with
    | nil => simp [join]
    | cons second rest =>
      rw [← ih (List.cons_ne_nil _ _), ← split_append, join, join,
        String.intercalate_cons_of_ne_nil (List.cons_ne_nil _ _)]

theorem flatMap_split_bare (h : ∀ field ∈ fields, sep ∉ field.toList) :
    fields.flatMap (split sep) = fields := by
  induction fields with
  | nil => rfl
  | cons first rest ih =>
    obtain ⟨hfirst, hrest⟩ := List.forall_mem_cons.mp h
    rw [List.flatMap_cons, split_bare hfirst, ih hrest, List.singleton_append]

theorem split_join_bare (hne : fields ≠ []) (h : ∀ field ∈ fields, sep ∉ field.toList) :
    split sep (join sep fields) = fields := by
  rw [split_join hne, flatMap_split_bare h]

/-- A text is its pieces, joined. -/
theorem join_split (sep : Char) (text : String) : join sep (split sep text) = text := by
  apply String.toList_injective
  rw [join, String.toList_intercalate, split, List.map_map, String.toList_singleton]
  have hmap : (String.toList ∘ String.ofList) = id := funext fun cs => String.toList_ofList
  rw [hmap, List.map_id, List.intercalate_splitOn]

theorem split_injective {left right : String} (h : split sep left = split sep right) :
    left = right := by
  rw [← join_split sep left, h, join_split]

theorem split_ne_nil (text : String) : split sep text ≠ [] := by
  rw [split, Ne, List.map_eq_nil_iff]
  exact List.splitOn_ne_nil _ _

/-- The characters of a field are in the joined text. -/
theorem mem_join {c : Char} (hfield : field ∈ fields) (hc : c ∈ field.toList) :
    c ∈ (join sep fields).toList := by
  induction fields with
  | nil => exact absurd hfield List.not_mem_nil
  | cons first rest ih =>
    cases rest with
    | nil =>
      rw [List.mem_singleton.mp hfield] at hc
      rwa [join, String.intercalate_singleton]
    | cons second rest =>
      rw [join, String.intercalate_cons_of_ne_nil (List.cons_ne_nil _ _), String.toList_append]
      rcases List.mem_cons.mp hfield with rfl | hfield
      · rw [String.toList_append]
        exact List.mem_append_left _ (List.mem_append_left _ hc)
      · exact List.mem_append_right _ (ih hfield)

/-- A joined text has no characters but its separator and those of its fields. -/
theorem mem_of_mem_join {c : Char} (h : c ∈ (join sep fields).toList) :
    c = sep ∨ ∃ field ∈ fields, c ∈ field.toList := by
  induction fields with
  | nil => exact absurd h (by simp [join])
  | cons first rest ih =>
    cases rest with
    | nil =>
      rw [join, String.intercalate_singleton] at h
      exact .inr ⟨first, List.mem_cons_self, h⟩
    | cons second rest =>
      rw [join, String.intercalate_cons_of_ne_nil (List.cons_ne_nil _ _), String.toList_append,
        String.toList_append, String.toList_singleton] at h
      rcases List.mem_append.mp h with h | h
      · rcases List.mem_append.mp h with h | h
        · exact .inr ⟨first, List.mem_cons_self, h⟩
        · exact .inl (List.mem_singleton.mp h)
      · rcases ih h with heq | ⟨field, hfield, hc⟩
        · exact .inl heq
        · exact .inr ⟨field, List.mem_cons_of_mem _ hfield, hc⟩

/-- The characters of a piece are in the text. -/
theorem mem_of_mem_split {c : Char} (hfield : field ∈ split sep text) (hc : c ∈ field.toList) :
    c ∈ text.toList := by
  have hmem : c ∈ (join sep (split sep text)).toList := mem_join hfield hc
  rwa [join_split] at hmem

/-- The last field is the last piece. -/
theorem getLast?_split_join {last : String} (h : sep ∉ last.toList) :
    (split sep (join sep (fields ++ [last]))).getLast? = some last := by
  rw [split_join (by simp), List.flatMap_append, List.flatMap_singleton, split_bare h,
    List.getLast?_concat]

theorem not_mem_of_mem_splitOn {piece chars : List Char} (h : piece ∈ chars.splitOn sep) :
    sep ∉ piece := by
  induction chars generalizing piece with
  | nil =>
    rw [List.splitOn_nil, List.mem_singleton] at h
    rw [h]
    exact List.not_mem_nil
  | cons c rest ih =>
    rw [List.splitOn_cons_eq_if_modifyHead] at h
    split at h
    · rcases List.mem_cons.mp h with rfl | h
      · exact List.not_mem_nil
      · exact ih h
    · rename_i hne
      cases hrest : rest.splitOn sep with
      | nil => exact absurd hrest (List.splitOn_ne_nil _ _)
      | cons first others =>
        rw [hrest, List.modifyHead_cons, List.mem_cons] at h
        rcases h with rfl | h
        · refine List.not_mem_cons_of_ne_of_not_mem ?_ (ih (hrest ▸ List.mem_cons_self))
          exact fun heq => hne (by simp [heq])
        · exact ih (hrest ▸ List.mem_cons_of_mem _ h)

/-- No piece of a text holds the separator. -/
theorem not_mem_of_mem_split (h : field ∈ split sep text) : sep ∉ field.toList := by
  obtain ⟨piece, hpiece, rfl⟩ := List.mem_map.mp h
  rw [String.toList_ofList]
  exact not_mem_of_mem_splitOn hpiece

/-- Only the text without a separator is one piece, so the pieces are counted. -/
theorem two_le_length_split (h : sep ∈ text.toList) : 2 ≤ (split sep text).length := by
  cases hsplit : split sep text with
  | nil => exact absurd hsplit (split_ne_nil text)
  | cons first rest =>
    cases rest with
    | nil =>
      have htext : text = first := by
        rw [← join_split sep text, hsplit, join, String.intercalate_singleton]
      exact absurd (htext ▸ h) (not_mem_of_mem_split (hsplit ▸ List.mem_cons_self))
    | cons second rest => simp

/-! ## A tail that can be told apart -/

variable {α : Type*} {tagged : α → Prop}

/-- An untagged element and the tagged ones after it are found from the end. -/
theorem append_tagged {front front' tail tail' : List α} {x x' : α}
    (hx : ¬ tagged x) (hx' : ¬ tagged x') (htail : ∀ y ∈ tail, tagged y)
    (htail' : ∀ y ∈ tail', tagged y) (h : front ++ x :: tail = front' ++ x' :: tail') :
    front = front' ∧ x = x' ∧ tail = tail' := by
  rcases List.append_eq_append_iff.mp h with ⟨mid, hfront, hmid⟩ | ⟨mid, hfront, hmid⟩
  · cases mid with
    | nil =>
      obtain ⟨rfl, rfl⟩ := List.cons.inj hmid
      exact ⟨by rw [hfront, List.append_nil], rfl, rfl⟩
    | cons y mid =>
      obtain ⟨-, rfl⟩ := List.cons.inj hmid
      exact absurd (htail x' (List.mem_append_right _ List.mem_cons_self)) hx'
  · cases mid with
    | nil =>
      obtain ⟨rfl, rfl⟩ := List.cons.inj hmid
      exact ⟨by rw [hfront, List.append_nil], rfl, rfl⟩
    | cons y mid =>
      obtain ⟨-, rfl⟩ := List.cons.inj hmid
      exact absurd (htail' x (List.mem_append_right _ List.mem_cons_self)) hx

end Fields
