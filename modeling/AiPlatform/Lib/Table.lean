/-
  AiPlatform.Lib.Table

  Relational tables under a primary key.

  A table is the list of its rows together with the fact that no two of them
  share a key, so a row is determined by its key wherever a table is.  The two
  statements that change one are an update that keeps every key, and an insert
  that fails on a key that is taken.

  `Table.Evolves R t t'` says how a table may change when rows are never
  deleted: each row is still there, changed along `R` at most, and a row that
  was not there has a new key.  It is a preorder when `R` is one, so it relates
  any two states of a run.
-/

import Mathlib.Data.List.Nodup

namespace Relational

/-- Rows of type `ρ`, no two with one `key`. -/
structure Table {ρ κ : Type*} (key : ρ → κ) where
  rows : List ρ
  keys_nodup : (rows.map key).Nodup

variable {ρ κ : Type*} {key : ρ → κ}

namespace Table

instance : Membership ρ (Table key) := ⟨fun t r => r ∈ t.rows⟩

theorem mem_rows {t : Table key} {r : ρ} : r ∈ t.rows ↔ r ∈ t := Iff.rfl

def empty : Table key := ⟨[], List.nodup_nil⟩

/-- `SELECT * WHERE key = k`. -/
def find? [DecidableEq κ] (t : Table key) (k : κ) : Option ρ :=
  t.rows.find? (fun r => decide (key r = k))

/-- `EXISTS (SELECT 1 WHERE ..)`. -/
def any (t : Table key) (p : ρ → Bool) : Bool := t.rows.any p

/-- The number of rows an update would hit. -/
def count (t : Table key) (p : ρ → Bool) : Nat := t.rows.countP p

/-- `UPDATE .. SET .. WHERE ..` that leaves the keys alone. -/
def update (t : Table key) (p : ρ → Bool) (f : ρ → ρ) (hf : ∀ r, key (f r) = key r) :
    Table key where
  rows := t.rows.map (fun r => if p r then f r else r)
  keys_nodup := by
    have hkeys : (t.rows.map (fun r => if p r then f r else r)).map key = t.rows.map key := by
      rw [List.map_map]
      refine List.map_congr_left (fun r _ => ?_)
      simp only [Function.comp_apply]
      split <;> simp [hf]
    rw [hkeys]
    exact t.keys_nodup

/-- `INSERT`, or `none` when the key is taken. -/
def insert [DecidableEq κ] (t : Table key) (r : ρ) : Option (Table key) :=
  if h : key r ∈ t.rows.map key then none
  else some
    { rows := r :: t.rows
      keys_nodup := by
        rw [List.map_cons]
        exact List.nodup_cons.mpr ⟨h, t.keys_nodup⟩ }

/-! ## Rows and keys -/

/-- A row is determined by its key. -/
theorem eq_of_key {t : Table key} {r r' : ρ} (h : r ∈ t) (h' : r' ∈ t)
    (hk : key r = key r') : r = r' :=
  List.inj_on_of_nodup_map t.keys_nodup h h' hk

theorem find?_eq_some [DecidableEq κ] {t : Table key} {k : κ} {r : ρ}
    (h : t.find? k = some r) : r ∈ t ∧ key r = k := by
  have hmem := List.mem_of_find?_eq_some h
  have hkey := List.find?_some h
  exact ⟨hmem, of_decide_eq_true hkey⟩

theorem any_eq_true {t : Table key} {p : ρ → Bool} : t.any p = true ↔ ∃ r ∈ t, p r = true :=
  List.any_eq_true

theorem any_eq_false {t : Table key} {p : ρ → Bool} : t.any p = false ↔ ∀ r ∈ t, p r = false := by
  simp [any, mem_rows]

theorem count_pos {t : Table key} {p : ρ → Bool} : 0 < t.count p ↔ ∃ r ∈ t, p r = true :=
  List.countP_pos_iff

theorem mem_update {t : Table key} {p : ρ → Bool} {f : ρ → ρ} {hf : ∀ r, key (f r) = key r}
    {r' : ρ} : r' ∈ t.update p f hf ↔ ∃ r ∈ t, (if p r then f r else r) = r' :=
  List.mem_map

theorem update_mem {t : Table key} {p : ρ → Bool} {f : ρ → ρ} (hf : ∀ r, key (f r) = key r)
    {r : ρ} (hr : r ∈ t) (hp : p r = true) : f r ∈ t.update p f hf :=
  mem_update.mpr ⟨r, hr, if_pos hp⟩

theorem mem_insert [DecidableEq κ] {t t' : Table key} {r r' : ρ} (h : t.insert r = some t') :
    r' ∈ t' ↔ r' = r ∨ r' ∈ t := by
  unfold insert at h
  split at h
  · exact absurd h (by simp)
  · obtain rfl := Option.some.inj h
    exact List.mem_cons

theorem key_fresh_of_insert [DecidableEq κ] {t t' : Table key} {r : ρ}
    (h : t.insert r = some t') : ∀ r' ∈ t, key r' ≠ key r := by
  intro r' hr' hk
  unfold insert at h
  split at h
  · exact absurd h (by simp)
  · rename_i hfresh
    exact hfresh (hk ▸ List.mem_map_of_mem hr')

/-! ## How a table changes -/

section

variable {R : ρ → ρ → Prop} {p : ρ → Bool} {f : ρ → ρ}

/-- What an update makes of one row. -/
theorem update_row (hf : ∀ r, key (f r) = key r) (hR : ∀ r, R r r) {r : ρ}
    (hset : p r = true → R r (f r)) :
    key (if p r then f r else r) = key r ∧ R r (if p r then f r else r) := by
  split
  · rename_i hp
    exact ⟨hf r, hset hp⟩
  · exact ⟨rfl, hR r⟩

/-- An updated table has only rows that come from the table. -/
theorem from_update {t : Table key} (hf : ∀ r, key (f r) = key r) (hR : ∀ r, R r r)
    (hset : ∀ r ∈ t, p r = true → R r (f r)) {r' : ρ} (hr' : r' ∈ t.update p f hf) :
    ∃ r ∈ t, key r' = key r ∧ R r r' := by
  obtain ⟨r, hr, rfl⟩ := mem_update.mp hr'
  exact ⟨r, hr, update_row hf hR (hset r hr)⟩

end

/-- Rows stay and change along `R`; the others have new keys. -/
structure Evolves (R : ρ → ρ → Prop) (t t' : Table key) : Prop where
  kept : ∀ r ∈ t, ∃ r' ∈ t', key r' = key r ∧ R r r'
  fresh : ∀ r' ∈ t', (∃ r ∈ t, key r' = key r ∧ R r r') ∨ ∀ r ∈ t, key r ≠ key r'

namespace Evolves

variable {R S : ρ → ρ → Prop} {t t' t'' : Table key}

theorem refl (hR : ∀ r, R r r) : Evolves R t t where
  kept := fun r hr => ⟨r, hr, rfl, hR r⟩
  fresh := fun r hr => .inl ⟨r, hr, rfl, hR r⟩

theorem trans (hR : ∀ {a b c}, R a b → R b c → R a c)
    (h : Evolves R t t') (h' : Evolves R t' t'') : Evolves R t t'' where
  kept := by
    intro r hr
    obtain ⟨r', hr', hk', hR'⟩ := h.kept r hr
    obtain ⟨r'', hr'', hk'', hR''⟩ := h'.kept r' hr'
    exact ⟨r'', hr'', hk''.trans hk', hR hR' hR''⟩
  fresh := by
    intro r'' hr''
    rcases h'.fresh r'' hr'' with ⟨r', hr', hk', hR'⟩ | hnew
    · rcases h.fresh r' hr' with ⟨r, hr, hk, hR₀⟩ | hnew
      · exact .inl ⟨r, hr, hk'.trans hk, hR hR₀ hR'⟩
      · exact .inr (fun r hr => hk' ▸ hnew r hr)
    · refine .inr (fun r hr => ?_)
      obtain ⟨r', hr', hk', -⟩ := h.kept r hr
      exact hk' ▸ hnew r' hr'

theorem mono (hRS : ∀ r r', R r r' → S r r') (h : Evolves R t t') : Evolves S t t' where
  kept := by
    intro r hr
    obtain ⟨r', hr', hk, hR⟩ := h.kept r hr
    exact ⟨r', hr', hk, hRS r r' hR⟩
  fresh := by
    intro r' hr'
    rcases h.fresh r' hr' with ⟨r, hr, hk, hR⟩ | hnew
    · exact .inl ⟨r, hr, hk, hRS r r' hR⟩
    · exact .inr hnew

/-- The row a kept key has afterwards is the old one changed along `R`. -/
theorem of_key (h : Evolves R t t') {r r' : ρ} (hr : r ∈ t) (hr' : r' ∈ t')
    (hk : key r' = key r) : R r r' := by
  obtain ⟨r₁, hr₁, hk₁, hR⟩ := h.kept r hr
  obtain rfl := eq_of_key hr' hr₁ (hk.trans hk₁.symm)
  exact hR

theorem update {p : ρ → Bool} {f : ρ → ρ} (hf : ∀ r, key (f r) = key r) (hR : ∀ r, R r r)
    (hset : ∀ r ∈ t, p r = true → R r (f r)) : Evolves R t (t.update p f hf) := by
  constructor
  · intro r hr
    obtain ⟨hk, hrow⟩ := update_row hf hR (hset r hr)
    exact ⟨_, mem_update.mpr ⟨r, hr, rfl⟩, hk, hrow⟩
  · intro r' hr'
    exact .inl (from_update hf hR hset hr')

theorem insert [DecidableEq κ] (hR : ∀ r, R r r) {r : ρ} (h : t.insert r = some t') :
    Evolves R t t' := by
  constructor
  · intro r' hr'
    exact ⟨r', (mem_insert h).mpr (.inr hr'), rfl, hR r'⟩
  · intro r' hr'
    rcases (mem_insert h).mp hr' with rfl | hold
    · exact .inr (key_fresh_of_insert h)
    · exact .inl ⟨r', hold, rfl, hR r'⟩

end Evolves

end Table

end Relational
