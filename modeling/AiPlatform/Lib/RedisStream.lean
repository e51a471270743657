/-
  AiPlatform.Lib.RedisStream

  A Redis stream with its consumer groups.

  Entries have the ids 1, 2, ..; a group has delivered the first so many of them
  and keeps those that were not acknowledged in its pending list, by increasing
  id, each with the consumer it was last delivered to and the instant.  Id 0
  stands for the cursor `0-0`.

  The commands are `XADD`, `XGROUP CREATE .. 0`, `XREADGROUP .. >`, `XAUTOCLAIM`
  and `XACK`; nothing is trimmed.
-/

import AiPlatform.Lib.OrdMap

namespace Redis

open Std

structure PendingEntry where
  id : Nat
  consumer : String
  deliveredAt : Nat
  deriving DecidableEq, Repr

structure Group where
  delivered : Nat
  pending : List PendingEntry

structure Stream (α : Type*) where
  entries : List α
  groups : ExtTreeMap String Group compare

namespace Stream

variable {α : Type*}

def empty : Stream α := ⟨[], ∅⟩

def entryAt (id : Nat) (s : Stream α) : Option α :=
  if id = 0 then none else s.entries[id - 1]?

def xadd (value : α) (s : Stream α) : Stream α := { s with entries := s.entries ++ [value] }

def setGroup (group : String) (g : Group) (s : Stream α) : Stream α :=
  { s with groups := s.groups.insert group g }

/-- A group that is there already stays as it is (`BUSYGROUP`). -/
def xgroupCreate (group : String) (s : Stream α) : Stream α :=
  match s.groups[group]? with
  | some _ => s
  | none => s.setGroup group ⟨0, []⟩

/-- The ids that a group has not delivered yet, at most `count` of them. -/
def fresh (count : Nat) (g : Group) (s : Stream α) : List Nat :=
  (List.range' (g.delivered + 1) (min count (s.entries.length - g.delivered)))

/-- `XREADGROUP .. >`, or none without the group. -/
def xreadgroup (now : Nat) (group consumer : String) (count : Nat) (s : Stream α) :
    Option (List Nat × Stream α) :=
  (s.groups[group]?).map fun g =>
    let ids := s.fresh count g
    (ids, s.setGroup group
      ⟨g.delivered + ids.length, g.pending ++ ids.map fun id => ⟨id, consumer, now⟩⟩)

/-- The pending entries an `XAUTOCLAIM` takes among those from its start on, and the
    one its scan has come to. -/
def scan (idle : PendingEntry → Bool) : Nat → Nat → List PendingEntry → List Nat × Nat
  | _, _, [] => ([], 0)
  | 0, _, p :: _ => ([], p.id)
  | _ + 1, 0, p :: _ => ([], p.id)
  | attempts + 1, count + 1, p :: rest =>
      if idle p then
        let more := scan idle attempts count rest
        (p.id :: more.1, more.2)
      else scan idle attempts (count + 1) rest

/-- `XAUTOCLAIM`: the ids it takes, and its next cursor. -/
def xautoclaim (now : Nat) (group consumer : String) (minIdle start count : Nat)
    (s : Stream α) : Option ((List Nat × Nat) × Stream α) :=
  (s.groups[group]?).map fun g =>
    let found := scan (fun p => p.deliveredAt + minIdle ≤ now) (10 * count) count
      (g.pending.filter fun p => start ≤ p.id)
    (found, s.setGroup group
      ⟨g.delivered, g.pending.map fun p => if p.id ∈ found.1 then ⟨p.id, consumer, now⟩ else p⟩)

def xack (group : String) (id : Nat) (s : Stream α) : Stream α :=
  match s.groups[group]? with
  | none => s
  | some g => s.setGroup group ⟨g.delivered, g.pending.filter fun p => p.id ≠ id⟩

/-! ## What a group has delivered and what it keeps -/

/-- The group has delivered the entry. -/
def Delivered (group : String) (id : Nat) (s : Stream α) : Prop :=
  ∃ g, s.groups[group]? = some g ∧ 1 ≤ id ∧ id ≤ g.delivered

/-- The entry is on the pending list of the group. -/
def Pending (group : String) (id : Nat) (s : Stream α) : Prop :=
  ∃ g, s.groups[group]? = some g ∧ ∃ p ∈ g.pending, p.id = id

section

variable {s s' : Stream α} {group other consumer : String} {id now count : Nat} {value : α}

theorem groups_setGroup {g : Group} : (s.setGroup group g).groups[other]? =
    if group = other then some g else s.groups[other]? :=
  OrdMap.getElem?_insert _ _ _ _

@[simp] theorem entryAt_setGroup {g : Group} : (s.setGroup group g).entryAt id = s.entryAt id := rfl

theorem delivered_setGroup {g : Group} : Delivered other id (s.setGroup group g) ↔
    if group = other then 1 ≤ id ∧ id ≤ g.delivered else Delivered other id s := by
  rw [Delivered, groups_setGroup]
  by_cases h : group = other
  · simp [h]
  · simp [h, Delivered]

theorem pending_setGroup {g : Group} : Pending other id (s.setGroup group g) ↔
    if group = other then ∃ p ∈ g.pending, p.id = id else Pending other id s := by
  rw [Pending, groups_setGroup]
  by_cases h : group = other
  · simp [h]
  · simp [h, Pending]

theorem delivered_iff {g : Group} (h : s.groups[group]? = some g) :
    Delivered group id s ↔ 1 ≤ id ∧ id ≤ g.delivered := by
  simp [Delivered, h]

theorem pending_iff {g : Group} (h : s.groups[group]? = some g) :
    Pending group id s ↔ ∃ p ∈ g.pending, p.id = id := by
  simp [Pending, h]

@[simp] theorem entryAt_xgroupCreate : (s.xgroupCreate group).entryAt id = s.entryAt id := by
  unfold xgroupCreate
  split <;> rfl

@[simp] theorem entryAt_xack : (s.xack group id).entryAt count = s.entryAt count := by
  unfold xack
  split <;> rfl

theorem entryAt_xreadgroup {ids : List Nat}
    (h : s.xreadgroup now group consumer count = some (ids, s')) : s'.entryAt id = s.entryAt id := by
  obtain ⟨g, -, heq⟩ := Option.map_eq_some_iff.mp h
  obtain ⟨-, rfl⟩ := Prod.mk.inj heq
  rfl

theorem entryAt_xautoclaim {minIdle start : Nat} {found : List Nat × Nat}
    (h : s.xautoclaim now group consumer minIdle start count = some (found, s')) :
    s'.entryAt id = s.entryAt id := by
  obtain ⟨g, -, heq⟩ := Option.map_eq_some_iff.mp h
  obtain ⟨-, rfl⟩ := Prod.mk.inj heq
  rfl

theorem entryAt_xadd {v : α} (h : s.entryAt id = some v) : (s.xadd value).entryAt id = some v := by
  rw [entryAt] at h ⊢
  split at h
  · cases h
  · rename_i hid
    obtain ⟨hlt, -⟩ := List.getElem?_eq_some_iff.mp h
    rw [if_neg hid, xadd, List.getElem?_append_left hlt]
    exact h

/-- A group that is new has delivered nothing. -/
theorem delivered_xgroupCreate : Delivered other id (s.xgroupCreate group) ↔
    Delivered other id s := by
  unfold xgroupCreate
  cases hat : s.groups[group]? with
  | some g => rfl
  | none =>
    rw [delivered_setGroup]
    by_cases h : group = other
    · subst h
      rw [if_pos rfl, Delivered, hat]
      constructor
      · rintro ⟨hpos, hle⟩
        exact absurd (hpos.trans hle) (by decide)
      · rintro ⟨g, hg, -⟩
        cases hg
    · rw [if_neg h]

theorem pending_xgroupCreate : Pending other id (s.xgroupCreate group) ↔ Pending other id s := by
  unfold xgroupCreate
  cases hat : s.groups[group]? with
  | some g => rfl
  | none =>
    rw [pending_setGroup]
    by_cases h : group = other
    · subst h
      simp [Pending, hat]
    · rw [if_neg h]

/-- What a read delivers is pending; what was pending stays. -/
theorem pending_of_delivered_xreadgroup {ids : List Nat}
    (h : s.xreadgroup now group consumer count = some (ids, s'))
    (hdelivered : Delivered other id s') :
    Delivered other id s ∨ Pending other id s' := by
  obtain ⟨g, hg, heq⟩ := Option.map_eq_some_iff.mp h
  obtain ⟨-, rfl⟩ := Prod.mk.inj heq
  rw [delivered_setGroup] at hdelivered
  rw [pending_setGroup]
  by_cases hgroup : group = other
  · subst hgroup
    rw [if_pos rfl] at hdelivered ⊢
    obtain ⟨hpos, hle⟩ := hdelivered
    by_cases hold : id ≤ g.delivered
    · exact .inl ((delivered_iff hg).mpr ⟨hpos, hold⟩)
    · refine .inr ⟨⟨id, consumer, now⟩, List.mem_append_right _ (List.mem_map_of_mem ?_), rfl⟩
      have hmost : id ≤ g.delivered + (s.fresh count g).length := hle
      rw [fresh, List.length_range'] at hmost
      rw [fresh, List.mem_range'_1]
      omega
  · rw [if_neg hgroup] at hdelivered
    exact .inl hdelivered

theorem pending_xreadgroup {ids : List Nat}
    (h : s.xreadgroup now group consumer count = some (ids, s')) (hpending : Pending other id s) :
    Pending other id s' := by
  obtain ⟨g, hg, heq⟩ := Option.map_eq_some_iff.mp h
  obtain ⟨-, rfl⟩ := Prod.mk.inj heq
  rw [pending_setGroup]
  by_cases hgroup : group = other
  · subst hgroup
    obtain ⟨p, hp, hid⟩ := (pending_iff hg).mp hpending
    rw [if_pos rfl]
    exact ⟨p, List.mem_append_left _ hp, hid⟩
  · rw [if_neg hgroup]
    exact hpending

/-- An `XAUTOCLAIM` gives pending entries to another consumer. -/
theorem delivered_xautoclaim {minIdle start : Nat} {found : List Nat × Nat}
    (h : s.xautoclaim now group consumer minIdle start count = some (found, s')) :
    Delivered other id s' ↔ Delivered other id s := by
  obtain ⟨g, hg, heq⟩ := Option.map_eq_some_iff.mp h
  obtain ⟨-, rfl⟩ := Prod.mk.inj heq
  rw [delivered_setGroup]
  by_cases hgroup : group = other
  · subst hgroup
    rw [if_pos rfl, delivered_iff hg]
  · rw [if_neg hgroup]

theorem pending_xautoclaim {minIdle start : Nat} {found : List Nat × Nat}
    (h : s.xautoclaim now group consumer minIdle start count = some (found, s')) :
    Pending other id s' ↔ Pending other id s := by
  obtain ⟨g, hg, heq⟩ := Option.map_eq_some_iff.mp h
  obtain ⟨-, rfl⟩ := Prod.mk.inj heq
  rw [pending_setGroup]
  by_cases hgroup : group = other
  · subst hgroup
    rw [if_pos rfl, pending_iff hg]
    simp only [List.mem_map]
    constructor
    · rintro ⟨_, ⟨p, hp, rfl⟩, hid⟩
      refine ⟨p, hp, ?_⟩
      split at hid <;> exact hid
    · rintro ⟨p, hp, hid⟩
      refine ⟨_, ⟨p, hp, rfl⟩, ?_⟩
      split <;> exact hid
  · rw [if_neg hgroup]

theorem delivered_xack {acked : Nat} :
    Delivered other id (s.xack group acked) ↔ Delivered other id s := by
  unfold xack
  cases hat : s.groups[group]? with
  | none => rfl
  | some g =>
    rw [delivered_setGroup]
    by_cases h : group = other
    · subst h
      rw [if_pos rfl, delivered_iff hat]
    · rw [if_neg h]

/-- Only the entry that is acknowledged leaves the pending list. -/
theorem pending_xack {acked : Nat} (hpending : Pending other id s) :
    (other = group ∧ id = acked) ∨ Pending other id (s.xack group acked) := by
  unfold xack
  cases hat : s.groups[group]? with
  | none => exact .inr hpending
  | some g =>
    rw [pending_setGroup]
    by_cases h : group = other
    · subst h
      obtain ⟨p, hp, rfl⟩ := (pending_iff hat).mp hpending
      rw [if_pos rfl]
      by_cases hid : p.id = acked
      · exact .inl ⟨rfl, hid⟩
      · exact .inr ⟨p, List.mem_filter.mpr ⟨hp, by simpa using hid⟩, rfl⟩
    · rw [if_neg h]
      exact .inr hpending

end

end Stream

end Redis
