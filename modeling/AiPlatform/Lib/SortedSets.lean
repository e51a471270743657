/-
  AiPlatform.Lib.SortedSets

  The sorted sets of a Redis server, each under a key with the instant it expires.

  A sorted set has each of its members once, with a score.  The commands are
  `ZADD` (also `XX`), `ZREM`, `ZREMRANGEBYSCORE`, `ZCARD`, `ZSCORE` and `EXPIRE`;
  what a set holds after one of them is said by a `mem_` lemma, how many of its
  members meet a condition by a `countP_` lemma.  A key that has expired is read as
  the empty set, whether or not the server has removed it yet.
-/

import Mathlib.Data.List.Nodup
import Mathlib.Data.List.Perm.Subperm
import Mathlib.Order.Basic
import Mathlib.Tactic.Common
import Mathlib.Order.Lattice

namespace Redis

/-- Members of type `α`, each once, with scores of type `σ`. -/
@[ext]
structure SortedSet (α σ : Type*) where
  entries : List (α × σ)
  nodup : (entries.map Prod.fst).Nodup

namespace SortedSet

variable {α σ : Type*}

def empty : SortedSet α σ := ⟨[], List.nodup_nil⟩

/-- `ZCARD` -/
def card (set : SortedSet α σ) : Nat := set.entries.length

/-- The score of `ZRANGE 0 0 WITHSCORES` -/
def lowest [Min σ] (set : SortedSet α σ) : Option σ := (set.entries.map Prod.snd).min?

/-- The members that meet a condition. -/
def filter (p : α × σ → Bool) (set : SortedSet α σ) : SortedSet α σ :=
  ⟨set.entries.filter p, set.nodup.sublist (List.filter_sublist.map _)⟩

/-- `ZREMRANGEBYSCORE low high` -/
def removeRange [LE σ] [DecidableLE σ] (low high : σ) (set : SortedSet α σ) : SortedSet α σ :=
  set.filter fun entry => !(decide (low ≤ entry.2) && decide (entry.2 ≤ high))

variable [DecidableEq α]

/-- `ZREM` -/
def remove (member : α) (set : SortedSet α σ) : SortedSet α σ :=
  set.filter fun entry => entry.1 ≠ member

/-- `ZADD` -/
def add (member : α) (score : σ) (set : SortedSet α σ) : SortedSet α σ where
  entries := (member, score) :: (set.remove member).entries
  nodup := by
    rw [List.map_cons, List.nodup_cons]
    refine ⟨fun hmem => ?_, (set.remove member).nodup⟩
    obtain ⟨entry, hentry, heq⟩ := List.mem_map.mp hmem
    simp only [remove, filter, List.mem_filter, decide_eq_true_eq] at hentry
    exact hentry.2 heq

/-- `ZSCORE` -/
def score (member : α) (set : SortedSet α σ) : Option σ :=
  (set.entries.find? fun entry => entry.1 = member).map Prod.snd

/-- `ZADD XX` -/
def addExisting (member : α) (score : σ) (set : SortedSet α σ) : SortedSet α σ :=
  if (set.score member).isSome then set.add member score else set

/-! ## What a set holds -/

variable {set : SortedSet α σ} {member : α} {score : σ} {entry : α × σ} {p : α × σ → Bool}

theorem mem_removeRange [LE σ] [DecidableLE σ] {low high : σ} :
    entry ∈ (set.removeRange low high).entries ↔
      entry ∈ set.entries ∧ ¬ (low ≤ entry.2 ∧ entry.2 ≤ high) := by
  rw [removeRange, filter, List.mem_filter, Bool.not_eq_true', Bool.and_eq_false_iff,
    decide_eq_false_iff_not, decide_eq_false_iff_not, not_and_or]

theorem mem_remove : entry ∈ (set.remove member).entries ↔
    entry ∈ set.entries ∧ entry.1 ≠ member := by
  simp [remove, filter]

theorem mem_add : entry ∈ (set.add member score).entries ↔
    entry = (member, score) ∨ entry ∈ set.entries ∧ entry.1 ≠ member := by
  rw [add, List.mem_cons, mem_remove]

theorem score_eq_some : set.score member = some score ↔ (member, score) ∈ set.entries := by
  rw [SortedSet.score, Option.map_eq_some_iff]
  constructor
  · rintro ⟨⟨found, value⟩, hfind, rfl⟩
    obtain rfl : found = member := by simpa using List.find?_some hfind
    exact List.mem_of_find?_eq_some hfind
  · intro hmem
    cases hfind : set.entries.find? fun entry => entry.1 = member with
    | none =>
      have := List.find?_eq_none.mp hfind _ hmem
      simp at this
    | some entry =>
      have hfound : entry.1 = member := by simpa using List.find?_some hfind
      refine ⟨entry, rfl, ?_⟩
      have heq := List.inj_on_of_nodup_map set.nodup (List.mem_of_find?_eq_some hfind) hmem hfound
      rw [heq]

instance : HasSubset (SortedSet α σ) := ⟨fun set set' => ∀ entry ∈ set.entries, entry ∈ set'.entries⟩

theorem subset_refl : set ⊆ set := fun _ h => h

theorem remove_subset : set.remove member ⊆ set := fun _ h => (mem_remove.mp h).1

theorem removeRange_subset [LE σ] [DecidableLE σ] {low high : σ} : set.removeRange low high ⊆ set :=
  fun _ h => List.mem_of_mem_filter h

theorem remove_add_subset {set' : SortedSet α σ} (h : set ⊆ set') :
    (set.add member score).remove member ⊆ set' := by
  intro entry hentry
  obtain ⟨hadd, hne⟩ := mem_remove.mp hentry
  rcases mem_add.mp hadd with rfl | ⟨hold, -⟩
  · exact absurd rfl hne
  · exact h entry hold

/-- A member that is not there is added beside the others. -/
theorem remove_of_not_mem (h : ∀ value, (member, value) ∉ set.entries) :
    set.remove member = set := by
  obtain ⟨entries, nodup⟩ := set
  simp only [remove, filter, SortedSet.mk.injEq, List.filter_eq_self, decide_eq_true_eq]
  rintro ⟨found, value⟩ hmem rfl
  exact h value hmem

/-! ## How many -/

theorem card_removeRange [LE σ] [DecidableLE σ] {low high : σ} :
    (set.removeRange low high).card =
      set.entries.countP fun entry => !(decide (low ≤ entry.2) && decide (entry.2 ≤ high)) :=
  List.countP_eq_length_filter.symm

theorem countP_le_of_subset {set' : SortedSet α σ} (h : set ⊆ set') :
    set.entries.countP p ≤ set'.entries.countP p :=
  (List.subperm_of_subset set.nodup.of_map h).countP_le p

theorem countP_remove_le : (set.remove member).entries.countP p ≤ set.entries.countP p :=
  List.filter_sublist.countP_le

theorem countP_add_le :
    (set.add member score).entries.countP p ≤ set.entries.countP p + 1 := by
  rw [add, List.countP_cons]
  have hle : (set.remove member).entries.countP p ≤ set.entries.countP p := countP_remove_le
  split <;> omega

/-- A member that was not there is counted beside the others. -/
theorem countP_add_of_not_mem (h : ∀ value, (member, value) ∉ set.entries) :
    (set.add member score).entries.countP p =
      set.entries.countP p + if p (member, score) then 1 else 0 := by
  show ((member, score) :: (set.remove member).entries).countP p = _
  rw [List.countP_cons, remove_of_not_mem h]

/-- The entry of a member is one of those counted. -/
theorem countP_remove_lt (hmem : (member, score) ∈ set.entries) (hp : p (member, score) = true) :
    (set.remove member).entries.countP p < set.entries.countP p := by
  have hperm : set.entries.Perm ((member, score) :: (set.remove member).entries) := by
    refine (List.perm_ext_iff_of_nodup set.nodup.of_map (set.add member score).nodup.of_map).mpr ?_
    intro entry
    rw [mem_add]
    constructor
    · intro hentry
      by_cases heq : entry.1 = member
      · exact .inl (List.inj_on_of_nodup_map set.nodup hentry hmem heq)
      · exact .inr ⟨hentry, heq⟩
    · rintro (rfl | ⟨hentry, -⟩)
      · exact hmem
      · exact hentry
  rw [hperm.countP_eq, List.countP_cons, if_pos hp]
  exact Nat.lt_succ_self _

/-- A member that was counted and is given another score is counted at most once. -/
theorem countP_add_le_of_mem {old : σ} (hmem : (member, old) ∈ set.entries)
    (hp : p (member, old) = true) :
    (set.add member score).entries.countP p ≤ set.entries.countP p := by
  rw [add, List.countP_cons]
  have hlt := countP_remove_lt hmem hp
  split <;> omega

end SortedSet

/-! ## Keys -/

/-- Sorted sets under keys of type `κ`, and the instants at which the keys expire. -/
structure SortedSets (κ α σ τ : Type*) where
  sets : κ → SortedSet α σ
  deadline : κ → Option τ

namespace SortedSets

variable {κ α σ τ : Type*}

def empty : SortedSets κ α σ τ := ⟨fun _ => .empty, fun _ => none⟩

variable [LinearOrder τ]

/-- What is under the key. -/
def read (now : τ) (key : κ) (db : SortedSets κ α σ τ) : SortedSet α σ :=
  if (db.deadline key).all fun deadline => now < deadline then db.sets key else .empty

variable {db : SortedSets κ α σ τ} {now later deadline : τ} {key other : κ}
  {f : SortedSet α σ → SortedSet α σ}

theorem read_subset : db.read now key ⊆ db.sets key := by
  unfold read
  split
  · exact fun _ h => h
  · exact fun _ h => absurd h List.not_mem_nil

@[simp] theorem read_empty : (empty : SortedSets κ α σ τ).read now key = .empty := rfl

/-- Time leaves what is under a key, or the key expires. -/
theorem read_later (h : now ≤ later) :
    db.read later key = db.read now key ∨ db.read later key = .empty := by
  unfold read
  cases db.deadline key with
  | none => exact .inl rfl
  | some deadline =>
    by_cases hlater : later < deadline
    · exact .inl (by simp [hlater, lt_of_le_of_lt h hlater])
    · exact .inr (by simp [hlater])

variable [DecidableEq κ]

/-- A command that changes the set under the key and leaves its expiry. -/
def modify (now : τ) (key : κ) (f : SortedSet α σ → SortedSet α σ) (db : SortedSets κ α σ τ) :
    SortedSets κ α σ τ where
  sets other := if key = other then f (db.read now key) else db.sets other
  deadline other :=
    if key = other ∧ (db.deadline key).any (fun deadline => deadline ≤ now) = true then none
    else db.deadline other

/-- `PEXPIRE` -/
def expire (key : κ) (deadline : τ) (db : SortedSets κ α σ τ) : SortedSets κ α σ τ where
  sets := db.sets
  deadline other := if key = other then some deadline else db.deadline other

theorem read_modify : (db.modify now key f).read now other =
    if key = other then f (db.read now key) else db.read now other := by
  by_cases h : key = other
  · subst h
    rw [if_pos rfl, read]
    simp only [modify, if_true, true_and]
    cases hdeadline : db.deadline key with
    | none => simp
    | some deadline =>
      by_cases hlive : deadline ≤ now
      · simp [hlive]
      · simp [hlive, lt_of_not_ge hlive]
  · rw [if_neg h, read, read]
    simp [modify, h]

theorem sets_modify : (db.modify now key f).sets key = f (db.read now key) := if_pos rfl

theorem read_modify_of_ne (h : key ≠ other) :
    (db.modify now key f).read later other = db.read later other := by
  rw [read, read]
  simp [modify, h]

/-- Later the key holds what was put there, or it has expired and would have anyway. -/
theorem read_modify_later :
    (db.modify now key f).read later key = f (db.read now key) ∨
      (db.modify now key f).read later key = .empty ∧ db.read later key = .empty := by
  rw [read, sets_modify]
  simp only [modify, true_and]
  cases hdeadline : db.deadline key with
  | none => exact .inl (by simp)
  | some deadline =>
    by_cases hexpired : deadline ≤ now
    · exact .inl (by simp [hexpired])
    · by_cases hlater : later < deadline
      · exact .inl (by simp [hexpired, hlater])
      · exact .inr (by simp [hexpired, hlater, read, hdeadline])

/-- A command that leaves the empty set empty can be thought of as run when the key is read. -/
theorem read_modify_of_empty (hempty : f .empty = .empty) (hclock : now ≤ later) :
    (db.modify now key f).read later key = f (db.read later key) := by
  rw [read, sets_modify]
  simp only [modify, true_and]
  cases hdeadline : db.deadline key with
  | none => simp [read, hdeadline]
  | some deadline =>
    by_cases hexpired : deadline ≤ now
    · simp [read, hdeadline, hexpired, not_lt.mpr hexpired, not_lt.mpr (le_trans hexpired hclock), hempty]
    · by_cases hlater : later < deadline
      · simp [read, hdeadline, hexpired, hlater, lt_of_le_of_lt hclock hlater]
      · simp [read, hdeadline, hexpired, hlater, hempty]

theorem read_expire_self :
    (db.expire key deadline).read later key = if later < deadline then db.sets key else .empty := by
  rw [read]
  simp [expire]

theorem read_expire_of_ne (h : key ≠ other) :
    (db.expire key deadline).read later other = db.read later other := by
  rw [read, read]
  simp [expire, h]

theorem read_expire (h : now < deadline) :
    (db.expire key deadline).read now other =
      if key = other then db.sets key else db.read now other := by
  by_cases hkey : key = other
  · subst hkey
    rw [if_pos rfl, read]
    simp [expire, h]
  · rw [if_neg hkey, read, read]
    simp [expire, hkey]

end SortedSets

end Redis
