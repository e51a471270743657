/-
  AiPlatform.Lib.RedisStrings

  The string keys of a Redis server, each with the instant it expires.

  A key that has expired is read as absent, whether or not the server has removed
  it yet.  The commands are `GET`, `SET EX`, `SET NX EX` and `DEL`; each has one
  lemma that says what every key holds after it.
-/

import AiPlatform.Lib.OrdMap

namespace Redis

open Std

/-- String keys over values of type `V`, with the instant each expires. -/
structure Strings (V : Type*) where
  entries : ExtTreeMap String (V × Nat) compare

namespace Strings

variable {V : Type*}

def empty : Strings V := ⟨∅⟩

/-- `GET key` -/
def get (now : Nat) (key : String) (s : Strings V) : Option V :=
  (s.entries[key]?).bind fun entry => if now < entry.2 then some entry.1 else none

/-- `SET key value EX ..` -/
def set (key : String) (value : V) (expiresAt : Nat) (s : Strings V) : Strings V :=
  ⟨s.entries.insert key (value, expiresAt)⟩

/-- `SET key value NX EX ..`: was the key set? -/
def setNx (now : Nat) (key : String) (value : V) (expiresAt : Nat) (s : Strings V) :
    Bool × Strings V :=
  if (s.get now key).isSome then (false, s) else (true, s.set key value expiresAt)

/-- `DEL key` -/
def del (key : String) (s : Strings V) : Strings V :=
  ⟨s.entries.erase key⟩

/-- The instant at which a key expires. -/
def expiry (key : String) (s : Strings V) : Option Nat :=
  (s.entries[key]?).map Prod.snd

/-! ## What a key holds -/

section

variable {now expiresAt : Nat} {key other : String} {value : V} {s : Strings V}

theorem entries_set : (s.set key value expiresAt).entries[other]? =
    if key = other then some (value, expiresAt) else s.entries[other]? :=
  OrdMap.getElem?_insert _ _ _ _

theorem entries_del : (s.del key).entries[other]? =
    if key = other then none else s.entries[other]? := by
  by_cases h : key = other
  · subst h
    rw [if_pos rfl, del, ExtTreeMap.getElem?_erase_self]
  · rw [if_neg h, del, OrdMap.getElem?_erase_ne h]

@[simp] theorem get_empty : (empty : Strings V).get now key = none := by
  simp [get, empty]

theorem get_eq_some : s.get now key = some value ↔
    ∃ t, s.entries[key]? = some (value, t) ∧ now < t := by
  rw [get, Option.bind_eq_some_iff]
  constructor
  · rintro ⟨⟨v, t⟩, hentry, hlive⟩
    dsimp only at hlive
    split at hlive
    · rename_i ht
      obtain rfl := Option.some.inj hlive
      exact ⟨t, hentry, ht⟩
    · cases hlive
  · rintro ⟨t, hentry, ht⟩
    exact ⟨(value, t), hentry, if_pos ht⟩

theorem get_set (ht : now < expiresAt) : (s.set key value expiresAt).get now other =
    if key = other then some value else s.get now other := by
  rw [get, get, entries_set]
  by_cases h : key = other
  · rw [if_pos h, if_pos h, Option.bind_some, if_pos ht]
  · rw [if_neg h, if_neg h]

theorem get_set_ne (h : key ≠ other) :
    (s.set key value expiresAt).get now other = s.get now other := by
  rw [get, get, entries_set, if_neg h]

theorem get_del : (s.del key).get now other =
    if key = other then none else s.get now other := by
  rw [get, get, entries_del]
  by_cases h : key = other
  · rw [if_pos h, if_pos h, Option.bind_none]
  · rw [if_neg h, if_neg h]

theorem setNx_fst : (s.setNx now key value expiresAt).1 = (s.get now key).isNone := by
  cases h : s.get now key with
  | none => simp [setNx, h]
  | some v => simp [setNx, h]

/-- `SET NX` changes a key that is absent and no other. -/
theorem get_setNx (ht : now < expiresAt) : (s.setNx now key value expiresAt).2.get now other =
    if key = other ∧ s.get now key = none then some value else s.get now other := by
  cases h : s.get now key with
  | none =>
    have hset : (s.setNx now key value expiresAt).2 = s.set key value expiresAt := by
      simp [setNx, h]
    rw [hset, get_set ht]
    simp
  | some v =>
    have hset : (s.setNx now key value expiresAt).2 = s := by simp [setNx, h]
    rw [hset, if_neg (by simp)]

/-- A key that does not expire meanwhile holds what it held. -/
theorem get_time {now' : Nat} {k : String} (hle : now ≤ now')
    (hlasts : ∀ t ∈ s.expiry k, now < t → now' < t) : s.get now' k = s.get now k := by
  rw [get, get]
  cases hat : s.entries[k]? with
  | none => rfl
  | some entry =>
    have hsame : now' < entry.2 ↔ now < entry.2 :=
      ⟨hle.trans_lt, hlasts entry.2 (by simp [expiry, hat])⟩
    simp only [Option.bind_some, hsame]

/-- A key that is absent stays so until it is set. -/
theorem get_none_later {now' : Nat} (hle : now ≤ now') (h : s.get now key = none) :
    s.get now' key = none := by
  cases hlater : s.get now' key with
  | none => rfl
  | some value =>
    obtain ⟨t, hentry, ht⟩ := get_eq_some.mp hlater
    rw [get_eq_some.mpr ⟨t, hentry, hle.trans_lt ht⟩] at h
    cases h

end

end Strings

end Redis
