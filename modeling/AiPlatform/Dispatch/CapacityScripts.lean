/-
  AiPlatform.Dispatch.CapacityScripts

  The capacity that gateways share in Redis: the scripts that acquire, renew and
  release a lease under a shared key and a tenant key (`lua_scripts.py`).

  A script is one step.  Its clock is the `now_ms` the gateway passes, and Redis
  counts the life of a key by the same clock.
-/

import AiPlatform.Lib.Fields
import AiPlatform.Lib.Machine
import AiPlatform.Lib.SortedSets
import Mathlib.Order.Nat

namespace AiPlatform.Dispatch

open Transition Redis

/-- The leases under each key: members with the instants they expire, in milliseconds. -/
abbrev CapacityDb := SortedSets String String Nat Nat

/-- `lease_ttl_ms`, which is at least a second. -/
abbrev LeaseTtl := { ms : Nat // 1000 ≤ ms }

/-! ## Keys -/

/-- `_redis_key` -/
def redisKey (clusterEpoch budgetKey : String) : String :=
  "gateway:capacity:" ++ clusterEpoch ++ ":global:" ++ budgetKey

/-- `_tenant_redis_key` -/
def tenantRedisKey (clusterEpoch tenantId budgetKey : String) : String :=
  "gateway:tenant-capacity:" ++ clusterEpoch ++ ":" ++ tenantId ++ ":" ++ budgetKey

theorem capacity_getElem? : "gateway:capacity:".toList[8]? = some 'c' := by decide

theorem tenantCapacity_getElem? : "gateway:tenant-capacity:".toList[8]? = some 't' := by decide

theorem redisKey_getElem? {epoch budget : String} : (redisKey epoch budget).toList[8]? = some 'c' := by
  unfold redisKey
  iterate 3 apply Fields.getElem?_append_of_eq_some
  exact capacity_getElem?

theorem tenantRedisKey_getElem? {epoch tenant budget : String} :
    (tenantRedisKey epoch tenant budget).toList[8]? = some 't' := by
  unfold tenantRedisKey
  iterate 5 apply Fields.getElem?_append_of_eq_some
  exact tenantCapacity_getElem?

/-- No shared key is a tenant key: they differ in their ninth character. -/
theorem redisKey_ne_tenantRedisKey {epoch epoch' budget budget' tenant : String} :
    redisKey epoch budget ≠ tenantRedisKey epoch' tenant budget' := by
  intro h
  have hshared := @redisKey_getElem? epoch budget
  rw [h, tenantRedisKey_getElem?] at hshared
  simp at hshared

/-! ## The scripts -/

/-- The two keys of a lease and its limits. -/
structure LeaseKeys where
  shared : String
  tenant : String
  distinct : shared ≠ tenant
  deriving DecidableEq

/-- `admitKey` of `CAPACITY_ACQUIRE_PAIR_LUA`. -/
def admitKey (now expiresAt : Nat) (member : String) (ttl : Nat) (key : String) (limit : Int)
    (db : CapacityDb) : Int × CapacityDb :=
  if limit ≤ 0 then (-1, db)
  else
    let db := db.modify now key (.removeRange 0 now)
    let count := (db.read now key).card
    if count < limit then
      (count, (db.modify now key (.add member expiresAt)).expire key (now + ttl))
    else (count, db)

/-- `CAPACITY_ACQUIRE_PAIR_LUA` -/
def acquirePair (now expiresAt : Nat) (member : String) (ttl : Nat) (keys : LeaseKeys)
    (sharedLimit tenantLimit : Int) (db : CapacityDb) : (Int × Int) × CapacityDb :=
  let (sharedCount, db) := admitKey now expiresAt member ttl keys.shared sharedLimit db
  if sharedCount < sharedLimit then
    let (tenantCount, db) := admitKey now expiresAt member ttl keys.tenant tenantLimit db
    if tenantLimit ≤ tenantCount then
      ((sharedCount, tenantCount), db.modify now keys.shared (.remove member))
    else ((sharedCount, tenantCount), db)
  else ((sharedCount, -1), db)

/-- The member is under the key and has not expired. -/
def isLive (now : Nat) (member : String) (set : SortedSet String Nat) : Bool :=
  (set.score member).any fun score => now < score

/-- One turn of the second loop of `CAPACITY_RENEW_LUA`. -/
def prolong (now expiresAt : Nat) (member : String) (ttl : Nat) (key : String) (db : CapacityDb) :
    CapacityDb :=
  (db.modify now key (.addExisting member expiresAt)).expire key (now + ttl)

/-- `CAPACITY_RENEW_LUA` -/
def renew (now expiresAt : Nat) (member : String) (ttl : Nat) (keys : LeaseKeys) (db : CapacityDb) :
    Int × CapacityDb :=
  if isLive now member (db.read now keys.shared) && isLive now member (db.read now keys.tenant) then
    (1, prolong now expiresAt member ttl keys.tenant (prolong now expiresAt member ttl keys.shared db))
  else (0, db)

/-- `CAPACITY_RELEASE_LUA` -/
def release (now : Nat) (member : String) (keys : LeaseKeys) (db : CapacityDb) : Int × CapacityDb :=
  (2, (db.modify now keys.shared (.remove member)).modify now keys.tenant (.remove member))

/-! ## What a script leaves under a key -/

section Sets

variable {now expiresAt : Nat} {member key other : String} {ttl : LeaseTtl} {limit : Int}
  {db : CapacityDb} {set : SortedSet String Nat} {entry : String × Nat}

/-- How many leases of a set have not expired. -/
def live (now : Nat) (set : SortedSet String Nat) : Nat :=
  set.entries.countP fun entry => now < entry.2

theorem lt_ttl : now < now + ttl.val := Nat.lt_add_of_pos_right (Nat.lt_of_lt_of_le (by decide) ttl.2)

theorem mem_pruned : entry ∈ (set.removeRange 0 now).entries ↔ entry ∈ set.entries ∧ now < entry.2 := by
  rw [SortedSet.mem_removeRange, not_and, Nat.not_le]
  exact and_congr_right fun _ => forall_prop_of_true (Nat.zero_le _)

/-- What is left of a set once the expired leases are gone are the others. -/
theorem card_pruned : (set.removeRange 0 now).card = live now set := by
  rw [live, SortedSet.card_removeRange]
  refine List.countP_congr fun entry _ => ?_
  simp

theorem live_pruned : live now (set.removeRange 0 now) = live now set := by
  rw [live, live, SortedSet.removeRange, SortedSet.filter, List.countP_filter]
  refine List.countP_congr fun entry _ => ?_
  simp

/-- What `admitKey` leaves: another key as it was; a set that has room gains the member; a
    full one is only pruned. -/
theorem read_admitKey :
    (other ≠ key → ((admitKey now expiresAt member ttl.val key limit db).2.read now other) =
      db.read now other) ∧
    (limit ≤ 0 ∧ admitKey now expiresAt member ttl.val key limit db = (-1, db) ∨
      ((live now (db.read now key) : Int) < limit ∧
        (admitKey now expiresAt member ttl.val key limit db).1 = live now (db.read now key) ∧
        (admitKey now expiresAt member ttl.val key limit db).2.read now key =
          ((db.read now key).removeRange 0 now).add member expiresAt) ∨
      (limit ≤ (live now (db.read now key) : Int) ∧
        (admitKey now expiresAt member ttl.val key limit db).1 = live now (db.read now key) ∧
        (admitKey now expiresAt member ttl.val key limit db).2.read now key =
          (db.read now key).removeRange 0 now)) := by
  have hpruned : (db.modify now key (.removeRange 0 now)).read now key =
      (db.read now key).removeRange 0 now := by
    rw [SortedSets.read_modify, if_pos rfl]
  have hcard : ((db.modify now key (.removeRange 0 now)).read now key).card =
      live now (db.read now key) := by
    rw [hpruned, card_pruned]
  unfold admitKey
  split
  · rename_i hzero
    exact ⟨fun _ => rfl, .inl ⟨hzero, rfl⟩⟩
  · simp only [hcard]
    split
    · rename_i hroom
      refine ⟨fun hne => ?_, .inr (.inl ⟨hroom, rfl, ?_⟩)⟩
      · rw [SortedSets.read_expire lt_ttl, if_neg hne.symm, SortedSets.read_modify, if_neg hne.symm,
          SortedSets.read_modify, if_neg hne.symm]
      · rw [SortedSets.read_expire lt_ttl, if_pos rfl]
        simp only [SortedSets.modify, if_true]
        exact congrArg _ hpruned
    · rename_i hfull
      refine ⟨fun hne => ?_, .inr (.inr ⟨Int.not_lt.mp hfull, rfl, hpruned⟩)⟩
      rw [SortedSets.read_modify, if_neg hne.symm]

end Sets

end AiPlatform.Dispatch
