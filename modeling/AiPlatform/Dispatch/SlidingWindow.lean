/-
  AiPlatform.Dispatch.SlidingWindow

  The sliding windows of the rate limiters: the script that counts in Redis
  (`SLIDING_WINDOW_CHECK_LUA`), how its response is read
  (`_redis_sliding_window_many`), and the deques that count in memory
  (`_memory_sliding_window`, `multi_dimension_rate_limiter.py`).

  Times are seconds; the Redis server counts the life of a key by the clock of its
  callers.
-/

import Mathlib.Data.Rat.Floor
import AiPlatform.Lib.SortedSets

namespace AiPlatform.Dispatch

open Redis

/-- The length of a window in seconds. -/
abbrev Window := { seconds : Nat // 0 < seconds }

/-- `int()` of a float. -/
def truncate (x : ℚ) : Int := if 0 ≤ x then ⌊x⌋ else ⌈x⌉

structure RateLimitResult where
  allowed : Bool
  dimension : String
  limit : Int
  remaining : Int
  resetAt : Int
  retryAfter : Int
  deriving DecidableEq

instance : Inhabited RateLimitResult := ⟨⟨true, "", 0, 0, 0, 0⟩⟩

structure Policy where
  key : String
  limit : Int
  dimension : String
  deriving DecidableEq

/-- The checks one after another, until one denies. -/
def untilDenied {σ α : Type} (check : α → σ → RateLimitResult × σ) :
    List α → σ → List RateLimitResult × σ
  | [], s => ([], s)
  | first :: rest, s =>
      let (result, s) := check first s
      if result.allowed then
        let (results, s) := untilDenied check rest s
        (result :: results, s)
      else ([result], s)

/-- What every check keeps is kept. -/
theorem untilDenied_keeps {σ α : Type} {check : α → σ → RateLimitResult × σ} {P : σ → Prop}
    {all : List α} (hstep : ∀ one ∈ all, ∀ s, P s → P (check one s).2) {s : σ} (h : P s) :
    P (untilDenied check all s).2 := by
  induction all generalizing s with
  | nil => exact h
  | cons first rest ih =>
    have hfirst := hstep first List.mem_cons_self s h
    unfold untilDenied
    simp only
    split
    · exact ih (fun one hmem => hstep one (List.mem_cons_of_mem _ hmem)) hfirst
    · exact hfirst

/-! ## In memory -/

/-- `_requests`; a key that is not there has the empty deque. -/
abbrev Requests := String → List ℚ

section Limiters

variable (now : ℚ) (window : Window)

/-- `window_start` -/
def windowStart : ℚ := now - window.val

/-- `_memory_sliding_window` -/
def memorySlidingWindow (policy : Policy) (requests : Requests) : RateLimitResult × Requests :=
  let timestamps := (requests policy.key).dropWhile fun timestamp => timestamp < windowStart now window
  let currentCount : Int := timestamps.length
  let remaining := max 0 (policy.limit - currentCount - 1)
  let resetAt := truncate (now + window.val)
  if policy.limit ≤ currentCount then
    let retryAfter :=
      match timestamps with
      | [] => (window.val : Int)
      | earliest :: _ => truncate (earliest - windowStart now window) + 1
    (⟨false, policy.dimension, policy.limit, 0, resetAt, retryAfter⟩,
      Function.update requests policy.key timestamps)
  else
    (⟨true, policy.dimension, policy.limit, remaining, resetAt, 0⟩,
      Function.update requests policy.key (timestamps ++ [now]))

/-! ## In Redis -/

/-- The requests under each key: members with the instants they were made at. -/
abbrev WindowDb := SortedSets String String ℚ ℚ

/-- The numbers a script returns, `remaining` from the fourth on. -/
structure WindowResponse where
  rejectedIndex : Int
  earliestScore : Int
  minRemaining : Int
  remaining : List Int

variable (member : String)

/-- `SLIDING_WINDOW_CHECK_LUA` from the key with index `i` on.  A number that is not whole
    is cut off when it is returned. -/
def slidingWindowCheckLua : Nat → List Policy → List Int → Option Int → WindowDb →
    WindowResponse × WindowDb
  | _, [], remainingValues, minRemaining, db => (⟨-1, 0, minRemaining.getD 0, remainingValues⟩, db)
  | i, policy :: rest, remainingValues, minRemaining, db =>
      let db := db.modify now policy.key (.removeRange 0 (windowStart now window))
      let count : Int := (db.read now policy.key).card
      if policy.limit ≤ count then
        let earliestScore := ((db.read now policy.key).lowest).getD (windowStart now window)
        (⟨i, truncate earliestScore, 0, remainingValues ++ List.replicate (rest.length + 1) (-1)⟩, db)
      else
        let db := (db.modify now policy.key (.add member now)).expire policy.key (now + (window.val + 1))
        let remaining := policy.limit - count - 1
        let minRemaining :=
          match minRemaining with
          | none => remaining
          | some least => if remaining < least then remaining else least
        slidingWindowCheckLua (i + 1) rest (remainingValues ++ [remaining]) (some minRemaining) db

/-- The denial of a policy whose window goes back to `earliestScore`. -/
def denied (policy : Policy) (earliestScore : Int) : RateLimitResult :=
  ⟨false, policy.dimension, policy.limit, 0, truncate (now + window.val),
    if windowStart now window < earliestScore then
      truncate (earliestScore - windowStart now window) + 1
    else window.val⟩

/-- The results of the policies from the one with index `index` on. -/
def readResponse (response : WindowResponse) : Nat → List Policy → List RateLimitResult
  | _, [] => []
  | index, policy :: rest =>
      if 0 ≤ response.rejectedIndex ∧ response.rejectedIndex < index then []
      else if index = response.rejectedIndex then [denied now window policy response.earliestScore]
      else
        let remaining :=
          match response.remaining[index]? with
          | some remaining => if 0 ≤ remaining then max remaining 0 else max response.minRemaining 0
          | none => max response.minRemaining 0
        ⟨true, policy.dimension, policy.limit, remaining, truncate (now + window.val), 0⟩ ::
          readResponse response (index + 1) rest

/-- `_redis_sliding_window_many`, when the script can be run. -/
def redisSlidingWindowMany (policies : List Policy) (db : WindowDb) : List RateLimitResult × WindowDb :=
  let (response, db) := slidingWindowCheckLua now window member 0 policies [] none db
  (readResponse now window response 0 policies, db)

/-! ## The script policy by policy -/

/-- What the script does for one policy, and what is read from its response. -/
def redisSlidingWindow (policy : Policy) (db : WindowDb) : RateLimitResult × WindowDb :=
  let db := db.modify now policy.key (.removeRange 0 (windowStart now window))
  let count : Int := (db.read now policy.key).card
  if policy.limit ≤ count then
    (denied now window policy
      (truncate (((db.read now policy.key).lowest).getD (windowStart now window))), db)
  else
    (⟨true, policy.dimension, policy.limit, policy.limit - count - 1, truncate (now + window.val), 0⟩,
      (db.modify now policy.key (.add member now)).expire policy.key (now + (window.val + 1)))

variable {now window member} {policies : List Policy} {i : Nat} {remainingValues : List Int}
  {minRemaining : Option Int} {db : WindowDb}

/-- What has been counted stays in the response. -/
theorem remainingValues_kept :
    remainingValues <+:
      (slidingWindowCheckLua now window member i policies remainingValues minRemaining db).1.remaining := by
  induction policies generalizing i remainingValues minRemaining db with
  | nil => exact List.prefix_rfl
  | cons policy rest ih =>
    unfold slidingWindowCheckLua
    simp only
    split
    · exact List.prefix_append ..
    · exact (List.prefix_append ..).trans ih

/-- No policy rejects, or one of those at hand. -/
theorem rejectedIndex_mem :
    let rejectedIndex :=
      (slidingWindowCheckLua now window member i policies remainingValues minRemaining db).1.rejectedIndex
    rejectedIndex = -1 ∨ (i : Int) ≤ rejectedIndex ∧ rejectedIndex < i + policies.length := by
  induction policies generalizing i remainingValues minRemaining db with
  | nil => exact .inl rfl
  | cons policy rest ih =>
    unfold slidingWindowCheckLua
    simp only
    split
    · exact .inr ⟨Int.le_refl _, by simp only [List.length_cons]; omega⟩
    · refine ih.imp id fun hmem => ⟨by omega, ?_⟩
      simp only [List.length_cons]
      omega

/-- A policy that has been passed is read as allowed, with what was counted for it. -/
theorem readResponse_cons {response : WindowResponse} {policy : Policy} {remaining : Int}
    (hindex : response.rejectedIndex = -1 ∨ (i + 1 : Nat) ≤ response.rejectedIndex ∧
      response.rejectedIndex < (i + 1 : Nat) + policies.length)
    (hcounted : response.remaining[i]? = some remaining) (hle : 0 ≤ remaining) :
    readResponse now window response i (policy :: policies) =
      ⟨true, policy.dimension, policy.limit, remaining, truncate (now + window.val), 0⟩ ::
        readResponse now window response (i + 1) policies := by
  rw [readResponse, if_neg (by omega), if_neg (by omega), hcounted]
  simp only [if_pos hle, max_eq_left hle]

/-- The loop of the script and the reading of its response, from any index on. -/
theorem readResponse_check (hlength : remainingValues.length = i) :
    let out := slidingWindowCheckLua now window member i policies remainingValues minRemaining db
    (readResponse now window out.1 i policies, out.2) =
      untilDenied (redisSlidingWindow now window member) policies db := by
  induction policies generalizing i remainingValues minRemaining db with
  | nil => rfl
  | cons policy rest ih =>
    generalize hpruned : db.modify now policy.key (.removeRange 0 (windowStart now window)) = pruned
    unfold slidingWindowCheckLua untilDenied
    by_cases hfull : policy.limit ≤ (pruned.read now policy.key).card
    · have hsingle : redisSlidingWindow now window member policy db =
          (denied now window policy
            (truncate (((pruned.read now policy.key).lowest).getD (windowStart now window))), pruned) := by
        simp only [redisSlidingWindow, hpruned, if_pos hfull]
      simp only [hpruned, if_pos hfull, hsingle]
      simp [readResponse, denied]
    · generalize hremaining : policy.limit - ((pruned.read now policy.key).card : Int) - 1 = remaining
      generalize hadded : (pruned.modify now policy.key (.add member now)).expire policy.key
        (now + (window.val + 1)) = added
      have hsingle : redisSlidingWindow now window member policy db =
          (⟨true, policy.dimension, policy.limit, remaining, truncate (now + window.val), 0⟩, added) := by
        simp only [redisSlidingWindow, hpruned, if_neg hfull, hremaining, hadded]
      simp only [hpruned, if_neg hfull, hsingle, hremaining, hadded, if_true]
      have hpassed : (remainingValues ++ [remaining]).length = i + 1 := by
        rw [List.length_append, hlength, List.length_singleton]
      generalize (match minRemaining with
        | none => remaining
        | some least => if remaining < least then remaining else least) = least
      obtain ⟨tail, htail⟩ := @remainingValues_kept now window member rest (i + 1)
        (remainingValues ++ [remaining]) (some least) added
      have hcounted : (slidingWindowCheckLua now window member (i + 1) rest (remainingValues ++ [remaining])
          (some least) added).1.remaining[i]? = some remaining := by
        rw [← htail, List.append_assoc, List.getElem?_append_right (Nat.le_of_eq hlength), hlength,
          Nat.sub_self]
        rfl
      have hrest := @ih (i + 1) (remainingValues ++ [remaining]) (some least) added hpassed
      rw [readResponse_cons rejectedIndex_mem hcounted (by omega), ← hrest]

/-- The batch is the policies one after another, until one denies. -/
theorem redisSlidingWindowMany_eq :
    redisSlidingWindowMany now window member policies db =
      untilDenied (redisSlidingWindow now window member) policies db :=
  readResponse_check rfl

theorem all_readResponse {response : WindowResponse}
    (hindex : response.rejectedIndex = -1 ∨
      (i : Int) ≤ response.rejectedIndex ∧ response.rejectedIndex < i + policies.length) :
    (readResponse now window response i policies).all RateLimitResult.allowed = true ↔
      response.rejectedIndex < 0 := by
  induction policies generalizing i with
  | nil =>
    rw [List.length_nil] at hindex
    exact iff_of_true rfl (by omega)
  | cons policy rest ih =>
    rw [List.length_cons] at hindex
    rw [readResponse, if_neg (by omega)]
    by_cases hrejected : (i : Int) = response.rejectedIndex
    · rw [if_pos hrejected]
      exact iff_of_false nofun (by omega)
    · rw [if_neg hrejected, List.all_cons]
      exact ih (by omega)

/-- The script reports no rejection when every policy is allowed. -/
theorem rejectedIndex_lt_zero :
    (slidingWindowCheckLua now window member 0 policies [] none db).1.rejectedIndex < 0 ↔
      (untilDenied (redisSlidingWindow now window member) policies db).1.all
        RateLimitResult.allowed = true := by
  rw [← redisSlidingWindowMany_eq]
  exact (all_readResponse rejectedIndex_mem).symm

/-- The script adds no other member than its own. -/
theorem mem_redisSlidingWindow {policy : Policy} {key : String} {entry : String × ℚ}
    (h : entry ∈ ((redisSlidingWindow now window member policy db).2.sets key).entries) :
    entry.1 = member ∨ entry ∈ (db.sets key).entries := by
  by_cases hkey : policy.key = key
  · subst hkey
    have hpruned : (db.modify now policy.key (.removeRange 0 (windowStart now window))).sets policy.key ⊆
        db.sets policy.key := by
      rw [SortedSets.sets_modify]
      exact fun entry hmem => SortedSets.read_subset _ (SortedSet.removeRange_subset _ hmem)
    unfold redisSlidingWindow at h
    simp only at h
    split at h
    · exact .inr (hpruned _ h)
    · simp only [SortedSets.expire, SortedSets.sets_modify] at h
      rcases SortedSet.mem_add.mp h with rfl | ⟨hold, -⟩
      · exact .inl rfl
      · exact .inr (hpruned _ (SortedSets.read_subset _ hold))
  · unfold redisSlidingWindow at h
    simp only at h
    split at h
    · simp only [SortedSets.modify, if_neg hkey] at h
      exact .inr h
    · simp only [SortedSets.expire, SortedSets.modify, if_neg hkey] at h
      exact .inr h

end Limiters

end AiPlatform.Dispatch
