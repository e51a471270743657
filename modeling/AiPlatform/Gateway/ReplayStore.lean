/-
  AiPlatform.Gateway.ReplayStore

  `InMemoryReplayStore` (`ai_gateway_contracts/replay.py`), the ids of the messages
  that were accepted, and how a verifier asks it.
-/

import AiPlatform.Lib.Checks
import AiPlatform.Lib.ExpiryQueue

namespace AiPlatform.Gateway

/-- The ids with the instants they expire at, in the order of the dict. -/
structure InMemoryReplayStore where
  seen : List (String × Int)
  capacity : Nat

namespace InMemoryReplayStore

def new (capacity : Nat) : InMemoryReplayStore := ⟨[], capacity⟩

/-- `True` if the id is present and has not expired, else it is recorded. -/
def seenOrRecord (nowMs : Int) (requestId : String) (ttlMs : Int) (store : InMemoryReplayStore) :
    Bool × InMemoryReplayStore :=
  let seen := ExpiryQueue.dropStale nowMs store.seen
  if (seen.lookup requestId).any fun existing => decide (nowMs < existing) then
    (true, { store with seen := seen })
  else
    (false, { store with
      seen := ExpiryQueue.dropBeyond store.capacity
        (ExpiryQueue.put requestId (nowMs + ttlMs) seen) })

/-- The end of a `verify`: its checks have given the id and its TTL, with what is
    returned if the id is new. -/
def consume {ε ρ : Type} (replayed : ε) (nowMs : Int) (checked : Except ε (String × Int × ρ))
    (store : InMemoryReplayStore) : Except ε ρ × InMemoryReplayStore :=
  match checked with
  | .error error => (.error error, store)
  | .ok (requestId, ttlMs, value) =>
      match store.seenOrRecord nowMs requestId ttlMs with
      | (true, store) => (.error replayed, store)
      | (false, store) => (.ok value, store)

/-! ## The store against the log of all acceptances -/

/-- The store holds of the log what is live. -/
def Holds (now : Int) (log : List (String × Int)) (store : InMemoryReplayStore) : Prop :=
  ExpiryQueue.Keeps store.capacity now log store.seen

theorem holds_new {capacity : Nat} {now : Int} : (new capacity).Holds now [] := ExpiryQueue.keeps_nil

variable {store : InMemoryReplayStore} {log : List (String × Int)} {now nowMs ttlMs : Int}
  {requestId : String}

/-- An id is found exactly when it is live in the log. -/
theorem seenOrRecord_seen (ttlMs : Int) (h : store.Holds now log) (hnow : now ≤ nowMs) :
    (store.seenOrRecord nowMs requestId ttlMs).1 = true ↔
      ExpiryQueue.Live store.capacity nowMs log requestId := by
  rw [← (h.mono hnow).dropStale.lookup_live, seenOrRecord]
  split
  · rename_i hlive
    exact ⟨fun _ => hlive, fun _ => rfl⟩
  · rename_i hlive
    exact ⟨nofun, fun h => absurd h hlive⟩

theorem seenOrRecord_capacity :
    (store.seenOrRecord nowMs requestId ttlMs).2.capacity = store.capacity := by
  unfold seenOrRecord
  dsimp only
  split <;> rfl

/-- The store goes on to hold what is live, the id now put into the log included. -/
theorem Holds.seenOrRecord (requestId : String) (ttlMs : Int) (h : store.Holds now log)
    (hnow : now ≤ nowMs) :
    (store.seenOrRecord nowMs requestId ttlMs).2.Holds nowMs
      (if (store.seenOrRecord nowMs requestId ttlMs).1 then log
        else ExpiryQueue.put requestId (nowMs + ttlMs) log) := by
  have hstale := (h.mono hnow).dropStale
  unfold InMemoryReplayStore.seenOrRecord
  dsimp only
  split
  · exact hstale
  · exact hstale.put

end InMemoryReplayStore

end AiPlatform.Gateway
