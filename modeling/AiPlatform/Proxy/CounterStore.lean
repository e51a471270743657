/-
  AiPlatform.Proxy.CounterStore

  The stores a proxy's circuit breaker counts in (`InMemoryCounter` and
  `RedisCounterStore` of `proxy/base.py`).

  Times are ticks of the monotonic clock.  A store call is atomic: the clock it
  reads and the commands it sends are one step.  `CounterStore.counter` reads a
  store of either kind as the counter it stands for, and each call of the Redis
  store is the call of the in-memory one on that counter.  Only the life of the
  Redis key is its own: `counter_later`.
-/

import Mathlib.Tactic.Common

namespace AiPlatform.Proxy

/-! ## The counter in memory -/

@[ext]
structure InMemoryCounter where
  fails : Nat
  probeInFlight : Bool
  probeStartedAt : Nat
  openedAt : Nat
  deriving DecidableEq, Repr

namespace InMemoryCounter

def new : InMemoryCounter := ⟨0, false, 0, 0⟩

def get (counter : InMemoryCounter) : Nat × Bool := (counter.fails, counter.probeInFlight)

def setProbe (counter : InMemoryCounter) (inFlight : Bool) (now : Nat) : InMemoryCounter :=
  { counter with probeInFlight := inFlight, probeStartedAt := if inFlight then now else 0 }

def onSuccess (counter : InMemoryCounter) : InMemoryCounter :=
  { counter with fails := 0, probeInFlight := false, probeStartedAt := 0, openedAt := 0 }

def onFailure (counter : InMemoryCounter) : Nat × InMemoryCounter :=
  (counter.fails + 1,
    { counter with fails := counter.fails + 1, probeInFlight := false, probeStartedAt := 0 })

def setOpenedAt (counter : InMemoryCounter) (openedAt : Nat) : InMemoryCounter :=
  if counter.openedAt = 0 then { counter with openedAt := openedAt } else counter

end InMemoryCounter

/-! ## The counter in Redis -/

/-- The hash under the breaker's key.  A field that was not set is `none`. -/
structure BreakerHash where
  fails : Option Nat
  probeInFlight : Option Bool
  probeStartedAt : Option Nat
  openedAt : Option Nat

/-- `key` is the hash and when it expires.  `ttl_seconds` is 300 for every store that
    the proxy builds. -/
structure RedisCounterStore where
  ttl : Nat
  ttl_pos : 0 < ttl
  key : Option (BreakerHash × Nat)

namespace RedisCounterStore

variable (store : RedisCounterStore) (now : Nat)

def hgetall : BreakerHash :=
  match store.key with
  | some (hash, deadline) => if now < deadline then hash else ⟨none, none, none, none⟩
  | none => ⟨none, none, none, none⟩

/-- `hset` (or `hincrby`) and then `expire`. -/
def write (hash : BreakerHash) : RedisCounterStore :=
  { store with key := some (hash, now + store.ttl) }

def get : Nat × Bool :=
  let data := store.hgetall now
  (data.fails.getD 0, data.probeInFlight.getD false)

def setProbe (inFlight : Bool) : RedisCounterStore :=
  store.write now
    { store.hgetall now with
      probeInFlight := some inFlight
      probeStartedAt := some (if inFlight then now else 0) }

def onSuccess : RedisCounterStore := { store with key := none }

def onFailure : Nat × RedisCounterStore :=
  let newValue := (store.hgetall now).fails.getD 0 + 1
  (newValue,
    store.write now
      { store.hgetall now with
        fails := some newValue
        probeInFlight := some false
        probeStartedAt := some 0 })

def probeStartedAt : Nat := (store.hgetall now).probeStartedAt.getD 0

def openedAt : Nat := (store.hgetall now).openedAt.getD 0

def setOpenedAt (openedAt : Nat) : RedisCounterStore :=
  if store.openedAt now = 0 then
    store.write now { store.hgetall now with openedAt := some openedAt }
  else store

/-- What the hash says, with the defaults of the fields that are not set. -/
def counter : InMemoryCounter :=
  ⟨(store.get now).1, (store.get now).2, store.probeStartedAt now, store.openedAt now⟩

variable {store now}

@[simp] theorem hgetall_write {hash : BreakerHash} : (store.write now hash).hgetall now = hash := by
  have hlt : now < now + store.ttl := Nat.lt_add_of_pos_right store.ttl_pos
  simp only [write, hgetall, if_pos hlt]

theorem counter_setProbe {inFlight : Bool} :
    (store.setProbe now inFlight).counter now = (store.counter now).setProbe inFlight now := by
  simp [setProbe, counter, get, probeStartedAt, openedAt, InMemoryCounter.setProbe]

theorem counter_onSuccess : store.onSuccess.counter now = (store.counter now).onSuccess := rfl

theorem counter_onFailure :
    (store.onFailure now).2.counter now = (store.counter now).onFailure.2 := by
  simp [onFailure, counter, get, probeStartedAt, openedAt, InMemoryCounter.onFailure]

theorem counter_setOpenedAt {openedAt : Nat} :
    (store.setOpenedAt now openedAt).counter now = (store.counter now).setOpenedAt openedAt := by
  unfold setOpenedAt InMemoryCounter.setOpenedAt
  split
  · rename_i hzero
    rw [if_pos (show (store.counter now).openedAt = 0 from hzero)]
    simp [counter, get, probeStartedAt, RedisCounterStore.openedAt]
  · rename_i hset
    rw [if_neg (show ¬ (store.counter now).openedAt = 0 from hset)]

end RedisCounterStore

/-! ## A store of either kind -/

inductive CounterStore where
  | inMemory (counter : InMemoryCounter)
  | redis (store : RedisCounterStore)

namespace CounterStore

def get (now : Nat) : CounterStore → Nat × Bool
  | inMemory counter => counter.get
  | redis store => store.get now

def setProbe (inFlight : Bool) (now : Nat) : CounterStore → CounterStore
  | inMemory counter => inMemory (counter.setProbe inFlight now)
  | redis store => redis (store.setProbe now inFlight)

def onSuccess : CounterStore → CounterStore
  | inMemory counter => inMemory counter.onSuccess
  | redis store => redis store.onSuccess

def onFailure (now : Nat) : CounterStore → Nat × CounterStore
  | inMemory counter => (counter.onFailure.1, inMemory counter.onFailure.2)
  | redis store => ((store.onFailure now).1, redis (store.onFailure now).2)

def probeStartedAt (now : Nat) : CounterStore → Nat
  | inMemory counter => counter.probeStartedAt
  | redis store => store.probeStartedAt now

def setOpenedAt (openedAt now : Nat) : CounterStore → CounterStore
  | inMemory counter => inMemory (counter.setOpenedAt openedAt)
  | redis store => redis (store.setOpenedAt now openedAt)

/-- The calls of a store in Redis can raise. -/
def isRedis : CounterStore → Bool
  | inMemory _ => false
  | redis _ => true

/-- The key of a store in Redis is gone by then. -/
def expired (now : Nat) : CounterStore → Bool
  | inMemory _ => false
  | redis store => store.key.any fun entry => entry.2 ≤ now

/-- The counter that the store stands for. -/
def counter (now : Nat) : CounterStore → InMemoryCounter
  | inMemory counter => counter
  | redis store => store.counter now

variable {store : CounterStore} {now later : Nat}

theorem get_eq : store.get now = (store.counter now).get := by
  cases store <;> rfl

theorem probeStartedAt_eq : store.probeStartedAt now = (store.counter now).probeStartedAt := by
  cases store <;> rfl

theorem onFailure_fst : (store.onFailure now).1 = (store.counter now).fails + 1 := by
  cases store <;> rfl

@[simp] theorem counter_setProbe {inFlight : Bool} :
    (store.setProbe inFlight now).counter now = (store.counter now).setProbe inFlight now := by
  cases store with
  | inMemory counter => rfl
  | redis store => exact RedisCounterStore.counter_setProbe

@[simp] theorem counter_onSuccess :
    store.onSuccess.counter now = (store.counter now).onSuccess := by
  cases store <;> rfl

@[simp] theorem counter_onFailure :
    (store.onFailure now).2.counter now = (store.counter now).onFailure.2 := by
  cases store with
  | inMemory counter => rfl
  | redis store => exact RedisCounterStore.counter_onFailure

@[simp] theorem counter_setOpenedAt {openedAt : Nat} :
    (store.setOpenedAt openedAt now).counter now = (store.counter now).setOpenedAt openedAt := by
  cases store with
  | inMemory counter => rfl
  | redis store => exact RedisCounterStore.counter_setOpenedAt

/-- Time leaves the counter as it is until the key expires, and then there is none. -/
theorem counter_later (h : now ≤ later) :
    store.counter later = store.counter now ∨
      store.expired later = true ∧ store.counter later = .new := by
  cases store with
  | inMemory counter => exact .inl rfl
  | redis store =>
    obtain ⟨ttl, ttl_pos, _ | ⟨hash, deadline⟩⟩ := store
    · exact .inl rfl
    · by_cases hlater : later < deadline
      · have hnow : now < deadline := Nat.lt_of_le_of_lt h hlater
        left
        simp [counter, RedisCounterStore.counter, RedisCounterStore.get,
          RedisCounterStore.probeStartedAt, RedisCounterStore.openedAt,
          RedisCounterStore.hgetall, hlater, hnow]
      · refine .inr ⟨by simpa [expired] using hlater, ?_⟩
        simp [counter, RedisCounterStore.counter, RedisCounterStore.get,
          RedisCounterStore.probeStartedAt, RedisCounterStore.openedAt,
          RedisCounterStore.hgetall, InMemoryCounter.new, if_neg hlater]

end CounterStore

end AiPlatform.Proxy
