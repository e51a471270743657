/-
  AiPlatform.Proxy.CircuitBreaker

  The circuit breaker in front of a service (`CircuitBreaker` of `proxy/base.py`)
  and the requests that pass it.

  A request goes through `gate` and, once admitted, calls `on_response` and
  `on_failure` as often as it likes: a retry and a broken stream report more than
  once.  A step of a request is one call of the store, or one reading of the clock
  between two of them; others run in between.  Beside what the source keeps there
  are how often the breaker has opened, how many requests have taken the probe
  slot, and for each request what it was admitted as.
-/

import AiPlatform.Lib.Pool
import AiPlatform.Proxy.CounterStore

namespace AiPlatform.Proxy

open Transition

structure HTTPException where
  statusCode : Nat
  detail : String
  headers : List (String × String)
  deriving DecidableEq

inductive CircuitBreakerState where
  | closed
  | opened
  deriving DecidableEq, Repr

/-- `recovery_timeout` is counted in ticks of the clock. -/
structure CircuitBreaker where
  name : String
  threshold : Int
  recoveryTimeout : Int

/-- A request that took the probe slot: the how manyth to do so, and when. -/
structure Probe where
  number : Nat
  startedAt : Nat
  deriving DecidableEq

structure Admission where
  openings : Nat
  probe : Option Probe
  deriving DecidableEq

/-- The two calls that tell the breaker how a request went. -/
inductive Report where
  | response (statusCode : Int)
  | failure
  deriving DecidableEq

/-- What a request does next. -/
inductive Status where
  /-- `store.get` of `gate`. -/
  | gating
  /-- `_store_float(store, "probe_started_at")`. -/
  | asking
  /-- `time.monotonic()`. -/
  | timing (startedAt : Nat)
  /-- `store.set_probe(True)`. -/
  | claiming
  | refused (error : HTTPException)
  /-- `gate` has raised what the store did. -/
  | raised
  /-- Admitted, and in no call of the breaker. -/
  | admitted
  /-- The first store call of `on_response` or `on_failure`. -/
  | reporting (report : Report)
  /-- `store.set_probe(False)` of `on_response`. -/
  | releasing
  /-- `_set_store_opened_at`. -/
  | stamping
  deriving DecidableEq

/-- `reported` tells whether a report of the request has taken effect. -/
structure ProxyRequest where
  status : Status
  admission : Option Admission
  reported : Bool

structure Shared where
  now : Nat
  store : CounterStore
  openings : Nat
  claims : Nat

/-- A step of a request is a call that comes off, a call of a store in Redis that
    raises, or the start of a report. -/
inductive Choice where
  | call
  | outage
  | report (report : Report)

def Shared.new (now : Nat) (store : CounterStore) : Shared := ⟨now, store, 0, 0⟩

def Shared.counter (s : Shared) : InMemoryCounter := s.store.counter s.now

def ProxyRequest.new : ProxyRequest := ⟨.gating, none, false⟩

def ProxyRequest.probe (r : ProxyRequest) : Option Probe := r.admission.bind Admission.probe

def ProxyRequest.admit (r : ProxyRequest) (openings : Nat) (probe : Option Probe) : ProxyRequest :=
  { r with status := .admitted, admission := some ⟨openings, probe⟩ }

/-- `200 <= status_code < 300`. -/
def Report.succeeds : Report → Bool
  | response statusCode => 200 ≤ statusCode && statusCode < 300
  | failure => false

/-- `status_code >= 500`, or a transport failure. -/
def Report.fails : Report → Bool
  | response statusCode => 500 ≤ statusCode
  | failure => true

namespace CircuitBreaker

variable (breaker : CircuitBreaker)

/-- `state`, of a number of failures. -/
def stateOf (fails : Nat) : CircuitBreakerState :=
  if breaker.threshold ≤ fails then .opened else .closed

def state (s : Shared) : CircuitBreakerState := breaker.stateOf (s.store.get s.now).1

def recovering : HTTPException where
  statusCode := 503
  detail := breaker.name ++ " recovering — probe in flight"
  headers := [("Retry-After", "2")]

/-- The probe that started then has had its time. -/
def timedOut (startedAt now : Nat) : Bool :=
  0 < breaker.recoveryTimeout && 0 < startedAt && breaker.recoveryTimeout ≤ (now : Int) - startedAt

/-- The store has changed. -/
def put (s : Shared) (store : CounterStore) : Shared :=
  { s with
    store := store
    openings :=
      if breaker.state s = .closed ∧ breaker.stateOf (store.get s.now).1 = .opened then s.openings + 1
      else s.openings }

/-- `gate`, from one store call to the next. -/
def gate (s : Shared) (r : ProxyRequest) : Option (Shared × ProxyRequest) :=
  match r.status with
  | .gating =>
      let (fails, probe) := s.store.get s.now
      if fails < breaker.threshold then some (s, r.admit s.openings none)
      else if probe then some (s, { r with status := .asking })
      else some (s, { r with status := .claiming })
  | .asking => some (s, { r with status := .timing (s.store.probeStartedAt s.now) })
  | .timing startedAt =>
      if breaker.timedOut startedAt s.now then some (s, { r with status := .claiming })
      else some (s, { r with status := .refused breaker.recovering })
  | .claiming =>
      let s' := breaker.put s (s.store.setProbe true s.now)
      some ({ s' with claims := s.claims + 1 }, r.admit s.openings (some ⟨s.claims + 1, s.now⟩))
  | _ => none

/-- `on_response` and `on_failure`, from one store call to the next. -/
def report (s : Shared) (r : ProxyRequest) : Option (Shared × ProxyRequest) :=
  match r.status with
  | .reporting report =>
      if report.succeeds then
        some (breaker.put s s.store.onSuccess, { r with status := .admitted, reported := true })
      else if report.fails then
        let (newFails, store) := s.store.onFailure s.now
        some (breaker.put s store,
          { r with
            status := if breaker.threshold ≤ newFails then .stamping else .admitted
            reported := true })
      else if (s.store.get s.now).2 then some (s, { r with status := .releasing })
      else some (s, { r with status := .admitted, reported := true })
  | .releasing =>
      some (breaker.put s (s.store.setProbe false s.now),
        { r with status := .admitted, reported := true })
  | .stamping =>
      some (breaker.put s (s.store.setOpenedAt s.now s.now), { r with status := .admitted })
  | _ => none

/-- The store call raises.  `_store_float` and `_set_store_opened_at` catch it. -/
def outage (s : Shared) (r : ProxyRequest) : Option (Shared × ProxyRequest) :=
  match r.status with
  | .gating | .claiming => some (s, { r with status := .raised })
  | .asking => some (s, { r with status := .timing 0 })
  | .reporting _ | .releasing | .stamping => some (s, { r with status := .admitted })
  | _ => none

def act (s : Shared) (r : ProxyRequest) : Choice → Option (Shared × ProxyRequest)
  | .call => (breaker.gate s r).or (breaker.report s r)
  | .outage => if s.store.isRedis then outage s r else none
  | .report report =>
      match r.status with
      | .admitted => some (s, { r with status := .reporting report })
      | _ => none

/-- Requests come at any time, and the clock goes on. -/
def program : Program Shared ProxyRequest Choice Nat where
  act := breaker.act
  environment s ticks := some { s with now := s.now + ticks }
  admits _ _ r := decide (r.status = .gating ∧ r.admission = none ∧ r.reported = false)
  enter s _ := s

end CircuitBreaker

/-- No request has come yet. -/
def idle (now : Nat) (store : CounterStore) : Pool Shared ProxyRequest := ⟨.new now store, []⟩

/-! ## What one step can do -/

section Effects

variable {breaker : CircuitBreaker} {s s' : Shared} {r r' : ProxyRequest} {choice : Choice}

theorem stateOf_eq_opened {fails : Nat} :
    breaker.stateOf fails = .opened ↔ breaker.threshold ≤ fails := by
  unfold CircuitBreaker.stateOf
  split <;> simp [*]

theorem stateOf_eq_closed {fails : Nat} :
    breaker.stateOf fails = .closed ↔ (fails : Int) < breaker.threshold := by
  unfold CircuitBreaker.stateOf
  split
  · rename_i hopened
    simp [Int.not_lt.mpr hopened]
  · rename_i hclosed
    simp [Int.not_le.mp hclosed]

theorem state_eq : breaker.state s = breaker.stateOf s.counter.fails := by
  rw [CircuitBreaker.state, CounterStore.get_eq]
  rfl

/-- What a step of a request is, by what it does to the counter and to what is known of
    the request. -/
inductive Effect (breaker : CircuitBreaker) (s : Shared) (r : ProxyRequest) (choice : Choice)
    (s' : Shared) (r' : ProxyRequest) : Prop
  | waits (shared : s' = s) (admission : r'.admission = r.admission)
      (reported : r'.reported = r.reported)
  | admits (shared : s' = s) (admission : r'.admission = some ⟨s.openings, none⟩)
  | claims (call : choice = .call) (status : r.status = .claiming)
      (counter : s'.counter = s.counter.setProbe true s.now)
      (openings : s'.openings = s.openings) (claims : s'.claims = s.claims + 1) (now : s'.now = s.now)
      (admission : r'.admission = some ⟨s.openings, some ⟨s.claims + 1, s.now⟩⟩)
  | passes (shared : s' = s) (free : s.counter.probeInFlight = false)
      (admission : r'.admission = r.admission) (reported : r'.reported = true)
  | succeeds (call : choice = .call) (report : Report) (status : r.status = .reporting report)
      (success : report.succeeds = true) (counter : s'.counter = s.counter.onSuccess)
      (openings : s'.openings = if breaker.state s = .closed ∧ breaker.state s' = .opened then
        s.openings + 1 else s.openings)
      (claims : s'.claims = s.claims) (now : s'.now = s.now)
      (admission : r'.admission = r.admission) (reported : r'.reported = true)
  | fails (call : choice = .call) (report : Report) (status : r.status = .reporting report)
      (failure : report.fails = true) (success : report.succeeds = false)
      (counter : s'.counter = s.counter.onFailure.2)
      (openings : s'.openings = if breaker.state s = .closed ∧ breaker.state s' = .opened then
        s.openings + 1 else s.openings)
      (claims : s'.claims = s.claims) (now : s'.now = s.now)
      (admission : r'.admission = r.admission) (reported : r'.reported = true)
  | releases (call : choice = .call) (status : r.status = .releasing)
      (counter : s'.counter = s.counter.setProbe false s.now)
      (openings : s'.openings = s.openings) (claims : s'.claims = s.claims) (now : s'.now = s.now)
      (admission : r'.admission = r.admission) (reported : r'.reported = true)
  | stamps (status : r.status = .stamping) (counter : s'.counter = s.counter.setOpenedAt s.now)
      (openings : s'.openings = s.openings) (claims : s'.claims = s.claims) (now : s'.now = s.now)
      (admission : r'.admission = r.admission) (reported : r'.reported = r.reported)

theorem put_openings {store : CounterStore} :
    (breaker.put s store).openings =
      if breaker.state s = .closed ∧ breaker.state (breaker.put s store) = .opened then
        s.openings + 1 else s.openings := rfl

theorem put_counter {store : CounterStore} :
    (breaker.put s store).counter = store.counter s.now := rfl

/-- A store call that leaves the failures opens nothing. -/
theorem put_openings_of_fails {store : CounterStore}
    (h : (store.counter s.now).fails = s.counter.fails) :
    (breaker.put s store).openings = s.openings := by
  rw [put_openings, if_neg]
  rintro ⟨hclosed, hopened⟩
  rw [state_eq] at hclosed hopened
  rw [put_counter, h, hclosed] at hopened
  cases hopened

theorem gate_effect (h : breaker.gate s r = some (s', r')) :
    Effect breaker s r .call s' r' := by
  unfold CircuitBreaker.gate at h
  split at h
  · simp only at h
    split at h
    · cases h
      exact .admits rfl rfl
    · split at h <;> cases h <;> exact .waits rfl rfl rfl
  · cases h
    exact .waits rfl rfl rfl
  · split at h <;> cases h <;> exact .waits rfl rfl rfl
  · rename_i hstatus
    cases h
    exact .claims rfl hstatus CounterStore.counter_setProbe
      (put_openings_of_fails (by rw [CounterStore.counter_setProbe]; rfl)) rfl rfl rfl
  · cases h

theorem report_effect (h : breaker.report s r = some (s', r')) :
    Effect breaker s r .call s' r' := by
  unfold CircuitBreaker.report at h
  split at h
  · rename_i report hstatus
    split at h
    · rename_i hsuccess
      cases h
      exact .succeeds rfl report hstatus hsuccess CounterStore.counter_onSuccess put_openings rfl rfl
        rfl rfl
    · rename_i hsuccess
      split at h
      · rename_i hfailure
        cases h
        exact .fails rfl report hstatus hfailure (Bool.eq_false_iff.mpr hsuccess)
          CounterStore.counter_onFailure put_openings rfl rfl rfl rfl
      · split at h
        · cases h
          exact .waits rfl rfl rfl
        · rename_i hfree
          cases h
          rw [CounterStore.get_eq] at hfree
          exact .passes rfl (Bool.eq_false_iff.mpr hfree) rfl rfl
  · rename_i hstatus
    cases h
    exact .releases rfl hstatus CounterStore.counter_setProbe
      (put_openings_of_fails (by rw [CounterStore.counter_setProbe]; rfl)) rfl rfl rfl rfl
  · rename_i hstatus
    cases h
    refine .stamps hstatus CounterStore.counter_setOpenedAt (put_openings_of_fails ?_) rfl rfl rfl rfl
    rw [CounterStore.counter_setOpenedAt, InMemoryCounter.setOpenedAt]
    split <;> rfl
  · cases h

theorem act_effect (h : breaker.act s r choice = some (s', r')) :
    Effect breaker s r choice s' r' := by
  cases choice with
  | call =>
    rcases Option.or_eq_some_iff.mp h with hgate | ⟨-, hreport⟩
    · exact gate_effect hgate
    · exact report_effect hreport
  | outage =>
    simp only [CircuitBreaker.act] at h
    split at h
    · unfold CircuitBreaker.outage at h
      split at h <;> first | (cases h; exact .waits rfl rfl rfl) | cases h
    · cases h
  | report report =>
    simp only [CircuitBreaker.act] at h
    split at h
    · cases h
      exact .waits rfl rfl rfl
    · cases h

end Effects

end AiPlatform.Proxy
