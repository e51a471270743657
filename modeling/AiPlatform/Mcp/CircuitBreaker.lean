/-
  AiPlatform.Mcp.CircuitBreaker

  The circuit breaker in front of an MCP server (`MCPCircuitBreaker` of
  `mcp/resilience.py`) and the leases it hands out.

  A closed lease is a bare value: nothing in it says when it was acquired.  The
  machine keeps each lease it has handed out beside the number of openings the
  circuit had had by then, so that a lease can be called stale.
-/

import AiPlatform.Lib.Machine

namespace AiPlatform.Mcp

open Transition

/-- `uuid.uuid4().hex`, which is not empty. -/
abbrev Token := { text : String // text ≠ "" }

inductive MCPCircuitState where
  | closed
  | opened
  | halfOpen
  deriving DecidableEq, Repr

structure MCPCircuitLease where
  state : MCPCircuitState
  probeToken : Option Token
  deriving DecidableEq

structure MCPCircuitOpen where
  retryAfter : Nat
  state : MCPCircuitState
  deriving DecidableEq

/-- What a breaker works with.  Times are counted in ticks of its clock. -/
structure Settings where
  failureThreshold : Nat
  threshold_pos : 1 ≤ failureThreshold
  cooldown : Nat

/-- The bounds `__init__` puts on its arguments; `hour` is 3600 seconds. -/
def Settings.ofArguments (hour : Nat) (failureThreshold cooldown : Int) : Settings where
  failureThreshold := (max 1 (min 20 failureThreshold)).toNat
  threshold_pos := by omega
  cooldown := (max 0 (min (hour : Int) cooldown)).toNat

structure MCPCircuitBreaker where
  state : MCPCircuitState
  failureStreak : Nat
  openedAt : Option Nat
  probeToken : Option Token
  lastHealthyAt : Option Nat
  touchedAt : Nat

namespace MCPCircuitBreaker

def new (now : Nat) : MCPCircuitBreaker := ⟨.closed, 0, none, none, none, now⟩

/-- The lease holds the token of the probe that is under way. -/
def ownsProbe (breaker : MCPCircuitBreaker) (lease : MCPCircuitLease) : Bool :=
  lease.probeToken.isSome && lease.probeToken == breaker.probeToken

/-- `token` is the one drawn if the lease is for a probe. -/
def acquire (settings : Settings) (now : Nat) (token : Token) (breaker : MCPCircuitBreaker) :
    Except MCPCircuitOpen MCPCircuitLease × MCPCircuitBreaker :=
  let breaker := { breaker with touchedAt := now }
  match breaker.state with
  | .closed => (.ok ⟨.closed, none⟩, breaker)
  | .opened =>
      let elapsed := now - breaker.openedAt.getD now
      if elapsed < settings.cooldown then
        (.error ⟨settings.cooldown - elapsed, .opened⟩, breaker)
      else
        (.ok ⟨.halfOpen, some token⟩,
          { breaker with state := .halfOpen, probeToken := some token })
  | .halfOpen => (.error ⟨0, .halfOpen⟩, breaker)

/-- The lease still stands. -/
def stands (breaker : MCPCircuitBreaker) (lease : MCPCircuitLease) : Bool :=
  match breaker.state with
  | .closed => lease.probeToken.isNone
  | .halfOpen => breaker.ownsProbe lease
  | .opened => false

def retryAfter (settings : Settings) (now : Nat) (breaker : MCPCircuitBreaker) : Nat :=
  match breaker.state, breaker.openedAt with
  | .opened, some openedAt => settings.cooldown - (now - openedAt)
  | _, _ => 0

def validate (settings : Settings) (now : Nat) (lease : MCPCircuitLease)
    (breaker : MCPCircuitBreaker) : Except MCPCircuitOpen Unit × MCPCircuitBreaker :=
  (if breaker.stands lease then .ok ()
    else .error ⟨breaker.retryAfter settings now, breaker.state⟩,
    { breaker with touchedAt := now })

def recordSuccess (now : Nat) (lease : MCPCircuitLease) (breaker : MCPCircuitBreaker) :
    MCPCircuitBreaker :=
  if breaker.state = .halfOpen ∧ breaker.ownsProbe lease = false then breaker
  else if breaker.state = .opened ∧ lease.probeToken.isNone then breaker
  else if lease.probeToken.isSome ∧ lease.probeToken ≠ breaker.probeToken then breaker
  else ⟨.closed, 0, none, none, some now, now⟩

def recordFailure (settings : Settings) (now : Nat) (lease : MCPCircuitLease)
    (breaker : MCPCircuitBreaker) : MCPCircuitBreaker :=
  let breaker := { breaker with touchedAt := now }
  if lease.probeToken.isSome then
    if lease.probeToken ≠ breaker.probeToken then breaker
    else
      { breaker with
        state := .opened
        openedAt := some now
        probeToken := none
        failureStreak := settings.failureThreshold }
  else if breaker.state ≠ .closed then breaker
  else
    let breaker := { breaker with failureStreak := breaker.failureStreak + 1 }
    if settings.failureThreshold ≤ breaker.failureStreak then
      { breaker with state := .opened, openedAt := some now }
    else breaker

def recordNeutral (now : Nat) (lease : MCPCircuitLease) (breaker : MCPCircuitBreaker) :
    MCPCircuitBreaker :=
  let breaker := { breaker with touchedAt := now }
  if breaker.state = .halfOpen ∧ breaker.ownsProbe lease then
    { breaker with state := .opened, probeToken := none }
  else breaker

end MCPCircuitBreaker

/-! ## The breaker and its leases -/

/-- A lease, and how often the circuit had opened when it was acquired. -/
structure Issued where
  lease : MCPCircuitLease
  openings : Nat
  deriving DecidableEq

structure Circuit where
  now : Nat
  breaker : MCPCircuitBreaker
  /-- How often the circuit has gone from another state to open. -/
  openings : Nat
  issued : List Issued

/-- The calls of the breaker; a lease is named by its place among those acquired. -/
inductive Call where
  | acquire (token : Token)
  | validate (i : Nat)
  | recordSuccess (i : Nat)
  | recordFailure (i : Nat)
  | recordNeutral (i : Nat)
  | tick (elapsed : Nat)

inductive Reply where
  | lease (issued : Except MCPCircuitOpen MCPCircuitLease)
  | validated (passed : Except MCPCircuitOpen Unit)
  | done

def Circuit.new (now : Nat) : Circuit := ⟨now, .new now, 0, []⟩

/-- A call has left the breaker so. -/
def Circuit.after (circuit : Circuit) (breaker : MCPCircuitBreaker) : Circuit :=
  { circuit with
    breaker
    openings :=
      if circuit.breaker.state ≠ .opened ∧ breaker.state = .opened then circuit.openings + 1
      else circuit.openings }

/-- Each call is one critical section of the breaker's lock.  No token is drawn twice. -/
def stepOf (settings : Settings) (circuit : Circuit) : Call → Option (Reply × Circuit)
  | .acquire token =>
      if circuit.issued.any fun issued => issued.lease.probeToken == some token then none
      else
        let (reply, breaker) := circuit.breaker.acquire settings circuit.now token
        let circuit := circuit.after breaker
        match reply with
        | .ok lease =>
            some (.lease reply,
              { circuit with issued := circuit.issued ++ [⟨lease, circuit.openings⟩] })
        | .error _ => some (.lease reply, circuit)
  | .validate i =>
      (circuit.issued[i]?).map fun issued =>
        let (reply, breaker) := circuit.breaker.validate settings circuit.now issued.lease
        (.validated reply, circuit.after breaker)
  | .recordSuccess i =>
      (circuit.issued[i]?).map fun issued =>
        (.done, circuit.after (circuit.breaker.recordSuccess circuit.now issued.lease))
  | .recordFailure i =>
      (circuit.issued[i]?).map fun issued =>
        (.done, circuit.after (circuit.breaker.recordFailure settings circuit.now issued.lease))
  | .recordNeutral i =>
      (circuit.issued[i]?).map fun issued =>
        (.done, circuit.after (circuit.breaker.recordNeutral circuit.now issued.lease))
  | .tick elapsed => some (.done, { circuit with now := circuit.now + elapsed })

def circuitMachine (settings : Settings) : Machine Circuit Call Reply where
  step circuit call := stepOf settings circuit call

abbrev CircuitMove := Move Circuit Call Reply

end AiPlatform.Mcp
