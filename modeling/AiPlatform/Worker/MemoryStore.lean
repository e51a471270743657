/-
  AiPlatform.Worker.MemoryStore

  The execution store of the capability worker (`MemoryStore` in
  `ai-platform-capability-worker/src/lib.rs`), one function per critical
  section.

  A function takes the state the lock guards and returns it with the reply, as
  a method may fail after it has changed a record.  `now` is what
  `now_epoch_ms` reads in that section.  `toVec` stands for
  `serde_json::to_vec`; only the length of its result is used.

  `register_runtime_binding` and `authorize_runtime_binding` touch a map of
  their own and are left out.
-/

import AiPlatform.Lib.OrdMap
import AiPlatform.Capability.Contract

namespace AiPlatform.Worker

open AiPlatform.Json AiPlatform.Capability

def MAX_EVENT_PAYLOAD_BYTES : Nat := 128 * 1024

def EVENT_PAGE_SIZE : Nat := 1

structure NewExecution where
  execution : CapabilityExecutionV2
  arguments : Value
  resourceBinding : Value
  approvalPolicy : ApprovalPolicy
  approvalId : Option String
  approvalStatus : String

structure ExecutionRecord where
  execution : CapabilityExecutionV2
  arguments : Value
  resourceBinding : Value
  resultSummary : Option Value
  approvalPolicy : ApprovalPolicy
  approvalId : Option String
  approvalStatus : String
  dispatchFence : Option String
  workerLeaseUntilEpochMs : Option Nat
  lastSequence : Nat

structure ReserveOutcome where
  record : ExecutionRecord
  created : Bool

structure DispatchOutcome where
  record : ExecutionRecord
  claimed : Bool

inductive StoreError where
  | notFound
  | scopeMismatch
  | idempotencyConflict
  | dispatchFenceMismatch
  | approvalRequired
  | terminalImmutable
  | invalidEvent
  deriving DecidableEq, Repr

/-- The events of one execution, each under the id it was appended with. -/
abbrev EventLog := List (String × CapabilityEventV2)

structure MemoryState where
  executions : Std.ExtTreeMap String ExecutionRecord
  events : Std.ExtTreeMap String EventLog
  approvedAuthorities : Std.ExtTreeMap String Value

namespace MemoryState

/-- `MemoryState::default()`. -/
def empty : MemoryState :=
  { executions := ∅, events := ∅, approvedAuthorities := ∅ }

/-- Write a record back in place. -/
def put (state : MemoryState) (executionId : String) (record : ExecutionRecord) :
    MemoryState :=
  { state with executions := state.executions.insert executionId record }

/-- The events recorded for an execution, in order. -/
def log (state : MemoryState) (executionId : String) : EventLog :=
  (state.events[executionId]?).getD []

/-- `entry(execution_id).or_default().push(..)` on the event map. -/
def pushEvent (state : MemoryState) (executionId eventId : String)
    (event : CapabilityEventV2) : MemoryState :=
  { state with
    events := state.events.insert executionId
      (state.log executionId ++ [(eventId, event)]) }

end MemoryState

namespace ExecutionRecord

/-- `worker_lease_until_epoch_ms.is_some_and(|lease| lease > now)`. -/
def leaseIsLive (record : ExecutionRecord) (now : Nat) : Bool :=
  record.workerLeaseUntilEpochMs.any (now < ·)

/-- `worker_lease_until_epoch_ms.is_none_or(|lease| lease <= now)`. -/
def leaseIsOver (record : ExecutionRecord) (now : Nat) : Bool :=
  record.workerLeaseUntilEpochMs.all (· ≤ now)

end ExecutionRecord

/-! ## What the methods look up and compare -/

def sameScope (record : ExecutionRecord) (scope : CapabilityScopeV2) : Bool :=
  record.execution.tenantId == scope.tenantId
    && record.execution.userId == scope.userId
    && record.execution.sessionId == scope.sessionId

def sameReservation (record : ExecutionRecord) (requested : NewExecution) : Bool :=
  let left := record.execution
  let right := requested.execution
  left.tenantId == right.tenantId
    && left.userId == right.userId
    && left.sessionId == right.sessionId
    && left.runId == right.runId
    && left.toolCallId == right.toolCallId
    && left.attemptId == right.attemptId
    && left.capabilityId == right.capabilityId
    && left.capabilityRevision == right.capabilityRevision
    && left.argumentsHash == right.argumentsHash
    && left.idempotencyKey == right.idempotencyKey
    && left.effect == right.effect
    && record.resourceBinding.beq requested.resourceBinding
    && record.arguments.beq requested.arguments

def recordForScope (state : MemoryState) (scope : CapabilityScopeV2)
    (executionId : String) : Except StoreError ExecutionRecord :=
  match state.executions[executionId]? with
  | none => .error .notFound
  | some record =>
      if !sameScope record scope then .error .scopeMismatch else .ok record

def terminalPayload (execution : CapabilityExecutionV2)
    (status : CapabilityExecutionStatus) (payload : Payload) : CapabilityExecutionV2 :=
  if !status.isTerminal then execution
  else
    { execution with
      result := payload["result"]?
      error := payload["error_code"]?.bind Value.asStr }

def isRecoverableExecution (now : Nat) (record : ExecutionRecord) : Bool :=
  match record.execution.status with
  | .published | .dispatched | .running =>
      match record.execution.effect with
      | .read => true
      | .write | .unknown =>
          if record.execution.status = .published then record.dispatchFence.isNone
          else record.dispatchFence.isSome && record.leaseIsOver now
  | _ => false

def needsSideEffectUnknownRecovery (now : Nat) (record : ExecutionRecord) : Bool :=
  (record.execution.effect matches .write | .unknown)
    && (record.execution.status matches .dispatched | .running)
    && record.dispatchFence.isSome
    && record.leaseIsOver now

def durableRecoveryResult (record : ExecutionRecord) : Option Value :=
  match record.execution.effect with
  | .read => none
  | .write | .unknown =>
      match record.resultSummary with
      | some (.object receipt) =>
          if (receipt.lookup "schema_version").bind Value.asStr
                ≠ some "ai-platform/durable-capability-receipt/v1"
              ∨ (receipt.lookup "capability_id").bind Value.asStr
                ≠ some record.execution.capabilityId then
            none
          else
            (receipt.lookup "result").filter Value.isObject
      | _ => none

namespace MemoryStore

/-! ## Reservation and reads -/

/-- The record that `reserve` finds: same run, call and attempt, or same scope
    and idempotency key. -/
def reservationMatches (requested : NewExecution) (record : ExecutionRecord) : Bool :=
  (record.execution.runId == requested.execution.runId
      && record.execution.toolCallId == requested.execution.toolCallId
      && record.execution.attemptId == requested.execution.attemptId)
    || (record.execution.tenantId == requested.execution.tenantId
      && record.execution.userId == requested.execution.userId
      && record.execution.sessionId == requested.execution.sessionId
      && record.execution.idempotencyKey == requested.execution.idempotencyKey)

/-- The record a new reservation starts from. -/
def newRecord (requested : NewExecution) : ExecutionRecord :=
  { execution := requested.execution
    arguments := requested.arguments
    resourceBinding := requested.resourceBinding
    resultSummary := none
    approvalPolicy := requested.approvalPolicy
    approvalId := requested.approvalId
    approvalStatus := requested.approvalStatus
    dispatchFence := none
    workerLeaseUntilEpochMs := none
    lastSequence := 0 }

def reserve (requested : NewExecution) (state : MemoryState) :
    Except StoreError ReserveOutcome × MemoryState :=
  match (OrdMap.values state.executions).find? (reservationMatches requested) with
  | some existing =>
      if !sameReservation existing requested then (.error .idempotencyConflict, state)
      else (.ok { record := existing, created := false }, state)
  | none =>
      let record := newRecord requested
      (.ok { record := record, created := true },
        state.put requested.execution.executionId record)

def get (scope : CapabilityScopeV2) (executionId : String) (state : MemoryState) :
    Except StoreError ExecutionRecord :=
  recordForScope state scope executionId

def recoverable (now : Nat) (state : MemoryState) : List ExecutionRecord :=
  (OrdMap.values state.executions).filter (isRecoverableExecution now)

/-- A page of at most `limit` events after a sequence. -/
def eventsPage (limit : Nat) (scope : CapabilityScopeV2) (executionId : String)
    (afterSequence : Nat) (state : MemoryState) :
    Except StoreError CapabilityEventPageV2 :=
  match recordForScope state scope executionId with
  | .error e => .error e
  | .ok record =>
      let matching := ((state.log executionId).map Prod.snd).filter
        (fun event => event.sequence > afterSequence)
      let events := matching.take limit
      .ok
        { schemaVersion := CAPABILITY_EVENT_SCHEMA_VERSION
          executionId := record.execution.executionId
          afterSequence := afterSequence
          nextSequence := (events.getLast?.map (·.sequence)).getD afterSequence
          hasMore := matching.length > events.length
          events := events }

def events (scope : CapabilityScopeV2) (executionId : String) (afterSequence : Nat)
    (state : MemoryState) : Except StoreError CapabilityEventPageV2 :=
  eventsPage EVENT_PAGE_SIZE scope executionId afterSequence state

/-! ## Claims and leases -/

/-- The approval a first claim of a write takes: present under the approval id,
    with the arguments the execution was reserved with. -/
def consumeApproval (snapshot : ExecutionRecord) (state : MemoryState) :
    Except StoreError MemoryState :=
  if snapshot.execution.effect = .read then .ok state
  else
    match snapshot.approvalId with
    | none => .error .approvalRequired
    | some approvalId =>
        if snapshot.approvalStatus ≠ "approved"
            ∨ !optBeq state.approvedAuthorities[approvalId]? (some snapshot.arguments) then
          .error .approvalRequired
        else
          .ok { state with
            approvedAuthorities := state.approvedAuthorities.erase approvalId }

def dispatch (now : Nat) (scope : CapabilityScopeV2) (executionId dispatchFence : String)
    (state : MemoryState) : Except StoreError DispatchOutcome × MemoryState :=
  match recordForScope state scope executionId with
  | .error e => (.error e, state)
  | .ok snapshot =>
      if snapshot.execution.status.isTerminal then (.error .terminalImmutable, state)
      else
        match snapshot.dispatchFence with
        | some existing =>
            if snapshot.execution.effect ≠ .read then
              if existing ≠ dispatchFence then (.error .dispatchFenceMismatch, state)
              else (.ok { record := snapshot, claimed := false }, state)
            else if snapshot.leaseIsLive now then
              (.ok { record := snapshot, claimed := false }, state)
            else if existing = dispatchFence then
              let record :=
                { snapshot with workerLeaseUntilEpochMs := some (now + 30_000) }
              (.ok { record := record, claimed := true }, state.put executionId record)
            else if snapshot.execution.status.isTerminal then
              (.error .dispatchFenceMismatch, state)
            else
              -- A recovered read gets a new fence, which turns the stale
              -- worker's later events away.
              let record :=
                { snapshot with
                  dispatchFence := some dispatchFence
                  workerLeaseUntilEpochMs := some (now + 30_000) }
              (.ok { record := record, claimed := true }, state.put executionId record)
        | none =>
            match consumeApproval snapshot state with
            | .error e => (.error e, state)
            | .ok state =>
                let record :=
                  { snapshot with
                    approvalStatus :=
                      if snapshot.execution.effect ≠ .read then "consumed"
                      else snapshot.approvalStatus
                    dispatchFence := some dispatchFence
                    workerLeaseUntilEpochMs := some (now + 30_000)
                    execution := { snapshot.execution with status := .dispatched } }
                (.ok { record := record, claimed := true }, state.put executionId record)

/-- `lease_ms.clamp(1_000, 120_000)`. -/
def clampLease (leaseMs : Nat) : Nat :=
  min (max leaseMs 1_000) 120_000

def renew (now : Nat) (scope : CapabilityScopeV2) (executionId dispatchFence : String)
    (leaseMs : Nat) (state : MemoryState) : Except StoreError Bool × MemoryState :=
  match recordForScope state scope executionId with
  | .error e => (.error e, state)
  | .ok record =>
      if record.execution.status.isTerminal
          ∨ record.dispatchFence ≠ some dispatchFence
          ∨ !record.leaseIsLive now then
        (.ok false, state)
      else
        (.ok true, state.put executionId
          { record with workerLeaseUntilEpochMs := some (now + clampLease leaseMs) })

/-- The test authority for a one-time write approval. -/
def registerApprovedAuthority (approvalId : String) (arguments : Value)
    (state : MemoryState) : MemoryState :=
  { state with
    approvedAuthorities := state.approvedAuthorities.insert approvalId arguments }

/-! ## Events -/

/-- Does the encoded payload fit? -/
def payloadFits (toVec : Payload → Option (List UInt8)) (payload : Payload) : Bool :=
  match toVec payload with
  | some encoded => encoded.length ≤ MAX_EVENT_PAYLOAD_BYTES
  | none => false

/-- The event recorded for an execution under an event id. -/
def recordedEvent (state : MemoryState) (executionId eventId : String) :
    Option CapabilityEventV2 :=
  ((state.log executionId).find? (fun entry => entry.1 == eventId)).map Prod.snd

def validTransition (record : ExecutionRecord) : CapabilityExecutionStatus → Bool
  | .published => record.lastSequence == 0
  | .dispatched => (record.execution.status matches .published | .dispatched | .running)
  | .running => (record.execution.status matches .dispatched | .running)
  | _ => true

/-- A fence was given and it is not the record's. -/
def fenceMismatch (record : ExecutionRecord) (dispatchFence : Option String) : Bool :=
  dispatchFence.any (fun fence => record.dispatchFence != some fence)

/-- The lease after an event of this status: a running worker's is extended, a
    finished one's is dropped. -/
def leaseAfter (now : Nat) (record : ExecutionRecord)
    (status : CapabilityExecutionStatus) : Option Nat :=
  if status.isTerminal then none
  else if record.execution.status = .running then some (now + 30_000)
  else record.workerLeaseUntilEpochMs

/-- Statuses only a claimed execution may take: that work has started, and that
    work has an outcome. -/
def needsFence : CapabilityExecutionStatus → Bool
  | .dispatched | .running => true
  | .succeeded | .timeout | .sideEffectUnknown => true
  | _ => false

/-- The record after an accepted event. -/
def recordAfter (record : ExecutionRecord) (status : CapabilityExecutionStatus)
    (payload : Payload) : ExecutionRecord :=
  { record with
    lastSequence := record.lastSequence + 1
    resultSummary := if status.isTerminal then payload["result"]? else record.resultSummary
    execution := terminalPayload { record.execution with status := status } status payload }

def appendEvent (toVec : Payload → Option (List UInt8)) (now : Nat)
    (scope : CapabilityScopeV2) (executionId eventId event : String)
    (status : CapabilityExecutionStatus) (payload : Payload)
    (dispatchFence : Option String) (state : MemoryState) :
    Except StoreError CapabilityEventV2 × MemoryState :=
  if !payloadFits toVec payload then (.error .invalidEvent, state)
  else
    match recordedEvent state executionId eventId with
    | some existing => (.ok existing, state)
    | none =>
        match recordForScope state scope executionId with
        | .error e => (.error e, state)
        | .ok record =>
            if record.execution.status.isTerminal then (.error .terminalImmutable, state)
            else if !validTransition record status then (.error .invalidEvent, state)
            else if fenceMismatch record dispatchFence then
              (.error .dispatchFenceMismatch, state)
            else
              let record :=
                { record with workerLeaseUntilEpochMs := leaseAfter now record status }
              -- The lease is already moved when the event is refused here.
              if needsFence status ∧ record.dispatchFence = none then
                (.error .invalidEvent, state.put executionId record)
              else
                let record := recordAfter record status payload
                let output : CapabilityEventV2 :=
                  { schemaVersion := CAPABILITY_EVENT_SCHEMA_VERSION
                    executionId := executionId
                    toolCallId := record.execution.toolCallId
                    sequence := record.lastSequence
                    event := event
                    status := status
                    payload := payload
                    createdAtEpochMs := now }
                (.ok output,
                  (state.put executionId record).pushEvent executionId eventId output)

/-! ## Cancellation -/

/-- The terminal status `cancel` picks from the record it has read. -/
def cancelStatus (current : ExecutionRecord) : CapabilityExecutionStatus :=
  if current.dispatchFence.isSome ∧ current.execution.effect ≠ .read then
    .sideEffectUnknown
  else .cancelled

def cancelPayload (status : CapabilityExecutionStatus) : Payload :=
  (∅ : Payload).insert "error_code"
    (.string (if status = .sideEffectUnknown then "side_effect_unknown" else "cancelled"))

/-- The second critical section of `cancel`: append what the first one's record
    calls for.  `eventId` is a fresh `Uuid::now_v7`. -/
def cancelAppend (toVec : Payload → Option (List UInt8)) (now : Nat)
    (scope : CapabilityScopeV2) (executionId eventId : String) (current : ExecutionRecord)
    (state : MemoryState) : Except StoreError CapabilityEventV2 × MemoryState :=
  appendEvent toVec now scope executionId eventId "terminal" (cancelStatus current)
    (cancelPayload (cancelStatus current)) current.dispatchFence state

/-- `cancel` with nothing running between its critical sections. -/
def cancel (toVec : Payload → Option (List UInt8)) (now : Nat)
    (scope : CapabilityScopeV2) (executionId eventId : String) (state : MemoryState) :
    Except StoreError ExecutionRecord × MemoryState :=
  match get scope executionId state with
  | .error e => (.error e, state)
  | .ok current =>
      if current.execution.status.isTerminal then (.ok current, state)
      else
        match cancelAppend toVec now scope executionId eventId current state with
        | (.error e, state) => (.error e, state)
        | (.ok _, state) => (get scope executionId state, state)

end MemoryStore

end AiPlatform.Worker
