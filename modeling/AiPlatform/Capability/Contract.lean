/-
  AiPlatform.Capability.Contract

  The wire types of the capability contract that the runtime and the worker
  share (`ai-platform-capability-contract/src/lib.rs`).
-/

import AiPlatform.Json.Value
import Std.Data.ExtTreeMap
import Std.Data.ExtTreeMap.Lemmas

namespace AiPlatform.Capability

open AiPlatform.Json

inductive CapabilityEffect where
  | read
  | write
  | unknown
  deriving DecidableEq, Repr

inductive ApprovalPolicy where
  | never
  | onRequest
  | always
  deriving DecidableEq, Repr

inductive CapabilityExecutionStatus where
  | published
  | awaitingApproval
  | dispatched
  | running
  | succeeded
  | failed
  | cancelled
  | timeout
  | sideEffectUnknown
  deriving DecidableEq, Repr

namespace CapabilityExecutionStatus

def isTerminal : CapabilityExecutionStatus → Bool
  | .succeeded | .failed | .cancelled | .timeout | .sideEffectUnknown => true
  | _ => false

end CapabilityExecutionStatus

structure CapabilityScopeV2 where
  tenantId : String
  userId : String
  sessionId : String
  deriving DecidableEq, Repr

structure CapabilityExecutionV2 where
  schemaVersion : String
  executionId : String
  leaseId : String
  tenantId : String
  userId : String
  sessionId : String
  runId : String
  toolCallId : String
  attemptId : String
  capabilityId : String
  capabilityRevision : Nat
  argumentsHash : String
  idempotencyKey : String
  effect : CapabilityEffect
  status : CapabilityExecutionStatus
  eventsUrl : String
  result : Option Value
  error : Option String

/-- The scope an execution belongs to. -/
def CapabilityExecutionV2.scope (execution : CapabilityExecutionV2) : CapabilityScopeV2 :=
  { tenantId := execution.tenantId
    userId := execution.userId
    sessionId := execution.sessionId }

/-- A `BTreeMap<String, Value>`. -/
abbrev Payload := Std.ExtTreeMap String Value

structure CapabilityEventV2 where
  schemaVersion : String
  executionId : String
  toolCallId : String
  sequence : Nat
  event : String
  status : CapabilityExecutionStatus
  payload : Payload
  createdAtEpochMs : Nat

structure CapabilityEventPageV2 where
  schemaVersion : String
  executionId : String
  afterSequence : Nat
  nextSequence : Nat
  hasMore : Bool
  events : List CapabilityEventV2

def CAPABILITY_EVENT_SCHEMA_VERSION : String := "capability-event/v2"

end AiPlatform.Capability
