/-
  AiPlatform.Runtime.CapabilityExecution

  One capability call of the runtime, from its checks to its outcome
  (`execute_capability_with_existing` in `capability_execution.rs`): create or
  look up the execution, poll its events, cancel it when the token or the
  deadline says so, and project the terminal event.

  Everything the call cannot decide for itself is in `Surroundings`: when the
  token is cancelled, how long each wait takes, which of several ready futures a
  `select!` takes, and what comes back for every request.  `World` is where the
  call has got to in them, with the requests it has made so far.
-/

import AiPlatform.Lib.Loop
import AiPlatform.Runtime.CapabilityWorker

namespace AiPlatform.Runtime.CapabilityExecution

open AiPlatform.Json AiPlatform.Capability AiPlatform.Checks AiPlatform.Looping
open AiPlatform.Runtime.CapabilityWorker

/-! ## The call -/

structure ConnectorBinding where
  bindingType : String
  provider : String
  toolName : String
  principalType : Option String
  grantId : Option String
  connectionId : Option String
  schemaHash : Option String
  riskLevel : Option String
  channel : String
  deriving DecidableEq, Repr

structure CapabilityAllowlistEntry where
  capabilityType : String
  name : String
  id : String
  version : Option String
  schemaHash : Option String
  connectorBinding : Option ConnectorBinding
  deriving DecidableEq, Repr

structure ReadonlyCapabilityBinding where
  capabilityRevision : Nat
  allowlist : List CapabilityAllowlistEntry
  expectedTool : CapabilityAllowlistEntry
  descriptor : CapabilityDescriptorV2

structure PlatformThreadIdentity where
  /-- The id as it prints. -/
  runtimeThreadId : String
  tenantId : String
  userId : String
  sessionId : String

structure DynamicToolCallParams where
  threadId : String
  turnId : String
  callId : String
  tool : String
  arguments : Value

/-- The arguments of `execute_capability_with_existing`. -/
structure CapabilityCall where
  identity : PlatformThreadIdentity
  binding : ReadonlyCapabilityBinding
  params : DynamicToolCallParams
  secret : List UInt8
  expectedEffect : CapabilityEffect
  approvalId : Option String
  existingExecutionId : Option String

def CapabilityCall.scope (call : CapabilityCall) : CapabilityScopeV2 :=
  { tenantId := call.identity.tenantId
    userId := call.identity.userId
    sessionId := call.identity.sessionId }

inductive CapabilityExecutionError where
  | invalidBinding
  | invalidArguments
  | invalidLeaseSecret
  | leaseSigningFailed
  | worker (error : CapabilityWorkerError)
  | cancellationNotTerminal
  | cancellationTerminalMissing
  | terminalResultInvalid
  deriving DecidableEq, Repr

namespace CapabilityExecutionError

def code : CapabilityExecutionError → String
  | .invalidBinding => "capability_execution_binding_invalid"
  | .invalidArguments => "capability_execution_arguments_invalid"
  | .invalidLeaseSecret => "capability_execution_secret_invalid"
  | .leaseSigningFailed => "capability_execution_lease_signing_failed"
  | .worker error => error.code
  | .cancellationNotTerminal => "capability_execution_cancel_not_terminal"
  | .cancellationTerminalMissing => "capability_execution_cancel_terminal_missing"
  | .terminalResultInvalid => "capability_execution_terminal_result_invalid"

end CapabilityExecutionError

structure CapabilityExecutionOutcome where
  response : Value
  status : CapabilityExecutionStatus
  rawResult : Option Value

abbrev CallResult := Except CapabilityExecutionError CapabilityExecutionOutcome

/-- Nanoseconds. -/
def millis (n : Nat) : Nat := n * 1000000

def MAX_LEASE_TTL_MS : Nat := 120000
def EXECUTION_DEADLINE : Nat := millis 30000
def CANCELLATION_GRACE_PERIOD : Nat := millis 2000
def EVENT_POLL_INTERVAL : Nat := millis 50

/-! ## Projection of a terminal event -/

inductive DynamicToolCallOutputContentItem where
  | inputText (text : String)
  | inputImage (imageUrl : String)
  | inputAudio (audioUrl : String)

variable (crates : Crates)

/-- `serde_json::to_value` of a content item. -/
def DynamicToolCallOutputContentItem.toValue : DynamicToolCallOutputContentItem → Value
  | .inputText text =>
      .object (crates.collect [("type", .string "inputText"), ("text", .string text)])
  | .inputImage imageUrl =>
      .object (crates.collect [("type", .string "inputImage"), ("imageUrl", .string imageUrl)])
  | .inputAudio audioUrl =>
      .object (crates.collect [("type", .string "inputAudio"), ("audioUrl", .string audioUrl)])

/-- `serde_json::to_value` of a `DynamicToolCallResponse`. -/
def dynamicToolCallResponse (contentItems : List DynamicToolCallOutputContentItem)
    (success : Bool) : Value :=
  .object (crates.collect
    [("contentItems", .array (contentItems.map (·.toValue crates))),
     ("success", .bool success)])

def dynamicToolTextResponse (success : Bool) (message : String) : Value :=
  dynamicToolCallResponse crates [.inputText message] success

def errorResponse (message : String) : Value := dynamicToolTextResponse crates false message

/-- The text under the first of the keys that is there. -/
def itemText (item : Value) (keys : List String) : Except CapabilityExecutionError String :=
  match (keys.findSome? fun key => item.get key).bind Value.asStr with
  | some text => .ok text
  | none => .error .terminalResultInvalid

def contentItem (item : Value) :
    Except CapabilityExecutionError DynamicToolCallOutputContentItem :=
  match (item.get "type").bind Value.asStr with
  | some "input_text" | some "inputText" => do
      let text ← itemText item ["text"]
      return .inputText text
  | some "input_image" | some "inputImage" => do
      let imageUrl ← itemText item ["image_url", "imageUrl"]
      return .inputImage imageUrl
  | some "input_audio" | some "inputAudio" => do
      let audioUrl ← itemText item ["audio_url", "audioUrl"]
      return .inputAudio audioUrl
  | _ => .error .terminalResultInvalid

def projectDynamicResponse (contentItems : Value) (success : Bool) :
    Except CapabilityExecutionError Value :=
  match contentItems.asArray with
  | none => .error .terminalResultInvalid
  | some items => do
      let items ← items.mapM contentItem
      return dynamicToolCallResponse crates items success

def projectContentItems (contentItems : Value) (success : Bool) :
    Except CapabilityExecutionError Value := do
  failIf (!contentItems.isArray) .terminalResultInvalid
  projectDynamicResponse crates contentItems success

def projectResultValue (result : Value) (success : Bool) :
    Except CapabilityExecutionError Value :=
  match result.get "contentItems", result.get "success" with
  | some contentItems, some resultSuccess => do
      failIf (!contentItems.isArray || !resultSuccess.isBoolean) .terminalResultInvalid
      failIf (success && resultSuccess.asBool != some true) .terminalResultInvalid
      projectDynamicResponse crates contentItems success
  | _, _ =>
      match result.get "content_items" with
      | some contentItems => projectContentItems crates contentItems success
      | none =>
          match crates.toText result with
          | none => .error .terminalResultInvalid
          | some text => .ok (dynamicToolTextResponse crates success text)

def projectTerminalResponse (event : CapabilityEventV2) :
    Except CapabilityExecutionError Value :=
  let success := event.status == .succeeded
  match event.payload.get? "result" with
  | some result => projectResultValue crates result success
  | none =>
      match event.payload.get? "content_items" with
      | some contentItems => projectContentItems crates contentItems success
      | none =>
          if success then .error .terminalResultInvalid
          else
            .ok (errorResponse crates
              ((((event.payload.get? "error_code").or (event.payload.get? "error")).bind
                Value.asStr).getD "capability execution failed"))

def projectTerminal (event : CapabilityEventV2) : CallResult := do
  failIf (!event.status.isTerminal) .terminalResultInvalid
  let response ← projectTerminalResponse crates event
  return { response, status := event.status, rawResult := event.payload.get? "result" }

def cancelledBeforeDispatch : CapabilityExecutionOutcome :=
  { status := .cancelled
    response := dynamicToolTextResponse crates false
      "capability execution cancelled before dispatch"
    rawResult := none }

def sideEffectUnknown : CapabilityExecutionOutcome :=
  { status := .sideEffectUnknown
    response := dynamicToolTextResponse crates false
      "The write may already have executed but its outcome could not be confirmed. Do not retry this action; inspect the execution receipt first."
    rawResult := none }

/-! ## Surroundings -/

/-- The arms of the polling `select!`. -/
inductive Arm where
  | cancelled
  | deadline
  | events
  deriving DecidableEq, Repr

/-- What a call meets.  Its waits are numbered in the order it makes them. -/
structure Surroundings where
  /-- The instant the token is cancelled, if it ever is. -/
  cancelAt : Option Nat
  /-- How long the `n`-th wait takes, beyond what the call asks for. -/
  elapsed : Nat → Nat
  /-- The arm the `n`-th wait takes when it is ready; the reply otherwise. -/
  favours : Nat → Arm
  /-- The wall clock; `none` before the epoch. -/
  epochMs : Option Nat
  leaseId : String
  nonce : String
  catalog : Reply CapabilityCatalogV2
  create : Reply CapabilityExecutionV2
  get : Reply CapabilityExecutionV2
  /-- The reply that the `n`-th wait is for. -/
  events : Nat → Reply CapabilityEventPageV2
  cancel : Reply CapabilityExecutionV2

/-- A request that was made, with its reply; `none` when it was dropped first. -/
inductive Exchange where
  | catalog (reply : Reply CapabilityCatalogV2)
  | create (request : CreateCapabilityExecutionRequestV2)
      (reply : Option (Reply CapabilityExecutionV2))
  | get (executionId : String) (reply : Option (Reply CapabilityExecutionV2))
  | events (executionId : String) (afterSequence : Nat) (reply : Reply CapabilityEventPageV2)
  | cancel (executionId : String) (reply : Reply CapabilityExecutionV2)

structure World where
  instant : Nat
  step : Nat
  sent : List Exchange

def World.start : World := { instant := 0, step := 0, sent := [] }

variable (env : Surroundings)

namespace World

/-- Some time goes by. -/
def pass (w : World) : World :=
  { w with
    instant := w.instant + env.elapsed w.step
    step := w.step + 1 }

def sleep (duration : Nat) (w : World) : World :=
  { w.pass env with instant := (w.pass env).instant + duration }

def log (exchange : Exchange) (w : World) : World :=
  { w with sent := w.sent ++ [exchange] }

variable {env}

@[simp] theorem sent_pass (w : World) : (w.pass env).sent = w.sent := rfl

@[simp] theorem step_pass (w : World) : (w.pass env).step = w.step + 1 := rfl

@[simp] theorem sent_sleep (duration : Nat) (w : World) :
    (w.sleep env duration).sent = w.sent := rfl

@[simp] theorem sent_log (exchange : Exchange) (w : World) :
    (w.log exchange).sent = w.sent ++ [exchange] := rfl

@[simp] theorem instant_log (exchange : Exchange) (w : World) :
    (w.log exchange).instant = w.instant := rfl

@[simp] theorem step_log (exchange : Exchange) (w : World) :
    (w.log exchange).step = w.step := rfl

theorem instant_le_pass (w : World) : w.instant ≤ (w.pass env).instant := Nat.le_add_right _ _

theorem instant_lt_sleep (w : World) :
    w.instant < (w.sleep env EVENT_POLL_INTERVAL).instant := by
  have hpass : w.instant ≤ (w.pass env).instant := instant_le_pass w
  have hpositive : 0 < EVENT_POLL_INTERVAL := by decide
  change w.instant < (w.pass env).instant + EVENT_POLL_INTERVAL
  omega

end World

/-- The instant of the `n`-th wait, while the call has not slept. -/
def Surroundings.after : Nat → Nat
  | 0 => 0
  | n + 1 => Surroundings.after n + env.elapsed n

/-- `cancel.is_cancelled()` at the given instant. -/
def Surroundings.isCancelled (instant : Nat) : Bool := env.cancelAt.any (· ≤ instant)

/-! ## Checks before dispatch -/

/-- `serde_json::to_value` of a connector binding. -/
def ConnectorBinding.toValue (binding : ConnectorBinding) : Value :=
  let optional (text : Option String) : Value := (text.map Value.string).getD .null
  .object (crates.collect
    [("binding_type", .string binding.bindingType),
     ("provider", .string binding.provider),
     ("tool_name", .string binding.toolName),
     ("principal_type", optional binding.principalType),
     ("grant_id", optional binding.grantId),
     ("connection_id", optional binding.connectionId),
     ("schema_hash", optional binding.schemaHash),
     ("risk_level", optional binding.riskLevel),
     ("channel", .string binding.channel)])

def validateBinding (binding : ReadonlyCapabilityBinding) (params : DynamicToolCallParams) :
    Except CapabilityExecutionError Unit :=
  failIf (binding.expectedTool.name != params.tool
      || binding.expectedTool.capabilityType == "" || binding.expectedTool.id == ""
      || binding.expectedTool.schemaHash.isNone
      || binding.allowlist.countP (· == binding.expectedTool) != 1
      || binding.descriptor.id != binding.expectedTool.id
      || !optBeq binding.descriptor.connectorBinding
        (binding.expectedTool.connectorBinding.map (·.toValue crates))) .invalidBinding

def epochMs : Except CapabilityExecutionError Nat :=
  match env.epochMs with
  | some ms => .ok (ms % 2 ^ 64)
  | none => .error .invalidLeaseSecret

/-- The checks made on the bound descriptor and again on the static one. -/
def CapabilityCall.matches (call : CapabilityCall) (descriptor : CapabilityDescriptorV2) : Bool :=
  descriptor.name == call.params.tool && descriptor.effect == call.expectedEffect
    && descriptor.version == call.binding.expectedTool.version.getD "null"
    && some descriptor.schemaHash == call.binding.expectedTool.schemaHash

/-- Everything up to the catalog: the arguments' hash and the time. -/
def checkCall (call : CapabilityCall) : Except CapabilityExecutionError (String × Nat) := do
  failIf (call.params.threadId != call.identity.runtimeThreadId
      || call.params.turnId == "" || call.params.callId == "") .invalidBinding
  validateBinding crates call.binding call.params
  failIf (call.secret.length < 32 || call.binding.capabilityRevision == 0) .invalidLeaseSecret
  failIf (!call.params.arguments.isObject) .invalidArguments
  let argumentsHash ←
    (canonicalJsonHash crates call.params.arguments).mapError fun _ => .invalidArguments
  let now ← epochMs env
  (call.binding.descriptor.validate crates).mapError fun _ => .invalidBinding
  failIf (!call.matches call.binding.descriptor
      || call.binding.descriptor.id != call.binding.expectedTool.id) .invalidBinding
  return (argumentsHash, now)

/-- The descriptor of the catalog, when it has one under the bound id. -/
def chooseDescriptor (call : CapabilityCall)
    (catalog : Except CapabilityWorkerError CapabilityCatalogV2) :
    Except CapabilityExecutionError CapabilityDescriptorV2 :=
  match catalog with
  | .error _ => .ok call.binding.descriptor
  | .ok catalog =>
      match catalog.capabilities.find? (·.id == call.binding.descriptor.id) with
      | none => .ok call.binding.descriptor
      | some descriptor => do
          failIf (!call.matches descriptor) .invalidBinding
          return { descriptor with
            connectorBinding := call.binding.descriptor.connectorBinding }

def leaseFor (call : CapabilityCall) (argumentsHash : String) (now : Nat) :
    RuntimeCapabilityLeaseV1 :=
  { schemaVersion := RUNTIME_CAPABILITY_LEASE_SCHEMA_VERSION
    leaseId := env.leaseId
    tenantId := call.scope.tenantId
    userId := call.scope.userId
    sessionId := call.scope.sessionId
    runId := call.params.turnId
    toolCallId := call.params.callId
    attemptId := call.params.callId
    capabilityId := call.binding.expectedTool.id
    capabilityRevision := call.binding.capabilityRevision
    argumentsHash := argumentsHash
    effect := call.expectedEffect
    approvalId := call.approvalId
    issuedAtEpochMs := now
    expiresAtEpochMs := min (now + MAX_LEASE_TTL_MS) (2 ^ 64 - 1)
    nonce := env.nonce
    signature := "" }

def idempotencyKey (call : CapabilityCall) (argumentsHash : String) : String :=
  let text := call.params.turnId ++ "\x00" ++ call.params.callId ++ "\x00" ++ argumentsHash
  "capexec:" ++ hexEncode (crates.sha256 text.toUTF8.data.toList)

def requestFor (call : CapabilityCall) (argumentsHash : String)
    (descriptor : CapabilityDescriptorV2) (lease : RuntimeCapabilityLeaseV1) :
    CreateCapabilityExecutionRequestV2 :=
  { schemaVersion := CAPABILITY_EXECUTION_SCHEMA_VERSION
    idempotencyKey := idempotencyKey crates call argumentsHash
    descriptor := descriptor
    connectorBinding :=
      call.binding.expectedTool.connectorBinding.map (·.toValue crates)
    lease := lease
    arguments := call.params.arguments }

def signedRequest (call : CapabilityCall) (argumentsHash : String) (now : Nat)
    (descriptor : CapabilityDescriptorV2) :
    Except CapabilityExecutionError CreateCapabilityExecutionRequestV2 := do
  let lease ← ((leaseFor env call argumentsHash now).sign crates call.secret).mapError
    fun _ => .leaseSigningFailed
  (lease.validate now).mapError fun _ => .leaseSigningFailed
  let request := requestFor crates call argumentsHash descriptor lease
  (request.validate crates now).mapError fun _ => .invalidBinding
  return request

/-! ## Up to dispatch -/

/-- What `worker.catalog` answers. -/
def catalogAnswer (call : CapabilityCall) : Except CapabilityWorkerError CapabilityCatalogV2 := do
  catalogChecks crates call.scope call.binding.capabilityRevision
  env.catalog.read

def askCatalog (call : CapabilityCall) (w : World) : World :=
  match catalogChecks crates call.scope call.binding.capabilityRevision with
  | .error _ => w.pass env
  | .ok () => (w.pass env).log (.catalog env.catalog)

/-- Everything before the call asks for an execution. -/
inductive Prepared where
  | stopped (result : CallResult)
  | ready (request : CreateCapabilityExecutionRequestV2)

def prepare (call : CapabilityCall) : Prepared × World :=
  let w := World.start.pass env
  if env.isCancelled w.instant then (.stopped (.ok (cancelledBeforeDispatch crates)), w)
  else
    match checkCall crates env call with
    | .error error => (.stopped (.error error), w)
    | .ok (argumentsHash, now) =>
        let w := askCatalog crates env call w
        match chooseDescriptor call (catalogAnswer crates env call) with
        | .error error => (.stopped (.error error), w)
        | .ok descriptor =>
            match signedRequest crates env call argumentsHash now descriptor with
            | .error error => (.stopped (.error error), w)
            | .ok request =>
                let w := w.pass env
                if env.isCancelled w.instant then
                  (.stopped (.ok (cancelledBeforeDispatch crates)), w)
                else (.ready request, w)

/-- What the `select!` around `get` and `create` ends with. -/
inductive Creation where
  | cancelled
  | ended (result : Except CapabilityWorkerError CapabilityExecutionV2)

/-- A request that the token can cut off.  The token is looked at first, both
    before the request is sent and when its reply is there. -/
def orCancelled (checks : Except CapabilityWorkerError Unit)
    (exchange : Option (Reply CapabilityExecutionV2) → Exchange)
    (reply : Reply CapabilityExecutionV2) (w : World) : Creation × World :=
  let w := w.pass env
  if env.isCancelled w.instant then (.cancelled, w)
  else
    match checks with
    | .error error => (.ended (.error error), w)
    | .ok () =>
        let w := w.pass env
        if env.isCancelled w.instant then (.cancelled, w.log (exchange none))
        else (.ended (readExecution reply), w.log (exchange (some reply)))

def awaitCreation (call : CapabilityCall) (request : CreateCapabilityExecutionRequestV2)
    (w : World) : Creation × World :=
  match call.existingExecutionId with
  | some executionId =>
      orCancelled env (getChecks crates call.scope executionId) (.get executionId) env.get w
  | none =>
      orCancelled env (createChecks crates call.scope request) (.create request) env.create w

def createOutcomeMayBeUnknown : CapabilityWorkerError → Bool
  | .invalidBaseUrl | .missingInternalToken | .invalidRequest => false
  | .rejected status => !([400, 401, 403, 404, 409, 422].contains status)
  | _ => true

/-! ## Following the execution -/

/-- Where a polling loop stands. -/
structure Cursor where
  afterSequence : Nat
  world : World

/-- What one page of events leaves to do. -/
inductive Seen where
  | ended (result : CallResult)
  | progress (sequence : Nat)
  | idle

/-- The first event of the page, as both polling loops treat it. -/
def observe (toolCallId : String) (page : CapabilityEventPageV2) : Seen :=
  match page.events.head? with
  | none => .idle
  | some event =>
      if event.toolCallId != toolCallId then .ended (.error .terminalResultInvalid)
      else if event.status.isTerminal then .ended (projectTerminal crates event)
      else .progress event.sequence

/-- `worker.events`, whose reply is the one of the `n`-th wait. -/
def askEvents (scope : CapabilityScopeV2) (executionId : String) (afterSequence n : Nat)
    (w : World) : Except CapabilityWorkerError CapabilityEventPageV2 × World :=
  match eventsChecks crates scope executionId with
  | .error error => (.error error, w)
  | .ok () =>
      (readEvents (env.events n) executionId afterSequence,
        w.log (.events executionId afterSequence (env.events n)))

/-- One turn of the loop in `cancel_and_confirm_terminal_with_grace`. -/
def graceTurn (scope : CapabilityScopeV2) (executionId toolCallId : String)
    (graceDeadline : Nat) (c : Cursor) : Turn Cursor (CallResult × World) :=
  let n := c.world.step
  let w := c.world.pass env
  if env.favours n == .deadline && graceDeadline ≤ w.instant then
    .exit (.error .cancellationTerminalMissing, w)
  else
    match askEvents crates env scope executionId c.afterSequence n w with
    | (.error error, w) => .exit (.error (.worker error), w)
    | (.ok page, w) =>
        match observe crates toolCallId page with
        | .ended result => .exit (result, w)
        | .progress sequence => .again { afterSequence := sequence, world := w }
        | .idle =>
            let w := w.pass env
            if graceDeadline ≤ w.instant then .exit (.error .cancellationTerminalMissing, w)
            else .again { c with world := w.sleep env EVENT_POLL_INTERVAL }

/-- `fuel` bounds the turns of the loop. -/
def cancelAndConfirmTerminal (scope : CapabilityScopeV2) (executionId toolCallId : String)
    (fuel : Nat) (c : Cursor) : Option (CallResult × World) :=
  match cancelChecks crates scope executionId with
  | .error error => some (.error (.worker error), c.world)
  | .ok () =>
      let w := (c.world.pass env).log (.cancel executionId env.cancel)
      match readExecution env.cancel with
      | .error error => some (.error (.worker error), w)
      | .ok execution =>
          if execution.executionId != executionId || execution.toolCallId != toolCallId then
            some (.error .terminalResultInvalid, w)
          else if !execution.status.isTerminal then some (.error .cancellationNotTerminal, w)
          else
            let w := w.pass env
            loop (graceTurn crates env scope executionId toolCallId
              (w.instant + CANCELLATION_GRACE_PERIOD)) fuel { c with world := w }

/-- How the polling loop is left. -/
inductive PollExit where
  | ended (result : CallResult) (w : World)
  /-- The token or the deadline: the rest is `cancel_and_confirm_terminal`. -/
  | confirm (c : Cursor)

/-- One turn of the polling loop. -/
def pollTurn (scope : CapabilityScopeV2) (executionId toolCallId : String) (deadline : Nat)
    (c : Cursor) : Turn Cursor PollExit :=
  let w := c.world.pass env
  if env.isCancelled w.instant then .exit (.confirm { c with world := w })
  else
    let w := w.pass env
    if deadline ≤ w.instant then .exit (.confirm { c with world := w })
    else
      let n := w.step
      let w := w.pass env
      if env.favours n == .cancelled && env.isCancelled w.instant
          || env.favours n == .deadline && deadline ≤ w.instant then
        .exit (.confirm { c with world := w })
      else
        match askEvents crates env scope executionId c.afterSequence n w with
        | (.error error, w) => .exit (.ended (.error (.worker error)) w)
        | (.ok page, w) =>
            match observe crates toolCallId page with
            | .ended result => .exit (.ended result w)
            | .progress sequence => .again { afterSequence := sequence, world := w }
            | .idle => .again { c with world := w.sleep env EVENT_POLL_INTERVAL }

def followExecution (scope : CapabilityScopeV2) (executionId toolCallId : String) (fuel : Nat)
    (w : World) : Option (CallResult × World) :=
  let w := w.pass env
  (loop (pollTurn crates env scope executionId toolCallId
      (w.instant + EXECUTION_DEADLINE)) fuel { afterSequence := 0, world := w }).bind
    fun
    | .ended result w => some (result, w)
    | .confirm c => cancelAndConfirmTerminal crates env scope executionId toolCallId fuel c

/-- `execute_capability_with_existing`, with its loops cut off after `fuel` turns. -/
def executeCapabilityWithExisting (call : CapabilityCall) (fuel : Nat) :
    Option (CallResult × World) :=
  match prepare crates env call with
  | (.stopped result, w) => some (result, w)
  | (.ready request, w) =>
      match awaitCreation crates env call request w with
      | (.cancelled, w) =>
          if call.expectedEffect == .read then some (.ok (cancelledBeforeDispatch crates), w)
          else some (.ok (sideEffectUnknown crates), w)
      | (.ended (.error error), w) =>
          if call.expectedEffect != .read && createOutcomeMayBeUnknown error then
            some (.ok (sideEffectUnknown crates), w)
          else some (.error (.worker error), w)
      | (.ended (.ok execution), w) =>
          (followExecution crates env call.scope execution.executionId
              call.params.callId fuel w).bind
            fun
            | (.error error, w) =>
                if call.expectedEffect != .read then some (.ok (sideEffectUnknown crates), w)
                else some (.error error, w)
            | (.ok outcome, w) => some (.ok outcome, w)

end AiPlatform.Runtime.CapabilityExecution
