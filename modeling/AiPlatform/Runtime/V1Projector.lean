/-
  AiPlatform.Runtime.V1Projector

  What the runtime makes of one notification of the kernel (`v1_projector.rs`): the
  events of the assistant turn contract.

  The notifications are those of `codex_app_server_protocol`, with the fields that are
  read.  An item other than a message of the agent is read through its JSON value alone,
  so that value stands for it.  All events of one notification get the same timestamp.
-/

import AiPlatform.Runtime.EventStream
import AiPlatform.Runtime.PlatformLifecycle
import AiPlatform.Lib.Assoc

namespace AiPlatform.Runtime

open AiPlatform.Json

def ASSISTANT_TURN_CONTRACT_V1 : String := "assistant-turn-contract/v1"

structure V1ProjectionContext where
  tenantId : String
  userId : String
  sessionId : String

/-! ## Notifications -/

inductive TurnStatus where
  | completed
  | interrupted
  | failed
  | inProgress
  deriving DecidableEq, Repr

structure Turn where
  id : String
  status : TurnStatus
  durationMs : Option Int64

inductive ThreadItem where
  /-- with the members of the fields that are not read -/
  | agentMessage (id text : String) (members : List (String × Value))
  /-- any other item, as what `serde_json::to_value` makes of it -/
  | other (value : Option Value)

/-- `serde_json::to_value`; the tag comes first. -/
def ThreadItem.toValue : ThreadItem → Option Value
  | .agentMessage id text members => some (.object
      (("type", .string "agentMessage") :: ("id", .string id) :: ("text", .string text) :: members))
  | .other value => value

inductive ServerNotification where
  | turnStarted (threadId : String) (turn : Turn)
  | agentMessageDelta (threadId turnId itemId delta : String)
  | reasoningSummaryTextDelta (threadId turnId itemId delta : String) (summaryIndex : Int64)
  | planDelta (threadId turnId itemId delta : String)
  | turnPlanUpdated (threadId turnId : String) (explanation : Option String) (plan : Value)
  | contextCompacted (threadId turnId : String)
  | reasoningTextDelta (threadId : String)
  | itemStarted (item : ThreadItem) (threadId turnId : String)
  | itemCompleted (item : ThreadItem) (threadId turnId : String)
  | turnCompleted (threadId : String) (turn : Turn)
  | error (threadId turnId : String) (willRetry : Bool)
  | other

/-! ## Events -/

def AssistantTurnEventV1.new (now : UInt64) (eventType : String) (data : Value) :
    AssistantTurnEventV1 :=
  { schemaVersion := ASSISTANT_TURN_CONTRACT_V1, eventType := eventType, data := data,
    timestamp := now }

/-- `i64::into` -/
def ofI64 (n : Int64) : Value :=
  if 0 ≤ n.toInt then .number (.posInt n.toUInt64) else .number (.negInt n)

def optString : Option String → Value
  | none => .null
  | some s => .string s

/-- `value[key] = member`, for an object. -/
def setMember (key : String) (member : Value) : Value → Value
  | .object members => .object (Assoc.set key member members)
  | value => value

def lifecycleData (context : V1ProjectionContext) (threadId runId status : String)
    (durationMs : Option (Option Int64)) : Value :=
  let data : List (String × Value) := [("run_id", .string runId),
    ("tenant_id", .string context.tenantId), ("user_id", .string context.userId),
    ("session_id", .string context.sessionId), ("thread_id", .string threadId),
    ("status", .string status)]
  let data := match durationMs with
    | some (some durationMs) => Assoc.set "duration_ms" (ofI64 durationMs) data
    | _ => data
  let data := if status ∈ ["succeeded", "failed", "cancelled"] then
      Assoc.set "terminal_envelope" (.object [
        ("schema_version", .string ASSISTANT_TURN_CONTRACT_V1), ("run_id", .string runId),
        ("tenant_id", .string context.tenantId), ("session_id", .string context.sessionId),
        ("thread_id", .string threadId), ("status", .string status),
        ("exit_reason", .string status)]) (Assoc.set "exit" (.string status) data)
    else data
  .object data

inductive ToolProjectionPhase where
  | started
  | completed
  deriving DecidableEq, Repr

def toolTerminalFailed (status : Option String) : Bool :=
  match status.map PlatformLifecycle.toAsciiLowercase with
  | some status => status ≠ "completed" && status ≠ "succeeded"
  | none => true

/-! ## Items -/

def toolName (object : Value) : String → Option String
  | "mcpToolCall" => do
      let server ← (← object.get "server").asStr
      let tool ← (← object.get "tool").asStr
      some (server ++ "." ++ tool)
  | "dynamicToolCall" => do (← object.get "tool").asStr
  | "commandExecution" => some "shell"
  | "fileChange" => some "apply_patch"
  | "collabAgentToolCall" => some "collaboration"
  | "webSearch" => some "web_search"
  | _ => none

/-- `if let Some(member) = member { projected.insert(key, member.clone()) }` -/
def insertSome (key : String) (member : Option Value) (projected : List (String × Value)) :
    List (String × Value) :=
  match member with
  | some member => Assoc.set key member projected
  | none => projected

def toolData (item : ThreadItem) : Option (List (String × Value)) := do
  let object ← item.toValue
  let itemType ← (← object.get "type").asStr
  let toolName ← toolName object itemType
  let itemId ← (← object.get "id").asStr
  let projected : List (String × Value) :=
    [("tool_call_id", .string itemId), ("tool_name", .string toolName)]
  let projected := insertSome "tool_namespace" (object.get "namespace") projected
  let projected := insertSome "arguments" (object.get "arguments") projected
  let projected := match object.get "status" with
    | some status => Assoc.set "status" status projected
    | none =>
        if itemType = "webSearch" then Assoc.set "status" (.string "completed") projected
        else projected
  let projected := insertSome "duration_ms" (object.get "durationMs") projected
  some projected

/-- The event of one child of a collaboration call. -/
def childEvent (object : Value) (callId tool : String) (prompt : Value) (status threadId turnId : String)
    (context : V1ProjectionContext) (now : UInt64) (phase : ToolProjectionPhase)
    (agentId : String) : AssistantTurnEventV1 :=
  let childStatus := (((object.get "agentsStates").bind (·.get agentId)).bind
    (·.get "status")).bind Value.asStr
  let childTerminal := childStatus.any fun status =>
    status ∈ ["completed", "errored", "interrupted", "shutdown"]
  let data : Value := .object [("agent_id", .string agentId), ("agent_type", .string "task"),
    ("description", prompt), ("call_id", .string callId), ("parent_task_id", .string threadId),
    ("task_id", .string turnId), ("session_id", .string context.sessionId),
    ("thread_id", .string threadId), ("tool", .string tool),
    ("status", .string (if tool = "spawnAgent" then childStatus.getD "running" else status))]
  let eventType :=
    if tool = "spawnAgent" then
      match phase with
      | .started => "subagent_started"
      | .completed => if childTerminal then "subagent_finished" else "subagent_step"
    else "subagent_step"
  let data :=
    if tool = "spawnAgent" then data
    else
      setMember "status" (.string
        (match phase with
          | .started => "running"
          | .completed => if status = "failed" then "failed" else "completed"))
        (setMember "step" prompt data)
  .new now eventType data

/-- The children a collaboration call is about: those that receive it, or else those whose
    states it carries. -/
def receiverIds (object : Value) : List String :=
  let receiverIds := (((object.get "receiverThreadIds").bind Value.asArray).map fun ids =>
    (ids.filterMap Value.asStr).filter fun id => id ≠ "").getD []
  if receiverIds.isEmpty then
    (((object.get "agentsStates").bind Value.asObject).map fun states =>
      states.map Prod.fst).getD []
  else receiverIds

def activityKind : String → Option (String × String)
  | "started" => some ("subagent_started", "running")
  | "completed" => some ("subagent_finished", "completed")
  | "interrupted" => some ("subagent_finished", "cancelled")
  | "interacted" => some ("subagent_step", "running")
  | _ => none

/-- The `subAgentActivity` of `project_collab_item`. -/
def projectActivity (object : Value) (threadId turnId : String) (context : V1ProjectionContext)
    (now : UInt64) : Option (List AssistantTurnEventV1) := do
  let kind ← (← object.get "kind").asStr
  let (eventType, status) ← activityKind kind
  let agentId ← object.get "agentThreadId"
  let callId ← object.get "id"
  some [.new now eventType (.object [("agent_id", agentId),
    ("agent_path", (object.get "agentPath").getD .null), ("agent_type", .string "task"),
    ("call_id", callId), ("parent_task_id", .string threadId), ("task_id", .string turnId),
    ("session_id", .string context.sessionId), ("thread_id", .string threadId),
    ("status", .string status)])]

/-- The `collabAgentToolCall` of `project_collab_item`.  A spawn without a receiver stays an
    ordinary tool event. -/
def projectCollabCall (object : Value) (threadId turnId : String) (context : V1ProjectionContext)
    (now : UInt64) (phase : ToolProjectionPhase) : Option (List AssistantTurnEventV1) := do
  let callId ← (← object.get "id").asStr
  let tool := ((object.get "tool").bind Value.asStr).getD "collaboration"
  let prompt := (object.get "prompt").getD .null
  let status :=
    match ((object.get "status").bind Value.asStr).getD "failed" with
    | "completed" => "completed"
    | "inProgress" => "running"
    | _ => "failed"
  if (receiverIds object).isEmpty then none
  else some ((receiverIds object).map
    (childEvent object callId tool prompt status threadId turnId context now phase))

def projectCollabItem (item : ThreadItem) (threadId turnId : String)
    (context : V1ProjectionContext) (now : UInt64) (phase : ToolProjectionPhase) :
    Option (List AssistantTurnEventV1) := do
  let value ← item.toValue
  let itemType ← (← value.get "type").asStr
  if itemType = "subAgentActivity" then
    match phase with
    | .started => some []
    | .completed => projectActivity value threadId turnId context now
  else if itemType = "collabAgentToolCall" then
    projectCollabCall value threadId turnId context now phase
  else none

def projectToolItem (item : ThreadItem) (threadId turnId : String)
    (context : V1ProjectionContext) (now : UInt64) (phase : ToolProjectionPhase) :
    List AssistantTurnEventV1 :=
  let events := (projectCollabItem item threadId turnId context now phase).getD []
  match toolData item with
  | none => events
  | some tool =>
      let tool := Assoc.set "run_id" (.string turnId) tool
      let tool := Assoc.set "session_id" (.string context.sessionId) tool
      let tool := Assoc.set "thread_id" (.string threadId) tool
      match phase with
      | .started =>
          events ++ [.new now "tool_call_start"
            (.object (Assoc.set "status" (.string "started") tool))]
      | .completed =>
          let failed := toolTerminalFailed ((tool.lookup "status").bind Value.asStr)
          let tool := Assoc.set "status" (.string (if failed then "failed" else "completed")) tool
          let data := Value.object (Assoc.set "success" (.bool (!failed)) tool)
          events ++ [.new now "tool_call_result" data, .new now "tool_call_end" data]

/-! ## The projection -/

def projectServerNotification (notification : ServerNotification)
    (context : V1ProjectionContext) (now : UInt64) : List AssistantTurnEventV1 :=
  match notification with
  | .turnStarted threadId turn =>
      [.new now "run_started" (lifecycleData context threadId turn.id "running" none)]
  | .agentMessageDelta threadId turnId _ delta =>
      [.new now "text_delta" (.object [("run_id", .string turnId),
        ("session_id", .string context.sessionId), ("thread_id", .string threadId),
        ("content", .string delta)])]
  | .reasoningSummaryTextDelta threadId turnId itemId delta summaryIndex =>
      [.new now "thinking_delta" (.object [("run_id", .string turnId),
        ("session_id", .string context.sessionId), ("thread_id", .string threadId),
        ("content", .string delta), ("item_id", .string itemId),
        ("summary_index", ofI64 summaryIndex)])]
  | .planDelta threadId turnId itemId delta =>
      [.new now "plan_update" (.object [("run_id", .string turnId),
        ("session_id", .string context.sessionId), ("thread_id", .string threadId),
        ("item_id", .string itemId), ("delta", .string delta)])]
  | .turnPlanUpdated threadId turnId explanation plan =>
      [.new now "plan_update" (.object [("run_id", .string turnId),
        ("session_id", .string context.sessionId), ("thread_id", .string threadId),
        ("explanation", optString explanation), ("plan", plan)])]
  | .contextCompacted threadId turnId =>
      [.new now "context_compaction" (.object [("run_id", .string turnId),
        ("session_id", .string context.sessionId), ("thread_id", .string threadId),
        ("compacted", .bool true)])]
  | .reasoningTextDelta _ => []
  | .itemStarted item threadId turnId =>
      projectToolItem item threadId turnId context now .started
  | .itemCompleted item threadId turnId =>
      projectToolItem item threadId turnId context now .completed
  | .turnCompleted threadId turn =>
      let lifecycle := fun eventType status =>
        [AssistantTurnEventV1.new now eventType
          (lifecycleData context threadId turn.id status (some turn.durationMs))]
      match turn.status with
      | .completed => lifecycle "run_finished" "succeeded"
      | .interrupted => lifecycle "run_error" "cancelled"
      | .failed => lifecycle "run_error" "failed"
      | .inProgress => []
  | .error threadId turnId willRetry =>
      if willRetry then []
      else [.new now "error" (.object [("run_id", .string turnId),
        ("session_id", .string context.sessionId), ("thread_id", .string threadId),
        ("message", .string
          "Agent runtime could not complete this request. Please try again.")])]
  | .other => []

end AiPlatform.Runtime
