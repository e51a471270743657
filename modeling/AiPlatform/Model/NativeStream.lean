/-
  AiPlatform.Model.NativeStream

  The validator of a provider's own Responses stream: `_NativeResponsesStreamValidator` of
  `stream_projection.py`.

  An event that is let through is encoded again, after the tool names in it are restored.  What
  is released is modelled as the value that was encoded, with the type on the line before it.
-/

import AiPlatform.Model.ResponsesProjector
import Mathlib.Data.List.Infix

namespace NativeStream

open ModelPlane ToolAliases

/-- What `json.loads` raises. -/
inductive LoadsError where
  | jsonDecodeError
  | other (exception : PyException)
  deriving DecidableEq, Repr

/-- An event as it is released. -/
structure Encoded where
  eventType : PyStr
  event : PyJson

structure Terminal where
  event : Encoded
  inputTokens : Nat
  outputTokens : Nat
  providerRequestId : Option PyStr

/-- What the validator is made with. -/
structure Settings where
  toolAliases : List (PyStr × Identity)
  reasoningVisibility : PyStr
  allowTools : Bool
  allowedToolIdentities : Option (List (Option PyStr × PyStr))
  allowNativeSearch : Bool

structure Validator extends Settings where
  lastSequence : Int
  seenCreated : Bool
  terminal : Option Terminal
  argumentBytes : List (PyStr × Nat)
  totalArgumentBytes : Nat

def Validator.new (settings : Settings) : Validator := ⟨settings, -1, false, none, [], 0⟩

def streamInvalid {α : Type} : Except Raised α := planeError "RUNTIME_PROVIDER_STREAM_INVALID" 502

def toolsNotEnabled {α : Type} : Except Raised α := planeError "RUNTIME_TOOLS_NOT_ENABLED_FOR_PHASE" 502

def argumentsLimit {α : Type} : Except Raised α := planeError "RUNTIME_PROVIDER_TOOL_ARGUMENTS_LIMIT" 502

/-! ## Encoding -/

mutual

/-- The value can be written with `ensure_ascii=False` and encoded. -/
def writable : PyJson → Bool
  | .str text => encodes text
  | .list items => writableItems items
  | .dict members => writableMembers members
  | _ => true

def writableItems : List PyJson → Bool
  | [] => true
  | item :: rest => writable item && writableItems rest

def writableMembers : List (PyStr × PyJson) → Bool
  | [] => true
  | (key, value) :: rest => encodes key && writable value && writableMembers rest

end

/-- `_encoded` -/
def encoded (eventType : PyStr) (event : PyJson) : Except Raised Encoded :=
  if encodes eventType && writable event then .ok ⟨eventType, event⟩ else .error (.undeclared .unicodeEncodeError)

/-! ## One event -/

def setDefault (event : PyJson) (key : PyStr) (value : PyJson) : PyJson :=
  if event.has key then event else event.set key value

/-- The type that a reasoning event goes by. -/
def summaryType (eventType : PyJson) : Option PyStr :=
  if eventType.isStr (lit "response.reasoning_text.delta") then some (lit "response.reasoning_summary_text.delta")
  else if eventType.isStr (lit "response.reasoning_text.done") then some (lit "response.reasoning_summary_text.done")
  else none

def normalizeReasoningEvent (settings : Settings) (event : PyJson) : Except Raised PyJson :=
  let eventType := event.get (lit "type")
  if settings.reasoningVisibility ≠ lit "stream" then .ok event
  else if !eventType.hashable then typeError
  else
    match summaryType eventType with
    | some normalized => .ok (setDefault (event.set (lit "type") (.str normalized)) (lit "summary_index") (.int 0))
    | none => .ok event

/-- The number of the event is the next one. -/
def inSequence (v : Validator) (event : PyJson) : Bool :=
  match event.get (lit "sequence_number") with
  | .int sequence => sequence == v.lastSequence + 1 && v.terminal.isNone
  | _ => false

/-- The event's type and number, and that the first event is the creation. -/
def takeNext (v : Validator) (event : PyJson) : Except Raised (PyStr × Validator) :=
  match event.get (lit "type") with
  | .str eventType =>
    if !inSequence v event then streamInvalid
    else if !v.seenCreated && eventType ≠ lit "response.created" then streamInvalid
    else .ok (eventType, { v with lastSequence := v.lastSequence + 1, seenCreated := true })
  | _ => streamInvalid

def failureTypes : List PyStr := [lit "error", lit "response.failed", lit "response.incomplete", lit "response.cancelled"]

def toolMarkers : List PyStr := [lit "function_call", lit "_search_call", lit "mcp_call"]

def refuse (settings : Settings) (eventType : PyStr) : Except Raised Unit :=
  if failureTypes.contains eventType then planeError "RUNTIME_PROVIDER_REJECTED" 502
  else if (toolMarkers.any fun marker => decide (marker <:+: eventType)) && !settings.allowTools then toolsNotEnabled
  else .ok ()

def argumentsDelta : PyStr := lit "response.function_call_arguments.delta"

def countArguments (v : Validator) (eventType : PyStr) (event : PyJson) : Except Raised Validator :=
  if eventType ≠ argumentsDelta then .ok v
  else
    match event.get (lit "item_id"), event.get (lit "delta") with
    | .str itemId, .str delta =>
      if itemId = [] || 255 < itemId.length then streamInvalid
      else do
        let size ← ResponsesProjector.utf8Size delta
        let count := (v.argumentBytes.lookup itemId).getD 0 + size
        if 1024 * 1024 < count || 4 * 1024 * 1024 < v.totalArgumentBytes + size then argumentsLimit
        else if (v.argumentBytes.lookup itemId).isNone && 256 ≤ v.argumentBytes.length then
          planeError "RUNTIME_PROVIDER_TOOL_LIMIT" 502
        else
          .ok { v with
            argumentBytes := Assoc.set itemId count v.argumentBytes
            totalArgumentBytes := v.totalArgumentBytes + size }
    | _, _ => streamInvalid

/-! ### Tool items -/

def isCall (item : PyJson) : Bool := item.isDict && (item.get (lit "type")).isStr (lit "function_call")

/-- `(item.get("namespace") or None, item.get("name"))`, where these can be an identity -/
def identityOf (item : PyJson) : Option (Option PyStr × PyStr) :=
  match item.get (lit "name"), item.get (lit "namespace") with
  | .str name, .str scope => some (if scope = [] then none else some scope, name)
  | .str name, scope => if scope.truthy then none else some (none, name)
  | _, _ => none

/-- `(namespace, name) in self.allowed_tool_identities` -/
def identified (allowed : List (Option PyStr × PyStr)) (item : PyJson) : Bool :=
  (identityOf item).any fun identity => allowed.contains identity

/-- `len(arguments.encode("utf-8"))` of a text -/
def argumentsSize (item : PyJson) : Except Raised Nat :=
  match item.get (lit "arguments") with
  | .str arguments => ResponsesProjector.utf8Size arguments
  | _ => .ok 0

def validateToolIdentity (settings : Settings) (item : PyJson) : Except Raised Unit :=
  match settings.allowedToolIdentities with
  | none => .ok ()
  | some allowed =>
    if isCall item then do
      let size ← argumentsSize item
      if 1024 * 1024 < size then argumentsLimit
      else if !identified allowed item then scopeMismatch
      else .ok ()
    else if item.isDict && (item.get (lit "type")).isStr (lit "web_search_call") && !settings.allowNativeSearch then
      scopeMismatch
    else .ok ()

def itemTypes (settings : Settings) : List PyStr :=
  [lit "message", lit "reasoning"] ++ if settings.allowTools then [lit "function_call", lit "web_search_call"] else []

/-- `item.get("type") not in allowed`; an item of an event may have no type. -/
def checkType (settings : Settings) (noneAllowed : Bool) (item : PyJson) : Except Raised Unit :=
  let itemType := item.get (lit "type")
  if !item.isDict then .ok ()
  else if !itemType.hashable then typeError
  else if (noneAllowed && itemType.isNone) || (itemTypes settings).any itemType.isStr then .ok ()
  else toolsNotEnabled

/-- `_restore_tool_namespace` of the item of an event, in its place -/
def restoreItem (settings : Settings) (event : PyJson) : Except Raised PyJson := do
  let item ← restoreToolNamespace settings.toolAliases (event.get (lit "item"))
  .ok (if event.has (lit "item") then event.set (lit "item") item else event)

def rejectToolItem (settings : Settings) (event : PyJson) : Except Raised Unit := do
  validateToolIdentity settings (event.get (lit "item"))
  checkType settings true (event.get (lit "item"))

/-! ### The terminal event -/

def outputItem (settings : Settings) (item : PyJson) : Except Raised PyJson := do
  let item ← restoreToolNamespace settings.toolAliases item
  validateToolIdentity settings item
  checkType settings false item
  .ok item

def outputItems (settings : Settings) : List PyJson → Except Raised (List PyJson)
  | [] => .ok []
  | item :: rest => do
    let item ← outputItem settings item
    let rest ← outputItems settings rest
    .ok (item :: rest)

/-- The items of `response["output"]` restored and validated, in their place -/
def restoreOutput (settings : Settings) (event : PyJson) : Except Raised PyJson :=
  let response := event.get (lit "response")
  match response.get (lit "output") with
  | .list items => do
    let items ← outputItems settings items
    .ok (event.set (lit "response") (response.set (lit "output") (.list items)))
  | _ => .ok event

def usageOf (response : PyJson) : Except Raised (Nat × Nat) :=
  let usage := response.get (lit "usage")
  match ResponsesProjector.natOf (usage.get (lit "input_tokens")), ResponsesProjector.natOf (usage.get (lit "output_tokens")) with
  | some inputTokens, some outputTokens => .ok (inputTokens, outputTokens)
  | _, _ => planeError "RUNTIME_PROVIDER_USAGE_INVALID" 502

def completed : PyStr := lit "response.completed"

def complete (settings : Settings) (eventType : PyStr) (event : PyJson) : Except Raised Terminal :=
  let response := event.get (lit "response")
  if !response.isDict || !(response.get (lit "status")).isStr (lit "completed") then streamInvalid
  else do
    let event ← restoreOutput settings event
    let (inputTokens, outputTokens) ← usageOf response
    let event ← encoded eventType event
    .ok ⟨event, inputTokens, outputTokens, (response.get (lit "id")).asStr⟩

/-! ## The stream -/

/-- The event as far as its order and its type decide. -/
def admitEvent (v : Validator) (parsed : PyJson) : Except Raised (PyStr × Validator × PyJson) :=
  if !parsed.isDict then streamInvalid
  else do
    let event ← normalizeReasoningEvent v.toSettings parsed
    let (eventType, v) ← takeNext v event
    refuse v.toSettings eventType
    .ok (eventType, v, event)

/-- The event with its item restored. -/
def count (v : Validator) (parsed : PyJson) : Except Raised (PyStr × Validator × PyJson) := do
  let (eventType, v, event) ← admitEvent v parsed
  let v ← countArguments v eventType event
  let event ← restoreItem v.toSettings event
  .ok (eventType, v, event)

/-- The event when its item has been validated. -/
def screen (v : Validator) (parsed : PyJson) : Except Raised (PyStr × Validator × PyJson) := do
  let (eventType, v, event) ← count v parsed
  rejectToolItem v.toSettings event
  .ok (eventType, v, event)

def consumeEvent (v : Validator) (parsed : PyJson) : Except Raised (Validator × Option Encoded) := do
  let (eventType, v, event) ← screen v parsed
  let released ← encoded eventType event
  if eventType ≠ completed then .ok (v, some released)
  else do
    let terminal ← complete v.toSettings eventType event
    .ok ({ v with terminal := some terminal }, none)

def doneMark : PyStr := lit "[DONE]"

/-- One payload; `loads` is `json.loads`. -/
def consume (loads : PyStr → Except LoadsError PyJson) (v : Validator) (payload : PyStr) :
    Except Raised (Validator × Option Encoded) :=
  if payload = doneMark then .ok (v, none)
  else
    match loads payload with
    | .error .jsonDecodeError => streamInvalid
    | .error (.other exception) => .error (.undeclared exception)
    | .ok parsed => consumeEvent v parsed

/-- The payloads one after the other; the first exception ends the stream. -/
def consumeAll (loads : PyStr → Except LoadsError PyJson) : List PyStr → Validator → Except Raised (Validator × List Encoded)
  | [], v => .ok (v, [])
  | payload :: later, v => do
    let (v, released) ← consume loads v payload
    let (v, more) ← consumeAll loads later v
    .ok (v, released.toList ++ more)

def finish (v : Validator) : Except Raised Terminal :=
  match v.seenCreated, v.terminal with
  | true, some terminal => .ok terminal
  | _, _ => planeError "RUNTIME_PROVIDER_STREAM_INCOMPLETE" 502

end NativeStream
