/-
  AiPlatform.Model.ResponsesProjector

  The Responses events that are made of a chat completions stream: `_ResponsesProjector` of
  `stream_projection.py` and the loop over the provider's events in `chat_completions.py`.

  The ids of the response, its reasoning and its message are fresh; no text of a provider is one
  of them.  Event payloads carry what the source puts in them, but for constants and the clock.
-/

import AiPlatform.Lib.Assoc
import AiPlatform.Lib.Checks
import AiPlatform.Model.ToolAliases
import Mathlib.Data.List.Sort

namespace ResponsesProjector

open ModelPlane ToolAliases

/-! ## Events -/

inductive ItemId where
  | reasoning
  | message
  | call (callId : PyStr)
  deriving DecidableEq, Repr

/-- An entry of the output, in progress or completed. -/
inductive Item where
  | reasoning (summary : List PyStr) (completed : Bool)
  | message (content : List PyStr) (completed : Bool)
  | functionCall (callId name : PyStr) (scope : Option PyStr) (arguments : PyStr) (completed : Bool)
  deriving DecidableEq, Repr

namespace Item

def id : Item → ItemId
  | .reasoning .. => .reasoning
  | .message .. => .message
  | .functionCall callId .. => .call callId

def texts : Item → List PyStr
  | .reasoning summary _ => summary
  | .message content _ => content
  | .functionCall callId name scope arguments _ => [callId, name, scope.getD [], arguments]

end Item

structure Usage where
  inputTokens : Nat
  outputTokens : Nat
  deriving DecidableEq, Repr

/-- The payload of an event, named after its type. -/
inductive Payload where
  | responseCreated (model : PyStr)
  | outputItemAdded (outputIndex : Nat) (item : Item)
  | reasoningSummaryPartAdded (outputIndex : Nat)
  | reasoningSummaryTextDelta (outputIndex : Nat) (delta : PyStr)
  | reasoningSummaryTextDone (outputIndex : Nat) (text : PyStr)
  | reasoningSummaryPartDone (outputIndex : Nat) (text : PyStr)
  | contentPartAdded (outputIndex : Nat)
  | outputTextDelta (outputIndex : Nat) (delta : PyStr)
  | outputTextDone (outputIndex : Nat) (text : PyStr)
  | contentPartDone (outputIndex : Nat) (text : PyStr)
  | functionCallArgumentsDelta (callId : PyStr) (outputIndex : Nat) (delta : PyStr)
  | functionCallArgumentsDone (callId : PyStr) (outputIndex : Nat) (name arguments : PyStr)
  | outputItemDone (outputIndex : Nat) (item : Item)
  | responseCompleted (model : PyStr) (output : List Item) (usage : Usage) (totalTokens : Nat)
  deriving DecidableEq, Repr

/-- The texts of a payload that do not come from the source. -/
def Payload.texts : Payload → List PyStr
  | .responseCreated model => [model]
  | .outputItemAdded _ item | .outputItemDone _ item => item.texts
  | .reasoningSummaryPartAdded _ | .contentPartAdded _ => []
  | .reasoningSummaryTextDelta _ text | .reasoningSummaryTextDone _ text | .reasoningSummaryPartDone _ text
  | .outputTextDelta _ text | .outputTextDone _ text | .contentPartDone _ text => [text]
  | .functionCallArgumentsDelta callId _ delta => [callId, delta]
  | .functionCallArgumentsDone callId _ name arguments => [callId, name, arguments]
  | .responseCompleted model output _ _ => model :: output.flatMap Item.texts

structure Event where
  sequenceNumber : Nat
  payload : Payload
  deriving DecidableEq, Repr

/-! ## The projector -/

/-- An entry of `tool_calls`; the last three fields are those with an underscore. -/
structure Call where
  /-- `call["call_id"]`, and `call["id"]` with it -/
  callId : PyStr
  name : PyStr
  scope : Option PyStr
  arguments : PyStr
  wireName : PyStr
  argumentBytes : Nat
  pendingArguments : PyStr
  deriving DecidableEq, Repr

def Call.new : Call := ⟨[], [], none, [], [], 0, []⟩

/-- The call without the fields with an underscore. -/
def Call.item (call : Call) (completed : Bool) : Item :=
  .functionCall call.callId call.name call.scope call.arguments completed

structure Projector where
  modelId : PyStr
  toolAliases : List (PyStr × Identity)
  allowedToolNames : Option (List PyStr)
  toolArgumentBytes : Nat
  estimatedInputTokens : Nat
  sequence : Nat
  reasoning : PyStr
  text : PyStr
  textBytes : Nat
  reasoningBytes : Nat
  reasoningOpen : Bool
  reasoningClosed : Bool
  messageOpen : Bool
  messageClosed : Bool
  toolCalls : List (Nat × Call)
  toolCallItemsAdded : List Nat
  output : List Item
  usage : Option Usage

def Projector.new (modelId : PyStr) (estimatedInputTokens : Nat) (toolAliases : List (PyStr × Identity))
    (allowedToolNames : Option (List PyStr)) : Projector :=
  ⟨modelId, toolAliases, allowedToolNames, 0, estimatedInputTokens, 0, [], [], 0, 0, false, false, false, false,
    [], [], [], none⟩

def streamInvalid {α : Type} : Except Raised α := planeError "RUNTIME_PROVIDER_STREAM_INVALID" 502

def textLimit {α : Type} : Except Raised α := planeError "RUNTIME_PROVIDER_TEXT_LIMIT" 502

/-- `len(text.encode("utf-8"))` -/
def utf8Size (text : PyStr) : Except Raised Nat :=
  if encodes text then
    .ok (text.map fun c => match c with
      | .scalar c => c.utf8Size
      | .surrogate _ => 0).sum
  else .error (.undeclared .unicodeEncodeError)

/-- `_event` for payloads that follow one another -/
def emit (s : Projector) (payloads : List Payload) : Except Raised (Projector × List Event) :=
  if payloads.all fun payload => payload.texts.all encodes then
    .ok ({ s with sequence := s.sequence + payloads.length },
      payloads.zipIdx.map fun (payload, i) => ⟨s.sequence + i, payload⟩)
  else .error (.undeclared .unicodeEncodeError)

/-- Two steps with the events of both. -/
def andThen (first : Except Raised (Projector × List Event))
    (next : Projector → Except Raised (Projector × List Event)) : Except Raised (Projector × List Event) := do
  let (s, events) ← first
  let (s, more) ← next s
  .ok (s, events ++ more)

def created (s : Projector) : Except Raised (Projector × List Event) := emit s [.responseCreated s.modelId]

/-! ### Reasoning and text -/

def openReasoning (s : Projector) : Except Raised (Projector × List Event) :=
  if s.reasoningOpen then .ok (s, [])
  else
    emit { s with reasoningOpen := true }
      [.outputItemAdded s.output.length (.reasoning [] false), .reasoningSummaryPartAdded s.output.length]

def addReasoning (delta : PyStr) (s : Projector) : Except Raised (Projector × List Event) := do
  let size ← utf8Size delta
  if 8 * 1024 * 1024 < s.reasoningBytes + size then textLimit
  else
    emit { s with reasoningBytes := s.reasoningBytes + size, reasoning := s.reasoning ++ delta }
      [.reasoningSummaryTextDelta s.output.length delta]

def reasoningDelta (s : Projector) (delta : PyStr) : Except Raised (Projector × List Event) :=
  andThen (openReasoning s) (addReasoning delta)

def closeReasoning (s : Projector) : Except Raised (Projector × List Event) :=
  if !s.reasoningOpen || s.reasoningClosed then .ok (s, [])
  else
    let item := Item.reasoning [s.reasoning] true
    emit { s with output := s.output ++ [item], reasoningClosed := true }
      [.reasoningSummaryTextDone s.output.length s.reasoning, .reasoningSummaryPartDone s.output.length s.reasoning,
        .outputItemDone s.output.length item]

def openMessage (s : Projector) : Except Raised (Projector × List Event) :=
  if s.messageOpen then .ok (s, [])
  else
    emit { s with messageOpen := true }
      [.outputItemAdded s.output.length (.message [] false), .contentPartAdded s.output.length]

def addText (delta : PyStr) (s : Projector) : Except Raised (Projector × List Event) := do
  let size ← utf8Size delta
  if 8 * 1024 * 1024 < s.textBytes + size then textLimit
  else
    emit { s with textBytes := s.textBytes + size, text := s.text ++ delta } [.outputTextDelta s.output.length delta]

def textDelta (s : Projector) (delta : PyStr) : Except Raised (Projector × List Event) :=
  andThen (andThen (closeReasoning s) openMessage) (addText delta)

def closeMessage (s : Projector) : Except Raised (Projector × List Event) :=
  if !s.messageOpen || s.messageClosed then .ok (s, [])
  else
    let item := Item.message [s.text] true
    emit { s with output := s.output ++ [item], messageClosed := true }
      [.outputTextDone s.output.length s.text, .contentPartDone s.output.length s.text,
        .outputItemDone s.output.length item]

/-! ### Tool calls -/

/-- `raw.get("index", 0)`, where it is an index -/
def indexOf (raw : PyJson) : Option Nat :=
  match if raw.has (lit "index") then raw.get (lit "index") else .int 0 with
  | .int n => if n < 0 then none else some n.toNat
  | _ => none

def functionOf (raw : PyJson) : PyJson := raw.get (lit "function")

def setCallId (toolCalls : List (Nat × Call)) (index : Nat) (callId : PyJson) (call : Call) : Except Raised Call :=
  match callId with
  | .none => .ok call
  | .str callId =>
    if callId = [] || 255 < callId.length || (call.callId ≠ [] && call.callId ≠ callId)
        || toolCalls.any fun other => other.1 ≠ index && other.2.callId = callId then streamInvalid
    else .ok { call with callId := callId }
  | _ => streamInvalid

def setWireName (s : Projector) (index : Nat) (name : PyJson) (call : Call) : Except Raised Call :=
  match name with
  | .none => .ok call
  | .str name =>
    let wireName := if name = call.wireName then call.wireName else call.wireName ++ name
    if !isToolName wireName then schemaInvalid
    else if s.toolCallItemsAdded.contains index && wireName ≠ call.wireName then streamInvalid
    else if (s.allowedToolNames.any fun allowed => !allowed.any fun allowed => wireName.isPrefixOf allowed) then
      scopeMismatch
    else .ok { call with wireName := wireName }
  | _ => schemaInvalid

/-- The call with the arguments, and their size. -/
def addArguments (s : Projector) (arguments : PyJson) (call : Call) : Except Raised (Call × Nat) :=
  if !arguments.truthy then .ok (call, 0)
  else
    match arguments with
    | .str arguments => do
      let size ← utf8Size arguments
      if 1024 * 1024 < call.argumentBytes + size || 4 * 1024 * 1024 < s.toolArgumentBytes + size then
        planeError "RUNTIME_PROVIDER_TOOL_ARGUMENTS_LIMIT" 502
      else
        .ok ({ call with
          argumentBytes := call.argumentBytes + size
          arguments := call.arguments ++ arguments
          pendingArguments := call.pendingArguments ++ arguments }, size)
    | _ => streamInvalid

/-- The name that a tool is shown under. -/
def named (toolAliases : List (PyStr × Identity)) (call : Call) : Call :=
  match toolAliases.lookup call.wireName with
  | some identity => { call with name := identity.2, scope := some identity.1 }
  | none => { call with name := call.wireName }

/-- `_open_tool_call`; the call is in `tool_calls` under its index. -/
def openToolCall (s : Projector) (index : Nat) (call : Call) : Except Raised (Projector × Call × List Event) :=
  if s.toolCallItemsAdded.contains index then .ok (s, call, [])
  else if call.callId = [] || call.wireName = [] then streamInvalid
  else if (s.allowedToolNames.any fun allowed => !allowed.contains call.wireName) then scopeMismatch
  else do
    let call := named s.toolAliases call
    let (s, events) ← emit
      { s with
        toolCalls := Assoc.set index call s.toolCalls
        toolCallItemsAdded := s.toolCallItemsAdded ++ [index] }
      [.outputItemAdded (s.output.length + index) ({ call with arguments := [] }.item false)]
    .ok (s, call, events)

/-- Arguments that can be told go out. -/
def flushArguments (s : Projector) (index : Nat) (call : Call) : Except Raised (Projector × List Event) :=
  if call.callId = [] || call.wireName = [] || call.pendingArguments = [] then .ok (s, [])
  else do
    let (s, call, opening) ← openToolCall s index call
    let (s, events) ← emit
      { s with toolCalls := Assoc.set index { call with pendingArguments := [] } s.toolCalls }
      [.functionCallArgumentsDelta call.callId (s.output.length + index) call.pendingArguments]
    .ok (s, opening ++ events)

/-- One entry of a tool call delta. -/
def toolCallPart (raw : PyJson) (s : Projector) : Except Raised (Projector × List Event) :=
  if !raw.isDict then streamInvalid
  else
    match indexOf raw with
    | none => streamInvalid
    | some index =>
      if !(functionOf raw).isDict then streamInvalid
      else if (s.toolCalls.lookup index).isNone && 256 ≤ s.toolCalls.length then
        planeError "RUNTIME_PROVIDER_TOOL_LIMIT" 502
      else do
        let call := (s.toolCalls.lookup index).getD .new
        let call ← setCallId s.toolCalls index (raw.get (lit "id")) call
        let call ← setWireName s index ((functionOf raw).get (lit "name")) call
        let (call, size) ← addArguments s ((functionOf raw).get (lit "arguments")) call
        flushArguments
          { s with
            toolCalls := Assoc.set index call s.toolCalls
            toolArgumentBytes := s.toolArgumentBytes + size } index call

def toolCallParts : List PyJson → Projector → Except Raised (Projector × List Event)
  | [], s => .ok (s, [])
  | raw :: later, s => andThen (toolCallPart raw s) (toolCallParts later)

def toolCallDelta (s : Projector) (rawCalls : PyJson) : Except Raised (Projector × List Event) :=
  match rawCalls with
  | .list raws => andThen (closeReasoning s) (toolCallParts raws)
  | _ => streamInvalid

/-- One round of the loop of `close_tool_calls`. -/
def closeToolCall (base index : Nat) (call : Call) (s : Projector) : Except Raised (Projector × List Event) := do
  let (s, call, opening) ← openToolCall s index call
  let (s, events) ← emit { s with output := s.output ++ [call.item true] }
    [.functionCallArgumentsDone call.callId (base + index) call.name call.arguments,
      .outputItemDone (base + index) (call.item true)]
  .ok (s, opening ++ events)

def closeCalls (base : Nat) : List (Nat × Call) → Projector → Except Raised (Projector × List Event)
  | [], s => .ok (s, [])
  | (index, call) :: later, s => andThen (closeToolCall base index call s) (closeCalls base later)

def closeToolCalls (s : Projector) : Except Raised (Projector × List Event) :=
  closeCalls s.output.length (s.toolCalls.insertionSort fun a b => a.1 ≤ b.1) s

/-! ### Usage and the end -/

def natOf : PyJson → Option Nat
  | .int n => if n < 0 then none else some n.toNat
  | _ => none

/-- `raw.get(key, raw.get(fallback))` -/
def getOr (raw : PyJson) (key fallback : PyStr) : PyJson :=
  if raw.has key then raw.get key else raw.get fallback

def setUsage (raw : PyJson) (s : Projector) : Projector :=
  match natOf (getOr raw (lit "prompt_tokens") (lit "input_tokens")),
    natOf (getOr raw (lit "completion_tokens") (lit "output_tokens")) with
  | some inputTokens, some outputTokens => { s with usage := some ⟨inputTokens, outputTokens⟩ }
  | _, _ => s

/-- `_estimate_tokens` of a text that can be encoded -/
def estimateTokens (text : PyStr) : Nat :=
  let bytes := 2 + (text.map fun c => match c with
    | .scalar c => ((JsonText.escape c).map Char.utf8Size).sum
    | .surrogate _ => 0).sum
  max 1 ((bytes + 3) / 4)

def finish (s : Projector) : Except Raised (Projector × List Event) :=
  if s.text = [] && s.toolCalls.isEmpty then planeError "RUNTIME_PROVIDER_EMPTY_RESPONSE" 502
  else
    let usage := s.usage.getD ⟨s.estimatedInputTokens, estimateTokens s.text⟩
    emit { s with usage := some usage }
      [.responseCompleted s.modelId s.output usage (usage.inputTokens + usage.outputTokens)]

/-- `complete`; the frame `[DONE]` comes after its events. -/
def complete (s : Projector) : Except Raised (Projector × List Event) :=
  andThen (andThen (andThen (closeReasoning s) closeToolCalls) closeMessage) finish

/-! ## The stream -/

/-- What a provider's event has for the projector. -/
inductive Delta where
  | toolCalls (rawCalls : PyJson)
  | reasoning (delta : PyStr)
  | text (delta : PyStr)
  deriving Repr

def project : Delta → Projector → Except Raised (Projector × List Event)
  | .toolCalls rawCalls, s => toolCallDelta s rawCalls
  | .reasoning delta, s => reasoningDelta s delta
  | .text delta, s => textDelta s delta

def projectAll : List Delta → Projector → Except Raised (Projector × List Event)
  | [], s => .ok (s, [])
  | delta :: later, s => andThen (project delta s) (projectAll later)

def nonEmptyText : PyJson → Option PyStr
  | .str text => if text = [] then none else some text
  | _ => none

/-- What `choice["delta"]` has, in the order in which it is passed on. -/
def deltasOfDelta (delta : PyJson) : List Delta :=
  if !delta.isDict then []
  else
    (if (delta.get (lit "tool_calls")).truthy then [.toolCalls (delta.get (lit "tool_calls"))] else []) ++
      ((nonEmptyText (delta.get (lit "reasoning_content"))).map Delta.reasoning).toList ++
      ((nonEmptyText (delta.get (lit "content"))).map Delta.text).toList

def choicesOf (event : PyJson) : List PyJson :=
  match event.get (lit "choices") with
  | .list choices => choices.filter PyJson.isDict
  | _ => []

/-- What an event of the provider has for the projector. -/
def deltasOf (event : PyJson) : List Delta :=
  (choicesOf event).flatMap fun choice => deltasOfDelta (choice.get (lit "delta"))

def finishReasons : List PyStr := [lit "stop", lit "tool_calls", lit "function_call"]

/-- Whether the choice ends the stream. -/
def isTerminal (choice : PyJson) : Except Raised Bool :=
  let reason := choice.get (lit "finish_reason")
  if reason.isNone then .ok false
  else if !reason.hashable then typeError
  else if finishReasons.any reason.isStr then .ok true
  else planeError "RUNTIME_PROVIDER_RESPONSE_INCOMPLETE" 502

structure Stream where
  projector : Projector
  terminalReceived : Bool
  events : List Event

def passChoice (stream : Stream) (choice : PyJson) : Except Raised Stream := do
  let terminal ← isTerminal choice
  let (projector, events) ← projectAll (deltasOfDelta (choice.get (lit "delta"))) stream.projector
  .ok ⟨projector, stream.terminalReceived || terminal, stream.events ++ events⟩

def passEvent (stream : Stream) (event : PyJson) : Except Raised Stream :=
  if !event.isDict then streamInvalid
  else
    let stream := { stream with projector := setUsage (event.get (lit "usage")) stream.projector }
    (choicesOf event).foldlM passChoice stream

/-- The events that come of those of a provider; `done` says whether `[DONE]` was read. -/
def stream (projector : Projector) (providerEvents : List PyJson) (done : Bool) : Except Raised (List Event) := do
  let (projector, events) ← created projector
  let stream ← providerEvents.foldlM passEvent ⟨projector, false, events⟩
  if !(stream.terminalReceived || done) then planeError "RUNTIME_PROVIDER_STREAM_INCOMPLETE" 502
  else
    let (_, terminalEvents) ← complete stream.projector
    .ok (stream.events ++ terminalEvents)

end ResponsesProjector
