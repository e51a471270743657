/-
  AiPlatform.Model.RequestBuilder

  The input list of a Responses request: the texts of its items, and the check that every tool
  call in it has its output.
-/

import AiPlatform.Model.Authorization

namespace RequestBuilder

open ModelPlane

/-! ## Texts -/

def contentPartText (part : PyJson) : Option PyStr :=
  let partType := part.get (lit "type")
  if partType.isStr (lit "encrypted_content") then (part.get (lit "encrypted_content")).asStr
  else if partType.isStr (lit "input_text") || partType.isStr (lit "output_text") || partType.isStr (lit "text") then
    (part.get (lit "text")).asStr
  else none

/-- The type of a part is looked up in a set. -/
def contentText : PyJson → Except Raised PyStr
  | .str text => .ok text
  | .list parts =>
    if parts.all fun part => (part.get (lit "type")).hashable then .ok (parts.filterMap contentPartText).flatten
    else typeError
  | _ => .ok []

def isTextPart (part : PyJson) : Bool :=
  let partType := part.get (lit "type")
  part.isDict && (partType.isStr (lit "input_text") || partType.isStr (lit "output_text") || partType.isStr (lit "text")) &&
    (part.get (lit "text")).asStr.isSome

/-- `all` stops at the first part that is not a text; a type that cannot be looked up raises. -/
def toolOutputParts : List PyJson → Except Raised (Option PyStr)
  | [] => .ok (some [])
  | part :: parts =>
    if !part.isDict then .ok none
    else if !(part.get (lit "type")).hashable then typeError
    else if !isTextPart part then .ok none
    else (toolOutputParts parts).map fun text => text.map (((part.get (lit "text")).asStr.getD []) ++ ·)

def toolOutputText : PyJson → Except Raised (Option PyStr)
  | .str text => .ok (some text)
  | .list parts => toolOutputParts parts
  | _ => .ok none

/-! ## The transcript -/

/-- The exact failure that the kernel records for an unknown tool. -/
def isReplayableUnsupportedToolResult (name : PyStr) (scope output : PyJson) : Bool :=
  match output with
  | .str text =>
    (scope.isNone || scope.isStr []) &&
      (text == lit "unsupported call: " ++ name || text == lit "unsupported custom tool call: " ++ name)
  | _ => false

structure PendingCall where
  name : PyStr
  scope : PyJson
  allowedIdentity : Bool

structure Transcript where
  pendingCalls : List (PyStr × PendingCall)
  completedCalls : List PyStr

def transcriptInvalid {α : Type} : Except Raised α := planeError "RUNTIME_TOOL_TRANSCRIPT_INVALID" 422

section

variable (allowedToolNames : Option (List PyStr)) (allowedNamespacedTools : Option (List (PyStr × PyStr)))

def validateCall (state : Transcript) (item : PyJson) : Except Raised Transcript :=
  let name := item.get (lit "name")
  let scope := item.get (lit "namespace")
  let allowedIdentity := isAllowedToolIdentity name scope allowedToolNames allowedNamespacedTools
  -- the refusal logs whether the id is a duplicate, and looks it up for that
  let refusal := if (item.get (lit "call_id")).hashable then transcriptInvalid else typeError
  match item.get (lit "call_id"), name, item.get (lit "arguments") with
  | .str callId, .str name, .str _ =>
    if callId = [] || !isToolName name || (state.pendingCalls.lookup callId).isSome ||
        state.completedCalls.contains callId then refusal
    else .ok { state with pendingCalls := state.pendingCalls ++ [(callId, ⟨name, scope, allowedIdentity⟩)] }
  | _, _, _ => refusal

def validateOutput (state : Transcript) (item : PyJson) : Except Raised Transcript :=
  match item.get (lit "call_id") with
  | .str callId =>
    match state.pendingCalls.lookup callId with
    | none => transcriptInvalid
    | some call => do
      let text ← toolOutputText (item.get (lit "output"))
      let name := item.get (lit "name")
      let scope := item.get (lit "namespace")
      if text.isNone then transcriptInvalid
      else if (!name.isNone && !name.isStr call.name) || (!scope.isNone && !scope.eq call.scope) then transcriptInvalid
      else if !call.allowedIdentity &&
          !isReplayableUnsupportedToolResult call.name call.scope (item.get (lit "output")) then transcriptInvalid
      else .ok {
        pendingCalls := state.pendingCalls.filter fun pending => pending.1 != callId
        completedCalls := callId :: state.completedCalls }
  | _ => transcriptInvalid

def validateItem (state : Transcript) (item : PyJson) : Except Raised Transcript :=
  let itemType := item.get (lit "type")
  if itemType.isStr (lit "function_call") then validateCall allowedToolNames allowedNamespacedTools state item
  else if itemType.isStr (lit "function_call_output") then validateOutput state item
  else .ok state

def validateToolTranscript (rawInput : List PyJson) : Except Raised Unit := do
  let state ← rawInput.foldlM (validateItem allowedToolNames allowedNamespacedTools) ⟨[], []⟩
  if state.pendingCalls.isEmpty then .ok () else transcriptInvalid

end

end RequestBuilder
