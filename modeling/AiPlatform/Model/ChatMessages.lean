/-
  AiPlatform.Model.ChatMessages

  The input list of a Responses request as a history of chat messages.

  The list is flat: calls, outputs and messages follow one another as they happened. A chat
  history groups them: a message with the calls, then one tool message for each of them. The
  translation puts calls that follow one another into one message and everything else at the
  end, so what it makes is a history if the calls were answered where they stand.
-/

import AiPlatform.Model.RequestBuilder

namespace ChatMessages

open ModelPlane RequestBuilder

/-! ## Messages -/

structure ToolCall where
  id : PyStr
  name : PyStr
  arguments : PyStr
  deriving DecidableEq, Repr

inductive Content where
  | text (text : PyStr)
  | parts (text : PyStr) (images : List PyStr)
  deriving DecidableEq, Repr

inductive ChatMessage where
  | content (role : PyStr) (content : Content)
  | calls (toolCalls : List ToolCall)
  | tool (callId name : PyStr) (content : Option PyStr)
  deriving DecidableEq, Repr

/-! ## The translation -/

def inputInvalid {α : Type} : Except Raised α := planeError "RUNTIME_RESPONSES_INPUT_INVALID" 400

def messageTranscriptInvalid {α : Type} : Except Raised α := planeError "RUNTIME_TOOL_TRANSCRIPT_INVALID" 400

def imageInvalid {α : Type} : Except Raised α := planeError "RUNTIME_IMAGE_INPUT_INVALID" 400

/-- The url of an image part that can be handed on. -/
def imageUrl (part : PyJson) : Option PyStr :=
  (part.get (lit "image_url")).asStr.filter fun url =>
    (lit "data:image/").isPrefixOf url || (lit "https://").isPrefixOf url

def imageParts : PyJson → List PyJson
  | .list parts => parts.filter fun part => (part.get (lit "type")).isStr (lit "input_image")
  | _ => []

def chatRoles : List PyStr := [lit "user", lit "assistant", lit "developer", lit "system"]

/-- The role of a message item; `none` if it is passed over. -/
def chatRole (item : PyJson) : Option PyStr :=
  if (item.get (lit "type")).isStr (lit "agent_message") then some (lit "user")
  else (item.get (lit "role")).asStr.filter fun role => chatRoles.contains role

/-- The content of a message item under its role, if it has any. -/
def chatContent (role : PyStr) (rawContent : PyJson) : Except Raised (Option ChatMessage) := do
  let text ← contentText rawContent
  let images := imageParts rawContent
  let urls := images.filterMap imageUrl
  if images ≠ [] ∧ (role ≠ lit "user" ∨ urls.length ≠ images.length) then imageInvalid
  else if text = [] ∧ images = [] then .ok none
  else
    let role := if role = lit "developer" then lit "system" else role
    .ok (some (.content role (if images = [] then .text text else .parts text urls)))

/-- A message item, one of the types `None`, `message` and `agent_message`. -/
def isMessage (item : PyJson) : Bool :=
  let itemType := item.get (lit "type")
  itemType.isNone || itemType.isStr (lit "message") || itemType.isStr (lit "agent_message")

def chatText (item : PyJson) : Except Raised (Option ChatMessage) :=
  match chatRole item with
  | some role => chatContent role (item.get (lit "content"))
  | none =>
    -- a role is looked up in a set
    if (item.get (lit "role")).hashable then .ok none else typeError

/-- The messages so far, and the calls that wait for their outputs. -/
structure History where
  messages : List ChatMessage
  pendingCalls : List (PyStr × PyStr)

/-- A call goes to the calls before it, or begins a message of its own. -/
def addCall (messages : List ChatMessage) (call : ToolCall) : List ChatMessage :=
  match messages.getLast? with
  | some (.calls toolCalls) => messages.dropLast ++ [.calls (toolCalls ++ [call])]
  | _ => messages ++ [.calls [call]]

section

-- `str()` of a value that is not a string
variable (reprOf : PyJson → PyStr)

/-- `str(value or "")` -/
def strOr (value : PyJson) : PyStr :=
  match value with
  | .str text => text
  | value => if value.truthy then reprOf value else []

def translateCall (history : History) (item : PyJson) : Except Raised History :=
  let callId := strOr reprOf (item.get (lit "call_id"))
  let name := strOr reprOf (item.get (lit "name"))
  let arguments := strOr reprOf (item.get (lit "arguments"))
  if callId = [] ∨ name = [] then messageTranscriptInvalid
  else if (history.pendingCalls.lookup callId).isSome then messageTranscriptInvalid
  else .ok {
    messages := addCall history.messages ⟨callId, name, arguments⟩
    pendingCalls := history.pendingCalls ++ [(callId, name)] }

def translateOutput (history : History) (item : PyJson) : Except Raised History :=
  let callId := strOr reprOf (item.get (lit "call_id"))
  match history.pendingCalls.lookup callId with
  | none => messageTranscriptInvalid
  | some name => do
    let text ← toolOutputText (item.get (lit "output"))
    .ok {
      messages := history.messages ++ [.tool callId name text]
      pendingCalls := history.pendingCalls.filter fun pending => pending.1 != callId }

def translateItem (history : History) (item : PyJson) : Except Raised History :=
  let itemType := item.get (lit "type")
  if !item.isDict then inputInvalid
  else if !itemType.hashable then typeError
  else if isMessage item then
    (chatText item).map fun message => { history with messages := history.messages ++ message.toList }
  else if itemType.isStr (lit "function_call") then translateCall reprOf history item
  else if itemType.isStr (lit "function_call_output") then translateOutput reprOf history item
  -- a reasoning item is the provider's own, and so are the types that are not known
  else .ok history

def instructionMessages (body : PyJson) : List ChatMessage :=
  match body.get (lit "instructions") with
  | .str text => if text = [] then [] else [.content (lit "system") (.text text)]
  | _ => []

def translateItems (instructions : List ChatMessage) (rawInput : List PyJson) : Except Raised History :=
  rawInput.foldlM (translateItem reprOf) ⟨instructions, []⟩

def responsesInputToMessages (body : PyJson) (allowedToolNames : Option (List PyStr)) :
    Except Raised (List ChatMessage) :=
  match body.get (lit "input") with
  | .str text => .ok (instructionMessages body ++ [.content (lit "user") (.text text)])
  | .list rawInput => do
    validateToolTranscript (allowedToolNames.map (· ++ kernelToolTranscriptNames)) none rawInput
    let history ← translateItems reprOf (instructionMessages body) rawInput
    if !history.pendingCalls.isEmpty then messageTranscriptInvalid
    else if history.messages.isEmpty then inputInvalid
    else .ok history.messages
  | _ => inputInvalid

end

/-! ## A chat history -/

/-- The id and the name that a tool message answers with. -/
def ChatMessage.answers : ChatMessage → Option (PyStr × PyStr)
  | .tool callId name _ => some (callId, name)
  | _ => none

def ToolCall.asks (call : ToolCall) : PyStr × PyStr := (call.id, call.name)

/-- Each message with calls is followed by exactly one tool message for each of them, and no
other tool message is there. -/
inductive Legal : List ChatMessage → Prop
  | nil : Legal []
  | content (role : PyStr) (content : Content) {rest : List ChatMessage} :
      Legal rest → Legal (.content role content :: rest)
  | calls {toolCalls : List ToolCall} {answers rest : List ChatMessage} (hne : toolCalls ≠ [])
      (hdistinct : (toolCalls.map ToolCall.id).Nodup) (htool : ∀ message ∈ answers, message.answers.isSome)
      (hanswers : (answers.filterMap ChatMessage.answers).Perm (toolCalls.map ToolCall.asks)) :
      Legal rest → Legal (.calls toolCalls :: answers ++ rest)

/-! ## The input -/

/-- What an item of the input stands for. -/
inductive Entry where
  | message (role : PyStr) (content : Content)
  | call (call : ToolCall)
  | output (callId text : PyStr)
  deriving DecidableEq, Repr

/-- The call of a call item, as it stands in the input. -/
def callOf (item : PyJson) : Option Entry :=
  match item.get (lit "call_id"), item.get (lit "name"), item.get (lit "arguments") with
  | .str callId, .str name, .str arguments => some (.call ⟨callId, name, arguments⟩)
  | _, _, _ => none

/-- The output of an output item, as the text of what stands in the input. -/
def outputOf (item : PyJson) : Option Entry :=
  match item.get (lit "call_id"), toolOutputText (item.get (lit "output")) with
  | .str callId, .ok (some text) => some (.output callId text)
  | _, _ => none

/-- The message of a message item, if it has content under a role that is known. -/
def messageOf (item : PyJson) : Option Entry :=
  match chatText item with
  | .ok (some (.content role content)) => some (.message role content)
  | _ => none

def entryOf (item : PyJson) : Option Entry :=
  let itemType := item.get (lit "type")
  if isMessage item then messageOf item
  else if itemType.isStr (lit "function_call") then callOf item
  else if itemType.isStr (lit "function_call_output") then outputOf item
  else none

def Entry.isCall : Entry → Bool
  | .call _ => true
  | _ => false

def Entry.isOutput : Entry → Bool
  | .output _ _ => true
  | _ => false

/-- Fewer outputs than calls. -/
def HasOpenCall (entries : List Entry) : Prop := entries.countP Entry.isOutput < entries.countP Entry.isCall

/-- While a call is open, its output may follow, or another call if it follows a call. -/
def MayFollow (before : List Entry) : Entry → Prop
  | .message _ _ => False
  | .call _ => ∃ last ∈ before.getLast?, last.isCall = true
  | .output _ _ => True

/-- The calls are answered where they stand: no message comes between a call and its output, and
no call that follows an output comes between another call and its output. -/
def AnsweredInPlace (entries : List Entry) : Prop :=
  ∀ before entry after, entries = before ++ entry :: after → HasOpenCall before → MayFollow before entry

end ChatMessages
