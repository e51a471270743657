/-
  AiPlatform.Model.Authorization

  What the modules of the model plane share: how a call of theirs may end, and which tool
  identities a transcript may name.
-/

import AiPlatform.Json.PyJson

namespace ModelPlane

/-! ## Errors -/

/-- The declared error of the model plane: a code for the caller and a status for its reply. -/
structure AgentModelPlaneError where
  code : String
  statusCode : Nat
  deriving DecidableEq, Repr

/-- The exceptions of the language that the model plane does not declare. -/
inductive PyException where
  | typeError
  | unicodeEncodeError
  | recursionError
  | valueError
  deriving DecidableEq, Repr

/-- What a call can raise. -/
inductive Raised where
  | declared (error : AgentModelPlaneError)
  | undeclared (exception : PyException)
  deriving DecidableEq, Repr

/-- `raise AgentModelPlaneError(code, status_code=...)` -/
def planeError {α : Type} (code : String) (statusCode : Nat) : Except Raised α :=
  .error (.declared ⟨code, statusCode⟩)

def typeError {α : Type} : Except Raised α := .error (.undeclared .typeError)

/-! ## Tool identities -/

def isToolNameCharacter : PyChar → Bool
  | .scalar c => c.isAlphanum || c == '_' || c == '-'
  | .surrogate _ => false

/-- `_TOOL_NAME_RE.fullmatch(name)` -/
def isToolName (name : PyStr) : Bool :=
  name != [] && name.length ≤ 64 && name.all isToolNameCharacter

def kernelToolTranscriptNames : List PyStr := [
  lit "update_plan", lit "spawn_subagent", lit "spawn_agent", lit "send_input", lit "wait", lit "close_agent",
  lit "resume_agent", lit "send_message", lit "followup_task", lit "wait_agent", lit "list_agents",
  lit "interrupt_agent"]

def kernelToolTranscriptNamespaces : List PyStr := [lit "collaboration", lit "multi_agent_v1"]

def isUnnamespaced (value : PyJson) : Bool := value.isNone || value.isStr []

def isKernelToolIdentity (name scope : PyJson) : Bool :=
  match name with
  | .str name =>
    let inNamespace := match scope with
      | .str text => kernelToolTranscriptNamespaces.contains text
      | _ => false
    if isUnnamespaced scope && kernelToolTranscriptNames.contains name then true
    else if inNamespace && kernelToolTranscriptNames.contains name then true
    else if !isUnnamespaced scope then false
    else kernelToolTranscriptNamespaces.any fun start =>
      kernelToolTranscriptNames.any fun toolName => name == start ++ toolName
  | _ => false

def isAllowedToolIdentity (name scope : PyJson) (allowedToolNames : Option (List PyStr))
    (allowedNamespacedTools : Option (List (PyStr × PyStr))) : Bool :=
  match allowedToolNames with
  | none => true
  | some allowedToolNames =>
    if isKernelToolIdentity name scope then true
    else
      match name with
      | .str name =>
        if isUnnamespaced scope then allowedToolNames.contains name
        else
          match scope, allowedNamespacedTools with
          | .str scope, some tools => tools.contains (scope, name)
          | _, _ => false
      | _ => false

end ModelPlane
