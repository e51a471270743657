/-
  AiPlatform.Model.ToolAliases

  The names that tools go by on a provider's wire.

  A namespaced tool is sent under an alias with a digest of its identity in it, a function under
  its own name. What comes back under an alias is restored to the tool's own name and namespace,
  and sent under the alias again when it is replayed.
-/

import AiPlatform.Model.RequestBuilder

namespace ToolAliases

open ModelPlane RequestBuilder

/-- A namespace and a name in it. -/
abbrev Identity := PyStr × PyStr

/-! ## The wire names -/

/-- `sha256(text.encode()).hexdigest()` of a text that can be encoded. -/
structure HexDigest where
  digest : PyStr → PyStr
  length_digest : ∀ text, (digest text).length = 64
  hex_digest : ∀ text, ∀ c ∈ digest text, c ∈ lit "0123456789abcdef"

variable (sha256 : HexDigest)

def aliasStart (scope name : PyStr) : PyStr :=
  lit "ns_" ++ (sha256.digest (scope ++ [.scalar '\x00'] ++ name)).take 10 ++ lit "_"

def namespaceAlias (scope name : PyStr) : PyStr :=
  let start := aliasStart sha256 scope name
  start ++ name.take (64 - start.length)

def encodes (text : PyStr) : Bool :=
  text.all fun c => match c with
    | .scalar _ => true
    | .surrogate _ => false

structure Tables where
  tools : List PyJson
  wireNames : List PyStr
  aliases : List (PyStr × Identity)
  wireAliases : List (Identity × PyStr)
  bareNamespaceCandidates : List (PyStr × List Identity)

def schemaInvalid {α : Type} : Except Raised α := planeError "RUNTIME_TOOL_SCHEMA_INVALID" 422

def schemaUnsupported {α : Type} : Except Raised α := planeError "RUNTIME_TOOL_SCHEMA_UNSUPPORTED" 422

def capabilityInvalid {α : Type} : Except Raised α := planeError "RUNTIME_TOOL_CAPABILITY_INVALID" 422

def functionTool (raw : PyJson) (wireName : Option PyStr) (descriptionStart : PyStr) : Except Raised PyJson :=
  match raw.get (lit "name"), raw.get (lit "description"), raw.get (lit "parameters") with
  | .str name, .str description, .dict parameters =>
    if !isToolName name || 16384 < description.length then schemaInvalid
    else
      let strict := match raw.get (lit "strict") with
        | .bool strict => [(lit "strict", PyJson.bool strict)]
        | _ => []
      .ok (.dict ([
        (lit "type", .str (lit "function")),
        (lit "name", .str (match wireName with
          | some wireName => if wireName = [] then name else wireName
          | none => name)),
        (lit "description", .str (descriptionStart ++ description)),
        (lit "parameters", .dict parameters)] ++ strict))
  | _, _, _ => schemaInvalid

def addChild (scope : PyStr) (tables : Tables) (child : PyJson) : Except Raised Tables :=
  if !child.isDict || !(child.get (lit "type")).isStr (lit "function") then schemaUnsupported
  else
    match child.get (lit "name") with
    | .str childName =>
      if !encodes childName then .error (.undeclared .unicodeEncodeError)
      else
        let wireName := namespaceAlias sha256 scope childName
        if tables.wireNames.contains wireName then schemaInvalid
        else do
          let identity := (scope, childName)
          let tool ← functionTool child (some wireName) (lit "[" ++ scope ++ lit "] ")
          .ok {
            tools := tables.tools ++ [tool]
            wireNames := tables.wireNames ++ [wireName]
            aliases := Assoc.set wireName identity tables.aliases
            wireAliases := Assoc.set identity wireName tables.wireAliases
            bareNamespaceCandidates := Assoc.set childName
              ((tables.bareNamespaceCandidates.lookup childName).getD [] ++ [identity]) tables.bareNamespaceCandidates }
    | _ => schemaInvalid

def addNamespace (tables : Tables) (raw : PyJson) : Except Raised Tables :=
  match raw.get (lit "name"), raw.get (lit "tools") with
  | .str scope, .list children =>
    if !isToolName scope || 256 < children.length then schemaInvalid
    else children.foldlM (addChild sha256 scope) tables
  | _, _ => schemaInvalid

def addFunction (tables : Tables) (raw : PyJson) : Except Raised Tables :=
  match raw.get (lit "name") with
  | .str name =>
    if tables.wireNames.contains name then schemaInvalid
    else do
      let tool ← functionTool raw none []
      .ok { tables with tools := tables.tools ++ [tool], wireNames := tables.wireNames ++ [name] }
  | _ => schemaInvalid

/-- One entry of the tool list; the two arguments are what the profile says of the wire. -/
def addTool (namespaceWire webSearchWire : PyJson) (tables : Tables) (raw : PyJson) : Except Raised Tables :=
  let toolType := raw.get (lit "type")
  if !raw.isDict then schemaInvalid
  else if toolType.isStr (lit "web_search") then
    if !webSearchWire.isStr (lit "native") then schemaUnsupported
    else .ok { tables with tools := tables.tools ++ [.dict [(lit "type", .str (lit "web_search"))]] }
  else if toolType.isStr (lit "namespace") then
    if !namespaceWire.isStr (lit "flatten") then schemaUnsupported else addNamespace sha256 tables raw
  else if !toolType.isStr (lit "function") then schemaUnsupported
  else addFunction tables raw

structure ValidatedNativeTools where
  tools : List PyJson
  aliases : List (PyStr × Identity)
  wireAliases : List (Identity × PyStr)

/-- A child's own name, where it is the only one of that name and no tool is sent under it. -/
def addBareName (wireNames : List PyStr) (aliases : List (PyStr × Identity)) (candidate : PyStr × List Identity) :
    List (PyStr × Identity) :=
  match candidate.2 with
  | [identity] => if wireNames.contains candidate.1 then aliases else Assoc.set candidate.1 identity aliases
  | _ => aliases

def emptyTables : Tables := ⟨[], [], [], [], []⟩

def Tables.validated (tables : Tables) : ValidatedNativeTools := {
  tools := tables.tools
  aliases := tables.bareNamespaceCandidates.foldl (addBareName tables.wireNames) tables.aliases
  wireAliases := tables.wireAliases }

def validatedNativeTools (value profile : PyJson) : Except Raised ValidatedNativeTools :=
  let entries := match value with
    | .none => some []
    | .list entries => some entries
    | _ => none
  match entries with
  | none => schemaInvalid
  | some entries =>
    if 256 < entries.length then schemaInvalid
    else
      let toolCapabilities := profile.get (lit "tools")
      if !toolCapabilities.isDict then capabilityInvalid
      else do
        let tables ← entries.foldlM (addTool sha256 (toolCapabilities.get (lit "namespace_wire"))
          (toolCapabilities.get (lit "web_search_wire"))) emptyTables
        if 256 < tables.tools.length then schemaInvalid
        else .ok tables.validated

/-! ## There and back -/

def scopeMismatch {α : Type} : Except Raised α := planeError "RUNTIME_PROVIDER_TOOL_SCOPE_MISMATCH" 502

def restoreToolNamespace (toolAliases : List (PyStr × Identity)) (item : PyJson) : Except Raised PyJson :=
  if !item.isDict || !(item.get (lit "type")).isStr (lit "function_call") then .ok item
  else
    match (item.get (lit "name")).asStr.bind fun name => toolAliases.lookup name with
    | none => .ok item
    | some (scope, name) =>
      let given := item.get (lit "namespace")
      if !given.isNone && !given.isStr [] && !given.isStr scope then scopeMismatch
      else .ok ((item.set (lit "name") (.str name)).set (lit "namespace") (.str scope))

def inputPart (part : PyJson) : PyJson :=
  match (part.get (lit "type")).isStr (lit "encrypted_content"), part.get (lit "encrypted_content") with
  | true, .str text => .dict [(lit "type", .str (lit "input_text")), (lit "text", .str text)]
  | _, _ => part

/-- One item for a wire that does not know the kernel's own kinds of content. -/
def nativeResponsesItem (item : PyJson) : PyJson :=
  match item.get (lit "content") with
  | .list parts =>
    let content := PyJson.list (parts.map inputPart)
    if (item.get (lit "type")).isStr (lit "agent_message") then
      .dict [(lit "type", .str (lit "message")), (lit "role", .str (lit "user")), (lit "content", content)]
    else item.set (lit "content") content
  | _ => item

def wireNameOf (validated : ValidatedNativeTools) (item : PyJson) : Option PyStr :=
  match item.get (lit "name"), item.get (lit "namespace") with
  | .str name, .str scope => validated.wireAliases.lookup (scope, name)
  | .str name, _ => (validated.aliases.lookup name).bind fun identity => validated.wireAliases.lookup identity
  | _, _ => none

def nativeToolTranscriptItem (validated : ValidatedNativeTools) (raw : PyJson) : PyJson :=
  let item := nativeResponsesItem raw
  let itemType := item.get (lit "type")
  if !item.isDict || !(itemType.isStr (lit "function_call") || itemType.isStr (lit "function_call_output")) then item
  else
    match wireNameOf validated item with
    | none => item
    | some wireName => (item.set (lit "name") (.str wireName)).pop (lit "namespace")

def nativeToolTranscript (validated : ValidatedNativeTools) : PyJson → PyJson
  | .list items => .list (items.map (nativeToolTranscriptItem validated))
  | value => value

end ToolAliases
