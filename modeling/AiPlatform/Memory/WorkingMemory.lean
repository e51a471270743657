/-
  AiPlatform.Memory.WorkingMemory

  The working memory of a session, as the worker reads it: what it asks of a stored envelope and
  the markdown that it makes of it.

  The members of an object are kept in the order in which they came. Nothing here depends on it:
  members are found by key, and of the JSON text only the number of characters is taken.
-/

import AiPlatform.Capability.CanonicalJson
import AiPlatform.Lib.Assoc
import AiPlatform.Memory.Redaction

namespace WorkingMemory

open AiPlatform.Json AiPlatform.Capability Redaction

abbrev Members := List (String × Value)

def workingMemorySchemaVersion : String := "assistant-working-memory/v2"

def maxWorkingMemoryBytes : Nat := 100000
def maxWorkingMemoryTasks : Nat := 100
def maxWorkingMemoryTaskIdBytes : Nat := 128
def maxWorkingMemoryDescriptionBytes : Nat := 1000
def maxWorkingMemoryResultBytes : Nat := 500
def maxWorkingMemoryGoalBytes : Nat := 2000
def maxWorkingMemoryInfoKeyBytes : Nat := 128
def maxWorkingMemoryInfoValueBytes : Nat := 2000
def maxWorkingMemoryInfoSourceBytes : Nat := 128

/-- `sha256`, with digests of 32 bytes. -/
structure Sha256 where
  digest : List UInt8 → List UInt8
  length_digest : ∀ bytes, (digest bytes).length = 32

/-- The identity that a call is made for, after `validate_context`. -/
structure Context where
  tenantId : String
  userId : String
  sessionId : String
  bounded : ∀ id ∈ [tenantId, userId, sessionId], boundedText id 255 = true

variable (floatText : UInt64 → List Char) (sha256 : Sha256)

/-- `serde_json::to_string(value)?.chars().count()` -/
def characters (value : Value) : Nat := (JsonText.render (document floatText value)).length

def lengthBytes (length : Nat) : List UInt8 := (List.range 8).reverse.map fun i => UInt8.ofNat (length / 256 ^ i)

/-- `working_memory_key` without the `working_memory:` that it begins with. -/
def workingMemoryScope (context : Context) : String :=
  hexEncode (sha256.digest ([context.tenantId, context.userId, context.sessionId].flatMap fun value =>
    let bytes := value.toUTF8.data.toList
    lengthBytes bytes.length ++ bytes))

/-! ## What is asked of an envelope -/

def validText (value : String) (min max : Nat) : Bool :=
  decide (min ≤ value.length ∧ value.length ≤ max) && !value.toList.any isAsciiControl

def validMemoryText (value : String) (min max : Nat) : Bool :=
  decide (min ≤ value.length ∧ value.length ≤ max) && !value.toList.any fun c => isAsciiControl c && c != '\n'

def isText (valid : String → Bool) : Value → Bool
  | .string text => valid text
  | _ => false

/-- A text that must be there. -/
def requiredText (valid : String → Bool) : Option Value → Bool
  | some value => isText valid value
  | none => false

/-- A text that may be missing or null. -/
def optionalText (valid : String → Bool) : Option Value → Bool
  | some .null | none => true
  | some value => isText valid value

def taskKeys : List String := ["id", "description", "status", "result", "error", "created_at", "completed_at"]

def isTaskStatus (status : String) : Bool :=
  ["pending", "in_progress", "completed", "failed", "blocked"].contains status

/-- The fields of a task but for its id. -/
def validTaskFields (task : Members) : Bool :=
  requiredText (fun text => validMemoryText text 1 maxWorkingMemoryDescriptionBytes) (task.lookup "description") &&
    requiredText isTaskStatus (task.lookup "status") &&
    (["result", "error"].all fun field =>
      optionalText (fun text => validMemoryText text 1 maxWorkingMemoryResultBytes) (task.lookup field)) &&
    ["created_at", "completed_at"].all fun field => optionalText (fun text => validText text 1 128) (task.lookup field)

/-- The tasks, each with an id that is not among `ids` and not the id of an earlier one. -/
def validTasks (ids : List String) : List Value → Bool
  | [] => true
  | .object task :: rest =>
    if task.any fun member => !taskKeys.contains member.1 then false
    else
      match task.lookup "id" with
      | some (.string id) =>
        validText id 1 maxWorkingMemoryTaskIdBytes && !ids.contains id && validTaskFields task && validTasks (id :: ids) rest
      | _ => false
  | _ :: _ => false

def validInfo : Value → Bool
  | .object item =>
    (item.all fun member => ["key", "value", "source", "timestamp"].contains member.1) &&
      requiredText (fun text => validText text 1 maxWorkingMemoryInfoKeyBytes) (item.lookup "key") &&
      requiredText (fun text => validMemoryText text 1 maxWorkingMemoryInfoValueBytes) (item.lookup "value") &&
      requiredText (fun text => validText text 1 maxWorkingMemoryInfoSourceBytes) (item.lookup "source") &&
      requiredText (fun text => validText text 1 128) (item.lookup "timestamp")
  | _ => false

/-- A list that may be missing, with at most `maxWorkingMemoryTasks` items. -/
def optionalItems (valid : Value → Bool) : Option Value → Bool
  | none => true
  | some (.array items) => decide (items.length ≤ maxWorkingMemoryTasks) && items.all valid
  | some _ => false

def memoryKeys : List String :=
  ["session_id", "goal", "goal_set_at", "turns_since_goal", "tasks", "collected_info", "notes", "archived"]

def validateWorkingMemory (memory : Members) (sessionId : String) : Bool :=
  (memory.all fun member => memoryKeys.contains member.1) &&
    requiredText (fun text => text == sessionId) (memory.lookup "session_id") &&
    optionalText (fun text => validMemoryText text 1 maxWorkingMemoryGoalBytes) (memory.lookup "goal") &&
    optionalText (fun text => validText text 1 128) (memory.lookup "goal_set_at") &&
    (match memory.lookup "turns_since_goal" with
      | none => true
      | some (.number (.posInt turns)) => decide (turns.toNat ≤ 1000000)
      | some _ => false) &&
    (match memory.lookup "tasks" with
      | some (.array tasks) => decide (tasks.length ≤ maxWorkingMemoryTasks) && validTasks [] tasks
      | _ => false) &&
    optionalItems validInfo (memory.lookup "collected_info") &&
    optionalItems (isText fun text => validMemoryText text 1 maxWorkingMemoryDescriptionBytes) (memory.lookup "notes") &&
    match memory.lookup "archived" with
      | none | some .null | some (.object _) => true
      | some _ => false

def requireExactKeys (object : Members) (required : List String) : Bool :=
  object.length == required.length && required.all fun key => (object.lookup key).isSome

/-! ## The markdown -/

/-- `value.split_whitespace()`, joined by blanks. -/
def markdownInline (value : String) : String :=
  " ".intercalate (((value.toList.splitOnP isWhitespace).filter fun word => !word.isEmpty).map String.ofList)

/-- The result of a read but for the percentage, which is `completed / taskCount * 100`. -/
structure Rendered where
  markdown : String
  taskCount : Nat
  completed : Nat
  failed : Nat
  deriving DecidableEq, Repr

def todoReadEmpty : Rendered := ⟨"(no tasks)", 0, 0, 0⟩

def indicator (status : String) : Option String :=
  [("pending", "[ ]"), ("in_progress", "[~]"), ("completed", "[x]"), ("failed", "[!]"), ("blocked", "[B]")].lookup status

def textOf (object : Members) (key : String) : Option String := (object.lookup key).bind Value.asStr

/-- The status of a task and its line. -/
def renderTask (task : Value) : Option (String × String) := do
  let task ← task.asObject
  let status ← textOf task "status"
  let description ← textOf task "description"
  let mark ← indicator status
  let current := if status = "in_progress" then " <- current" else ""
  let error := match textOf task "error" with
    | some error => if error = "" then "" else " (error: " ++ markdownInline error ++ ")"
    | none => ""
  some (status, "- " ++ mark ++ " " ++ markdownInline description ++ current ++ error ++ "\n")

def renderInfo (item : Value) : Option String := do
  let item ← item.asObject
  let key ← textOf item "key"
  let value ← textOf item "value"
  let display := if 100 < value.length then String.ofList (value.toList.take 100) ++ "..." else value
  some ("- **" ++ markdownInline key ++ "**: " ++ markdownInline display ++ "\n")

def renderNote (note : Value) : Option String := note.asStr.map fun text => "- " ++ markdownInline text ++ "\n"

/-- A list of lines under a heading, if there are any. -/
def renderList (heading : String) (line : Value → Option String) (items : Option Value) : Option String :=
  match items.bind Value.asArray with
  | none | some [] => some ""
  | some items => (items.mapM line).map fun lines => heading ++ String.join lines ++ "\n"

def renderMarkdown (memory : Members) (tasks : List Value) : Option Rendered := do
  let lines ← tasks.mapM renderTask
  let information ← renderList "## Collected Information\n" renderInfo (memory.lookup "collected_info")
  let notes ← renderList "## Notes\n" renderNote (memory.lookup "notes")
  let goal := match textOf memory "goal" with
    | some goal => if goal = "" then "" else "**Goal:** " ++ markdownInline goal ++ "\n\n"
    | none => ""
  let markdown := "# Current Task State\n\n" ++ goal ++ "## Tasks\n" ++ String.join (lines.map Prod.snd) ++ "\n" ++
    information ++ notes
  some {
    markdown := String.ofList (markdown.toList.rdropWhile (· == '\n'))
    taskCount := tasks.length
    completed := lines.countP fun line => line.1 == "completed"
    failed := lines.countP fun line => line.1 == "failed" }

/-- `none` is `WorkingMemoryInvalid`, the one error that there is. -/
def renderWorkingMemory (envelope : Value) (context : Context) : Option Rendered := do
  if maxWorkingMemoryBytes < characters floatText envelope then none
  else
    let envelope ← envelope.asObject
    if !requireExactKeys envelope ["schema_version", "owner_scope", "working_memory"] then none
    else if textOf envelope "schema_version" ≠ some workingMemorySchemaVersion then none
    else if textOf envelope "owner_scope" ≠ some (workingMemoryScope sha256 context) then none
    else
      let memory ← (envelope.lookup "working_memory").bind Value.asObject
      if !validateWorkingMemory memory context.sessionId then none
      else
        let tasks ← (memory.lookup "tasks").bind Value.asArray
        if tasks.isEmpty then some todoReadEmpty else renderMarkdown memory tasks

end WorkingMemory
