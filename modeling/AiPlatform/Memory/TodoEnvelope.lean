/-
  AiPlatform.Memory.TodoEnvelope

  The writing of a session's todo list.

  A write puts the live state as a whole into the archive of its own envelope and the new list
  in its place; the envelope has to stay within one limit with both in it.
-/

import AiPlatform.Memory.WorkingMemory

namespace WorkingMemory

open AiPlatform.Json AiPlatform.Capability Redaction

inductive WriteCapabilityError where
  | arguments
  | notFound
  | workingMemoryInvalid
  deriving DecidableEq, Repr

inductive TodoStatus where
  | pending
  | inProgress
  | completed
  | failed
  deriving DecidableEq, Repr

def TodoStatus.asStr : TodoStatus → String
  | .pending => "pending"
  | .inProgress => "in_progress"
  | .completed => "completed"
  | .failed => "failed"

structure TodoWriteItem where
  description : String
  status : TodoStatus
  deriving DecidableEq, Repr

def maxTodoItems : Nat := 100
def maxTodoDescriptionChars : Nat := 1000

/-! ## The items of a call -/

/-- `char::is_control` -/
def isControl (c : Char) : Bool := c.toNat < 32 || (127 ≤ c.toNat && c.toNat ≤ 159)

def trim (text : String) : String :=
  String.ofList ((text.toList.dropWhile isWhitespace).rdropWhile isWhitespace)

def boundedString (value : Option Value) (min max : Nat) : Except WriteCapabilityError String :=
  match value.bind Value.asStr with
  | none => .error .arguments
  | some text =>
    if !decide (min ≤ text.length ∧ text.length ≤ max) || text.toList.any isAsciiControl then .error .arguments
    else .ok text

def parseTodoStatus (value : Option Value) : Except WriteCapabilityError TodoStatus :=
  match (value.bind Value.asStr).getD "pending" with
  | "pending" => .ok .pending
  | "in_progress" => .ok .inProgress
  | "completed" => .ok .completed
  | "failed" => .ok .failed
  | _ => .error .arguments

def parseTodoItem (item : Value) : Except WriteCapabilityError TodoWriteItem :=
  match item.asObject with
  | none => .error .arguments
  | some object =>
    if object.any fun member => !(["description", "status"].contains member.1) then .error .arguments
    else do
      let text ← boundedString (object.lookup "description") 1 maxTodoDescriptionChars
      let description := trim text
      if description.isEmpty || maxTodoDescriptionChars < description.length || description.toList.any isControl then
        .error .arguments
      else do
        let status ← parseTodoStatus (object.lookup "status")
        .ok ⟨description, status⟩

def parseTodoItems (arguments : Members) : Except WriteCapabilityError (List TodoWriteItem) :=
  match (arguments.lookup "items").bind Value.asArray with
  | none => .error .arguments
  | some items => if maxTodoItems < items.length then .error .arguments else items.mapM parseTodoItem

/-! ## The envelope -/

/-- `chrono::Utc::now().to_rfc3339()` -/
structure Rfc3339 where
  text : String
  bounded : 25 ≤ text.length ∧ text.length ≤ 35
  plain : ∀ c ∈ text.toList, c ∈ "0123456789-:.+T".toList

instance : Inhabited Rfc3339 where
  default := {
    text := "1970-01-01T00:00:00+00:00"
    bounded := by decide
    plain := by
      have hplain : ("1970-01-01T00:00:00+00:00".toList.all fun c => "0123456789-:.+T".toList.contains c) = true := by decide
      exact fun c hc => List.contains_iff_mem.mp (List.all_eq_true.mp hplain c hc) }

variable (floatText : UInt64 → List Char) (sha256 : Sha256)

def blankMemory (sessionId : String) : Members := [
  ("session_id", .string sessionId),
  ("goal", .null),
  ("goal_set_at", .null),
  ("turns_since_goal", .number (.posInt 0)),
  ("tasks", .array []),
  ("collected_info", .array []),
  ("notes", .array []),
  ("archived", .null)]

def initialWorkingMemoryEnvelope (context : Context) : Value :=
  .object [
    ("schema_version", .string workingMemorySchemaVersion),
    ("owner_scope", .string (workingMemoryScope sha256 context)),
    ("working_memory", .object (blankMemory context.sessionId))]

def taskOf (now : Rfc3339) (index : Nat) (item : TodoWriteItem) : Value :=
  .object [
    ("id", .string ("todo_" ++ toString index)),
    ("description", .string item.description),
    ("status", .string item.status.asStr),
    ("result", .null),
    ("error", .null),
    ("created_at", .string now.text),
    ("completed_at", if item.status = .completed then .string now.text else .null)]

def tasksOf (now : Rfc3339) (items : List TodoWriteItem) : List Value := items.mapIdx (taskOf now)

/-- There is something in the memory that a write would lose. -/
def hadState (memory : Members) : Bool :=
  ["goal", "tasks", "collected_info", "notes"].any fun key =>
    match memory.lookup key with
    | some .null | none => false
    | some (.array values) => !values.isEmpty
    | some (.string value) => value != ""
    | some _ => true

/-- The memory with its live state moved to the archive, and the new list written. -/
def rewritten (memory : Members) (now : Rfc3339) (items : List TodoWriteItem) : Members :=
  let memory := if hadState memory then Assoc.set "archived" (.object (Assoc.set "archived" .null memory)) memory else memory
  let memory := Assoc.set "goal" .null memory
  let memory := Assoc.set "goal_set_at" .null memory
  let memory := Assoc.set "turns_since_goal" (.number (.posInt 0)) memory
  let memory := Assoc.set "tasks" (.array (tasksOf now items)) memory
  let memory := Assoc.set "collected_info" (.array []) memory
  Assoc.set "notes" (.array []) memory

def replaceTodoEnvelope (value : Value) (context : Context) (items : List TodoWriteItem) (now : Rfc3339) :
    Except WriteCapabilityError Value :=
  match value.asObject with
  | none => .error .notFound
  | some object =>
    if textOf object "schema_version" ≠ some workingMemorySchemaVersion ∨
        textOf object "owner_scope" ≠ some (workingMemoryScope sha256 context) then
      .error .workingMemoryInvalid
    else if (renderWorkingMemory floatText sha256 value context).isNone then .error .workingMemoryInvalid
    else
      match (object.lookup "working_memory").bind Value.asObject with
      | none => .error .workingMemoryInvalid
      | some memory =>
        if !validateWorkingMemory memory context.sessionId then .error .workingMemoryInvalid
        else
          let memory := rewritten memory now items
          let envelope := Value.object (Assoc.set "working_memory" (.object memory) object)
          if maxWorkingMemoryBytes < characters floatText envelope then .error .workingMemoryInvalid
          else if !validateWorkingMemory memory context.sessionId then .error .workingMemoryInvalid
          else .ok envelope

end WorkingMemory
