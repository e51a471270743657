/-
  AiPlatform.Memory.TaskMemory

  The working memory of a session in the gateway's own process: goal, tasks, collected
  information and notes, what the calls on it do, and how it is stored and restored.

  Storing takes any memory. Restoring takes only what is within its limits.
-/

import AiPlatform.Json.PyJson
import AiPlatform.Lib.Checks

namespace TaskMemory

open AiPlatform.Checks

/-- What is used of Python: `datetime`, `repr` of a float, and `str`. -/
structure Python where
  DateTime : Type
  isoformat : DateTime → PyStr
  fromisoformat : PyStr → Option DateTime
  fromisoformat_isoformat : ∀ t, fromisoformat (isoformat t) = some t
  isoformat_ne_nil : ∀ t, isoformat t ≠ []
  isoformat_scalar : ∀ t, ∀ c ∈ isoformat t, ∃ char, c = .scalar char
  reprLength : UInt64 → Nat
  str : PyJson → PyStr

variable (python : Python)

inductive TaskStatus where
  | pending
  | inProgress
  | completed
  | failed
  | blocked
  deriving DecidableEq, Repr

def TaskStatus.value : TaskStatus → PyStr
  | .pending => lit "pending"
  | .inProgress => lit "in_progress"
  | .completed => lit "completed"
  | .failed => lit "failed"
  | .blocked => lit "blocked"

/-- `TaskStatus(value)` -/
def TaskStatus.ofValue (value : PyJson) : Option TaskStatus :=
  [TaskStatus.pending, .inProgress, .completed, .failed, .blocked].find? fun status => value.isStr status.value

structure TaskItem where
  id : PyStr
  description : PyStr
  status : TaskStatus
  result : Option PyStr
  error : Option PyStr
  createdAt : python.DateTime
  completedAt : Option python.DateTime

structure CollectedInfo where
  key : PyStr
  value : PyStr
  source : PyStr
  timestamp : python.DateTime

structure WorkingMemory where
  sessionId : PyJson
  goal : Option PyStr
  goalSetAt : Option python.DateTime
  turnsSinceGoal : Int
  tasks : List (TaskItem python)
  collectedInfo : List (CollectedInfo python)
  notes : List PyStr
  archived : PyJson
  /-- The list of notes is the very list in the archived snapshot. -/
  sharesNotes : Bool

def newMemory (sessionId : PyStr) : WorkingMemory python := ⟨.str sessionId, none, none, 0, [], [], [], .none, false⟩

/-! ## Storing -/

def optionalText : Option PyStr → PyJson
  | some text => .str text
  | none => .none

variable {python}

def optionalTime (time : Option python.DateTime) : PyJson := optionalText (time.map python.isoformat)

def TaskItem.toDict (task : TaskItem python) : PyJson :=
  .dict [
    (lit "id", .str task.id),
    (lit "description", .str task.description),
    (lit "status", .str task.status.value),
    (lit "result", optionalText task.result),
    (lit "error", optionalText task.error),
    (lit "created_at", .str (python.isoformat task.createdAt)),
    (lit "completed_at", optionalTime task.completedAt)]

def CollectedInfo.toDict (info : CollectedInfo python) : PyJson :=
  .dict [
    (lit "key", .str info.key),
    (lit "value", .str info.value),
    (lit "source", .str info.source),
    (lit "timestamp", .str (python.isoformat info.timestamp))]

def WorkingMemory.toDict (memory : WorkingMemory python) : PyJson :=
  .dict [
    (lit "session_id", memory.sessionId),
    (lit "goal", optionalText memory.goal),
    (lit "goal_set_at", optionalTime memory.goalSetAt),
    (lit "turns_since_goal", .int memory.turnsSinceGoal),
    (lit "tasks", .list (memory.tasks.map TaskItem.toDict)),
    (lit "collected_info", .list (memory.collectedInfo.map CollectedInfo.toDict)),
    (lit "notes", .list (memory.notes.map .str)),
    (lit "archived", memory.archived)]

/-! ## The calls -/

/-- A text that counts as true. -/
def isSet : Option PyStr → Bool
  | some text => !text.isEmpty
  | none => false

def goalOnlySettleAfterTurns : Int := 3

def TaskStatus.unresolved (status : TaskStatus) : Bool := [TaskStatus.pending, .inProgress, .blocked].contains status

def TaskStatus.settled (status : TaskStatus) : Bool := [TaskStatus.completed, .failed].contains status

namespace WorkingMemory

variable (memory : WorkingMemory python) (now : python.DateTime)

def setGoal (goal : PyStr) : WorkingMemory python :=
  { memory with goal := some goal, goalSetAt := some now, turnsSinceGoal := 0 }

def addTask (taskId description : PyStr) : WorkingMemory python :=
  { memory with tasks := memory.tasks ++ [⟨taskId, description, .pending, none, none, now, none⟩] }

def updated (status : TaskStatus) (result error : Option PyStr) (task : TaskItem python) : TaskItem python :=
  { task with
    status := status
    result := (result.map fun text => text.take 500).or task.result
    error := error.or task.error
    completedAt := if status = .completed then some now else task.completedAt }

/-- The first task with the id is updated, if there is one. -/
def updateFirst (taskId : PyStr) (update : TaskItem python → TaskItem python) : List (TaskItem python) → List (TaskItem python)
  | [] => []
  | task :: rest => if task.id = taskId then update task :: rest else task :: updateFirst taskId update rest

def updateTask (taskId : PyStr) (status : TaskStatus) (result error : Option PyStr) : WorkingMemory python :=
  { memory with tasks := updateFirst taskId (updated now status result error) memory.tasks }

def addInfo (key value source : PyStr) : WorkingMemory python :=
  { memory with collectedInfo := memory.collectedInfo ++ [⟨key, value, source, now⟩] }

/-- `self.notes.append(note)`, which a snapshot that holds the same list has as well. -/
def addNote (note : PyStr) : WorkingMemory python :=
  let notes := memory.notes ++ [note]
  { memory with
    notes := notes
    archived := if memory.sharesNotes then memory.archived.set (lit "notes") (.list (notes.map .str)) else memory.archived }

def preserveSnapshot : WorkingMemory python :=
  if isSet memory.goal || !memory.tasks.isEmpty || !memory.collectedInfo.isEmpty || !memory.notes.isEmpty then
    { memory with archived := memory.toDict.set (lit "archived") .none, sharesNotes := true }
  else memory

def clear : WorkingMemory python :=
  { memory with
    goal := none
    goalSetAt := none
    turnsSinceGoal := 0
    tasks := []
    collectedInfo := []
    notes := []
    sharesNotes := false }

/-- Whether there is nothing left to do, as `archive_if_settled` sees it. -/
def isSettled (turnsSinceGoal : Int) : Bool :=
  if !memory.tasks.isEmpty then
    !(memory.tasks.any fun task => task.status.unresolved) && memory.tasks.all fun task => task.status.settled
  else isSet memory.goal && decide (goalOnlySettleAfterTurns ≤ turnsSinceGoal)

def archiveIfSettled (turnsSinceGoal : Int) : WorkingMemory python :=
  if memory.isSettled turnsSinceGoal then memory.preserveSnapshot.clear else memory

end WorkingMemory

inductive Call where
  | setGoal (goal : PyStr)
  | addTask (taskId description : PyStr)
  | updateTask (taskId : PyStr) (status : TaskStatus) (result error : Option PyStr)
  | addInfo (key value source : PyStr)
  | addNote (note : PyStr)
  | preserveSnapshot
  | archiveIfSettled (turnsSinceGoal : Int)
  | clear

def WorkingMemory.call (memory : WorkingMemory python) (now : python.DateTime) : Call → WorkingMemory python
  | .setGoal goal => memory.setGoal now goal
  | .addTask taskId description => memory.addTask now taskId description
  | .updateTask taskId status result error => memory.updateTask now taskId status result error
  | .addInfo key value source => memory.addInfo now key value source
  | .addNote note => memory.addNote note
  | .preserveSnapshot => memory.preserveSnapshot
  | .archiveIfSettled turnsSinceGoal => memory.archiveIfSettled turnsSinceGoal
  | .clear => memory.clear

/-! ## Restoring -/

/-- `data.get(key, [])` as the items of a list. -/
def itemsOf (data : PyJson) (key : PyStr) : Option (List PyJson) :=
  if data.has key then
    match data.get key with
    | .list items => some items
    | _ => none
  else some []

/-- A string of at most so many characters. -/
def isShort (max : Nat) : PyJson → Bool
  | .str text => decide (text.length ≤ max)
  | _ => false

def isShortOrNone (max : Nat) (value : PyJson) : Bool := value.isNone || isShort max value

def turnsOf (data : PyJson) : PyJson := if data.has (lit "turns_since_goal") then data.get (lit "turns_since_goal") else .int 0

def checkTasks (taskIds : List PyStr) : List PyJson → Except String Unit
  | [] => .ok ()
  | task :: rest => do
    failIf (!task.isDict) "Persisted working memory task is invalid"
    let taskId := ((task.get (lit "id")).asStr).getD []
    failIf (taskId.isEmpty || decide (128 < taskId.length)) "Persisted working memory task id is invalid"
    failIf (taskIds.contains taskId) "Persisted working memory has duplicate task ids"
    failIf (!isShort 1000 (task.get (lit "description"))) "Persisted working memory task description is invalid"
    failIf (!isShortOrNone 500 (task.get (lit "result"))) "Persisted working memory task result is invalid"
    failIf (!isShortOrNone 500 (task.get (lit "error"))) "Persisted working memory task error is invalid"
    checkTasks (taskId :: taskIds) rest

def checkInfo (info : PyJson) : Except String Unit := do
  failIf (!info.isDict) "Persisted working memory info item is invalid"
  failIf (!isShort 128 (info.get (lit "key"))) "Persisted working memory info key is invalid"
  failIf (!isShort 2000 (info.get (lit "value"))) "Persisted working memory info value is invalid"
  failIf (!isShort 128 (info.get (lit "source"))) "Persisted working memory info source is invalid"

variable (python)

/-- `str(data.get("session_id") or "")` -/
def sessionOf (data : PyJson) : PyStr :=
  let session := data.get (lit "session_id")
  match session with
  | .str text => text
  | _ => if session.truthy then python.str session else []

def checkPersisted (data : PyJson) (expectedSessionId : PyStr) : Except String Unit := do
  failIf (!data.isDict) "Persisted working memory must be an object"
  failIf (sessionOf python data != expectedSessionId) "Persisted working memory session mismatch"
  failIf (decide (100000 < data.dumpLength python.reprLength)) "Persisted working memory exceeds size limit"
  failIf (!isShortOrNone 2000 (data.get (lit "goal"))) "Persisted working memory goal is invalid"
  let tasks ← okOr ((itemsOf data (lit "tasks")).filter (·.length ≤ 100)) "Persisted working memory task list is invalid"
  let information ← okOr ((itemsOf data (lit "collected_info")).filter (·.length ≤ 100))
    "Persisted working memory info list is invalid"
  let notes ← okOr ((itemsOf data (lit "notes")).filter (·.length ≤ 100)) "Persisted working memory notes are invalid"
  checkTasks [] tasks
  forEach information checkInfo
  failIf (!notes.all (isShort 1000)) "Persisted working memory note is invalid"
  failIf (!((data.get (lit "archived")).isNone || (data.get (lit "archived")).isDict))
    "Persisted working memory archived snapshot is invalid"
  failIf (match turnsOf data with
    | .int turns => decide (¬ (0 ≤ turns ∧ turns ≤ 100000))
    | _ => true) "Persisted working memory turns_since_goal is invalid"

/-- `datetime.fromisoformat(value)`; what it raises becomes one error. -/
def timeOf (value : PyJson) : Option python.DateTime := value.asStr.bind python.fromisoformat

def optionalTimeOf (value : PyJson) : Option (Option python.DateTime) :=
  if value.truthy then (timeOf python value).map some else some none

def taskFromDict (data : PyJson) : Option (TaskItem python) := do
  let id ← (data.get (lit "id")).asStr
  let description ← (data.get (lit "description")).asStr
  let status ← TaskStatus.ofValue (data.get (lit "status"))
  let createdAt ← timeOf python (data.get (lit "created_at"))
  let completedAt ← optionalTimeOf python (data.get (lit "completed_at"))
  some ⟨id, description, status, (data.get (lit "result")).asStr, (data.get (lit "error")).asStr, createdAt, completedAt⟩

def infoFromDict (data : PyJson) : Option (CollectedInfo python) := do
  let key ← (data.get (lit "key")).asStr
  let value ← (data.get (lit "value")).asStr
  let source ← (data.get (lit "source")).asStr
  let timestamp ← timeOf python (data.get (lit "timestamp"))
  some ⟨key, value, source, timestamp⟩

/-- `from_dict` of what has passed the checks. -/
def fromDict (data : PyJson) : Option (WorkingMemory python) := do
  let goalSetAt ← optionalTimeOf python (data.get (lit "goal_set_at"))
  let turns ← match turnsOf data with
    | .int turns => some turns
    | _ => none
  let tasks ← (← itemsOf data (lit "tasks")).mapM (taskFromDict python)
  let information ← (← itemsOf data (lit "collected_info")).mapM (infoFromDict python)
  let notes ← (← itemsOf data (lit "notes")).mapM PyJson.asStr
  some {
    sessionId := data.get (lit "session_id")
    goal := (data.get (lit "goal")).asStr
    goalSetAt := goalSetAt
    turnsSinceGoal := turns
    tasks := tasks
    collectedInfo := information
    notes := notes
    archived := data.get (lit "archived")
    sharesNotes := false }

def fromPersistedDict (data : PyJson) (expectedSessionId : PyStr) : Except String (WorkingMemory python) := do
  checkPersisted python data expectedSessionId
  okOr (fromDict python data) "Persisted working memory payload is invalid"

end TaskMemory
