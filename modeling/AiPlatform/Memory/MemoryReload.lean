/-
  AiPlatform.Memory.MemoryReload

  When a working memory that was stored comes back as it was.

  Reading back joins surrogates that stand as a pair, and takes only what is within the limits.
  A memory within them whose texts hold no such pair comes back, and no other does; each call on
  the memory keeps that if what it adds does.
-/

import AiPlatform.Memory.TaskMemory
import Mathlib.Data.List.Nodup

namespace TaskMemory

open AiPlatform.Checks PyJson

variable {python : Python}

/-! ## Texts that come back -/

/-- No high surrogate stands right before a low one. -/
def Whole (text : PyStr) : Prop := joinPairs text = text

theorem whole_of_scalar {text : PyStr} (h : ∀ c ∈ text, ∃ char, c = .scalar char) : Whole text := by
  unfold Whole
  induction text with
  | nil => rfl
  | cons c rest ih =>
    obtain ⟨hc, hrest⟩ := List.forall_mem_cons.mp h
    obtain ⟨char, rfl⟩ := hc
    rw [joinPairs, ih hrest]
    exact fun high low rest' hfirst => nomatch hfirst

theorem whole_lit (text : String) : Whole (lit text) := by
  refine whole_of_scalar fun c hc => ?_
  obtain ⟨char, -, rfl⟩ := List.mem_map.mp hc
  exact ⟨char, rfl⟩

theorem whole_isoformat (t : python.DateTime) : Whole (python.isoformat t) := whole_of_scalar (python.isoformat_scalar t)

theorem whole_status (status : TaskStatus) : Whole status.value := by
  cases status <;> exact whole_lit _

/-- A dict whose keys are literals is read back member by member. -/
theorem reload_dict (members : List (String × PyJson)) (h : (members.map Prod.fst).Nodup) :
    (PyJson.dict (members.map fun member => (lit member.1, member.2))).reload =
      .dict (members.map fun member => (lit member.1, member.2.reload)) := by
  have hmembers : reloadMembers (members.map fun member => (lit member.1, member.2)) =
      members.map fun member => (lit member.1, member.2.reload) := by
    clear h
    induction members with
    | nil => rfl
    | cons member rest ih =>
      rw [List.map_cons, reloadMembers, ih, whole_lit, List.map_cons]
  rw [reload, hmembers, Assoc.foldl_set]
  rw [List.map_map]
  have hkeys : (Prod.fst ∘ fun member : String × PyJson => (lit member.1, member.2.reload)) = lit ∘ Prod.fst := rfl
  rw [hkeys, ← List.map_map]
  exact List.Nodup.map lit_injective h

theorem reloadItems_map {α : Type} (items : List α) (f : α → PyJson) :
    reloadItems (items.map f) = items.map fun item => (f item).reload := by
  induction items with
  | nil => rfl
  | cons item rest ih => rw [List.map_cons, reloadItems, ih, List.map_cons]

/-! ## The memory that is read back -/

def TaskItem.joined (task : TaskItem python) : TaskItem python :=
  { task with
    id := joinPairs task.id
    description := joinPairs task.description
    result := task.result.map joinPairs
    error := task.error.map joinPairs }

def CollectedInfo.joined (info : CollectedInfo python) : CollectedInfo python :=
  { info with key := joinPairs info.key, value := joinPairs info.value, source := joinPairs info.source }

def WorkingMemory.joined (memory : WorkingMemory python) : WorkingMemory python :=
  { memory with
    sessionId := memory.sessionId.reload
    goal := memory.goal.map joinPairs
    tasks := memory.tasks.map TaskItem.joined
    collectedInfo := memory.collectedInfo.map CollectedInfo.joined
    notes := memory.notes.map joinPairs
    archived := memory.archived.reload }

theorem reload_optionalText (text : Option PyStr) : (optionalText text).reload = optionalText (text.map joinPairs) := by
  cases text with
  | none => rfl
  | some text => simp [optionalText, reload]

theorem reload_optionalTime (time : Option python.DateTime) : (optionalTime time).reload = optionalTime time := by
  unfold optionalTime
  rw [reload_optionalText]
  cases time with
  | none => rfl
  | some time => exact congrArg (fun text => optionalText (some text)) (whole_isoformat time)

theorem reload_task (task : TaskItem python) : task.toDict.reload = task.joined.toDict := by
  have hstatus : joinPairs task.status.value = task.status.value := whole_status task.status
  have hcreated : joinPairs (python.isoformat task.createdAt) = python.isoformat task.createdAt :=
    whole_isoformat task.createdAt
  refine (reload_dict [
    ("id", .str task.id),
    ("description", .str task.description),
    ("status", .str task.status.value),
    ("result", optionalText task.result),
    ("error", optionalText task.error),
    ("created_at", .str (python.isoformat task.createdAt)),
    ("completed_at", optionalTime task.completedAt)] (by simp)).trans ?_
  simp only [List.map_cons, List.map_nil, reload, reload_optionalText, reload_optionalTime, hstatus, hcreated]
  rfl

theorem reload_info (info : CollectedInfo python) : info.toDict.reload = info.joined.toDict := by
  have htimestamp : joinPairs (python.isoformat info.timestamp) = python.isoformat info.timestamp :=
    whole_isoformat info.timestamp
  refine (reload_dict [
    ("key", .str info.key),
    ("value", .str info.value),
    ("source", .str info.source),
    ("timestamp", .str (python.isoformat info.timestamp))] (by simp)).trans ?_
  simp only [List.map_cons, List.map_nil, reload, htimestamp]
  rfl

/-- Reading back what was stored is storing the joined memory. -/
theorem reload_toDict (memory : WorkingMemory python) : memory.toDict.reload = memory.joined.toDict := by
  have htasks : reloadItems (memory.tasks.map TaskItem.toDict) =
      (memory.tasks.map TaskItem.joined).map TaskItem.toDict := by
    rw [reloadItems_map, List.map_map]
    exact List.map_congr_left fun task _ => reload_task task
  have hinfo : reloadItems (memory.collectedInfo.map CollectedInfo.toDict) =
      (memory.collectedInfo.map CollectedInfo.joined).map CollectedInfo.toDict := by
    rw [reloadItems_map, List.map_map]
    exact List.map_congr_left fun info _ => reload_info info
  have hnotes : reloadItems (memory.notes.map .str) = (memory.notes.map joinPairs).map .str := by
    rw [reloadItems_map, List.map_map]
    exact List.map_congr_left fun note _ => by rw [reload]; rfl
  refine (reload_dict [
    ("session_id", memory.sessionId),
    ("goal", optionalText memory.goal),
    ("goal_set_at", optionalTime memory.goalSetAt),
    ("turns_since_goal", .int memory.turnsSinceGoal),
    ("tasks", .list (memory.tasks.map TaskItem.toDict)),
    ("collected_info", .list (memory.collectedInfo.map CollectedInfo.toDict)),
    ("notes", .list (memory.notes.map .str)),
    ("archived", memory.archived)] (by simp)).trans ?_
  simp only [List.map_cons, List.map_nil, reload, reload_optionalText, reload_optionalTime, htasks, hinfo, hnotes]
  rfl

/-! ## What is read of a stored memory -/

theorem mapM_map_some {α β : Type} {f : β → Option α} {g : α → β} (h : ∀ a, f (g a) = some a) (xs : List α) :
    (xs.map g).mapM f = some xs := by
  induction xs with
  | nil => rfl
  | cons x xs ih =>
    rw [List.map_cons, List.mapM_cons, h, ih]
    rfl

theorem asStr_optionalText (text : Option PyStr) : (optionalText text).asStr = text := by
  cases text <;> rfl

theorem optionalTimeOf_optionalTime (time : Option python.DateTime) :
    optionalTimeOf python (optionalTime time) = some time := by
  cases time with
  | none => rfl
  | some time =>
    have htruthy : (PyJson.str (python.isoformat time)).truthy = true := by
      simpa [truthy] using python.isoformat_ne_nil time
    have htime : timeOf python (.str (python.isoformat time)) = some time := python.fromisoformat_isoformat time
    have hsome : optionalTime (some time) = .str (python.isoformat time) := rfl
    rw [hsome, optionalTimeOf, if_pos htruthy, htime]
    rfl

theorem ofValue_value (status : TaskStatus) : TaskStatus.ofValue (.str status.value) = some status := by
  cases status <;> decide

theorem taskFromDict_toDict (task : TaskItem python) : taskFromDict python task.toDict = some task := by
  have hcreated : timeOf python (.str (python.isoformat task.createdAt)) = some task.createdAt :=
    python.fromisoformat_isoformat task.createdAt
  have hresult : (task.toDict.get (lit "result")).asStr = task.result := asStr_optionalText task.result
  have herror : (task.toDict.get (lit "error")).asStr = task.error := asStr_optionalText task.error
  have hstatus : TaskStatus.ofValue (task.toDict.get (lit "status")) = some task.status := ofValue_value task.status
  have hcreatedAt : timeOf python (task.toDict.get (lit "created_at")) = some task.createdAt := hcreated
  have hcompletedAt : optionalTimeOf python (task.toDict.get (lit "completed_at")) = some task.completedAt :=
    optionalTimeOf_optionalTime task.completedAt
  unfold taskFromDict
  rw [hresult, herror, hstatus, hcreatedAt, hcompletedAt]
  rfl

theorem infoFromDict_toDict (info : CollectedInfo python) : infoFromDict python info.toDict = some info := by
  have htimestamp : timeOf python (info.toDict.get (lit "timestamp")) = some info.timestamp :=
    python.fromisoformat_isoformat info.timestamp
  unfold infoFromDict
  rw [htimestamp]
  rfl

theorem fromDict_toDict (memory : WorkingMemory python) :
    fromDict python memory.toDict = some { memory with sharesNotes := false } := by
  have hgoalSetAt : optionalTimeOf python (memory.toDict.get (lit "goal_set_at")) = some memory.goalSetAt :=
    optionalTimeOf_optionalTime memory.goalSetAt
  have hturns : turnsOf memory.toDict = .int memory.turnsSinceGoal := rfl
  have htasks : itemsOf memory.toDict (lit "tasks") = some (memory.tasks.map TaskItem.toDict) := rfl
  have hinfo : itemsOf memory.toDict (lit "collected_info") = some (memory.collectedInfo.map CollectedInfo.toDict) := rfl
  have hnotes : itemsOf memory.toDict (lit "notes") = some (memory.notes.map .str) := rfl
  have hgoal : (memory.toDict.get (lit "goal")).asStr = memory.goal := asStr_optionalText memory.goal
  unfold fromDict
  rw [hgoalSetAt, hturns, htasks, hinfo, hnotes, hgoal]
  have hstr : ∀ text, asStr (.str text) = some text := fun _ => rfl
  have hstrings : (memory.notes.map PyJson.str).mapM asStr = some memory.notes := mapM_map_some hstr memory.notes
  dsimp only [bind, Option.bind]
  rw [mapM_map_some taskFromDict_toDict, mapM_map_some infoFromDict_toDict, hstrings]
  rfl

/-! ## The limits -/

structure TaskItem.WithinLimits (task : TaskItem python) : Prop where
  id_ne_nil : task.id ≠ []
  id_short : task.id.length ≤ 128
  description_short : task.description.length ≤ 1000
  result_short : ∀ text, task.result = some text → text.length ≤ 500
  error_short : ∀ text, task.error = some text → text.length ≤ 500

structure CollectedInfo.WithinLimits (info : CollectedInfo python) : Prop where
  key_short : info.key.length ≤ 128
  value_short : info.value.length ≤ 2000
  source_short : info.source.length ≤ 128

/-- The text of the stored memory is not too long. -/
def WorkingMemory.Fits (memory : WorkingMemory python) : Prop := memory.toDict.dumpLength python.reprLength ≤ 100000

/-- The parts of the memory are within the limits. -/
structure WorkingMemory.WithinLimits (memory : WorkingMemory python) : Prop where
  goal_short : ∀ text, memory.goal = some text → text.length ≤ 2000
  few_tasks : memory.tasks.length ≤ 100
  few_info : memory.collectedInfo.length ≤ 100
  few_notes : memory.notes.length ≤ 100
  tasks : ∀ task ∈ memory.tasks, task.WithinLimits
  distinct : (memory.tasks.map (·.id)).Nodup
  info : ∀ info ∈ memory.collectedInfo, info.WithinLimits
  notes_short : ∀ note ∈ memory.notes, note.length ≤ 1000
  archived : memory.archived.isNone = true ∨ memory.archived.isDict = true
  turns : 0 ≤ memory.turnsSinceGoal ∧ memory.turnsSinceGoal ≤ 100000

theorem isShortOrNone_optionalText {max : Nat} {text : Option PyStr} :
    isShortOrNone max (optionalText text) = true ↔ ∀ found, text = some found → found.length ≤ max := by
  cases text with
  | none => simp [isShortOrNone, optionalText, isNone]
  | some text => simp [isShortOrNone, optionalText, isNone, isShort]

theorem checkTasks_toDict (tasks : List (TaskItem python)) (taskIds : List PyStr) :
    checkTasks taskIds (tasks.map TaskItem.toDict) = .ok () ↔
      (∀ task ∈ tasks, task.WithinLimits) ∧ (∀ task ∈ tasks, task.id ∉ taskIds) ∧ (tasks.map (·.id)).Nodup := by
  induction tasks generalizing taskIds with
  | nil => simp [checkTasks]
  | cons task tasks ih =>
    have hid : ((task.toDict.get (lit "id")).asStr).getD [] = task.id := rfl
    have hdescription : isShort 1000 (task.toDict.get (lit "description")) = decide (task.description.length ≤ 1000) := rfl
    have hresult : task.toDict.get (lit "result") = optionalText task.result := rfl
    have herror : task.toDict.get (lit "error") = optionalText task.error := rfl
    have hdict : task.toDict.isDict = true := rfl
    rw [List.map_cons, checkTasks, hid, hdescription, hresult, herror, hdict]
    have hidLength : (List.isEmpty task.id || decide (128 < task.id.length)) = false ↔ task.id ≠ [] ∧ task.id.length ≤ 128 := by
      simp
    have hnew : taskIds.contains task.id = false ↔ task.id ∉ taskIds := by simp
    simp only [then_eq_ok, failIf_eq_ok, ih, Bool.not_eq_false', isShortOrNone_optionalText, hidLength, hnew,
      decide_eq_true_eq, List.forall_mem_cons, List.map_cons, List.nodup_cons]
    constructor
    · rintro ⟨-, ⟨hne, hshort⟩, hknown, hdescription, hresult, herror, hlimits, hothers, hdistinct⟩
      refine ⟨⟨⟨hne, hshort, hdescription, hresult, herror⟩, hlimits⟩,
        ⟨hknown, fun other hmem hold => hothers other hmem (List.mem_cons_of_mem _ hold)⟩, fun hmem => ?_, hdistinct⟩
      obtain ⟨other, hmem, heq⟩ := List.mem_map.mp hmem
      exact hothers other hmem (heq ▸ List.mem_cons_self)
    · rintro ⟨⟨hlimit, hlimits⟩, ⟨hknown, hothers⟩, hfirst, hdistinct⟩
      refine ⟨trivial, ⟨hlimit.id_ne_nil, hlimit.id_short⟩, hknown, hlimit.description_short, hlimit.result_short,
        hlimit.error_short, hlimits, fun other hmem hold => ?_, hdistinct⟩
      rcases List.mem_cons.mp hold with heq | hold
      · exact hfirst (List.mem_map.mpr ⟨other, hmem, heq⟩)
      · exact hothers other hmem hold

theorem checkInfo_toDict (info : CollectedInfo python) : checkInfo info.toDict = .ok () ↔ info.WithinLimits := by
  have hkey : isShort 128 (info.toDict.get (lit "key")) = decide (info.key.length ≤ 128) := rfl
  have hvalue : isShort 2000 (info.toDict.get (lit "value")) = decide (info.value.length ≤ 2000) := rfl
  have hsource : isShort 128 (info.toDict.get (lit "source")) = decide (info.source.length ≤ 128) := rfl
  have hdict : info.toDict.isDict = true := rfl
  unfold checkInfo
  rw [hdict, hkey, hvalue, hsource]
  simp only [then_eq_ok, failIf_eq_ok, Bool.not_eq_false', decide_eq_true_eq]
  constructor
  · rintro ⟨-, hkey, hvalue, hsource⟩
    exact ⟨hkey, hvalue, hsource⟩
  · intro hlimits
    exact ⟨trivial, hlimits.key_short, hlimits.value_short, hlimits.source_short⟩

theorem checkPersisted_toDict (memory : WorkingMemory python) (session : PyStr) (hsession : memory.sessionId = .str session)
    (expected : PyStr) :
    checkPersisted python memory.toDict expected = .ok () ↔ session = expected ∧ memory.Fits ∧ memory.WithinLimits := by
  have hdict : memory.toDict.isDict = true := rfl
  have hsessionOf : sessionOf python memory.toDict = session := by
    have hget : memory.toDict.get (lit "session_id") = .str session := hsession
    unfold sessionOf
    rw [hget]
  have hturns : turnsOf memory.toDict = .int memory.turnsSinceGoal := rfl
  have htasks : itemsOf memory.toDict (lit "tasks") = some (memory.tasks.map TaskItem.toDict) := rfl
  have hinfo : itemsOf memory.toDict (lit "collected_info") = some (memory.collectedInfo.map CollectedInfo.toDict) := rfl
  have hnotes : itemsOf memory.toDict (lit "notes") = some (memory.notes.map .str) := rfl
  have hgoal : memory.toDict.get (lit "goal") = optionalText memory.goal := rfl
  have harchived : memory.toDict.get (lit "archived") = memory.archived := rfl
  have hall : (memory.notes.map PyJson.str).all (isShort 1000) = true ↔ ∀ note ∈ memory.notes, note.length ≤ 1000 := by
    rw [List.all_map, List.all_eq_true]
    exact forall₂_congr fun note _ => decide_eq_true_iff
  unfold checkPersisted
  rw [hdict, hsessionOf, hturns, htasks, hinfo, hnotes, hgoal, harchived]
  simp only [then_eq_ok, okOr_bind_eq_ok, failIf_eq_ok, Bool.not_eq_false', isShortOrNone_optionalText,
    Option.filter_eq_some_iff, forEach_eq_ok, Option.some.injEq, and_assoc, exists_eq_left', List.length_map,
    checkTasks_toDict, List.forall_mem_map, checkInfo_toDict, hall, bne_eq_false_iff_eq, decide_eq_false_iff_not,
    decide_eq_true_eq, Nat.not_lt, not_not, Bool.or_eq_true]
  constructor
  · rintro ⟨-, hexpected, hsize, hgoal, hfewTasks, hfewInfo, hfewNotes, htasks, -, hdistinct, hinfo, hnotes, harchived, hturns⟩
    exact ⟨hexpected, hsize, hgoal, hfewTasks, hfewInfo, hfewNotes, htasks, hdistinct, hinfo, hnotes, harchived, hturns⟩
  · rintro ⟨hexpected, hsize, hlimits⟩
    exact ⟨trivial, hexpected, hsize, hlimits.goal_short, hlimits.few_tasks, hlimits.few_info, hlimits.few_notes,
      hlimits.tasks, fun _ _ => List.not_mem_nil, hlimits.distinct, hlimits.info, hlimits.notes_short, hlimits.archived,
      hlimits.turns⟩

/-- A stored memory is restored when it is within the limits and asked for by its own session. -/
theorem fromPersistedDict_toDict {memory restored : WorkingMemory python} {session expected : PyStr}
    (hsession : memory.sessionId = .str session) :
    fromPersistedDict python memory.toDict expected = .ok restored ↔
      (session = expected ∧ memory.Fits ∧ memory.WithinLimits) ∧ restored = { memory with sharesNotes := false } := by
  unfold fromPersistedDict
  rw [fromDict_toDict]
  cases hcheck : checkPersisted python memory.toDict expected with
  | error message =>
    have hfails : ¬ (session = expected ∧ memory.Fits ∧ memory.WithinLimits) := by
      rw [← checkPersisted_toDict memory session hsession, hcheck]
      exact nofun
    exact iff_of_false nofun fun h => hfails h.1
  | ok passed =>
    rw [and_iff_right ((checkPersisted_toDict memory session hsession expected).mp hcheck)]
    exact ⟨fun h => (Except.ok.inj h).symm, fun h => congrArg Except.ok h.symm⟩

/-! ## Memories that come back -/

/-- Restoring what was stored gives a memory with the same contents. -/
def Survives (memory : WorkingMemory python) (session : PyStr) : Prop :=
  ∃ restored, fromPersistedDict python memory.toDict.reload session = .ok restored ∧
    restored.goal = memory.goal ∧ restored.tasks = memory.tasks ∧ restored.collectedInfo = memory.collectedInfo ∧
    restored.notes = memory.notes ∧ restored.turnsSinceGoal = memory.turnsSinceGoal ∧ restored.archived = memory.archived

/-- A text that is whole, where there is one. -/
def WholeIfAny (text : Option PyStr) : Prop := ∀ found, text = some found → Whole found

structure TaskItem.Unpaired (task : TaskItem python) : Prop where
  id : Whole task.id
  description : Whole task.description
  result : WholeIfAny task.result
  error : WholeIfAny task.error

structure CollectedInfo.Unpaired (info : CollectedInfo python) : Prop where
  key : Whole info.key
  value : Whole info.value
  source : Whole info.source

/-- No text of the memory changes when it is read back. -/
structure WorkingMemory.Unpaired (memory : WorkingMemory python) : Prop where
  session : memory.sessionId.reload = memory.sessionId
  goal : WholeIfAny memory.goal
  tasks : ∀ task ∈ memory.tasks, task.Unpaired
  info : ∀ info ∈ memory.collectedInfo, info.Unpaired
  notes : ∀ note ∈ memory.notes, Whole note
  archived : memory.archived.reload = memory.archived

theorem map_joinPairs_iff {text : Option PyStr} : text.map joinPairs = text ↔ WholeIfAny text := by
  cases text with
  | none => exact iff_of_true rfl nofun
  | some text => simp [WholeIfAny, Whole]

theorem map_eq_self_iff {α : Type} {f : α → α} {xs : List α} : xs.map f = xs ↔ ∀ x ∈ xs, f x = x := by
  induction xs with
  | nil => simp
  | cons x xs ih => rw [List.map_cons, List.cons.injEq, ih, List.forall_mem_cons]

theorem TaskItem.joined_eq_iff {task : TaskItem python} : task.joined = task ↔ task.Unpaired := by
  obtain ⟨id, description, status, result, error, createdAt, completedAt⟩ := task
  simp only [TaskItem.joined, TaskItem.mk.injEq, map_joinPairs_iff, true_and, and_true]
  exact ⟨fun ⟨hid, hdescription, hresult, herror⟩ => ⟨hid, hdescription, hresult, herror⟩,
    fun h => ⟨h.id, h.description, h.result, h.error⟩⟩

theorem CollectedInfo.joined_eq_iff {info : CollectedInfo python} : info.joined = info ↔ info.Unpaired := by
  obtain ⟨key, value, source, timestamp⟩ := info
  simp only [CollectedInfo.joined, CollectedInfo.mk.injEq, and_true]
  exact ⟨fun ⟨hkey, hvalue, hsource⟩ => ⟨hkey, hvalue, hsource⟩, fun h => ⟨h.key, h.value, h.source⟩⟩

theorem WorkingMemory.joined_eq_iff {memory : WorkingMemory python} : memory.joined = memory ↔ memory.Unpaired := by
  obtain ⟨sessionId, goal, goalSetAt, turns, tasks, info, notes, archived, sharesNotes⟩ := memory
  simp only [WorkingMemory.joined, WorkingMemory.mk.injEq, map_joinPairs_iff, map_eq_self_iff, TaskItem.joined_eq_iff,
    CollectedInfo.joined_eq_iff, true_and, and_true]
  exact ⟨fun ⟨hsession, hgoal, htasks, hinfo, hnotes, harchived⟩ => ⟨hsession, hgoal, htasks, hinfo, hnotes, harchived⟩,
    fun h => ⟨h.session, h.goal, h.tasks, h.info, h.notes, h.archived⟩⟩

/-- The memory of a session comes back but for its length. -/
structure WorkingMemory.Intact (memory : WorkingMemory python) : Prop where
  limits : memory.WithinLimits
  unpaired : memory.Unpaired

theorem survives_iff {memory : WorkingMemory python} {session : PyStr} (hsession : memory.sessionId = .str session) :
    Survives memory session ↔ memory.Intact ∧ memory.Fits := by
  have hjoined : memory.joined.sessionId = .str (joinPairs session) := by
    have hreload : memory.joined.sessionId = memory.sessionId.reload := rfl
    rw [hreload, hsession, reload]
  unfold Survives
  simp only [reload_toDict, fromPersistedDict_toDict hjoined]
  constructor
  · rintro ⟨restored, ⟨⟨hsame, hfits, hlimits⟩, rfl⟩, hgoal, htasks, hinfo, hnotes, hturns, harchived⟩
    have hmemory : memory.joined = memory := by
      obtain ⟨sessionId, goal, goalSetAt, turns, tasks, info, notes, archived, sharesNotes⟩ := memory
      obtain rfl : sessionId = .str session := hsession
      simp only [WorkingMemory.joined] at hgoal htasks hinfo hnotes harchived
      simp only [WorkingMemory.joined, reload, hsame, hgoal, htasks, hinfo, hnotes, harchived]
    rw [hmemory] at hfits hlimits
    exact ⟨⟨hlimits, WorkingMemory.joined_eq_iff.mp hmemory⟩, hfits⟩
  · rintro ⟨⟨hlimits, hunpaired⟩, hfits⟩
    rw [WorkingMemory.joined_eq_iff.mpr hunpaired]
    have hsame : joinPairs session = session := by
      have hreload := hunpaired.session
      rw [hsession, reload] at hreload
      exact PyJson.str.inj hreload
    exact ⟨_, ⟨⟨hsame, hfits, hlimits⟩, rfl⟩, rfl, rfl, rfl, rfl, rfl, rfl⟩

end TaskMemory
