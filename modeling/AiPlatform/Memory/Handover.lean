/-
  AiPlatform.Memory.Handover

  A todo list that the worker has written, as the gateway's own process restores it.

  The worker leaves nothing in a memory that Python would refuse, but for its length: the
  two count the characters of different texts.
-/

import AiPlatform.Memory.MemoryRuns
import AiPlatform.Memory.TodoRuns

namespace Handover

open WorkingMemory (Members TodoStatus TodoWriteItem Rfc3339 Sha256 Context ValidItem Listed Stored taskOf tasksOf
  hadState rewritten archiveAfter envelopeOf validText_id id_injective validateWorkingMemory liveMemory parseTodoItems
  parseTodoItems_valid replaceTodoEnvelope replaceTodoEnvelope_stored initialWorkingMemoryEnvelope initial_eq listed_nil
  characters memberCharacters characters_object characters_array characters_string characters_initial_le maxTodoItems
  maxWorkingMemoryBytes letterItem letterArgument parseTodoItem_letters sessionDigest sessionA)
open AiPlatform.Json AiPlatform.Capability AiPlatform.Checks PyJson TaskMemory

/-! ## The same document on the other side -/

mutual

/-- `json.loads` of the text of a value. -/
def loaded : Value → PyJson
  | .null => .none
  | .bool b => .bool b
  | .number (.posInt n) => .int n.toNat
  | .number (.negInt n) => .int n.toInt
  | .number (.float bits) => .float bits
  | .string text => .str (lit text)
  | .array items => .list (loadedItems items)
  | .object members => .dict (loadedMembers members)

def loadedItems : List Value → List PyJson
  | [] => []
  | item :: rest => loaded item :: loadedItems rest

def loadedMembers : List (String × Value) → List (PyStr × PyJson)
  | [] => []
  | (key, value) :: rest => (lit key, loaded value) :: loadedMembers rest

end

theorem loadedItems_eq (items : List Value) : loadedItems items = items.map loaded := by
  induction items with
  | nil => rfl
  | cons item rest ih => rw [loadedItems, ih, List.map_cons]

theorem length_loadedMembers (members : Members) : (loadedMembers members).length = members.length := by
  induction members with
  | nil => rfl
  | cons member rest ih => rw [loadedMembers, List.length_cons, ih, List.length_cons]

section Members

variable {members : Members} {key : String}

theorem lookup_loadedMembers : (loadedMembers members).lookup (lit key) = (members.lookup key).map loaded := by
  induction members with
  | nil => rfl
  | cons member rest ih =>
    rw [loadedMembers, List.lookup_cons, List.lookup_cons, lit_beq, ih]
    cases key == member.1 <;> rfl

theorem get_loaded : (loaded (.object members)).get (lit key) = loaded ((members.lookup key).getD .null) := by
  rw [loaded, get_dict, lookup_loadedMembers]
  cases members.lookup key <;> rfl

theorem has_loaded : (loaded (.object members)).has (lit key) = (members.lookup key).isSome := by
  rw [loaded, has_dict, lookup_loadedMembers, Option.isSome_map]

theorem itemsOf_loaded {values : List Value} (h : members.lookup key = some (.array values)) :
    itemsOf (loaded (.object members)) (lit key) = some (values.map loaded) := by
  rw [itemsOf, has_loaded, get_loaded, h, ← loadedItems_eq]
  rfl

theorem turnsOf_loaded (h : members.lookup "turns_since_goal" = some (.number (.posInt 0))) :
    turnsOf (loaded (.object members)) = .int 0 := by
  rw [turnsOf, has_loaded, get_loaded, h]
  rfl

end Members

/-! ## The two texts -/

section Excess

variable (floatText : UInt64 → List Char) (floatLength : UInt64 → Nat)

mutual

/-- What the text of a value takes up more in Python: the blanks after commas and colons, and
    what its floats are longer by. -/
def excess : Value → Int
  | .number (.float bits) => floatLength bits - (floatText bits).length
  | .array items => excessItems items + (items.length - 1 : Nat)
  | .object members => excessMembers members + (members.length - 1 : Nat)
  | _ => 0

def excessItems : List Value → Int
  | [] => 0
  | item :: rest => excess item + excessItems rest

def excessMembers : List (String × Value) → Int
  | [] => 0
  | (_, value) :: rest => 1 + excess value + excessMembers rest

end

theorem dumpedLength_lit (text : String) : dumpedLength (lit text) = 1 + (JsonText.quoted text.toList).length := by
  rw [dumpedLength, lit, List.map_map, JsonText.length_quoted, ← Nat.add_assoc]
  rfl

theorem length_toString (n : Int) : (toString n).length = (integerText n).length := by
  cases n with
  | ofNat n => exact String.length_ofList
  | negSucc n =>
    have hdigits : (String.ofList (Nat.toDigits 10 (n + 1))).length = (Nat.toDigits 10 (n + 1)).length :=
      String.length_ofList
    rw [integerText, if_pos (Int.negSucc_lt_zero n), List.length_cons]
    show ("-" ++ String.ofList (Nat.toDigits 10 (n + 1))).length = _
    rw [String.length_append, hdigits]
    exact Nat.add_comm 1 _

mutual

/-- Python's text has the characters of the worker's and those. -/
theorem dumpLength_loaded : ∀ value : Value,
    ((loaded value).dumpLength floatLength : Int) = characters floatText value + excess floatText floatLength value
  | .null => rfl
  | .bool true => rfl
  | .bool false => rfl
  | .number (.posInt n) => congrArg Nat.cast (length_toString n.toNat)
  | .number (.negInt n) => congrArg Nat.cast (length_toString n.toInt)
  | .number (.float bits) => by
    show (floatLength bits : Int) = ((floatText bits).length : Nat) + (floatLength bits - (floatText bits).length)
    omega
  | .string text => by
    have htext := @characters_string floatText text
    simp only [loaded, dumpLength, dumpedLength_lit, htext, excess]
    omega
  | .array [] => rfl
  | .array (item :: rest) => by
    have hitems := dumpItems_loaded (item :: rest)
    have hlength : (loadedItems (item :: rest)).length = (item :: rest).length := by
      rw [loadedItems_eq, List.length_map]
    rw [List.length_cons] at hitems hlength
    -- a comma takes two characters of Python's text, and one of the worker's
    rw [loaded, dumpLength, characters_array (List.cons_ne_nil item rest), excess, hlength, List.length_cons]
    omega
  | .object [] => rfl
  | .object (member :: rest) => by
    have hmembers := dumpMembers_loaded (member :: rest)
    have hlength := length_loadedMembers (member :: rest)
    rw [List.length_cons] at hmembers hlength
    rw [loaded, dumpLength, characters_object (List.cons_ne_nil member rest), excess, hlength, List.length_cons]
    omega

theorem dumpItems_loaded : ∀ items : List Value,
    (dumpItems floatLength (loadedItems items) + items.length : Int) =
      ((items.map fun item => characters floatText item + 1).sum : Nat) + excessItems floatText floatLength items
  | [] => rfl
  | item :: rest => by
    have hitem := dumpLength_loaded item
    have hrest := dumpItems_loaded rest
    simp only [loadedItems, dumpItems, List.length_cons, List.map_cons, List.sum_cons, excessItems]
    omega

theorem dumpMembers_loaded : ∀ members : Members,
    (dumpMembers floatLength (loadedMembers members) + members.length : Int) =
      ((members.map (memberCharacters floatText)).sum : Nat) + excessMembers floatText floatLength members
  | [] => rfl
  | (key, value) :: rest => by
    have hvalue := dumpLength_loaded value
    have hrest := dumpMembers_loaded rest
    simp only [loadedMembers, dumpMembers, dumpedLength_lit, List.length_cons, List.map_cons, List.sum_cons,
      memberCharacters, excessMembers]
    omega

end

end Excess

/-! ## The tasks -/

/-- The status of an item as Python has it. -/
def statusOf : TodoStatus → TaskStatus
  | .pending => .pending
  | .inProgress => .inProgress
  | .completed => .completed
  | .failed => .failed

/-- The task of an item that was written at `time`. -/
def itemTask {python : Python} (time : python.DateTime) (index : Nat) (item : TodoWriteItem) : TaskItem python := {
  id := lit ("todo_" ++ toString index)
  description := lit item.description
  status := statusOf item.status
  result := none
  error := none
  createdAt := time
  completedAt := if item.status = .completed then some time else none }

variable {python : Python} {now : Rfc3339} {time : python.DateTime}

theorem ofValue_status (status : TodoStatus) : TaskStatus.ofValue (.str (lit status.asStr)) = some (statusOf status) := by
  have hvalue : lit status.asStr = (statusOf status).value := by
    cases status <;> rfl
  rw [hvalue, ofValue_value]

theorem optionalTimeOf_now (htime : python.fromisoformat (lit now.text) = some time) :
    optionalTimeOf python (.str (lit now.text)) = some (some time) := by
  have hne : lit now.text ≠ [] := by
    intro h
    have hlength := congrArg List.length h
    rw [lit, List.length_map, String.length_toList, List.length_nil] at hlength
    have := now.bounded.1
    omega
  simp [optionalTimeOf, truthy, hne, timeOf, asStr, htime]

theorem taskFromDict_taskOf (htime : python.fromisoformat (lit now.text) = some time) (index : Nat) (item : TodoWriteItem) :
    taskFromDict python (loaded (taskOf now index item)) = some (itemTask time index item) := by
  have hcompleted : optionalTimeOf python (loaded (if item.status = .completed then .string now.text else .null)) =
      some (if item.status = .completed then some time else none) := by
    split
    · exact optionalTimeOf_now htime
    · rfl
  have hcreated : timeOf python (loaded (.string now.text)) = some time := htime
  have hstatus : TaskStatus.ofValue (loaded (.string item.status.asStr)) = some (statusOf item.status) :=
    ofValue_status item.status
  unfold taskFromDict taskOf
  simp only [get_loaded, List.lookup_cons, String.reduceBEq, Option.getD_some, hcompleted, hcreated, hstatus]
  rfl

/-- Tasks with later numbers go on where earlier ones end. -/
theorem checkTasks_mapIdx (items : List TodoWriteItem) (hvalid : ∀ item ∈ items, ValidItem item) (ids : List PyStr)
    (start : Nat) (hlength : start + items.length ≤ 100)
    (hids : ∀ id ∈ ids, ∃ index < start, id = lit ("todo_" ++ toString index)) :
    checkTasks ids ((items.mapIdx fun i => taskOf now (i + start)).map loaded) = .ok () := by
  induction items generalizing ids start with
  | nil => rfl
  | cons item items ih =>
    obtain ⟨hitem, hitems⟩ := List.forall_mem_cons.mp hvalid
    rw [List.length_cons] at hlength
    have hrest : (items.mapIdx fun i => taskOf now (i + 1 + start)) = items.mapIdx fun i => taskOf now (i + (start + 1)) := by
      simp only [Nat.add_assoc, Nat.add_comm 1 start]
    have hnew : ids.contains (lit ("todo_" ++ toString start)) = false := by
      rw [← Bool.not_eq_true, List.contains_iff_mem]
      intro hmem
      obtain ⟨index, hindex, heq⟩ := hids _ hmem
      exact absurd (id_injective (lit_injective heq)) (by omega)
    have hmore : ∀ id ∈ lit ("todo_" ++ toString start) :: ids, ∃ index < start + 1, id = lit ("todo_" ++ toString index) := by
      refine List.forall_mem_cons.mpr ⟨⟨start, by omega, rfl⟩, fun id hmem => ?_⟩
      obtain ⟨index, hindex, heq⟩ := hids id hmem
      exact ⟨index, by omega, heq⟩
    -- the bounds are those that the worker has checked by its own count
    have hid := (Bool.and_eq_true_iff.mp (validText_id start (by omega))).1
    have hdescription := (Bool.and_eq_true_iff.mp hitem).1
    rw [decide_eq_true_iff] at hid hdescription
    have hidLength : (List.isEmpty (lit ("todo_" ++ toString start)) ||
        decide (128 < (lit ("todo_" ++ toString start)).length)) = false := by
      rw [Bool.or_eq_false_iff, List.isEmpty_eq_false_iff, ← List.length_pos_iff, decide_eq_false_iff_not, length_lit]
      exact ⟨hid.1, Nat.not_lt.mpr hid.2⟩
    have hshort : isShort 1000 (.str (lit item.description)) = true := by
      rw [isShort, decide_eq_true_iff, length_lit]
      exact hdescription.2
    have hget : ∀ key, (loaded (taskOf now start item)).get (lit key) = loaded (((taskOf now start item).get key).getD .null) :=
      fun key => get_loaded
    have hkeys : (taskOf now start item).get "id" = some (.string ("todo_" ++ toString start)) ∧
        (taskOf now start item).get "description" = some (.string item.description) ∧
        (taskOf now start item).get "result" = some .null ∧ (taskOf now start item).get "error" = some .null := by
      simp [taskOf, Value.get, List.lookup_cons]
    obtain ⟨hidKey, hdescriptionKey, hresultKey, herrorKey⟩ := hkeys
    rw [List.mapIdx_cons, hrest, Nat.zero_add, List.map_cons, checkTasks]
    simp only [hget, hidKey, hdescriptionKey, hresultKey, herrorKey, Option.getD_some, loaded, asStr, then_eq_ok,
      failIf_eq_ok, hidLength, hnew, hshort, isShortOrNone, isNone, Bool.not_true, Bool.true_or]
    exact ⟨rfl, trivial, trivial, trivial, trivial, trivial, ih hitems _ (start + 1) (by omega) hmore⟩

theorem mapM_taskFromDict (htime : python.fromisoformat (lit now.text) = some time) (items : List TodoWriteItem) (start : Nat) :
    ((items.mapIdx fun i => taskOf now (i + start)).map loaded).mapM (taskFromDict python) =
      some (items.mapIdx fun i => itemTask time (i + start)) := by
  induction items generalizing start with
  | nil => rfl
  | cons item items ih =>
    have hrest := ih (start + 1)
    simp only [List.mapIdx_cons, List.map_cons, List.mapM_cons, Nat.add_assoc, Nat.add_comm 1 start, hrest,
      taskFromDict_taskOf htime]
    rfl

/-! ## The memory -/

/-- What a write puts into the archive: the memory, if it holds anything, or else what was there. -/
def archivedBy (memory : Members) : Value :=
  if hadState memory then .object (Assoc.set "archived" .null memory) else (memory.lookup "archived").getD .null

/-- The memory of a session with the items alone. -/
def handedOver (time : python.DateTime) (sessionId : String) (items : List TodoWriteItem) (archived : Value) :
    WorkingMemory python :=
  { newMemory python (lit sessionId) with
    tasks := items.mapIdx (itemTask time)
    archived := loaded archived }

section Rewritten

variable {memory : Members} {sessionId : String} {items : List TodoWriteItem}

theorem lookup_rewritten :
    (rewritten memory now items).lookup "session_id" = memory.lookup "session_id" ∧
      (rewritten memory now items).lookup "goal" = some .null ∧
      (rewritten memory now items).lookup "goal_set_at" = some .null ∧
      (rewritten memory now items).lookup "turns_since_goal" = some (.number (.posInt 0)) ∧
      (rewritten memory now items).lookup "tasks" = some (.array (tasksOf now items)) ∧
      (rewritten memory now items).lookup "collected_info" = some (.array []) ∧
      (rewritten memory now items).lookup "notes" = some (.array []) ∧
      ((rewritten memory now items).lookup "archived").getD .null = archivedBy memory := by
  unfold rewritten archivedBy
  split <;> simp [Assoc.lookup_set_self, Assoc.lookup_set_ne]

theorem isDict_archivedBy (h : validateWorkingMemory memory sessionId = true) :
    ((loaded (archivedBy memory)).isNone || (loaded (archivedBy memory)).isDict) = true := by
  unfold archivedBy
  split
  · rfl
  · have harchived := (Bool.and_eq_true_iff.mp h).2
    cases hlookup : memory.lookup "archived" with
    | none => rfl
    | some archived =>
      rw [hlookup] at harchived
      cases archived with
      | null => rfl
      | object members => rfl
      | _ => cases harchived

theorem session_of_valid (h : validateWorkingMemory memory sessionId = true) :
    memory.lookup "session_id" = some (.string sessionId) := by
  unfold validateWorkingMemory at h
  simp only [Bool.and_eq_true] at h
  have hsession := h.1.1.1.1.1.1.1.2
  cases hlookup : memory.lookup "session_id" with
  | none =>
    rw [hlookup] at hsession
    cases hsession
  | some session =>
    rw [hlookup] at hsession
    cases session with
    | string text => exact congrArg (fun text => some (Value.string text)) (beq_iff_eq.mp hsession)
    | _ => cases hsession

/-- Python refuses a memory that was written only for its length. -/
theorem checkPersisted_rewritten (hvalid : validateWorkingMemory memory sessionId = true) (hlisted : Listed items) :
    checkPersisted python (loaded (.object (rewritten memory now items))) (lit sessionId) =
      failIf (decide (100000 < (loaded (.object (rewritten memory now items))).dumpLength python.reprLength))
        "Persisted working memory exceeds size limit" := by
  obtain ⟨hsession, hgoal, -, hturns, htasks, hinfo, hnotes, harchived⟩ := @lookup_rewritten now memory items
  have hsessionOf : sessionOf python (loaded (.object (rewritten memory now items))) = lit sessionId := by
    rw [sessionOf, get_loaded, hsession, session_of_valid hvalid]
    rfl
  have hfew : ((tasksOf now items).map loaded).length ≤ 100 := by
    rw [List.length_map, tasksOf, List.length_mapIdx]
    exact hlisted.length
  have hchecked : checkTasks [] ((tasksOf now items).map loaded) = .ok () := by
    refine checkTasks_mapIdx items hlisted.valid [] 0 ?_ fun _ hmem => absurd hmem List.not_mem_nil
    rw [Nat.zero_add]
    exact hlisted.length
  unfold checkPersisted
  rw [hsessionOf, itemsOf_loaded htasks, itemsOf_loaded hinfo, itemsOf_loaded hnotes, turnsOf_loaded hturns, get_loaded,
    hgoal, get_loaded, harchived, isDict_archivedBy hvalid, bne_self_eq_false, Option.filter_some,
    if_pos (decide_eq_true hfew)]
  cases failIf (decide (100000 < (loaded (.object (rewritten memory now items))).dumpLength python.reprLength))
    "Persisted working memory exceeds size limit" with
  | error message => rfl
  | ok passed =>
    -- all that is left of the checks is that of the tasks
    show (checkTasks [] ((tasksOf now items).map loaded) >>= fun _ => Except.ok ()) = .ok ()
    rw [hchecked]
    rfl

theorem fromDict_rewritten (hvalid : validateWorkingMemory memory sessionId = true)
    (htime : python.fromisoformat (lit now.text) = some time) :
    fromDict python (loaded (.object (rewritten memory now items))) =
      some (handedOver time sessionId items (archivedBy memory)) := by
  obtain ⟨hsession, hgoal, hgoalSetAt, hturns, htasks, hinfo, hnotes, harchived⟩ := @lookup_rewritten now memory items
  have hmapped : ((tasksOf now items).map loaded).mapM (taskFromDict python) = some (items.mapIdx (itemTask time)) :=
    mapM_taskFromDict htime items 0
  unfold fromDict
  rw [itemsOf_loaded htasks, itemsOf_loaded hinfo, itemsOf_loaded hnotes, turnsOf_loaded hturns]
  simp only [get_loaded, hsession, session_of_valid hvalid, hgoal, hgoalSetAt, harchived, Option.getD_some]
  simp only [bind, Option.bind, hmapped]
  rfl

theorem rewritten_of_replace {floatText : UInt64 → List Char} {sha256 : Sha256} {context : Context} {value written : Value}
    (h : replaceTodoEnvelope floatText sha256 value context items now = .ok written) :
    ∃ memory, liveMemory value = some memory ∧ liveMemory written = some (rewritten memory now items) ∧
      validateWorkingMemory memory context.sessionId = true := by
  unfold replaceTodoEnvelope at h
  split at h
  · cases h
  · case h_2 object hobject =>
    split at h
    · cases h
    · split at h
      · cases h
      · split at h
        · cases h
        · case h_2 memory hmemory =>
          dsimp only at h
          split at h
          · cases h
          · case isFalse hvalid =>
            split at h
            · cases h
            · split at h
              · cases h
              · obtain rfl := Except.ok.inj h
                cases value with
                | object members =>
                  obtain rfl := Option.some.inj hobject
                  refine ⟨memory, hmemory, ?_, by simpa using hvalid⟩
                  simp [liveMemory, Value.get, Value.asObject, Assoc.lookup_set_self]
                | _ => cases hobject

/-- What Python makes of a list that the worker has written. -/
theorem fromPersistedDict_written {floatText : UInt64 → List Char} {sha256 : Sha256} {context : Context}
    {arguments : Members} {value written : Value} (hparsed : parseTodoItems arguments = .ok items)
    (hwritten : replaceTodoEnvelope floatText sha256 value context items now = .ok written)
    (htime : python.fromisoformat (lit now.text) = some time) :
    ∃ before after, liveMemory value = some before ∧ liveMemory written = some after ∧
      fromPersistedDict python (loaded (.object after)) (lit context.sessionId) =
        if 100000 < characters floatText (.object after) + excess floatText python.reprLength (.object after) then
          .error "Persisted working memory exceeds size limit"
        else .ok (handedOver time context.sessionId items (archivedBy before)) := by
  obtain ⟨before, hbefore, hafter, hvalid⟩ := rewritten_of_replace hwritten
  obtain ⟨hlength, hitems⟩ := parseTodoItems_valid hparsed
  refine ⟨before, _, hbefore, hafter, ?_⟩
  have hsize := dumpLength_loaded floatText python.reprLength (.object (rewritten before now items))
  unfold fromPersistedDict
  rw [checkPersisted_rewritten hvalid ⟨hlength, hitems⟩, fromDict_rewritten hvalid htime, ← hsize, failIf]
  simp only [decide_eq_true_eq, Nat.ofNat_lt_cast]
  split <;> rfl

end Rewritten

/-! ## One list -/

def newYear : Rfc3339 where
  text := "2026-01-01T00:00:00+00:00"
  bounded := by decide
  plain := by
    have hplain : ("2026-01-01T00:00:00+00:00".toList.all fun c => "0123456789-:.+T".toList.contains c) = true := by decide
    exact fun c hc => List.contains_iff_mem.mp (List.all_eq_true.mp hplain c hc)

/-- The first list of a session, of one item. -/
theorem fromPersistedDict_written_letter :
    ∃ before after, liveMemory (initialWorkingMemoryEnvelope sessionDigest sessionA) = some before ∧
      liveMemory (envelopeOf sessionDigest sessionA (tasksOf newYear [letterItem 1]) .null) = some after ∧
      fromPersistedDict oneTime (loaded (.object after)) (lit sessionA.sessionId) =
        if 100000 < characters sampleFloatText (.object after) + excess sampleFloatText oneTime.reprLength (.object after) then
          .error "Persisted working memory exceeds size limit"
        else .ok (handedOver () sessionA.sessionId [letterItem 1] (archivedBy before)) := by
  have hparsed : parseTodoItems [("items", .array [letterArgument 1])] = .ok [letterItem 1] := by
    have hitem := parseTodoItem_letters (Nat.le_refl 1) (by decide)
    simp [parseTodoItems, Value.asArray, hitem, maxTodoItems]
  have hwritten : replaceTodoEnvelope sampleFloatText sessionDigest (initialWorkingMemoryEnvelope sessionDigest sessionA)
      sessionA [letterItem 1] newYear = .ok (envelopeOf sessionDigest sessionA (tasksOf newYear [letterItem 1]) .null) := by
    have hstored : Stored sampleFloatText sessionDigest sessionA newYear [] .null := ⟨listed_nil, rfl, characters_initial_le⟩
    have hlisted : Listed [letterItem 1] := ⟨(parseTodoItems_valid hparsed).1, (parseTodoItems_valid hparsed).2⟩
    have hnothing : tasksOf newYear [] = [] := rfl
    have harchived : archiveAfter sessionA.sessionId [] .null = .null := rfl
    have hreplaced := @replaceTodoEnvelope_stored sampleFloatText sessionDigest sessionA newYear newYear [] _ _ hstored hlisted
    have hfits : ¬ maxWorkingMemoryBytes <
        characters sampleFloatText (envelopeOf sessionDigest sessionA (tasksOf newYear [letterItem 1]) .null) := by
      decide +kernel
    dsimp only at hreplaced
    rw [hnothing, harchived, if_neg hfits] at hreplaced
    rw [initial_eq, hreplaced]
  have htime : oneTime.fromisoformat (lit newYear.text) = some () := by
    show (if lit newYear.text = lit newYear.text then some () else none) = some ()
    rw [if_pos rfl]
  exact fromPersistedDict_written hparsed hwritten htime

end Handover
