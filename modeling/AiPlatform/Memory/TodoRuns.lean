/-
  AiPlatform.Memory.TodoRuns

  The envelopes that todo writes lead to, and whether the next list, if it is empty, still fits.

  Two parts of an envelope change, the list and the archive, and the length of its text is the sum
  of theirs and a constant. To empty a list is to move it to the archive; once the archive holds an
  earlier list, that makes no envelope longer, so only the first list can be too long for it.
-/

import AiPlatform.Memory.TodoEnvelope
import Std.Data.String.ToNat

namespace WorkingMemory

open AiPlatform.Json AiPlatform.Capability Redaction

variable {floatText : UInt64 → List Char} {sha256 : Sha256} {context : Context}

/-! ## The two parts -/

def memoryOf (sessionId : String) (tasks : List Value) (archived : Value) : Members := [
  ("session_id", .string sessionId),
  ("goal", .null),
  ("goal_set_at", .null),
  ("turns_since_goal", .number (.posInt 0)),
  ("tasks", .array tasks),
  ("collected_info", .array []),
  ("notes", .array []),
  ("archived", archived)]

def envelopeOf (sha256 : Sha256) (context : Context) (tasks : List Value) (archived : Value) : Value :=
  .object [
    ("schema_version", .string workingMemorySchemaVersion),
    ("owner_scope", .string (workingMemoryScope sha256 context)),
    ("working_memory", .object (memoryOf context.sessionId tasks archived))]

/-- Where the live state goes when a list is written over `tasks`. -/
def archiveAfter (sessionId : String) (tasks : List Value) (archived : Value) : Value :=
  if tasks.isEmpty then archived else .object (memoryOf sessionId tasks .null)

theorem initial_eq : initialWorkingMemoryEnvelope sha256 context = envelopeOf sha256 context [] .null := rfl

theorem blankMemory_eq (sessionId : String) : blankMemory sessionId = memoryOf sessionId [] .null := rfl

theorem hadState_memoryOf (sessionId : String) (tasks : List Value) (archived : Value) :
    hadState (memoryOf sessionId tasks archived) = !tasks.isEmpty := by
  simp [hadState, memoryOf, List.lookup_cons]

theorem rewritten_memoryOf (sessionId : String) (tasks : List Value) (archived : Value) (now : Rfc3339)
    (items : List TodoWriteItem) :
    rewritten (memoryOf sessionId tasks archived) now items =
      memoryOf sessionId (tasksOf now items) (archiveAfter sessionId tasks archived) := by
  unfold rewritten archiveAfter
  rw [hadState_memoryOf]
  cases tasks with
  | nil => simp [memoryOf, Assoc.set]
  | cons task rest => simp [memoryOf, Assoc.set]

/-! ## Lengths -/

/-- What a member takes up, with the comma or the brace before it. -/
def memberCharacters (floatText : UInt64 → List Char) (member : String × Value) : Nat :=
  (JsonText.quoted member.1.toList).length + characters floatText member.2 + 3

theorem characters_object {members : Members} (h : members ≠ []) :
    characters floatText (.object members) = 1 + (members.map (memberCharacters floatText)).sum := by
  unfold characters
  rw [document, documentMembers_eq, JsonText.length_render_object (by simpa using h), List.map_map]
  rfl

theorem characters_array {items : List Value} (h : items ≠ []) :
    characters floatText (.array items) = 1 + (items.map fun item => characters floatText item + 1).sum := by
  unfold characters
  rw [document, documentItems_eq, JsonText.length_render_array (by simpa using h), List.map_map]
  rfl

theorem characters_nil : characters floatText (.array []) = 2 := rfl

theorem characters_null : characters floatText .null = 4 := rfl

theorem two_le_characters (items : List Value) : 2 ≤ characters floatText (.array items) := by
  cases items with
  | nil => exact Nat.le_refl 2
  | cons item rest =>
    rw [characters_array (List.cons_ne_nil item rest), List.map_cons, List.sum_cons]
    omega

theorem characters_memoryOf (sessionId : String) (tasks : List Value) (archived : Value) :
    characters floatText (.object (memoryOf sessionId tasks archived)) + 6 =
      characters floatText (.object (blankMemory sessionId)) + characters floatText (.array tasks) +
        characters floatText archived := by
  rw [blankMemory_eq, characters_object (by simp [memoryOf]), characters_object (by simp [memoryOf])]
  simp only [memoryOf, List.map_cons, List.map_nil, List.sum_cons, List.sum_nil, memberCharacters, characters_nil,
    characters_null]
  omega

theorem characters_envelopeOf (tasks : List Value) (archived : Value) :
    characters floatText (envelopeOf sha256 context tasks archived) + 6 =
      characters floatText (initialWorkingMemoryEnvelope sha256 context) + characters floatText (.array tasks) +
        characters floatText archived := by
  have hmemory := @characters_memoryOf floatText context.sessionId tasks archived
  have hblank := @characters_memoryOf floatText context.sessionId [] .null
  rw [initial_eq, envelopeOf, envelopeOf, characters_object (by simp), characters_object (by simp)]
  simp only [List.map_cons, List.map_nil, List.sum_cons, List.sum_nil, memberCharacters]
  rw [characters_nil, characters_null] at hblank
  omega

/-! ## Items -/

/-- What `parse_todo_items` lets through. -/
def ValidItem (item : TodoWriteItem) : Prop :=
  validMemoryText item.description 1 maxWorkingMemoryDescriptionBytes = true

theorem isAsciiControl_of_not_isControl {c : Char} (h : isControl c = false) : isAsciiControl c = false := by
  unfold isControl at h
  unfold isAsciiControl
  simp only [Bool.or_eq_false_iff, Bool.and_eq_false_iff, decide_eq_false_iff_not, beq_eq_false_iff_ne] at h ⊢
  omega

theorem validMemoryText_of_plain {text : String} {max : Nat} (hne : text.isEmpty = false) (hlength : text.length ≤ max)
    (hplain : ∀ c ∈ text.toList, isControl c = false) : validMemoryText text 1 max = true := by
  have hpositive : text.length ≠ 0 := fun hzero => by
    rw [String.isEmpty_iff.mpr (String.length_eq_zero_iff.mp hzero)] at hne
    cases hne
  unfold validMemoryText
  rw [Bool.and_eq_true, decide_eq_true_iff, Bool.not_eq_true', List.any_eq_false]
  refine ⟨by omega, fun c hc => ?_⟩
  rw [isAsciiControl_of_not_isControl (hplain c hc), Bool.false_and]
  exact Bool.false_ne_true

theorem parseTodoItem_valid {value : Value} {item : TodoWriteItem} (h : parseTodoItem value = .ok item) :
    ValidItem item := by
  unfold parseTodoItem at h
  split at h
  · cases h
  · split at h
    · cases h
    · case h_2 object _ _ =>
      cases htext : boundedString (object.lookup "description") 1 maxTodoDescriptionChars with
      | error error =>
        rw [htext] at h
        cases h
      | ok text =>
        rw [htext] at h
        dsimp only [Except.bind, bind] at h
        split at h
        · cases h
        · case isFalse hvalid =>
          cases hstatus : parseTodoStatus (object.lookup "status") with
          | error error =>
            rw [hstatus] at h
            cases h
          | ok status =>
            rw [hstatus] at h
            obtain rfl := Except.ok.inj h
            rw [Bool.or_eq_true, Bool.or_eq_true, not_or, not_or, Bool.not_eq_true, Bool.not_eq_true,
              decide_eq_false_iff_not, Bool.not_eq_true, List.any_eq_false] at hvalid
            obtain ⟨⟨hne, hlength⟩, hcontrol⟩ := hvalid
            exact validMemoryText_of_plain hne (Nat.le_of_not_lt hlength) fun c hc => by simpa using hcontrol c hc

theorem mapM_ok {α β ε : Type} {f : α → Except ε β} {p : β → Prop} (hp : ∀ a b, f a = .ok b → p b) {xs : List α}
    {ys : List β} (h : xs.mapM f = .ok ys) : ys.length = xs.length ∧ ∀ y ∈ ys, p y := by
  induction xs generalizing ys with
  | nil =>
    obtain rfl := Except.ok.inj h
    exact ⟨rfl, fun _ hmem => absurd hmem List.not_mem_nil⟩
  | cons x xs ih =>
    rw [List.mapM_cons] at h
    cases hx : f x with
    | error error =>
      rw [hx] at h
      cases h
    | ok y =>
      rw [hx] at h
      cases hrest : xs.mapM f with
      | error error =>
        rw [hrest] at h
        cases h
      | ok rest =>
        rw [hrest] at h
        obtain rfl := Except.ok.inj h
        obtain ⟨hlength, hall⟩ := ih hrest
        exact ⟨congrArg (· + 1) hlength, List.forall_mem_cons.mpr ⟨hp x y hx, hall⟩⟩

theorem parseTodoItems_valid {arguments : Members} {items : List TodoWriteItem}
    (h : parseTodoItems arguments = .ok items) : items.length ≤ maxTodoItems ∧ ∀ item ∈ items, ValidItem item := by
  unfold parseTodoItems at h
  split at h
  · cases h
  · split at h
    · cases h
    · case isFalse hlength =>
      obtain ⟨hsame, hvalid⟩ := mapM_ok (fun _ _ => parseTodoItem_valid) h
      exact ⟨by omega, hvalid⟩

/-! ## Written tasks -/

theorem validText_now (now : Rfc3339) : validText now.text 1 128 = true := by
  have hplain : ("0123456789-:.+T".toList.all fun c => !isAsciiControl c) = true := by decide
  obtain ⟨hleast, hmost⟩ := now.bounded
  unfold validText
  rw [Bool.and_eq_true, decide_eq_true_iff]
  refine ⟨by omega, ?_⟩
  rw [Bool.not_eq_true', List.any_eq_false]
  intro c hc
  have hc := List.all_eq_true.mp hplain c (now.plain c hc)
  simpa using hc

theorem validText_id : ∀ index < 100, validText ("todo_" ++ toString index) 1 maxWorkingMemoryTaskIdBytes = true := by
  decide +kernel

theorem id_injective {i j : Nat} (h : "todo_" ++ toString i = "todo_" ++ toString j) : i = j := by
  have hlist := congrArg String.toList h
  rw [String.toList_append, String.toList_append] at hlist
  exact Nat.repr_injective (String.toList_inj.mp (List.append_cancel_left hlist))

theorem validTaskFields_taskOf (now : Rfc3339) {item : TodoWriteItem} (h : ValidItem item) (index : Nat) :
    validTaskFields [
      ("id", .string ("todo_" ++ toString index)),
      ("description", .string item.description),
      ("status", .string item.status.asStr),
      ("result", .null),
      ("error", .null),
      ("created_at", .string now.text),
      ("completed_at", if item.status = .completed then .string now.text else .null)] = true := by
  have hstatus : isTaskStatus item.status.asStr = true := by
    cases item.status <;> decide
  have hcompleted : optionalText (fun text => validText text 1 128)
      (some (if item.status = .completed then .string now.text else .null)) = true := by
    split
    · exact validText_now now
    · rfl
  have hcreated : optionalText (fun text => validText text 1 128) (some (.string now.text)) = true := validText_now now
  have hnull : optionalText (fun text => validMemoryText text 1 maxWorkingMemoryResultBytes) (some .null) = true := rfl
  have hdescription : validMemoryText item.description 1 maxWorkingMemoryDescriptionBytes = true := h
  simp [validTaskFields, List.lookup_cons, requiredText, isText, hstatus, hdescription, hcreated, hnull, hcompleted]

/-- Tasks with later numbers go on where earlier ones end. -/
theorem validTasks_mapIdx (now : Rfc3339) (items : List TodoWriteItem) (hvalid : ∀ item ∈ items, ValidItem item)
    (ids : List String) (start : Nat) (hlength : start + items.length ≤ 100)
    (hids : ∀ id ∈ ids, ∃ index < start, id = "todo_" ++ toString index) :
    validTasks ids (items.mapIdx fun i => taskOf now (i + start)) = true := by
  induction items generalizing ids start with
  | nil => rfl
  | cons item items ih =>
    obtain ⟨hitem, hitems⟩ := List.forall_mem_cons.mp hvalid
    rw [List.length_cons] at hlength
    have hrest : (items.mapIdx fun i => taskOf now (i + 1 + start)) = items.mapIdx fun i => taskOf now (i + (start + 1)) := by
      simp only [Nat.add_assoc, Nat.add_comm 1 start]
    have hnew : ids.contains ("todo_" ++ toString start) = false := by
      rw [← Bool.not_eq_true, List.contains_iff_mem]
      intro hmem
      obtain ⟨index, hindex, heq⟩ := hids _ hmem
      exact absurd (id_injective heq) (by omega)
    have hmore : ∀ id ∈ ("todo_" ++ toString start) :: ids, ∃ index < start + 1, id = "todo_" ++ toString index := by
      refine List.forall_mem_cons.mpr ⟨⟨start, by omega, rfl⟩, fun id hmem => ?_⟩
      obtain ⟨index, hindex, heq⟩ := hids id hmem
      exact ⟨index, by omega, heq⟩
    rw [List.mapIdx_cons, hrest, Nat.zero_add, taskOf, validTasks, if_neg (by simp [taskKeys])]
    simp only [List.lookup_cons, validText_id start (by omega), hnew, validTaskFields_taskOf now hitem start,
      ih hitems _ (start + 1) (by omega) hmore, beq_self_eq_true, Bool.not_false, Bool.and_self]

theorem validTasks_tasksOf (now : Rfc3339) {items : List TodoWriteItem} (hlength : items.length ≤ maxTodoItems)
    (hvalid : ∀ item ∈ items, ValidItem item) : validTasks [] (tasksOf now items) = true := by
  refine validTasks_mapIdx now items hvalid [] 0 ?_ fun _ hmem => absurd hmem List.not_mem_nil
  rw [Nat.zero_add]
  exact hlength

/-! ## One write -/

/-- An archive that the envelope may have. -/
def isArchive : Value → Bool
  | .null | .object _ => true
  | _ => false

theorem isArchive_archiveAfter {sessionId : String} {tasks : List Value} {archived : Value}
    (h : isArchive archived = true) : isArchive (archiveAfter sessionId tasks archived) = true := by
  unfold archiveAfter
  split
  · exact h
  · rfl

theorem validateWorkingMemory_memoryOf {sessionId : String} {tasks : List Value} {archived : Value}
    (hlength : tasks.length ≤ maxWorkingMemoryTasks) (htasks : validTasks [] tasks = true)
    (harchived : isArchive archived = true) :
    validateWorkingMemory (memoryOf sessionId tasks archived) sessionId = true := by
  simp [validateWorkingMemory, memoryOf, memoryKeys, List.lookup_cons, requiredText, optionalText, optionalItems, isText,
    hlength, htasks]
  cases archived with
  | null => rfl
  | object members => rfl
  | _ => cases harchived

theorem mapM_isSome {α β : Type} {f : α → Option β} {xs : List α} (h : ∀ x ∈ xs, (f x).isSome = true) :
    (xs.mapM f).isSome = true := by
  induction xs with
  | nil => rfl
  | cons x xs ih =>
    obtain ⟨hx, hxs⟩ := List.forall_mem_cons.mp h
    obtain ⟨y, hy⟩ := Option.isSome_iff_exists.mp hx
    obtain ⟨ys, hys⟩ := Option.isSome_iff_exists.mp (ih hxs)
    rw [List.mapM_cons, hy, hys]
    rfl

theorem renderTask_taskOf (now : Rfc3339) (index : Nat) (item : TodoWriteItem) :
    (renderTask (taskOf now index item)).isSome = true := by
  cases hstatus : item.status <;>
    simp [renderTask, taskOf, Value.asObject, textOf, List.lookup_cons, Value.asStr, hstatus, TodoStatus.asStr, indicator]

theorem renderMarkdown_memoryOf (sessionId : String) (now : Rfc3339) (items : List TodoWriteItem) (archived : Value) :
    (renderMarkdown (memoryOf sessionId (tasksOf now items) archived) (tasksOf now items)).isSome = true := by
  have hlines : ((tasksOf now items).mapM renderTask).isSome = true := by
    refine mapM_isSome fun task hmem => ?_
    obtain ⟨index, hindex, rfl⟩ := List.mem_mapIdx.mp hmem
    exact renderTask_taskOf now index _
  obtain ⟨lines, hlines⟩ := Option.isSome_iff_exists.mp hlines
  unfold renderMarkdown
  rw [hlines]
  simp [memoryOf, List.lookup_cons, renderList, Value.asArray]

/-- A list that can be in an envelope. -/
structure Listed (items : List TodoWriteItem) : Prop where
  length : items.length ≤ maxTodoItems
  valid : ∀ item ∈ items, ValidItem item

theorem renderWorkingMemory_envelopeOf (now : Rfc3339) {items : List TodoWriteItem} (hitems : Listed items)
    {archived : Value} (harchived : isArchive archived = true)
    (hsize : characters floatText (envelopeOf sha256 context (tasksOf now items) archived) ≤ maxWorkingMemoryBytes) :
    (renderWorkingMemory floatText sha256 (envelopeOf sha256 context (tasksOf now items) archived) context).isSome =
      true := by
  have hlength : (tasksOf now items).length ≤ maxWorkingMemoryTasks := by
    rw [tasksOf, List.length_mapIdx]
    exact hitems.length
  have hvalid := @validateWorkingMemory_memoryOf context.sessionId _ _ hlength
    (validTasks_tasksOf now hitems.length hitems.valid) harchived
  have hmarkdown := renderMarkdown_memoryOf context.sessionId now items archived
  have htasks : (memoryOf context.sessionId (tasksOf now items) archived).lookup "tasks" = some (.array (tasksOf now items)) := by
    simp [memoryOf, List.lookup_cons]
  unfold renderWorkingMemory
  rw [if_neg (by omega)]
  simp [envelopeOf, Value.asObject, requireExactKeys, textOf, List.lookup_cons, Value.asStr, hvalid, htasks, Value.asArray]
  split
  · rfl
  · exact hmarkdown

/-- An envelope that was read or written. -/
structure Stored (floatText : UInt64 → List Char) (sha256 : Sha256) (context : Context) (now : Rfc3339)
    (items : List TodoWriteItem) (archived : Value) : Prop where
  listed : Listed items
  archive : isArchive archived = true
  fits : characters floatText (envelopeOf sha256 context (tasksOf now items) archived) ≤ maxWorkingMemoryBytes

section Write

variable {now now' : Rfc3339} {items items' : List TodoWriteItem} {archived : Value}

theorem validateWorkingMemory_tasksOf (hlisted : Listed items) (harchive : isArchive archived = true) :
    validateWorkingMemory (memoryOf context.sessionId (tasksOf now items) archived) context.sessionId = true := by
  refine validateWorkingMemory_memoryOf ?_ (validTasks_tasksOf now hlisted.length hlisted.valid) harchive
  rw [tasksOf, List.length_mapIdx]
  exact hlisted.length

/-- All that can go wrong with a write is the length of the envelope that it would leave. -/
theorem replaceTodoEnvelope_stored (hstored : Stored floatText sha256 context now items archived) (hlisted : Listed items') :
    replaceTodoEnvelope floatText sha256 (envelopeOf sha256 context (tasksOf now items) archived) context items' now' =
      let written := envelopeOf sha256 context (tasksOf now' items')
        (archiveAfter context.sessionId (tasksOf now items) archived)
      if maxWorkingMemoryBytes < characters floatText written then .error .workingMemoryInvalid else .ok written := by
  have hrender := renderWorkingMemory_envelopeOf now hstored.listed hstored.archive hstored.fits
  have hbefore := @validateWorkingMemory_tasksOf context now items archived hstored.listed hstored.archive
  have hafter := @validateWorkingMemory_tasksOf context now' items'
    (archiveAfter context.sessionId (tasksOf now items) archived) hlisted (isArchive_archiveAfter hstored.archive)
  obtain ⟨rendered, hrender⟩ := Option.isSome_iff_exists.mp hrender
  unfold replaceTodoEnvelope
  rw [hrender]
  simp [envelopeOf, Value.asObject, textOf, List.lookup_cons, Value.asStr, hbefore, rewritten_memoryOf, Assoc.set, hafter]
  rfl

theorem stored_of_replace (hstored : Stored floatText sha256 context now items archived) (hlisted : Listed items')
    {written : Value} (h : replaceTodoEnvelope floatText sha256 (envelopeOf sha256 context (tasksOf now items) archived)
      context items' now' = .ok written) :
    written = envelopeOf sha256 context (tasksOf now' items') (archiveAfter context.sessionId (tasksOf now items) archived) ∧
      Stored floatText sha256 context now' items' (archiveAfter context.sessionId (tasksOf now items) archived) := by
  rw [replaceTodoEnvelope_stored hstored hlisted] at h
  dsimp only at h
  split at h
  · cases h
  · case isFalse hfits =>
    exact ⟨(Except.ok.inj h).symm, ⟨hlisted, isArchive_archiveAfter hstored.archive, Nat.le_of_not_lt hfits⟩⟩

theorem listed_nil : Listed [] := ⟨Nat.zero_le _, fun _ hmem => absurd hmem List.not_mem_nil⟩

/-- Emptying the list goes through when the list fits into the archive. -/
theorem empties_iff (hstored : Stored floatText sha256 context now items archived) :
    (∃ written, replaceTodoEnvelope floatText sha256 (envelopeOf sha256 context (tasksOf now items) archived) context [] now' =
        .ok written) ↔
      characters floatText (envelopeOf sha256 context [] (archiveAfter context.sessionId (tasksOf now items) archived)) ≤
        maxWorkingMemoryBytes := by
  rw [replaceTodoEnvelope_stored hstored listed_nil]
  dsimp only
  constructor
  · rintro ⟨written, h⟩
    split at h
    · cases h
    · case isFalse hfits => exact Nat.le_of_not_lt hfits
  · intro hfits
    exact ⟨_, if_neg (Nat.not_lt.mpr hfits)⟩

end Write

/-! ## Runs -/

structure Write where
  items : List TodoWriteItem
  now : Rfc3339

/-- The envelopes that writes lead to, from that of a new session. -/
inductive Reach (floatText : UInt64 → List Char) (sha256 : Sha256) (context : Context) : List Write → Value → Prop
  | initial : Reach floatText sha256 context [] (initialWorkingMemoryEnvelope sha256 context)
  | write {writes : List Write} {envelope envelope' : Value} {arguments : Members} {items : List TodoWriteItem}
      {now : Rfc3339} (reached : Reach floatText sha256 context writes envelope)
      (parsed : parseTodoItems arguments = .ok items)
      (replaced : replaceTodoEnvelope floatText sha256 envelope context items now = .ok envelope') :
      Reach floatText sha256 context (writes ++ [⟨items, now⟩]) envelope'

/-- The first list that was written and not empty. -/
def firstList (writes : List Write) : Option Write := writes.find? fun write => !write.items.isEmpty

/-- The first list leaves room for a memory that holds it, as the archive, beside an empty one. -/
def LeavesRoom (floatText : UInt64 → List Char) (sha256 : Sha256) (context : Context) (writes : List Write) : Prop :=
  ∀ first, firstList writes = some first →
    characters floatText (initialWorkingMemoryEnvelope sha256 context) +
      characters floatText (.object (blankMemory context.sessionId)) +
      characters floatText (.array (tasksOf first.now first.items)) ≤ maxWorkingMemoryBytes + 6

/-- What is in the archive after some writes, and in the list. -/
inductive Archived (floatText : UInt64 → List Char) (sha256 : Sha256) (context : Context) (writes : List Write)
    (now : Rfc3339) (items : List TodoWriteItem) : Value → Prop
  | nothing (hwrites : firstList writes = none) (hitems : items = []) : Archived floatText sha256 context writes now items .null
  | first (hwrites : firstList writes = some ⟨items, now⟩) : Archived floatText sha256 context writes now items .null
  | list (now' : Rfc3339) (items' : List TodoWriteItem) (hwrites : (firstList writes).isSome)
      (hroom : LeavesRoom floatText sha256 context writes) :
      Archived floatText sha256 context writes now items (.object (memoryOf context.sessionId (tasksOf now' items') .null))

theorem firstList_concat_of_isSome {writes : List Write} (h : (firstList writes).isSome) (write : Write) :
    firstList (writes ++ [write]) = firstList writes := by
  obtain ⟨first, hfirst⟩ := Option.isSome_iff_exists.mp h
  unfold firstList at hfirst ⊢
  rw [List.find?_append, hfirst]
  rfl

theorem firstList_concat_of_none {writes : List Write} (h : firstList writes = none) (write : Write) :
    firstList (writes ++ [write]) = if write.items.isEmpty then none else some write := by
  unfold firstList at h ⊢
  rw [List.find?_append, h, List.find?_singleton]
  cases write.items.isEmpty <;> rfl

theorem items_ne_nil_of_firstList {writes : List Write} {first : Write} (h : firstList writes = some first) :
    first.items.isEmpty = false := by
  have hfound := List.find?_some h
  simpa using hfound

theorem isEmpty_tasksOf (now : Rfc3339) (items : List TodoWriteItem) : (tasksOf now items).isEmpty = items.isEmpty := by
  cases items with
  | nil => rfl
  | cons item items =>
    rw [tasksOf, List.mapIdx_cons]
    rfl

/-- The parts of the text that a write changes, where the archive holds a list. -/
theorem characters_archived (now' : Rfc3339) (tasks : List Value) (items' : List TodoWriteItem) :
    characters floatText (envelopeOf sha256 context tasks
        (.object (memoryOf context.sessionId (tasksOf now' items') .null))) + 8 =
      characters floatText (initialWorkingMemoryEnvelope sha256 context) +
        characters floatText (.object (blankMemory context.sessionId)) +
        characters floatText (.array tasks) + characters floatText (.array (tasksOf now' items')) := by
  have henvelope := @characters_envelopeOf floatText sha256 context tasks
    (.object (memoryOf context.sessionId (tasksOf now' items') .null))
  have hmemory := @characters_memoryOf floatText context.sessionId (tasksOf now' items') .null
  rw [characters_null] at hmemory
  omega

theorem archived_initial (now : Rfc3339) : Archived floatText sha256 context [] now [] .null := .nothing rfl rfl

theorem archived_write {writes : List Write} {now now' : Rfc3339} {items items' : List TodoWriteItem} {archived : Value}
    (harchived : Archived floatText sha256 context writes now items archived)
    (hfits : characters floatText (envelopeOf sha256 context (tasksOf now' items')
      (archiveAfter context.sessionId (tasksOf now items) archived)) ≤ maxWorkingMemoryBytes) :
    Archived floatText sha256 context (writes ++ [⟨items', now'⟩]) now' items'
      (archiveAfter context.sessionId (tasksOf now items) archived) := by
  unfold archiveAfter at hfits ⊢
  rw [isEmpty_tasksOf] at hfits ⊢
  cases harchived with
  | nothing hwrites hitems =>
    subst hitems
    rw [List.isEmpty_nil, if_pos rfl]
    have hnext := firstList_concat_of_none hwrites ⟨items', now'⟩
    cases hempty : items'.isEmpty with
    | true =>
      refine .nothing ?_ (List.isEmpty_iff.mp hempty)
      rw [hnext, if_pos hempty]
    | false =>
      refine .first ?_
      rw [hnext, if_neg (by simp [hempty])]
  | first hwrites =>
    have hitems : items.isEmpty = false := items_ne_nil_of_firstList hwrites
    have hsome : (firstList writes).isSome := Option.isSome_iff_exists.mpr ⟨_, hwrites⟩
    rw [hitems, if_neg Bool.false_ne_true] at hfits ⊢
    have hlength := @characters_archived floatText sha256 context now (tasksOf now' items') items
    have htwo := @two_le_characters floatText (tasksOf now' items')
    refine .list now items ?_ fun first hfirst => ?_
    · rw [firstList_concat_of_isSome hsome]
      exact hsome
    · rw [firstList_concat_of_isSome hsome, hwrites] at hfirst
      obtain rfl := Option.some.inj hfirst
      dsimp only
      omega
  | list now'' items'' hsome hroom =>
    have hsame : firstList (writes ++ [⟨items', now'⟩]) = firstList writes := firstList_concat_of_isSome hsome _
    have hroom' : LeavesRoom floatText sha256 context (writes ++ [⟨items', now'⟩]) := by
      intro first hfirst
      rw [hsame] at hfirst
      exact hroom first hfirst
    split
    · exact .list now'' items'' (hsame ▸ hsome) hroom'
    · exact .list now items (hsame ▸ hsome) hroom'

theorem characters_string (text : String) :
    characters floatText (.string text) = 1 + (JsonText.quoted text.toList).length := by
  unfold characters
  rw [document, JsonText.render, List.length_cons, Nat.add_comm]

theorem characters_string_le (text : String) : characters floatText (.string text) ≤ 2 + 6 * text.length := by
  have hquoted := JsonText.length_quoted_le text.toList
  rw [characters_string]
  rw [String.length_toList] at hquoted
  omega

theorem length_workingMemoryScope : (workingMemoryScope sha256 context).length = 64 := by
  unfold workingMemoryScope hexEncode
  rw [String.length_ofList, List.length_flatMap]
  simp [sha256.length_digest]

theorem length_sessionId_le (context : Context) : context.sessionId.length ≤ 255 := by
  have hbounded := context.bounded context.sessionId (by simp)
  unfold boundedText at hbounded
  simp only [Bool.and_eq_true, decide_eq_true_eq] at hbounded
  exact (length_le_utf8ByteSize _).trans hbounded.1.2

/-- The envelope of a new session is far from the limit. -/
theorem characters_initial_le :
    characters floatText (initialWorkingMemoryEnvelope sha256 context) ≤ maxWorkingMemoryBytes := by
  have hversion := @characters_string_le floatText workingMemorySchemaVersion
  have hscope := @characters_string_le floatText (workingMemoryScope sha256 context)
  have hsession := @characters_string_le floatText context.sessionId
  have hlength := length_sessionId_le context
  have hzero : characters floatText (.number (.posInt 0)) = 1 := rfl
  have hkeys : ∀ key ∈ ["schema_version", "owner_scope", "working_memory"] ++ memoryKeys,
      (JsonText.quoted key.toList).length ≤ 20 := by decide
  have hversionLength : workingMemorySchemaVersion.length = 27 := rfl
  have hmax : maxWorkingMemoryBytes = 100000 := rfl
  simp only [memoryKeys, List.cons_append, List.nil_append, List.forall_mem_cons, List.not_mem_nil, false_implies,
    implies_true, and_true] at hkeys
  rw [length_workingMemoryScope] at hscope
  rw [initialWorkingMemoryEnvelope, characters_object (by simp)]
  simp only [List.map_cons, List.map_nil, List.sum_cons, List.sum_nil, memberCharacters]
  rw [characters_object (by simp [blankMemory])]
  simp only [blankMemory, List.map_cons, List.map_nil, List.sum_cons, List.sum_nil, memberCharacters, characters_null,
    characters_nil, hzero]
  omega

/-- Every envelope that writes lead to has the two parts. -/
theorem reach_stored {writes : List Write} {envelope : Value} (hreach : Reach floatText sha256 context writes envelope) :
    ∃ now items archived, envelope = envelopeOf sha256 context (tasksOf now items) archived ∧
      Stored floatText sha256 context now items archived ∧ Archived floatText sha256 context writes now items archived := by
  induction hreach with
  | initial => exact ⟨default, [], .null, rfl, ⟨listed_nil, rfl, characters_initial_le⟩, archived_initial default⟩
  | write reached parsed replaced ih =>
    obtain ⟨now, items, archived, rfl, hstored, harchived⟩ := ih
    obtain ⟨hlength, hvalid⟩ := parseTodoItems_valid parsed
    obtain ⟨rfl, hstored'⟩ := stored_of_replace hstored ⟨hlength, hvalid⟩ replaced
    exact ⟨_, _, _, rfl, hstored', archived_write harchived hstored'.fits⟩

/-! ## Whether a write can get stuck -/

def liveMemory (envelope : Value) : Option Members := (envelope.get "working_memory").bind Value.asObject

/-- What a successful write leaves. -/
structure Written (floatText : UInt64 → List Char) (sha256 : Sha256) (context : Context) (before after : Value)
    (items : List TodoWriteItem) (now : Rfc3339) : Prop where
  tasks : ((liveMemory after).bind fun memory => memory.lookup "tasks") = some (.array (tasksOf now items))
  renders : (renderWorkingMemory floatText sha256 after context).isSome = true
  archived : ∃ memory, liveMemory before = some memory ∧
    ((liveMemory after).bind fun memory => memory.lookup "archived") =
      if hadState memory then some (.object (Assoc.set "archived" .null memory)) else memory.lookup "archived"

theorem liveMemory_envelopeOf (tasks : List Value) (archived : Value) :
    liveMemory (envelopeOf sha256 context tasks archived) = some (memoryOf context.sessionId tasks archived) := by
  simp [liveMemory, envelopeOf, Value.get, List.lookup_cons, Value.asObject]

theorem written_of_replace {now now' : Rfc3339} {items items' : List TodoWriteItem} {archived written : Value}
    (hstored : Stored floatText sha256 context now items archived) (hlisted : Listed items')
    (h : replaceTodoEnvelope floatText sha256 (envelopeOf sha256 context (tasksOf now items) archived) context items' now' =
      .ok written) :
    Written floatText sha256 context (envelopeOf sha256 context (tasksOf now items) archived) written items' now' := by
  obtain ⟨rfl, hstored'⟩ := stored_of_replace hstored hlisted h
  refine ⟨?_, renderWorkingMemory_envelopeOf now' hlisted hstored'.archive hstored'.fits,
    memoryOf context.sessionId (tasksOf now items) archived, liveMemory_envelopeOf _ _, ?_⟩
  · simp [liveMemory_envelopeOf, memoryOf, List.lookup_cons]
  · rw [liveMemory_envelopeOf, hadState_memoryOf]
    unfold archiveAfter
    cases tasksOf now items with
    | nil => simp [memoryOf, List.lookup_cons]
    | cons task rest => simp [memoryOf, List.lookup_cons, Assoc.set]

/-- A list that is followed by nothing else can be emptied when it leaves room for itself in the archive. -/
theorem empties_iff_leavesRoom {writes : List Write} {now now' : Rfc3339} {items : List TodoWriteItem} {archived : Value}
    (hstored : Stored floatText sha256 context now items archived)
    (harchived : Archived floatText sha256 context writes now items archived) :
    (∃ written, replaceTodoEnvelope floatText sha256 (envelopeOf sha256 context (tasksOf now items) archived) context [] now' =
        .ok written) ↔ LeavesRoom floatText sha256 context writes := by
  have hfits := hstored.fits
  rw [empties_iff hstored]
  unfold archiveAfter
  rw [isEmpty_tasksOf]
  cases harchived with
  | nothing hwrites hitems =>
    subst hitems
    refine iff_of_true hfits fun first hfirst => ?_
    rw [hwrites] at hfirst
    cases hfirst
  | first hwrites =>
    have hlength := @characters_archived floatText sha256 context now [] items
    rw [items_ne_nil_of_firstList hwrites, if_neg Bool.false_ne_true]
    rw [characters_nil] at hlength
    constructor
    · intro hempties first hfirst
      rw [hwrites] at hfirst
      obtain rfl := Option.some.inj hfirst
      dsimp only
      omega
    · intro hroom
      have hfirst := hroom _ hwrites
      dsimp only at hfirst
      omega
  | list now'' items'' hsome hroom =>
    refine iff_of_true ?_ hroom
    split
    · case isTrue hempty =>
      obtain rfl := List.isEmpty_iff.mp hempty
      exact hfits
    · -- the archive that the list replaces is at least as long as an archive of nothing
      have hbefore := @characters_archived floatText sha256 context now'' (tasksOf now items) items''
      have hafter := @characters_archived floatText sha256 context now [] items
      have htwo := @two_le_characters floatText (tasksOf now'' items'')
      rw [characters_nil] at hafter
      omega

/-- Writing an empty list goes through in exactly the envelopes whose first list left room for the archive. Every
    write that goes through leaves the given items, an envelope that can be read, and the earlier memory in the archive. -/
theorem todoWriting_iff {writes : List Write} {envelope : Value} (hreach : Reach floatText sha256 context writes envelope) :
    (∀ now, (∃ written, replaceTodoEnvelope floatText sha256 envelope context [] now = .ok written) ↔
        LeavesRoom floatText sha256 context writes) ∧
      ∀ arguments items now written, parseTodoItems arguments = .ok items →
        replaceTodoEnvelope floatText sha256 envelope context items now = .ok written →
        Written floatText sha256 context envelope written items now := by
  obtain ⟨now, items, archived, rfl, hstored, harchived⟩ := reach_stored hreach
  refine ⟨fun now' => empties_iff_leavesRoom hstored harchived, fun arguments items' now' written hparsed hreplaced => ?_⟩
  obtain ⟨hlength, hvalid⟩ := parseTodoItems_valid hparsed
  exact written_of_replace hstored ⟨hlength, hvalid⟩ hreplaced

/-- A list that fits the envelope, and the archive no more. -/
theorem cannot_be_emptied {arguments : Members} {items : List TodoWriteItem} (hparsed : parseTodoItems arguments = .ok items)
    (hitems : items.isEmpty = false) (now : Rfc3339)
    (hfits : characters floatText (initialWorkingMemoryEnvelope sha256 context) +
      characters floatText (.array (tasksOf now items)) ≤ maxWorkingMemoryBytes + 2)
    (hfull : maxWorkingMemoryBytes + 6 < characters floatText (initialWorkingMemoryEnvelope sha256 context) +
      characters floatText (.object (blankMemory context.sessionId)) + characters floatText (.array (tasksOf now items))) :
    ∃ envelope, Reach floatText sha256 context [⟨items, now⟩] envelope ∧
      ¬ ∃ written, replaceTodoEnvelope floatText sha256 envelope context [] now = .ok written := by
  have hstored : Stored floatText sha256 context now [] .null := ⟨listed_nil, rfl, characters_initial_le⟩
  obtain ⟨hlength, hvalid⟩ := parseTodoItems_valid hparsed
  have hsize := @characters_envelopeOf floatText sha256 context (tasksOf now items) .null
  rw [characters_null] at hsize
  have hwritten := @replaceTodoEnvelope_stored floatText sha256 context now now [] items .null hstored ⟨hlength, hvalid⟩
  have harchived : archiveAfter context.sessionId (tasksOf now []) .null = .null := rfl
  dsimp only at hwritten
  rw [harchived, if_neg (by omega)] at hwritten
  refine ⟨_, .write .initial hparsed hwritten, ?_⟩
  obtain ⟨-, hstored'⟩ := stored_of_replace hstored ⟨hlength, hvalid⟩ hwritten
  rw [harchived] at hstored'
  have hlist : firstList [⟨items, now⟩] = some ⟨items, now⟩ := List.find?_cons_of_pos (by simp [hitems])
  rw [empties_iff_leavesRoom hstored' (.first hlist)]
  intro hroom
  exact absurd (hroom _ hlist) (Nat.not_le.mpr hfull)

/-! ## A list that cannot be emptied -/

/-- The digest of the identity below, with the lengths in front of its parts. -/
def sessionDigest : Sha256 where
  digest := fun _ => [51, 183, 162, 139, 47, 29, 80, 16, 44, 12, 69, 179, 65, 117, 142, 151, 250, 73, 237, 107, 62, 113, 114,
    46, 241, 59, 4, 93, 238, 63, 212, 251]
  length_digest := fun _ => rfl

def sessionA : Context := ⟨"tenant-a", "user-a", "session-a", by decide⟩

theorem todoWriting_iff_new_session :
    (∀ now, (∃ written, replaceTodoEnvelope sampleFloatText sessionDigest
        (initialWorkingMemoryEnvelope sessionDigest sessionA) sessionA [] now = .ok written) ↔
        LeavesRoom sampleFloatText sessionDigest sessionA []) ∧
      ∀ arguments items now written, parseTodoItems arguments = .ok items →
        replaceTodoEnvelope sampleFloatText sessionDigest (initialWorkingMemoryEnvelope sessionDigest sessionA) sessionA
          items now = .ok written →
        Written sampleFloatText sessionDigest sessionA (initialWorkingMemoryEnvelope sessionDigest sessionA) written items now :=
  todoWriting_iff .initial

/-- As many of the letter. -/
def letters (length : Nat) : String := String.ofList (List.replicate length 'a')

def letterItem (length : Nat) : TodoWriteItem := ⟨letters length, .pending⟩

def letterArgument (length : Nat) : Value := .object [("description", .string (letters length))]

/-- The lengths of 88 descriptions. -/
def fullLengths : List Nat := List.replicate 87 1000 ++ [300]

theorem toList_letters (length : Nat) : (letters length).toList = List.replicate length 'a' := String.toList_ofList

theorem length_letters (length : Nat) : (letters length).length = length := by
  rw [← String.length_toList, toList_letters, List.length_replicate]

theorem trim_letters (length : Nat) : trim (letters length) = letters length := by
  have hletter : isWhitespace 'a' = false := by decide
  unfold trim
  rw [toList_letters, List.dropWhile_replicate, hletter, if_neg Bool.false_ne_true, List.rdropWhile, List.reverse_replicate,
    List.dropWhile_replicate, hletter, if_neg Bool.false_ne_true, List.reverse_replicate]
  rfl

theorem any_letters {p : Char → Bool} (h : p 'a' = false) (length : Nat) : (letters length).toList.any p = false := by
  rw [toList_letters, List.any_eq_false]
  intro c hc
  rw [List.eq_of_mem_replicate hc, h]
  exact Bool.false_ne_true

theorem parseTodoItem_letters {length : Nat} (hleast : 1 ≤ length) (hmost : length ≤ maxTodoDescriptionChars) :
    parseTodoItem (letterArgument length) = .ok (letterItem length) := by
  have htext : boundedString (some (.string (letters length))) 1 maxTodoDescriptionChars = .ok (letters length) := by
    unfold boundedString
    dsimp only [Option.bind, Value.asStr]
    rw [length_letters, any_letters (by decide), decide_eq_true ⟨hleast, hmost⟩]
    rfl
  have hne : (letters length).isEmpty = false := by
    rw [← Bool.not_eq_true, String.isEmpty_iff, ← String.length_eq_zero_iff, length_letters]
    omega
  have hdescription : ((letters length).isEmpty || decide (maxTodoDescriptionChars < (letters length).length) ||
      (letters length).toList.any isControl) = false := by
    rw [hne, any_letters (by decide), length_letters, decide_eq_false (by omega)]
    rfl
  have hlookup : List.lookup "description" [("description", Value.string (letters length))] =
      some (.string (letters length)) := by simp
  have hstatus : List.lookup "status" [("description", Value.string (letters length))] = none := by
    simp [List.lookup_cons]
  unfold parseTodoItem letterArgument
  dsimp only [Value.asObject]
  rw [if_neg (by simp), hlookup, htext, hstatus]
  dsimp only [bind, Except.bind]
  rw [trim_letters, hdescription, if_neg Bool.false_ne_true]
  rfl

theorem mapM_map {α β γ ε : Type} {f : β → Except ε γ} {g : α → β} {k : α → γ} {xs : List α}
    (h : ∀ x ∈ xs, f (g x) = .ok (k x)) : (xs.map g).mapM f = .ok (xs.map k) := by
  induction xs with
  | nil => rfl
  | cons x xs ih =>
    obtain ⟨hx, hxs⟩ := List.forall_mem_cons.mp h
    rw [List.map_cons, List.mapM_cons, hx, ih hxs]
    rfl

theorem parseTodoItems_full :
    parseTodoItems [("items", .array (fullLengths.map letterArgument))] = .ok (fullLengths.map letterItem) := by
  have hbounds : ∀ length ∈ fullLengths, 1 ≤ length ∧ length ≤ maxTodoDescriptionChars := by
    intro length hmem
    rcases List.mem_append.mp hmem with hmem | hmem
    · rw [List.eq_of_mem_replicate hmem]
      decide
    · rw [List.mem_singleton.mp hmem]
      decide
  have hlength : (fullLengths.map letterArgument).length = 88 := by
    rw [List.length_map]
    rfl
  unfold parseTodoItems
  have hitems : (List.lookup "items" [("items", Value.array (fullLengths.map letterArgument))]).bind Value.asArray =
      some (fullLengths.map letterArgument) := by simp [Value.asArray]
  rw [hitems]
  dsimp only
  rw [hlength, if_neg (by decide)]
  exact mapM_map fun length hmem => parseTodoItem_letters (hbounds length hmem).1 (hbounds length hmem).2

theorem length_quoted_letters (length : Nat) : (JsonText.quoted (letters length).toList).length = length + 1 := by
  rw [toList_letters]
  induction length with
  | zero => rfl
  | succ length ih =>
    rw [List.replicate_succ, JsonText.quoted, List.length_append, ih]
    exact Nat.add_comm 1 (length + 1)

theorem characters_letterTask (length : Nat) {index : Nat} (hindex : index < 100) :
    139 + length ≤ characters sampleFloatText (taskOf default index (letterItem length)) ∧
      characters sampleFloatText (taskOf default index (letterItem length)) ≤ 140 + length := by
  have hid : ∀ index < 100, 7 ≤ (JsonText.quoted ("todo_" ++ toString index).toList).length ∧
      (JsonText.quoted ("todo_" ++ toString index).toList).length ≤ 8 := by decide +kernel
  have hnow : (JsonText.quoted (default : Rfc3339).text.toList).length = 26 := by decide
  have hpending : (JsonText.quoted TodoStatus.pending.asStr.toList).length = 8 := by decide
  have hkeys : taskKeys.map (fun key => (JsonText.quoted key.toList).length) = [3, 12, 7, 7, 6, 11, 13] := by decide
  obtain ⟨hleast, hmost⟩ := hid index hindex
  simp only [taskKeys, List.map_cons, List.map_nil, List.cons.injEq, and_true] at hkeys
  rw [taskOf, characters_object (by simp)]
  simp only [List.map_cons, List.map_nil, List.sum_cons, List.sum_nil, memberCharacters, letterItem, characters_string,
    characters_null, length_quoted_letters, reduceCtorEq, if_false, hnow, hpending]
  omega

theorem characters_letterTasks (lengths : List Nat) (start : Nat) (hlength : start + lengths.length ≤ 100) :
    (lengths.map (140 + ·)).sum ≤ (((lengths.map letterItem).mapIdx fun i => taskOf default (i + start)).map
        fun task => characters sampleFloatText task + 1).sum ∧
      (((lengths.map letterItem).mapIdx fun i => taskOf default (i + start)).map
        fun task => characters sampleFloatText task + 1).sum ≤ (lengths.map (141 + ·)).sum := by
  induction lengths generalizing start with
  | nil => exact ⟨Nat.le_refl _, Nat.le_refl _⟩
  | cons length lengths ih =>
    rw [List.length_cons] at hlength
    have hrest : ((lengths.map letterItem).mapIdx fun i => taskOf default (i + 1 + start)) =
        (lengths.map letterItem).mapIdx fun i => taskOf default (i + (start + 1)) := by
      simp only [Nat.add_assoc, Nat.add_comm 1 start]
    obtain ⟨hleast, hmost⟩ := ih (start + 1) (by omega)
    have htask := characters_letterTask length (show start < 100 by omega)
    simp only [List.map_cons, List.mapIdx_cons, hrest, List.sum_cons, Nat.zero_add]
    omega

theorem characters_full :
    99588 ≤ characters sampleFloatText (.array (tasksOf default (fullLengths.map letterItem))) ∧
      characters sampleFloatText (.array (tasksOf default (fullLengths.map letterItem))) ≤ 99719 := by
  have hsums := characters_letterTasks fullLengths 0 (by decide)
  have hne : tasksOf default (fullLengths.map letterItem) ≠ [] := by
    rw [← List.isEmpty_eq_false_iff, isEmpty_tasksOf]
    rfl
  have hleast : (fullLengths.map (140 + ·)).sum = 99620 := by decide
  have hmost : (fullLengths.map (141 + ·)).sum = 99708 := by decide
  have htasks : tasksOf default (fullLengths.map letterItem) =
      (fullLengths.map letterItem).mapIdx fun i => taskOf default (i + 0) := rfl
  rw [characters_array hne, htasks]
  omega

theorem characters_new_session :
    characters sampleFloatText (initialWorkingMemoryEnvelope sessionDigest sessionA) = 283 ∧
      characters sampleFloatText (.object (blankMemory sessionA.sessionId)) = 136 := by
  decide +kernel

/-- Eighty-eight items that the worker writes, and then neither replaces nor removes. -/
theorem full_list_cannot_be_emptied :
    ∃ envelope, Reach sampleFloatText sessionDigest sessionA [⟨fullLengths.map letterItem, default⟩] envelope ∧
      ¬ ∃ written, replaceTodoEnvelope sampleFloatText sessionDigest envelope sessionA [] default = .ok written := by
  obtain ⟨hinitial, hblank⟩ := characters_new_session
  obtain ⟨hleast, hmost⟩ := characters_full
  have hmax : maxWorkingMemoryBytes = 100000 := rfl
  exact cannot_be_emptied parseTodoItems_full rfl default (by omega) (by omega)

end WorkingMemory
