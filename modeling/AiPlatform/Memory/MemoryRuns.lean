/-
  AiPlatform.Memory.MemoryRuns

  Which calls leave a working memory that comes back.

  The calls check nothing that they are given; all they cut to size is a task's result. A run
  keeps the memory restorable exactly when each call brings in only what the limits allow.
-/

import AiPlatform.Memory.MemoryReload

namespace TaskMemory

open PyJson

variable {python : Python}

/-! ## What a call may bring in -/

/-- The arguments of a call are within the limits, and so are the lists with what it adds. -/
def ArgumentsFit (memory : WorkingMemory python) : Call → Prop
  | .setGoal goal => goal.length ≤ 2000 ∧ Whole goal
  | .addTask taskId description =>
    memory.tasks.length < 100 ∧ taskId ≠ [] ∧ taskId.length ≤ 128 ∧ taskId ∉ memory.tasks.map (·.id) ∧
      description.length ≤ 1000 ∧ Whole taskId ∧ Whole description
  | .updateTask taskId _ result error =>
    taskId ∈ memory.tasks.map (·.id) →
      (∀ text, result = some text → Whole (text.take 500)) ∧ ∀ text, error = some text → text.length ≤ 500 ∧ Whole text
  | .addInfo key value source =>
    memory.collectedInfo.length < 100 ∧ key.length ≤ 128 ∧ value.length ≤ 2000 ∧ source.length ≤ 128 ∧
      Whole key ∧ Whole value ∧ Whole source
  | .addNote note => memory.notes.length < 100 ∧ note.length ≤ 1000 ∧ Whole note
  | .preserveSnapshot | .archiveIfSettled _ | .clear => True

def CallFits (memory : WorkingMemory python) (now : python.DateTime) (call : Call) : Prop :=
  ArgumentsFit memory call ∧ (memory.call now call).Fits

def SessionFits (python : Python) (session : PyStr) : Prop := Whole session ∧ (newMemory python session).Fits

/-! ## The archived snapshot -/

/-- The archived snapshot, if there is one, is a stored memory without a snapshot of its own. -/
structure Archives (memory : WorkingMemory python) : Prop where
  stored : memory.archived = .none ∨ ∃ snapshot : WorkingMemory python, memory.archived = snapshot.toDict
  shared : memory.sharesNotes = true → ∃ snapshot : WorkingMemory python,
    memory.archived = snapshot.toDict ∧ snapshot.sharesNotes = false

theorem toDict_set_archived (memory : WorkingMemory python) (archived : PyJson) :
    memory.toDict.set (lit "archived") archived = { memory with archived := archived, sharesNotes := false }.toDict := rfl

theorem toDict_set_notes (memory : WorkingMemory python) (notes : List PyStr) :
    memory.toDict.set (lit "notes") (.list (notes.map .str)) = { memory with notes := notes }.toDict := rfl

theorem archives_newMemory (session : PyStr) : Archives (newMemory python session) := ⟨.inl rfl, nofun⟩

theorem archives_preserveSnapshot {memory : WorkingMemory python} (h : Archives memory) :
    Archives memory.preserveSnapshot := by
  unfold WorkingMemory.preserveSnapshot
  split
  · rw [toDict_set_archived]
    exact ⟨.inr ⟨_, rfl⟩, fun _ => ⟨_, rfl, rfl⟩⟩
  · exact h

theorem archives_call {memory : WorkingMemory python} (h : Archives memory) (now : python.DateTime) (call : Call) :
    Archives (memory.call now call) := by
  cases call with
  | setGoal goal => exact ⟨h.stored, h.shared⟩
  | addTask taskId description => exact ⟨h.stored, h.shared⟩
  | updateTask taskId status result error => exact ⟨h.stored, h.shared⟩
  | addInfo key value source => exact ⟨h.stored, h.shared⟩
  | addNote note =>
    cases hshares : memory.sharesNotes with
    | false =>
      have hnotes : memory.call now (.addNote note) = { memory with notes := memory.notes ++ [note] } := by
        simp [WorkingMemory.call, WorkingMemory.addNote, hshares]
      rw [hnotes]
      exact ⟨h.stored, h.shared⟩
    | true =>
      obtain ⟨snapshot, harchived, hfrozen⟩ := h.shared hshares
      have hnotes : (memory.call now (.addNote note)).archived =
          { snapshot with notes := memory.notes ++ [note] }.toDict := by
        rw [← toDict_set_notes, ← harchived]
        simp [WorkingMemory.call, WorkingMemory.addNote, hshares]
      exact ⟨.inr ⟨_, hnotes⟩, fun _ => ⟨_, hnotes, hfrozen⟩⟩
  | preserveSnapshot => exact archives_preserveSnapshot h
  | archiveIfSettled turnsSinceGoal =>
    have hcall : memory.call now (.archiveIfSettled turnsSinceGoal) = memory.archiveIfSettled turnsSinceGoal := rfl
    rw [hcall, WorkingMemory.archiveIfSettled]
    split
    · exact ⟨(archives_preserveSnapshot h).stored, nofun⟩
    · exact h
  | clear => exact ⟨h.stored, nofun⟩

/-- A stored snapshot that comes back is of a memory whose texts come back. -/
theorem unpaired_of_reload {snapshot : WorkingMemory python} (hfrozen : snapshot.sharesNotes = false)
    (h : snapshot.toDict.reload = snapshot.toDict) : snapshot.Unpaired := by
  rw [reload_toDict] at h
  have hsame := congrArg (fromDict python) h
  rw [fromDict_toDict, fromDict_toDict] at hsame
  refine WorkingMemory.joined_eq_iff.mp ?_
  obtain ⟨sessionId, goal, goalSetAt, turns, tasks, info, notes, archived, sharesNotes⟩ := snapshot
  obtain rfl : sharesNotes = false := hfrozen
  exact Option.some.inj hsame

/-! ## Updates -/

section Update

variable {taskId : PyStr} {update : TaskItem python → TaskItem python} {tasks : List (TaskItem python)}

theorem map_id_updateFirst (hid : ∀ task, (update task).id = task.id) :
    (WorkingMemory.updateFirst taskId update tasks).map (·.id) = tasks.map (·.id) := by
  induction tasks with
  | nil => rfl
  | cons task rest ih =>
    rw [WorkingMemory.updateFirst]
    split
    · rw [List.map_cons, List.map_cons, hid]
    · rw [List.map_cons, List.map_cons, ih]

theorem updateFirst_of_not_mem (h : taskId ∉ tasks.map (·.id)) : WorkingMemory.updateFirst taskId update tasks = tasks := by
  induction tasks with
  | nil => rfl
  | cons task rest ih =>
    rw [List.map_cons, List.mem_cons, not_or] at h
    rw [WorkingMemory.updateFirst, if_neg (Ne.symm h.1), ih h.2]

theorem forall_updateFirst {p : TaskItem python → Prop} (hold : ∀ task ∈ tasks, p task)
    (hnew : ∀ task ∈ tasks, p (update task)) : ∀ task ∈ WorkingMemory.updateFirst taskId update tasks, p task := by
  induction tasks with
  | nil => exact fun _ hmem => absurd hmem List.not_mem_nil
  | cons task rest ih =>
    obtain ⟨hfirst, hrest⟩ := List.forall_mem_cons.mp hold
    obtain ⟨hfirst', hrest'⟩ := List.forall_mem_cons.mp hnew
    rw [WorkingMemory.updateFirst]
    split
    · exact List.forall_mem_cons.mpr ⟨hfirst', hrest⟩
    · exact List.forall_mem_cons.mpr ⟨hfirst, ih hrest hrest'⟩

theorem exists_updated (h : taskId ∈ tasks.map (·.id)) :
    ∃ task ∈ tasks, update task ∈ WorkingMemory.updateFirst taskId update tasks := by
  induction tasks with
  | nil => exact absurd h List.not_mem_nil
  | cons task rest ih =>
    rw [WorkingMemory.updateFirst]
    split
    · exact ⟨task, List.mem_cons_self, List.mem_cons_self⟩
    · case isFalse hne =>
      rw [List.map_cons, List.mem_cons] at h
      obtain ⟨found, hmem, hupdated⟩ := ih (h.resolve_left (Ne.symm hne))
      exact ⟨found, List.mem_cons_of_mem _ hmem, List.mem_cons_of_mem _ hupdated⟩

end Update

section Updated

variable {now : python.DateTime} {status : TaskStatus} {result error : Option PyStr} {task : TaskItem python}

theorem updated_withinLimits (hlimits : task.WithinLimits) (herror : ∀ text, error = some text → text.length ≤ 500) :
    (WorkingMemory.updated now status result error task).WithinLimits where
  id_ne_nil := hlimits.id_ne_nil
  id_short := hlimits.id_short
  description_short := hlimits.description_short
  result_short := by
    intro text htext
    cases result with
    | none => exact hlimits.result_short text htext
    | some given =>
      obtain rfl := Option.some.inj htext
      exact List.length_take_le 500 given
  error_short := by
    intro text htext
    cases error with
    | none => exact hlimits.error_short text htext
    | some given =>
      obtain rfl := Option.some.inj htext
      exact herror given rfl

theorem updated_unpaired (hunpaired : task.Unpaired) (hresult : ∀ text, result = some text → Whole (text.take 500))
    (herror : ∀ text, error = some text → Whole text) :
    (WorkingMemory.updated now status result error task).Unpaired where
  id := hunpaired.id
  description := hunpaired.description
  result := by
    intro text htext
    cases result with
    | none => exact hunpaired.result text htext
    | some given =>
      obtain rfl := Option.some.inj htext
      exact hresult given rfl
  error := by
    intro text htext
    cases error with
    | none => exact hunpaired.error text htext
    | some given =>
      obtain rfl := Option.some.inj htext
      exact herror given rfl

end Updated

/-! ## One call -/

section Intact

variable {memory : WorkingMemory python} {now : python.DateTime}

theorem intact_setGoal_iff (h : memory.Intact) (goal : PyStr) :
    (memory.setGoal now goal).Intact ↔ ArgumentsFit memory (.setGoal goal) := by
  constructor
  · intro hafter
    exact ⟨hafter.limits.goal_short goal rfl, hafter.unpaired.goal goal rfl⟩
  · rintro ⟨hshort, hwhole⟩
    have hlimits : (memory.setGoal now goal).WithinLimits :=
      { h.limits with
        goal_short := fun text htext => Option.some.inj htext ▸ hshort
        turns := ⟨Int.le_refl 0, (by decide : (0 : Int) ≤ 100000)⟩ }
    have hunpaired : (memory.setGoal now goal).Unpaired :=
      { h.unpaired with goal := fun text htext => Option.some.inj htext ▸ hwhole }
    exact ⟨hlimits, hunpaired⟩

theorem forall_mem_concat {α : Type} {p : α → Prop} {xs : List α} {x : α} :
    (∀ y ∈ xs ++ [x], p y) ↔ (∀ y ∈ xs, p y) ∧ p x := by
  simp [or_imp, forall_and]

theorem intact_addTask_iff (h : memory.Intact) (taskId description : PyStr) :
    (memory.addTask now taskId description).Intact ↔ ArgumentsFit memory (.addTask taskId description) := by
  have hids : (memory.addTask now taskId description).tasks.map (·.id) = memory.tasks.map (·.id) ++ [taskId] :=
    List.map_append
  constructor
  · intro hafter
    have hfew := hafter.limits.few_tasks
    have hlast := (forall_mem_concat.mp hafter.limits.tasks).2
    have hwhole := (forall_mem_concat.mp hafter.unpaired.tasks).2
    have hdistinct := hafter.limits.distinct
    rw [hids, List.nodup_append] at hdistinct
    have hlength : (memory.addTask now taskId description).tasks.length = memory.tasks.length + 1 := List.length_append
    rw [hlength] at hfew
    exact ⟨hfew, hlast.id_ne_nil, hlast.id_short, fun hmem => hdistinct.2.2 taskId hmem taskId List.mem_cons_self rfl,
      hlast.description_short, hwhole.id, hwhole.description⟩
  · rintro ⟨hfew, hne, hshort, hnew, hdescription, hwholeId, hwholeDescription⟩
    have hlimits : (memory.addTask now taskId description).WithinLimits :=
      { h.limits with
        few_tasks := by
          have hlength : (memory.addTask now taskId description).tasks.length = memory.tasks.length + 1 := List.length_append
          rw [hlength]
          exact hfew
        tasks := forall_mem_concat.mpr ⟨h.limits.tasks, hne, hshort, hdescription, nofun, nofun⟩
        distinct := by
          rw [hids, List.nodup_append]
          refine ⟨h.limits.distinct, List.pairwise_singleton _ taskId, fun id hid other hother heq => hnew ?_⟩
          rw [← List.mem_singleton.mp hother, ← heq]
          exact hid }
    have hunpaired : (memory.addTask now taskId description).Unpaired :=
      { h.unpaired with
        tasks := forall_mem_concat.mpr ⟨h.unpaired.tasks, hwholeId, hwholeDescription, nofun, nofun⟩ }
    exact ⟨hlimits, hunpaired⟩

theorem intact_updateTask_iff (h : memory.Intact) (taskId : PyStr) (status : TaskStatus) (result error : Option PyStr) :
    (memory.updateTask now taskId status result error).Intact ↔ ArgumentsFit memory (.updateTask taskId status result error) := by
  by_cases hmem : taskId ∈ memory.tasks.map (·.id)
  · have hids : (memory.updateTask now taskId status result error).tasks.map (·.id) = memory.tasks.map (·.id) :=
      map_id_updateFirst fun _ => rfl
    constructor
    · intro hafter _
      obtain ⟨task, -, hupdated⟩ := @exists_updated _ _ (WorkingMemory.updated now status result error) _ hmem
      have hlimits := hafter.limits.tasks _ hupdated
      have hunpaired := hafter.unpaired.tasks _ hupdated
      refine ⟨fun text htext => hunpaired.result _ ?_, fun text htext => ⟨hlimits.error_short _ ?_, hunpaired.error _ ?_⟩⟩
      · rw [htext]
        rfl
      · rw [htext]
        rfl
      · rw [htext]
        rfl
    · intro hfits
      obtain ⟨hresult, herror⟩ := hfits hmem
      have hlimits : (memory.updateTask now taskId status result error).WithinLimits :=
        { h.limits with
          few_tasks := by
            rw [← List.length_map (·.id), hids, List.length_map]
            exact h.limits.few_tasks
          tasks := forall_updateFirst h.limits.tasks fun task htask =>
            updated_withinLimits (h.limits.tasks task htask) fun text htext => (herror text htext).1
          distinct := hids ▸ h.limits.distinct }
      have hunpaired : (memory.updateTask now taskId status result error).Unpaired :=
        { h.unpaired with
          tasks := forall_updateFirst h.unpaired.tasks fun task htask =>
            updated_unpaired (h.unpaired.tasks task htask) hresult fun text htext => (herror text htext).2 }
      exact ⟨hlimits, hunpaired⟩
  · have hsame : memory.updateTask now taskId status result error = memory := by
      unfold WorkingMemory.updateTask
      rw [updateFirst_of_not_mem hmem]
    rw [hsame]
    exact iff_of_true h fun hfound => absurd hfound hmem

theorem intact_addInfo_iff (h : memory.Intact) (key value source : PyStr) :
    (memory.addInfo now key value source).Intact ↔ ArgumentsFit memory (.addInfo key value source) := by
  have hlength : (memory.addInfo now key value source).collectedInfo.length = memory.collectedInfo.length + 1 :=
    List.length_append
  constructor
  · intro hafter
    have hfew := hafter.limits.few_info
    have hlast := (forall_mem_concat.mp hafter.limits.info).2
    have hwhole := (forall_mem_concat.mp hafter.unpaired.info).2
    rw [hlength] at hfew
    exact ⟨hfew, hlast.key_short, hlast.value_short, hlast.source_short, hwhole.key, hwhole.value, hwhole.source⟩
  · rintro ⟨hfew, hkey, hvalue, hsource, hwholeKey, hwholeValue, hwholeSource⟩
    have hlimits : (memory.addInfo now key value source).WithinLimits :=
      { h.limits with
        few_info := by
          rw [hlength]
          exact hfew
        info := forall_mem_concat.mpr ⟨h.limits.info, hkey, hvalue, hsource⟩ }
    have hunpaired : (memory.addInfo now key value source).Unpaired :=
      { h.unpaired with info := forall_mem_concat.mpr ⟨h.unpaired.info, hwholeKey, hwholeValue, hwholeSource⟩ }
    exact ⟨hlimits, hunpaired⟩

theorem reload_of_unpaired {snapshot : WorkingMemory python} (h : snapshot.Unpaired) :
    snapshot.toDict.reload = snapshot.toDict := by
  rw [reload_toDict, WorkingMemory.joined_eq_iff.mpr h]

/-- A snapshot that shares the notes comes back with the new note if that comes back. -/
theorem archived_addNote (h : memory.Intact) (harchives : Archives memory) {note : PyStr} (hwhole : Whole note) :
    ((memory.addNote note).archived.isNone = true ∨ (memory.addNote note).archived.isDict = true) ∧
      (memory.addNote note).archived.reload = (memory.addNote note).archived := by
  cases hshares : memory.sharesNotes with
  | false =>
    have hsame : (memory.addNote note).archived = memory.archived := by simp [WorkingMemory.addNote, hshares]
    rw [hsame]
    exact ⟨h.limits.archived, h.unpaired.archived⟩
  | true =>
    obtain ⟨snapshot, harchived, hfrozen⟩ := harchives.shared hshares
    have hnotes : (memory.addNote note).archived = { snapshot with notes := memory.notes ++ [note] }.toDict := by
      rw [← toDict_set_notes, ← harchived]
      simp [WorkingMemory.addNote, hshares]
    have hreload := h.unpaired.archived
    rw [harchived] at hreload
    have hunpaired : { snapshot with notes := memory.notes ++ [note] }.Unpaired :=
      { unpaired_of_reload hfrozen hreload with notes := forall_mem_concat.mpr ⟨h.unpaired.notes, hwhole⟩ }
    rw [hnotes]
    exact ⟨.inr rfl, reload_of_unpaired hunpaired⟩

theorem intact_addNote_iff (h : memory.Intact) (harchives : Archives memory) (note : PyStr) :
    (memory.addNote note).Intact ↔ ArgumentsFit memory (.addNote note) := by
  have hlength : (memory.addNote note).notes.length = memory.notes.length + 1 := List.length_append
  constructor
  · intro hafter
    have hfew := hafter.limits.few_notes
    rw [hlength] at hfew
    exact ⟨hfew, (forall_mem_concat.mp hafter.limits.notes_short).2, (forall_mem_concat.mp hafter.unpaired.notes).2⟩
  · rintro ⟨hfew, hshort, hwhole⟩
    obtain ⟨hkind, hreload⟩ := archived_addNote h harchives hwhole
    have hlimits : (memory.addNote note).WithinLimits :=
      { h.limits with
        few_notes := by
          rw [hlength]
          exact hfew
        notes_short := forall_mem_concat.mpr ⟨h.limits.notes_short, hshort⟩
        archived := hkind }
    have hunpaired : (memory.addNote note).Unpaired :=
      { h.unpaired with
        notes := forall_mem_concat.mpr ⟨h.unpaired.notes, hwhole⟩
        archived := hreload }
    exact ⟨hlimits, hunpaired⟩

theorem intact_preserveSnapshot (h : memory.Intact) : memory.preserveSnapshot.Intact := by
  unfold WorkingMemory.preserveSnapshot
  split
  · have hunpaired : { memory with archived := PyJson.none, sharesNotes := false }.Unpaired :=
      { h.unpaired with archived := rfl }
    rw [toDict_set_archived]
    exact ⟨{ h.limits with archived := .inr rfl }, { h.unpaired with archived := reload_of_unpaired hunpaired }⟩
  · exact h

theorem intact_clear (h : memory.Intact) : memory.clear.Intact := by
  have hlimits : memory.clear.WithinLimits :=
    { h.limits with
      goal_short := nofun
      few_tasks := Nat.zero_le 100
      few_info := Nat.zero_le 100
      few_notes := Nat.zero_le 100
      tasks := nofun
      distinct := List.nodup_nil
      info := nofun
      notes_short := nofun
      turns := ⟨Int.le_refl 0, (by decide : (0 : Int) ≤ 100000)⟩ }
  have hunpaired : memory.clear.Unpaired := { h.unpaired with goal := nofun, tasks := nofun, info := nofun, notes := nofun }
  exact ⟨hlimits, hunpaired⟩

theorem intact_archiveIfSettled (h : memory.Intact) (turnsSinceGoal : Int) : (memory.archiveIfSettled turnsSinceGoal).Intact := by
  unfold WorkingMemory.archiveIfSettled
  split
  · exact intact_clear (intact_preserveSnapshot h)
  · exact h

/-- After a call the memory comes back, but for its length, exactly when the call brought in what the limits allow. -/
theorem intact_call_iff (h : memory.Intact) (harchives : Archives memory) (call : Call) :
    (memory.call now call).Intact ↔ ArgumentsFit memory call := by
  cases call with
  | setGoal goal => exact intact_setGoal_iff h goal
  | addTask taskId description => exact intact_addTask_iff h taskId description
  | updateTask taskId status result error => exact intact_updateTask_iff h taskId status result error
  | addInfo key value source => exact intact_addInfo_iff h key value source
  | addNote note => exact intact_addNote_iff h harchives note
  | preserveSnapshot => exact iff_of_true (intact_preserveSnapshot h) trivial
  | archiveIfSettled turnsSinceGoal => exact iff_of_true (intact_archiveIfSettled h turnsSinceGoal) trivial
  | clear => exact iff_of_true (intact_clear h) trivial

theorem sessionId_preserveSnapshot : memory.preserveSnapshot.sessionId = memory.sessionId := by
  unfold WorkingMemory.preserveSnapshot
  split <;> rfl

theorem sessionId_call (call : Call) : (memory.call now call).sessionId = memory.sessionId := by
  cases call with
  | archiveIfSettled turnsSinceGoal =>
    have hcall : memory.call now (.archiveIfSettled turnsSinceGoal) = memory.archiveIfSettled turnsSinceGoal := rfl
    rw [hcall, WorkingMemory.archiveIfSettled]
    split
    · exact sessionId_preserveSnapshot
    · rfl
  | preserveSnapshot => exact sessionId_preserveSnapshot
  | _ => rfl

end Intact

/-! ## Sequences of calls -/

/-- The property holds of the memory at the start and after every call. -/
def EveryState (p : WorkingMemory python → Prop) (memory : WorkingMemory python) : List (python.DateTime × Call) → Prop
  | [] => p memory
  | (now, call) :: calls => p memory ∧ EveryState p (memory.call now call) calls

/-- The property holds of every call on the memory that it is made on. -/
def EveryCall (p : WorkingMemory python → python.DateTime → Call → Prop) (memory : WorkingMemory python) :
    List (python.DateTime × Call) → Prop
  | [] => True
  | (now, call) :: calls => p memory now call ∧ EveryCall p (memory.call now call) calls

theorem everyState_iff {memory : WorkingMemory python} (h : memory.Intact) (hfits : memory.Fits) (harchives : Archives memory)
    (calls : List (python.DateTime × Call)) :
    EveryState (fun memory => memory.Intact ∧ memory.Fits) memory calls ↔ EveryCall CallFits memory calls := by
  induction calls generalizing memory with
  | nil => exact iff_of_true ⟨h, hfits⟩ trivial
  | cons step calls ih =>
    obtain ⟨now, call⟩ := step
    rw [EveryState, EveryCall, and_iff_right ⟨h, hfits⟩]
    constructor
    · intro hstates
      have hafter : (memory.call now call).Intact ∧ (memory.call now call).Fits := by
        cases calls with
        | nil => exact hstates
        | cons _ _ => exact hstates.1
      exact ⟨⟨(intact_call_iff h harchives call).mp hafter.1, hafter.2⟩,
        (ih hafter.1 hafter.2 (archives_call harchives now call)).mp hstates⟩
    · rintro ⟨⟨hargs, hcallFits⟩, hcalls⟩
      exact (ih ((intact_call_iff h harchives call).mpr hargs) hcallFits (archives_call harchives now call)).mpr hcalls

theorem everyState_congr {p q : WorkingMemory python → Prop} {sessionId : PyJson}
    (hpq : ∀ memory, memory.sessionId = sessionId → (p memory ↔ q memory)) {memory : WorkingMemory python}
    (hsession : memory.sessionId = sessionId) (calls : List (python.DateTime × Call)) :
    EveryState p memory calls ↔ EveryState q memory calls := by
  induction calls generalizing memory with
  | nil => exact hpq memory hsession
  | cons step calls ih =>
    obtain ⟨now, call⟩ := step
    rw [EveryState, EveryState, hpq memory hsession, ih ((sessionId_call call).trans hsession)]

theorem everyState_first {p : WorkingMemory python → Prop} {memory : WorkingMemory python}
    {calls : List (python.DateTime × Call)} (h : EveryState p memory calls) : p memory := by
  cases calls with
  | nil => exact h
  | cons _ _ => exact h.1

theorem intact_newMemory_iff (session : PyStr) : (newMemory python session).Intact ↔ Whole session := by
  constructor
  · intro h
    have hreload := h.unpaired.session
    exact PyJson.str.inj (by rwa [newMemory, reload] at hreload)
  · intro hwhole
    have hnone : ∀ (P : PyStr → Prop) text, (none : Option PyStr) = some text → P text := by
      intro P text h
      cases h
    have hlimits : (newMemory python session).WithinLimits :=
      { goal_short := hnone _
        few_tasks := Nat.zero_le 100
        few_info := Nat.zero_le 100
        few_notes := Nat.zero_le 100
        tasks := List.forall_mem_nil _
        distinct := List.nodup_nil
        info := List.forall_mem_nil _
        notes_short := List.forall_mem_nil _
        archived := .inl rfl
        turns := ⟨Int.le_refl 0, (by decide : (0 : Int) ≤ 100000)⟩ }
    have hsession : (PyJson.str session).reload = .str session := by rw [reload, hwhole]
    exact ⟨hlimits, hsession, hnone _, List.forall_mem_nil _, List.forall_mem_nil _, List.forall_mem_nil _, rfl⟩

/-- A session's memory comes back at every point exactly when the session's name does, each call brings in only what the
limits allow, and the stored text stays short. -/
theorem survives_everywhere_iff (python : Python) (session : PyStr) (calls : List (python.DateTime × Call)) :
    EveryState (fun memory => Survives memory session) (newMemory python session) calls ↔
      SessionFits python session ∧ EveryCall CallFits (newMemory python session) calls := by
  have hcongr := @everyState_congr _ _ (fun memory => memory.Intact ∧ memory.Fits) (.str session)
    (fun memory hsession => @survives_iff _ memory session hsession) (newMemory python session) rfl calls
  rw [hcongr]
  constructor
  · intro hstates
    obtain ⟨hintact, hfits⟩ := everyState_first hstates
    exact ⟨⟨(intact_newMemory_iff session).mp hintact, hfits⟩,
      (everyState_iff hintact hfits (archives_newMemory session) calls).mp hstates⟩
  · rintro ⟨⟨hwhole, hfits⟩, hcalls⟩
    exact (everyState_iff ((intact_newMemory_iff session).mpr hwhole) hfits (archives_newMemory session) calls).mpr hcalls

/-- Times that are all one. -/
def oneTime : Python where
  DateTime := Unit
  isoformat := fun _ => lit "2026-01-01T00:00:00+00:00"
  fromisoformat := fun text => if text = lit "2026-01-01T00:00:00+00:00" then some () else none
  fromisoformat_isoformat := fun _ => if_pos rfl
  isoformat_ne_nil := fun _ => by decide
  isoformat_scalar := by
    intro t c hc
    obtain ⟨char, -, rfl⟩ := List.mem_map.mp hc
    exact ⟨char, rfl⟩
  reprLength := fun _ => 3
  str := fun _ => []

/-- A task that failed with an error of 501 characters is stored and never restored. -/
theorem long_error_is_not_restored :
    ¬ Survives (((newMemory oneTime (lit "s")).call () (.addTask (lit "t") (lit "d"))).call ()
      (.updateTask (lit "t") .failed none (some (List.replicate 501 (.scalar 'e'))))) (lit "s") := by
  intro hsurvives
  have hintact := ((survives_iff rfl).mp hsurvives).1
  have hshort := (hintact.limits.tasks _ List.mem_cons_self).error_short _ rfl
  rw [List.length_replicate] at hshort
  exact absurd hshort (by decide)

end TaskMemory
