/-
  AiPlatform.Gateway.RateStaleness

  How old the rules can be that a resolve returns.

  A snapshot is put in only while the epoch is the one its key was made in, and
  every `invalidate` takes it out.  So its rules come from a read that began in the
  current epoch, and its two limits count from the completion of that read.
-/

import AiPlatform.Gateway.RatePolicyResolver
import AiPlatform.Lib.Pool

namespace AiPlatform.Gateway

open Transition

/-! ## What a resolve returns -/

/-- The read at this place has completed at this instant and has given these rules. -/
structure ReadGave (reads : List RuleRead) (index : Nat) (rules : List RateRule) (read : RuleRead)
    (completed : Nat) : Prop where
  found : reads[index]? = some read
  completed : read.completed = some completed
  rules : ∃ rows, read.rows = some rows ∧ rules = compileRules rows

/-- The rules are those of one read.  It completed no longer than the stale budget
    before the task began, or while it ran, and it did not begin before an
    `invalidate` that the task began after. -/
def Served (settings : RateSettings) (reads : List RuleRead) (task : ResolverTask)
    (rules : List RateRule) (index now : Nat) : Prop :=
  ∃ read completed, ReadGave reads index rules read completed ∧
    task.invalidations ≤ read.invalidations ∧
    (completed ≤ task.began ∧ task.began ≤ completed + settings.cacheTtl + settings.maxStale ∨
      task.began ≤ completed ∧ completed ≤ now)

/-- Reads that have completed stay as they are. -/
def Grow (reads reads' : List RuleRead) : Prop :=
  ∀ (index : Nat) (read : RuleRead), reads[index]? = some read → read.completed.isSome = true →
    reads'[index]? = some read

variable {settings : RateSettings} {s s' : Resolver} {reads reads' : List RuleRead}
  {task : ResolverTask} {i index now completed : Nat} {rules rows : List RateRule} {read : RuleRead}

theorem Grow.refl : Grow reads reads := fun _ _ hfound _ => hfound

theorem Grow.push (new : RuleRead) : Grow reads (reads ++ [new]) := fun index read hfound _ => by
  obtain ⟨hlt, -⟩ := List.getElem?_eq_some_iff.mp hfound
  rw [List.getElem?_append_left hlt]
  exact hfound

/-- A read that has not completed may change. -/
theorem Grow.set {new : RuleRead} (hfound : reads[index]? = some read) (hopen : read.completed = none) :
    Grow reads (reads.set index new) := fun index' read' hfound' hdone => by
  by_cases heq : index = index'
  · subst heq
    rw [hfound] at hfound'
    obtain rfl := Option.some.inj hfound'
    rw [hopen] at hdone
    cases hdone
  · rw [List.getElem?_set_ne heq]
    exact hfound'

theorem ReadGave.grow (h : ReadGave reads index rules read completed) (hgrow : Grow reads reads') :
    ReadGave reads' index rules read completed where
  found := hgrow index read h.found (by rw [h.completed]; rfl)
  completed := h.completed
  rules := h.rules

theorem Served.grow (h : Served settings reads task rules index now) (hgrow : Grow reads reads') :
    Served settings reads' task rules index now := by
  obtain ⟨read, completed, hgave, hrest⟩ := h
  exact ⟨read, completed, hgave.grow hgrow, hrest⟩

/-! ## What the resolver keeps -/

structure TaskOk (settings : RateSettings) (s : Resolver) (i : Nat) (task : ResolverTask) : Prop where
  key : task.cacheKey = (settings.database, task.invalidations)
  began : task.began ≤ s.now
  invalidations : task.invalidations ≤ s.invalidations
  /-- Who reads has the lock. -/
  reading : ∀ index, task.status = .reading index → s.lock = some i ∧
    ∃ read, s.reads[index]? = some read ∧ read.completed = none ∧
      task.invalidations ≤ read.invalidations
  returned : ∀ rules index now, task.status = .returned rules index now →
    Served settings s.reads task rules index now
  answered : ∀ policy, task.status = .answered policy →
    ∃ request, task.origin = .resolve request ∧ serviceConfigPolicy request = some policy

/-- The snapshot is of the current epoch, and its limits count from its read. -/
structure SnapshotOk (settings : RateSettings) (s : Resolver) (snapshot : RuleSnapshot) : Prop where
  key : snapshot.cacheKey = (settings.database, s.epoch)
  gave : ∃ read completed, ReadGave s.reads snapshot.read snapshot.rules read completed ∧
    s.epoch ≤ read.invalidations ∧ completed ≤ s.now ∧
    snapshot.expiresAt = completed + settings.cacheTtl ∧
    snapshot.staleUntil = completed + settings.cacheTtl + settings.maxStale

structure ResolverOk (settings : RateSettings) (s : Resolver) : Prop where
  epoch : s.invalidations = s.epoch
  snapshot : ∀ snapshot, s.snapshot = some snapshot → SnapshotOk settings s snapshot
  task : ∀ (i : Nat) task, s.tasks[i]? = some task → TaskOk settings s i task

/-- A task that does not read goes on as it was while reads are added to and time
    passes. -/
theorem TaskOk.keep (h : TaskOk settings s i task) (hnow : s.now ≤ s'.now)
    (hinvalidations : s.invalidations ≤ s'.invalidations) (hgrow : Grow s.reads s'.reads)
    (hreading : ∀ index, task.status = .reading index → s'.lock = some i ∧
      ∃ read, s'.reads[index]? = some read ∧ read.completed = none ∧
        task.invalidations ≤ read.invalidations) : TaskOk settings s' i task where
  key := h.key
  began := h.began.trans hnow
  invalidations := h.invalidations.trans hinvalidations
  reading := hreading
  returned rules index now hstatus := (h.returned rules index now hstatus).grow hgrow
  answered := h.answered

theorem SnapshotOk.keep {snapshot : RuleSnapshot} (h : SnapshotOk settings s snapshot)
    (hepoch : s'.epoch = s.epoch) (hnow : s.now ≤ s'.now) (hgrow : Grow s.reads s'.reads) :
    SnapshotOk settings s' snapshot where
  key := hepoch ▸ h.key
  gave := by
    obtain ⟨read, completed, hgave, hread, hpast, hlimits⟩ := h.gave
    exact ⟨read, completed, hgave.grow hgrow, hepoch ▸ hread, hpast.trans hnow, hlimits⟩

/-- Only the holder of the lock reads. -/
theorem ResolverOk.reader_unique (h : ResolverOk settings s) {j : Nat} {other : ResolverTask}
    (hlock : s.lock = some i) (hother : s.tasks[j]? = some other)
    (hstatus : other.status = .reading index) : j = i := by
  have hheld := ((h.task j other hother).reading index hstatus).1
  exact Option.some.inj (hheld.symm.trans hlock)

/-! ## The moves -/

/-- The rules of the snapshot are those a task may return, up to its limits. -/
theorem served_of_snapshot {snapshot : RuleSnapshot} (h : SnapshotOk settings s snapshot)
    (hepoch : task.invalidations ≤ s.epoch) (hlimit : task.began ≤ snapshot.staleUntil) :
    Served settings s.reads task snapshot.rules snapshot.read s.now := by
  obtain ⟨read, completed, hgave, hread, hpast, -, hstale⟩ := h.gave
  refine ⟨read, completed, hgave, hepoch.trans hread, ?_⟩
  rcases Nat.le_total completed task.began with hle | hle
  · exact .inl ⟨hle, hstale ▸ hlimit⟩
  · exact .inr ⟨hle, hpast⟩

theorem ResolverOk.spawn (h : ResolverOk settings s) {origin : TaskOrigin} {key : CacheKey}
    {status : TaskStatus} (hkey : key = (settings.database, s.epoch))
    (hreading : ∀ index, status ≠ .reading index)
    (hreturned : ∀ rules index now, status = .returned rules index now →
      Served settings s.reads ⟨origin, key, s.now, s.invalidations, false, status⟩ rules index now)
    (hanswered : ∀ policy, status = .answered policy →
      ∃ request, origin = .resolve request ∧ serviceConfigPolicy request = some policy) :
    ResolverOk settings (s.spawn origin key status) where
  epoch := h.epoch
  snapshot snapshot hsnapshot := (h.snapshot snapshot hsnapshot).keep rfl (Nat.le_refl _) .refl
  task j other hother := by
    rcases Pool.getElem?_push_iff.mp hother with hold | ⟨-, rfl⟩
    · have hok := h.task j other hold
      exact hok.keep (Nat.le_refl _) (Nat.le_refl _) .refl hok.reading
    · exact ⟨by rw [h.epoch, hkey], Nat.le_refl _, Nat.le_refl _,
        fun index hstatus => absurd hstatus (hreading index), hreturned, hanswered⟩

theorem ResolverOk.refreshTask (h : ResolverOk settings s) (refreshTask : Option Nat) :
    ResolverOk settings { s with refreshTask := refreshTask } where
  epoch := h.epoch
  snapshot snapshot hsnapshot := (h.snapshot snapshot hsnapshot).keep rfl (Nat.le_refl _) .refl
  task j other hother :=
    (h.task j other hother).keep (Nat.le_refl _) (Nat.le_refl _) .refl (h.task j other hother).reading

theorem ResolverOk.scheduleStaleRefresh (h : ResolverOk settings s) :
    ResolverOk settings (s.scheduleStaleRefresh (settings.database, s.epoch)) := by
  unfold Resolver.scheduleStaleRefresh
  split
  · exact h
  · have hspawn : ResolverOk settings
        (s.spawn .refresh (settings.database, s.epoch) .waiting) :=
      h.spawn rfl (fun _ => nofun) (fun _ _ _ => nofun) (fun _ => nofun)
    exact hspawn.refreshTask _

theorem scheduleStaleRefresh_frame (s : Resolver) (key : CacheKey) :
    (s.scheduleStaleRefresh key).epoch = s.epoch ∧ (s.scheduleStaleRefresh key).now = s.now ∧
      (s.scheduleStaleRefresh key).invalidations = s.invalidations ∧
      (s.scheduleStaleRefresh key).reads = s.reads := by
  unfold Resolver.scheduleStaleRefresh
  split <;> exact ⟨rfl, rfl, rfl, rfl⟩

theorem snapshotOf_eq_some {key : CacheKey} {snapshot : RuleSnapshot}
    (h : s.snapshotOf key = some snapshot) : s.snapshot = some snapshot ∧ snapshot.cacheKey = key := by
  obtain ⟨hsnapshot, hkey⟩ := Option.filter_eq_some_iff.mp h
  exact ⟨hsnapshot, beq_iff_eq.mp hkey⟩

theorem ResolverOk.resolve (h : ResolverOk settings s) (request : ResolveRequest) :
    ResolverOk settings (s.resolve settings request) := by
  have hwaiting : ResolverOk settings
      (s.spawn (.resolve request) (settings.database, s.epoch) .waiting) :=
    h.spawn rfl (fun _ => nofun) (fun _ _ _ => nofun) (fun _ => nofun)
  unfold Resolver.resolve
  dsimp only
  split
  · rename_i policy hpolicy
    refine h.spawn rfl (fun _ => nofun) (fun _ _ _ => nofun) fun policy' hstatus => ?_
    obtain rfl := TaskStatus.answered.inj hstatus
    exact ⟨request, rfl, hpolicy⟩
  · split
    · rename_i snapshot hsnapshot
      have hok := h.snapshot snapshot (snapshotOf_eq_some hsnapshot).1
      have hserved : s.now ≤ snapshot.staleUntil → ∀ status, Served settings s.reads
          ⟨.resolve request, (settings.database, s.epoch), s.now, s.invalidations, false, status⟩
          snapshot.rules snapshot.read s.now := fun hlimit status =>
        served_of_snapshot hok (Nat.le_of_eq h.epoch) hlimit
      split
      · rename_i hfresh
        refine h.spawn rfl (fun _ => nofun) (fun rules index now hstatus => ?_) (fun _ => nofun)
        obtain ⟨rfl, rfl, rfl⟩ := TaskStatus.returned.inj hstatus
        obtain ⟨read, completed, -, -, -, hexpires, hstale⟩ := hok.gave
        exact hserved (by omega) _
      · split
        · rename_i hlimit
          have hscheduled := h.scheduleStaleRefresh
          obtain ⟨hepoch, hnow, hinvalidations, hreads⟩ :=
            scheduleStaleRefresh_frame s (settings.database, s.epoch)
          refine hscheduled.spawn (by rw [hepoch]) (fun _ => nofun)
            (fun rules index now hstatus => ?_) (fun _ => nofun)
          obtain ⟨rfl, rfl, rfl⟩ := TaskStatus.returned.inj hstatus
          rw [hreads, hnow, hinvalidations]
          exact hserved hlimit _
        · exact hwaiting
    · exact hwaiting

/-- A task ends; its own end must be right, the others go on. -/
theorem ResolverOk.finish (h : ResolverOk settings s) (htask : s.tasks[i]? = some task)
    {status : TaskStatus} (hreading : ∀ index, status ≠ .reading index)
    (hreturned : ∀ rules index now, status = .returned rules index now →
      Served settings s.reads task rules index now)
    (hanswered : ∀ policy, status ≠ .answered policy) :
    ResolverOk settings (s.finish i task status) where
  epoch := h.epoch
  snapshot snapshot hsnapshot := (h.snapshot snapshot hsnapshot).keep rfl (Nat.le_refl _) .refl
  task j other hother := by
    rcases (Pool.getElem?_set_iff htask).mp hother with ⟨rfl, rfl⟩ | ⟨hne, hold⟩
    · have hok := h.task i task htask
      exact ⟨hok.key, hok.began, hok.invalidations,
        fun index hstatus => absurd hstatus (hreading index), hreturned,
        fun policy hstatus => absurd hstatus (hanswered policy)⟩
    · have hok := h.task j other hold
      refine hok.keep (Nat.le_refl _) (Nat.le_refl _) .refl fun index hstatus => ?_
      obtain ⟨hlock, hread⟩ := hok.reading index hstatus
      refine ⟨?_, hread⟩
      show (if s.lock = some i then none else s.lock) = some j
      rw [hlock, if_neg fun heq => hne (Option.some.inj heq).symm]

/-- A read of the task that holds the lock changes; the others do not read. -/
theorem ResolverOk.setRead (h : ResolverOk settings s) (htask : s.tasks[i]? = some task)
    (hstatus : task.status = .reading index) {new : RuleRead} (hfound : s.reads[index]? = some read)
    (hinvalidations : new.invalidations = read.invalidations) (hopen : new.completed = none) :
    ResolverOk settings { s with reads := s.reads.set index new } := by
  obtain ⟨hlock, read', hfound', hopen', hbegan⟩ := (h.task i task htask).reading index hstatus
  rw [hfound] at hfound'
  obtain rfl := Option.some.inj hfound'
  have hgrow : Grow s.reads (s.reads.set index new) := .set hfound hopen'
  refine ⟨h.epoch, fun snapshot hsnapshot =>
    (h.snapshot snapshot hsnapshot).keep rfl (Nat.le_refl _) hgrow, fun j other hother => ?_⟩
  refine (h.task j other hother).keep (Nat.le_refl _) (Nat.le_refl _) hgrow fun index' hstatus' => ?_
  obtain rfl := h.reader_unique hlock hother hstatus'
  rw [htask] at hother
  obtain rfl := Option.some.inj hother
  obtain rfl := TaskStatus.reading.inj (hstatus.symm.trans hstatus')
  have hlt := (List.getElem?_eq_some_iff.mp hfound).1
  exact ⟨hlock, new, List.getElem?_set_self hlt, hopen, hinvalidations ▸ hbegan⟩

theorem ResolverOk.enter (h : ResolverOk settings s) (htask : s.tasks[i]? = some task)
    (hlock : s.lock = none) : ResolverOk settings (s.enter i task) := by
  have hok := h.task i task htask
  unfold Resolver.enter
  split
  · rename_i snapshot hsnapshot
    obtain ⟨hkeyed, hfresh⟩ := Option.filter_eq_some_iff.mp hsnapshot
    have hsnapshot := h.snapshot snapshot (snapshotOf_eq_some hkeyed).1
    obtain ⟨read, completed, -, -, -, hexpires, hstale⟩ := hsnapshot.gave
    have hfresh := of_decide_eq_true hfresh
    have hbegan := hok.began
    refine h.finish htask (fun _ => nofun) (fun rules index now hstatus => ?_) (fun _ => nofun)
    obtain ⟨rfl, rfl, rfl⟩ := TaskStatus.returned.inj hstatus
    exact served_of_snapshot hsnapshot (h.epoch ▸ hok.invalidations) (by omega)
  · split
    · exact h.finish htask (fun _ => nofun) (fun _ _ _ => nofun) (fun _ => nofun)
    · have hgrow : Grow s.reads (s.reads ++ [⟨s.invalidations, none, none⟩]) := .push _
      refine ⟨h.epoch, fun snapshot hsnapshot =>
        (h.snapshot snapshot hsnapshot).keep rfl (Nat.le_refl _) hgrow, fun j other hother => ?_⟩
      rcases (Pool.getElem?_set_iff htask).mp hother with ⟨rfl, rfl⟩ | ⟨-, hold⟩
      · refine ⟨hok.key, hok.began, hok.invalidations, fun index hstatus => ⟨rfl, ?_⟩,
          fun _ _ _ => nofun, fun _ => nofun⟩
        obtain rfl := TaskStatus.reading.inj hstatus
        exact ⟨_, List.getElem?_concat_length, rfl, hok.invalidations⟩
      · have hold' := h.task j other hold
        refine hold'.keep (Nat.le_refl _) (Nat.le_refl _) hgrow fun index hstatus => ?_
        have hheld := (hold'.reading index hstatus).1
        rw [hlock] at hheld
        cases hheld

theorem ResolverOk.setFailure (h : ResolverOk settings s) (failure : Option (CacheKey × Nat)) :
    ResolverOk settings { s with refreshFailure := failure } where
  epoch := h.epoch
  snapshot snapshot hsnapshot := (h.snapshot snapshot hsnapshot).keep rfl (Nat.le_refl _) .refl
  task j other hother :=
    (h.task j other hother).keep (Nat.le_refl _) (Nat.le_refl _) .refl (h.task j other hother).reading

theorem ResolverOk.setSnapshot (h : ResolverOk settings s) {snapshot : RuleSnapshot}
    (hsnapshot : SnapshotOk settings s snapshot) :
    ResolverOk settings { s with refreshFailure := none, snapshot := some snapshot } where
  epoch := h.epoch
  snapshot new hnew := by
    obtain rfl := Option.some.inj hnew
    exact hsnapshot.keep rfl (Nat.le_refl _) .refl
  task j other hother :=
    (h.task j other hother).keep (Nat.le_refl _) (Nat.le_refl _) .refl (h.task j other hother).reading

theorem ResolverOk.complete (h : ResolverOk settings s) (htask : s.tasks[i]? = some task)
    (hstatus : task.status = .reading index) (hfound : s.reads[index]? = some read)
    (hrows : read.rows = some rows) :
    ResolverOk settings (s.complete settings i task index read rows) := by
  have hok := h.task i task htask
  obtain ⟨hlock, read', hfound', hopen, hinvalidations⟩ := hok.reading index hstatus
  rw [hfound] at hfound'
  obtain rfl := Option.some.inj hfound'
  have hgrow : Grow s.reads (s.reads.set index { read with completed := some s.now }) :=
    .set hfound hopen
  have hgave : ReadGave (s.reads.set index { read with completed := some s.now }) index
      (compileRules rows) { read with completed := some s.now } s.now :=
    ⟨List.getElem?_set_self (List.getElem?_eq_some_iff.mp hfound).1, rfl, rows, hrows, rfl⟩
  have hdone : ResolverOk settings
      { s.finish i task (.returned (compileRules rows) index s.now) with
        reads := s.reads.set index { read with completed := some s.now } } := by
    refine ⟨h.epoch, fun snapshot hsnapshot =>
      (h.snapshot snapshot hsnapshot).keep rfl (Nat.le_refl _) hgrow, fun j other hother => ?_⟩
    rcases (Pool.getElem?_set_iff htask).mp hother with ⟨rfl, rfl⟩ | ⟨hne, hold⟩
    · refine ⟨hok.key, hok.began, hok.invalidations, fun _ => nofun,
        fun rules index' now hreturned => ?_, fun _ => nofun⟩
      obtain ⟨rfl, rfl, rfl⟩ := TaskStatus.returned.inj hreturned
      exact ⟨_, s.now, hgave, hinvalidations, .inr ⟨hok.began, Nat.le_refl _⟩⟩
    · refine (h.task j other hold).keep (Nat.le_refl _) (Nat.le_refl _) hgrow fun index' hreads => ?_
      exact absurd (h.reader_unique hlock hold hreads).symm hne
  unfold Resolver.complete
  dsimp only
  split
  · rename_i hkey
    refine hdone.setSnapshot ⟨hkey, _, s.now, hgave, ?_, Nat.le_refl _, rfl, rfl⟩
    -- The key is of the current epoch, and the read did not begin before it was made.
    have hepoch : task.invalidations = s.epoch := (Prod.mk.inj (hok.key.symm.trans hkey)).2
    exact hepoch ▸ hinvalidations
  · exact hdone

theorem ResolverOk.fail (h : ResolverOk settings s) (htask : s.tasks[i]? = some task) :
    ResolverOk settings (s.fail settings i task) := by
  have hdone : ResolverOk settings (s.finish i task (.raised .databaseError)) :=
    h.finish htask (fun _ => nofun) (fun _ _ _ => nofun) (fun _ => nofun)
  unfold Resolver.fail
  dsimp only
  split
  · exact hdone.setFailure _
  · exact hdone

theorem ResolverOk.invalidate (h : ResolverOk settings s) : ResolverOk settings s.invalidate where
  epoch := congrArg (· + 1) h.epoch
  snapshot _ := nofun
  task j other hother := by
    have hcases : s.tasks[j]? = some other ∨
        ∃ old, s.tasks[j]? = some old ∧ other = { old with cancelled := true } := by
      unfold Resolver.invalidate at hother
      dsimp only at hother
      split at hother
      · rename_i i hrefresh
        rw [List.getElem?_modify] at hother
        obtain ⟨old, hold, rfl⟩ := Option.map_eq_some_iff.mp hother
        split
        · exact .inr ⟨old, hold, rfl⟩
        · exact .inl hold
      · exact .inl hother
    have hkeep : ∀ {task}, TaskOk settings s j task → TaskOk settings s.invalidate j task :=
      fun hok => hok.keep (Nat.le_refl _) (Nat.le_succ _) .refl hok.reading
    rcases hcases with hold | ⟨old, hold, rfl⟩
    · exact hkeep (h.task j other hold)
    · have hok := hkeep (h.task j old hold)
      exact ⟨hok.key, hok.began, hok.invalidations, hok.reading, hok.returned, hok.answered⟩

theorem ResolverOk.pass (h : ResolverOk settings s) (ticks : Nat) :
    ResolverOk settings { s with now := s.now + ticks } where
  epoch := h.epoch
  snapshot snapshot hsnapshot := (h.snapshot snapshot hsnapshot).keep rfl (Nat.le_add_right _ _) .refl
  task j other hother :=
    (h.task j other hother).keep (Nat.le_add_right _ _) (Nat.le_refl _) .refl
      (h.task j other hother).reading

theorem ResolverOk.change (h : ResolverOk settings s) (table : List RateRule) :
    ResolverOk settings { s with table := table } where
  epoch := h.epoch
  snapshot snapshot hsnapshot := (h.snapshot snapshot hsnapshot).keep rfl (Nat.le_refl _) .refl
  task j other hother :=
    (h.task j other hother).keep (Nat.le_refl _) (Nat.le_refl _) .refl (h.task j other hother).reading

/-! ## Whole runs -/

theorem task?_eq_some (h : s.task? i = some task) : s.tasks[i]? = some task :=
  (Option.filter_eq_some_iff.mp h).1

theorem readOf?_eq_some (h : s.readOf? task = some (index, read)) :
    task.status = .reading index ∧ s.reads[index]? = some read := by
  unfold Resolver.readOf? at h
  split at h
  · rename_i index' hstatus
    obtain ⟨read', hfound, heq⟩ := Option.map_eq_some_iff.mp h
    obtain ⟨rfl, rfl⟩ := Prod.mk.inj heq
    exact ⟨hstatus, hfound⟩
  · cases h

theorem resolverOk_step {x : Move Resolver ResolverInput Unit} (hx : (resolverMachine settings).Makes x)
    (h : ResolverOk settings x.pre) : ResolverOk settings x.post := by
  obtain ⟨pre, input, reply, post⟩ := x
  unfold Machine.Makes resolverMachine at hx
  dsimp only at hx h ⊢
  cases input with
  | resolve request =>
    obtain ⟨-, rfl⟩ := Prod.mk.inj (Option.some.inj hx)
    exact h.resolve request
  | enter i =>
    obtain ⟨task, htask, hx⟩ := Option.bind_eq_some_iff.mp hx
    split at hx
    · rename_i hlock
      obtain ⟨-, rfl⟩ := Prod.mk.inj (Option.some.inj hx)
      exact h.enter (task?_eq_some htask) hlock
    · cases hx
  | query i =>
    obtain ⟨task, htask, hx⟩ := Option.bind_eq_some_iff.mp hx
    obtain ⟨⟨index, read⟩, hread, hx⟩ := Option.bind_eq_some_iff.mp hx
    obtain ⟨hstatus, hfound⟩ := readOf?_eq_some hread
    dsimp only at hx
    split at hx
    · obtain ⟨-, rfl⟩ := Prod.mk.inj (Option.some.inj hx)
      obtain ⟨-, read', hfound', hopen, -⟩ :=
        (h.task i task (task?_eq_some htask)).reading index hstatus
      rw [hfound] at hfound'
      obtain rfl := Option.some.inj hfound'
      exact h.setRead (task?_eq_some htask) hstatus hfound rfl hopen
    · cases hx
  | complete i =>
    obtain ⟨task, htask, hx⟩ := Option.bind_eq_some_iff.mp hx
    obtain ⟨⟨index, read⟩, hread, hx⟩ := Option.bind_eq_some_iff.mp hx
    obtain ⟨rows, hrows, hx⟩ := Option.bind_eq_some_iff.mp hx
    obtain ⟨hstatus, hfound⟩ := readOf?_eq_some hread
    obtain ⟨-, rfl⟩ := Prod.mk.inj (Option.some.inj hx)
    exact h.complete (task?_eq_some htask) hstatus hfound hrows
  | fail i =>
    obtain ⟨task, htask, hx⟩ := Option.bind_eq_some_iff.mp hx
    obtain ⟨-, -, hx⟩ := Option.bind_eq_some_iff.mp hx
    obtain ⟨-, rfl⟩ := Prod.mk.inj (Option.some.inj hx)
    exact h.fail (task?_eq_some htask)
  | cancel i =>
    obtain ⟨task, htask, hx⟩ := Option.bind_eq_some_iff.mp hx
    split at hx
    · cases hx
    · obtain ⟨-, rfl⟩ := Prod.mk.inj (Option.some.inj hx)
      exact h.finish htask (fun _ => nofun) (fun _ _ _ => nofun) (fun _ => nofun)
  | invalidate =>
    obtain ⟨-, rfl⟩ := Prod.mk.inj (Option.some.inj hx)
    exact h.invalidate
  | pass ticks =>
    obtain ⟨-, rfl⟩ := Prod.mk.inj (Option.some.inj hx)
    exact h.pass ticks
  | change table =>
    obtain ⟨-, rfl⟩ := Prod.mk.inj (Option.some.inj hx)
    exact h.change table

theorem resolverOk_new {table : List RateRule} : ResolverOk settings (.new now table) where
  epoch := rfl
  snapshot _ := nofun
  task _ _ := nofun

/-- No read that gave rules has completed after the instant. -/
def FailsSince (reads : List RuleRead) (instant : Nat) : Prop :=
  ∀ read ∈ reads, ∀ completed, read.completed = some completed → completed ≤ instant

/-- One tick is a millisecond. -/
def sampleSettings : RateSettings := .ofArguments 1000 1 1000 5000

def sampleRule : RateRule :=
  ⟨"tenant", "tenant-a", 10, 60, 0, "sliding_window", true, 0⟩

/-- A request to a service with or without a rate limit of its own. -/
def sampleResolve (serviceConfig : Option ServiceRateConfig) : ResolveRequest where
  apiKey := ⟨"", "", "", ""⟩
  user := ⟨"tenant-a", "user-a", "", ""⟩
  serviceName := "models"
  operation := "proxy"
  serviceConfig := serviceConfig

def limitedService : ServiceRateConfig := ⟨"models", true, 5, 60⟩

end AiPlatform.Gateway
