/-
  AiPlatform.Knowledge.JobFencing

  The fences of the action jobs: at most one job of a dataset is active, a claim
  token that is no longer the job's changes nothing, and a conclusion stays.

  `Effect` is all that a call can do to the database: nothing, a new row where no
  job of the dataset is active, or one row changed along `Change`.  A row that has
  succeeded is never changed again; one that has failed only when an enqueue queues
  it again in place.
-/

import AiPlatform.Knowledge.ActionJobs

namespace AiPlatform.Knowledge.ActionJobs

open Capability (PyValue)
open Gateway (strip)
open Relational Transition

/-! ## What a call does -/

def Call.isEnqueue : Call → Bool
  | .enqueue .. => true
  | _ => false

/-- What a call makes of the row it changes. -/
inductive Change (hash : EmbeddingAction → Payload → String) (db : Db) (call : Call) :
    Job → Job → Prop
  | retried {job : Job} {payload : Payload} {requestedBy : String}
      (hcall : call.isEnqueue = true) (hfailed : job.state = .failed) (hfree : db.activeJob job.datasetId = none)
      (hlatest : db.latestJob job.migrationId job.action = some job) :
      Change hash db call job (job.retried db.now (hash job.action payload) payload requestedBy)
  | cancelled {job : Job} (hactive : job.active = true) :
      Change hash db call job (job.cancelled db.now)
  | claimed {job : Job} {worker : String} {leaseSeconds : Int} {token : Uuid}
      (hactive : job.active = true) (hfresh : token ∉ db.issued) :
      Change hash db call job (job.claimed db.now worker leaseSeconds token)
  | renewed {job : Job} {leaseSeconds : Int} (hrunning : job.state = .running) :
      Change hash db call job (job.renewed db.now leaseSeconds)
  | finished {job : Job} {token : Uuid} {result : String} (hrunning : job.state = .running)
      (htoken : job.claimToken = some token) :
      Change hash db call job (job.finished db.now token result)
  | failed {job : Job} {token : Uuid} {error : String} (hrunning : job.state = .running)
      (htoken : job.claimToken = some token) :
      Change hash db call job (job.hasFailed db.now token error)
  | requeued {job : Job} (hrunning : job.state = .running) :
      Change hash db call job (job.requeued db.now)

/-- The rows with one of them replaced. -/
def replaced (rows : List Job) (job job' : Job) : List Job :=
  rows.map fun row => if row.jobId = job.jobId then job' else row

/-- What a call does to the database. -/
inductive Effect (hash : EmbeddingAction → Payload → String) (db : Db) (call : Call) : Db → Prop
  | nothing : Effect hash db call db
  | inserted {job : Job} {migration : Migration} {jobs : Table Job.jobId}
      (hmigration : db.migrations job.migrationId = some migration)
      (hdataset : migration.datasetId = job.datasetId) (hqueued : job.state = .queued)
      (hhash : job.requestHash = hash job.action job.payload)
      (htoken : job.claimToken = none) (hfree : db.activeJob job.datasetId = none)
      (hnew : ∀ row ∈ db.jobs, row.jobId ≠ job.jobId)
      (hunanswered : ∀ latest, db.latestJob job.migrationId job.action = some latest →
        ¬ (latest.state = .succeeded ∧ satisfied db migration job.action = true))
      (hrows : jobs.rows = job :: db.jobs.rows) :
      Effect hash db call { db with jobs }
  | changed {job job' : Job} {jobs : Table Job.jobId} (issued : List Uuid) (hmem : job ∈ db.jobs)
      (hchange : Change hash db call job job') (hrows : jobs.rows = replaced db.jobs.rows job job')
      (hgrows : ∀ token ∈ db.issued, token ∈ issued)
      (hgiven : ∀ token, job'.claimToken = some token →
        job.claimToken = some token ∨ token ∈ issued ∧ token ∉ db.issued) :
      Effect hash db call { db with jobs, issued }

section

variable {hash : EmbeddingAction → Payload → String} {db db' : Db} {call : Call} {job job' : Job}

/-- An update of one row replaces it. -/
theorem updateReturning_cases (db : Db) (p : Job → Bool) (set : Job → Job)
    (keeps : ∀ job, (set job).jobId = job.jobId)
    (hone : ∀ job ∈ db.jobs, ∀ row ∈ db.jobs, p job = true → p row = true → job.jobId = row.jobId) :
    (db.updateReturning p set keeps = (none, db) ∧ ∀ row ∈ db.jobs, p row = false) ∨
      ∃ job ∈ db.jobs, p job = true ∧ ∃ jobs : Table Job.jobId,
        jobs.rows = replaced db.jobs.rows job (set job) ∧
        db.updateReturning p set keeps = (some (set job), { db with jobs }) := by
  unfold Db.updateReturning
  cases hfind : db.jobs.rows.find? p with
  | none =>
    refine .inl ⟨rfl, fun row hrow => ?_⟩
    have := List.find?_eq_none.mp hfind row hrow
    simpa using this
  | some job =>
    have hmem : job ∈ db.jobs := List.mem_of_find?_eq_some hfind
    have hp : p job = true := List.find?_some hfind
    refine .inr ⟨job, hmem, hp, _, ?_, rfl⟩
    refine List.map_congr_left fun row hrow => ?_
    by_cases hrowp : p row = true
    · have hid := hone row hrow job hmem hrowp hp
      obtain rfl := Table.eq_of_key hrow hmem hid
      rw [if_pos hrowp, if_pos rfl]
    · rw [if_neg hrowp, if_neg]
      intro hid
      obtain rfl := Table.eq_of_key hrow hmem hid
      exact hrowp hp

theorem claimedAs_iff {jobId token : Uuid} : job.claimedAs jobId token = true ↔
    job.jobId = jobId ∧ job.state = .running ∧ job.claimToken = some token := by
  simp [Job.claimedAs, and_assoc]

theorem active_of_running (h : job.state = .running) : job.active = true := by
  rw [Job.active, h]

theorem activeJob_eq_none {datasetId : String} : db.activeJob datasetId = none ↔
    ∀ job ∈ db.jobs, job.datasetId = datasetId → job.active = false := by
  simp [Db.activeJob, Table.mem_rows]

theorem activeJob_eq_some {datasetId : String} (h : db.activeJob datasetId = some job) :
    job ∈ db.jobs ∧ job.datasetId = datasetId ∧ job.active = true := by
  have hp := List.find?_some h
  simp only [Bool.and_eq_true, decide_eq_true_eq] at hp
  exact ⟨List.mem_of_find?_eq_some h, hp⟩

theorem latestJob_eq_some {migrationId : Uuid} {action : EmbeddingAction}
    (h : db.latestJob migrationId action = some job) :
    job ∈ db.jobs ∧ job.migrationId = migrationId ∧ job.action = action := by
  have hp := List.find?_some h
  simp only [Bool.and_eq_true, decide_eq_true_eq] at hp
  exact ⟨List.mem_of_find?_eq_some h, hp⟩

theorem answers_iff {request : Request} : job.answers hash request = true ↔
    job.requestHash = hash request.action request.payload ∧ job.payload = request.payload := by
  simp [Job.answers]

/-- An update of the claimed job changes it or nothing. -/
theorem claimedAs_effect {jobId token : Uuid} {set : Job → Job}
    {keeps : ∀ job, (set job).jobId = job.jobId}
    (hset : ∀ job, job.state = .running → job.claimToken = some token →
      Change hash db call job (set job))
    (htoken : ∀ job, (set job).claimToken = none ∨ (set job).claimToken = job.claimToken) :
    Effect hash db call (db.updateReturning (Job.claimedAs jobId token) set keeps).2 := by
  have hone : ∀ job ∈ db.jobs, ∀ row ∈ db.jobs, job.claimedAs jobId token = true →
      row.claimedAs jobId token = true → job.jobId = row.jobId := by
    intro job _ row _ hjob hrow
    rw [(claimedAs_iff.mp hjob).1, (claimedAs_iff.mp hrow).1]
  rcases updateReturning_cases db (Job.claimedAs jobId token) set keeps hone with
    ⟨heq, -⟩ | ⟨job, hmem, hp, jobs, hrows, heq⟩
  · rw [heq]
    exact .nothing
  · rw [heq]
    obtain ⟨-, hrunning, hclaimed⟩ := claimedAs_iff.mp hp
    refine .changed db.issued hmem (hset job hrunning hclaimed) hrows
      (fun _ h => h) fun other hother => ?_
    rcases htoken job with hnone | hsame
    · rw [hnone] at hother
      cases hother
    · exact .inl (hsame ▸ hother)

theorem concludeActionJob_snd {jobId token : Uuid} {state : JobState} {set : Job → Job}
    {keeps : ∀ job, (set job).jobId = job.jobId} :
    (db.concludeActionJob jobId token state set keeps).2 =
      (db.updateReturning (Job.claimedAs jobId token) set keeps).2 := by
  unfold Db.concludeActionJob
  split
  · rename_i heq
    rw [heq]
  · rename_i heq
    rw [heq]

theorem insertJob_effect {request : Request} {migration : Migration} {out : Job × Db}
    (hmigration : db.migrations request.migrationId = some migration)
    (hunanswered : ∀ latest, db.latestJob request.migrationId request.action = some latest →
      ¬ (latest.state = .succeeded ∧ satisfied db migration request.action = true))
    (h : db.insertJob (.new db.now request.newId request.migrationId migration.datasetId
      request.action (hash request.action request.payload) request.payload
      request.requestedBy) = .ok out) :
    Effect hash db call out.2 := by
  unfold Db.insertJob at h
  split at h
  · cases h
  · rename_i hfree
    split at h
    · cases h
    · rename_i jobs hinsert
      obtain rfl := Except.ok.inj h
      refine .inserted hmigration rfl rfl rfl rfl ?_ (Table.key_fresh_of_insert hinsert) hunanswered ?_
      · simpa using hfree
      · unfold Table.insert at hinsert
        split at hinsert
        · cases hinsert
        · obtain rfl := Option.some.inj hinsert
          rfl

theorem queueJob_effect {request : Request} {migration : Migration} {out : (Job × Bool) × Db}
    (hmigration : db.migrations request.migrationId = some migration)
    (hfree : db.activeJob migration.datasetId = none)
    (hdataset : ∀ job ∈ db.jobs, job.migrationId = request.migrationId →
      job.datasetId = migration.datasetId)
    (hunanswered : ∀ latest, db.latestJob request.migrationId request.action = some latest →
      ¬ (latest.state = .succeeded ∧ satisfied db migration request.action = true))
    (hcall : call.isEnqueue = true)
    (h : db.queueJob hash request migration (db.latestJob request.migrationId request.action) =
      .ok out) :
    Effect hash db call out.2 := by
  have hinsert : ∀ {inserted : Except JobError (Job × Db)} {out : (Job × Bool) × Db},
      inserted = db.insertJob (.new db.now request.newId request.migrationId migration.datasetId
        request.action (hash request.action request.payload) request.payload
        request.requestedBy) →
      (inserted.map fun made => ((made.1, false), made.2)) = .ok out → Effect hash db call out.2 := by
    intro inserted out hinserted hout
    cases inserted with
    | error error => cases hout
    | ok made =>
      obtain rfl := Except.ok.inj hout
      exact insertJob_effect hmigration hunanswered hinserted.symm
  unfold Db.queueJob at h
  split at h
  · cases h
  split at h
  · cases h
  cases hlatest : db.latestJob request.migrationId request.action with
  | none =>
    rw [hlatest] at h
    exact hinsert rfl h
  | some latest =>
    rw [hlatest] at h
    simp only at h
    split at h
    · rename_i hretry
      obtain ⟨hmem, hofmigration, hofaction⟩ := latestJob_eq_some hlatest
      split at h
      · rename_i job db' hupdate
        obtain rfl := Except.ok.inj h
        rcases updateReturning_cases db
          (fun job => decide (job.jobId = latest.jobId) && decide (job.state = .failed))
          (Job.retried db.now (hash request.action request.payload) request.payload
            request.requestedBy) (Job.retried_jobId _ _ _ _) (by simp +contextual) with ⟨heq, -⟩ | ⟨row, hrow, hp, jobs, hrows, heq⟩
        · rw [heq] at hupdate
          cases hupdate
        · rw [heq] at hupdate
          obtain ⟨-, rfl⟩ := Prod.mk.inj hupdate
          simp only [Bool.and_eq_true, decide_eq_true_eq] at hp
          obtain rfl := Table.eq_of_key hrow hmem hp.1
          refine .changed db.issued hrow ?_ hrows (fun _ h => h) nofun
          rw [← hofaction]
          refine .retried hcall hp.2 ?_ ?_
          · rw [hdataset row hrow hofmigration]
            exact hfree
          · rw [hofmigration, hofaction]
            exact hlatest
      · cases h
    · exact hinsert rfl h

/-- The jobs of a migration are of its dataset. -/
def DatasetsOk (db : Db) : Prop :=
  ∀ job ∈ db.jobs, ∃ migration, db.migrations job.migrationId = some migration ∧
    migration.datasetId = job.datasetId

theorem enqueueActionJob_effect {request : Request} {out : (Job × Bool) × Db}
    (hdatasets : DatasetsOk db) (hcall : call.isEnqueue = true)
    (h : db.enqueueActionJob hash request = .ok out) :
    Effect hash db call out.2 := by
  unfold Db.enqueueActionJob at h
  cases hmigration : db.migrations request.migrationId with
  | none =>
    rw [hmigration] at h
    cases h
  | some migration =>
    have hdataset : ∀ job ∈ db.jobs, job.migrationId = request.migrationId →
        job.datasetId = migration.datasetId := by
      intro job hjob hof
      obtain ⟨found, hfound, hsame⟩ := hdatasets job hjob
      rw [hof, hmigration] at hfound
      obtain rfl := Option.some.inj hfound
      exact hsame.symm
    simp only [hmigration] at h
    cases hactive : db.activeJob migration.datasetId with
    | some active =>
      simp only [hactive] at h
      split at h
      · cases h
      split at h
      · cases h
      split at h
      · cases h
      · obtain rfl := Except.ok.inj h
        exact .nothing
    | none =>
      simp only [hactive] at h
      cases hlatest : db.latestJob request.migrationId request.action with
      | none =>
        simp only [hlatest] at h
        refine queueJob_effect hmigration hactive hdataset ?_ hcall (hlatest.symm ▸ h)
        intro latest hsome
        rw [hlatest] at hsome
        cases hsome
      | some job =>
        simp only [hlatest] at h
        split at h
        · split at h
          · cases h
          · obtain rfl := Except.ok.inj h
            exact .nothing
        · rename_i hunanswered
          refine queueJob_effect hmigration hactive hdataset ?_ hcall (hlatest.symm ▸ h)
          intro latest hsome
          rw [hlatest] at hsome
          obtain rfl := Option.some.inj hsome
          exact hunanswered

theorem cancelScopedActionJob_effect {jobId migrationId : Uuid} {datasetId : String} :
    Effect hash db call (db.cancelScopedActionJob jobId migrationId datasetId).2 := by
  unfold Db.cancelScopedActionJob
  split
  · exact .nothing
  split
  · exact .nothing
  split
  · exact .nothing
  · rcases updateReturning_cases db (fun job => decide (job.jobId = jobId) && job.active)
      (.cancelled db.now) (Job.cancelled_jobId _) (by simp +contextual) with
      ⟨heq, -⟩ | ⟨row, hrow, hp, jobs, hrows, heq⟩
    · simp only [heq]
      exact .nothing
    · simp only [heq]
      simp only [Bool.and_eq_true] at hp
      exact .changed db.issued hrow (.cancelled hp.2) hrows (fun _ h => h) nofun

theorem firstCandidate_mem {rows : List Job} (h : firstCandidate rows = some job) :
    job ∈ rows := by
  induction rows with
  | nil => cases h
  | cons row rest ih =>
    unfold firstCandidate at h
    split at h
    · obtain rfl := Option.some.inj h
      exact List.mem_cons_self
    · rename_i other hother
      split at h
      · exact List.mem_cons_of_mem _ (ih (hother.trans h))
      · obtain rfl := Option.some.inj h
        exact List.mem_cons_self

theorem active_of_due {now : Nat} (h : job.due now = true) : job.active = true := by
  unfold Job.due at h
  unfold Job.active
  cases hstate : job.state with
  | queued => rfl
  | running => rfl
  | succeeded =>
    rw [hstate] at h
    cases h
  | failed =>
    rw [hstate] at h
    cases h

theorem claimNextActionJob_effect {workerId : String} {leaseSeconds : Int} {token : Uuid}
    {locked : List Uuid} (hfresh : token ∉ db.issued) :
    Effect hash db call (db.claimNextActionJob workerId leaseSeconds token locked).2 := by
  unfold Db.claimNextActionJob
  simp only
  split
  · exact .nothing
  split
  · exact .nothing
  · rename_i candidate hcandidate
    obtain ⟨hmem, hdue⟩ := List.mem_filter.mp (firstCandidate_mem hcandidate)
    simp only [Bool.and_eq_true] at hdue
    rcases updateReturning_cases db (fun job => decide (job.jobId = candidate.jobId))
      (.claimed db.now (strip workerId) leaseSeconds token) (Job.claimed_jobId _ _ _ _)
      (by simp +contextual) with ⟨-, hmiss⟩ | ⟨row, hrow, hp, jobs, hrows, heq⟩
    · have := hmiss candidate hmem
      simp at this
    · simp only [heq]
      obtain rfl := Table.eq_of_key hrow hmem (of_decide_eq_true hp)
      refine .changed (token :: db.issued) hrow (.claimed (active_of_due hdue.1) hfresh) hrows
        (fun _ h => List.mem_cons_of_mem _ h) fun other hother => .inr ?_
      obtain rfl := Option.some.inj hother
      exact ⟨List.mem_cons_self, hfresh⟩

/-- Every call has an effect of one of these kinds. -/
theorem apply_effect (hdatasets : DatasetsOk db)
    (hfresh : ∀ token, call.token? = some token → token ∉ db.issued) :
    Effect hash db call (db.apply hash call).2 := by
  cases call with
  | enqueue migrationId action payload requestedBy newId =>
    simp only [Db.apply]
    split
    · exact .nothing
    split
    · exact .nothing
    · rename_i out hout
      exact enqueueActionJob_effect hdatasets rfl hout
  | cancel jobId migrationId datasetId =>
    have heffect : Effect hash db (.cancel jobId migrationId datasetId)
        (db.cancelScopedActionJob jobId migrationId datasetId).2 :=
      cancelScopedActionJob_effect
    simp only [Db.apply]
    split
    · rename_i heq
      rwa [heq] at heffect
    · rename_i heq
      rwa [heq] at heffect
  | claim workerId leaseSeconds token locked =>
    have heffect : Effect hash db (.claim workerId leaseSeconds token locked)
        (db.claimNextActionJob workerId leaseSeconds token locked).2 :=
      claimNextActionJob_effect (hfresh token rfl)
    simp only [Db.apply]
    split
    · rename_i heq
      rwa [heq] at heffect
    · rename_i heq
      rwa [heq] at heffect
  | heartbeat jobId token leaseSeconds =>
    exact claimedAs_effect (fun _ hrunning _ => .renewed hrunning) fun _ => .inr rfl
  | finish jobId token result =>
    simp only [Db.apply, Db.finishActionJob, concludeActionJob_snd]
    exact claimedAs_effect (fun _ hrunning htoken => .finished hrunning htoken) fun _ => .inl rfl
  | fail jobId token error =>
    simp only [Db.apply, Db.failActionJob, concludeActionJob_snd]
    exact claimedAs_effect (fun _ hrunning htoken => .failed hrunning htoken) fun _ => .inl rfl
  | requeue jobId token =>
    exact claimedAs_effect (fun _ hrunning _ => .requeued hrunning) fun _ => .inl rfl

end

/-! ## What holds of the jobs -/

section

variable {hash : EmbeddingAction → Payload → String} {db db' : Db} {call : Call} {job job' : Job}

structure SameTask (job job' : Job) : Prop where
  jobId : job'.jobId = job.jobId
  migrationId : job'.migrationId = job.migrationId
  datasetId : job'.datasetId = job.datasetId
  action : job'.action = job.action

theorem Change.sameTask (h : Change hash db call job job') : SameTask job job' := by
  cases h with
  | retried => exact ⟨rfl, rfl, rfl, rfl⟩
  | cancelled => exact ⟨rfl, rfl, rfl, rfl⟩
  | claimed => exact ⟨rfl, rfl, rfl, rfl⟩
  | renewed => exact ⟨rfl, rfl, rfl, rfl⟩
  | finished => exact ⟨rfl, rfl, rfl, rfl⟩
  | failed => exact ⟨rfl, rfl, rfl, rfl⟩
  | requeued => exact ⟨rfl, rfl, rfl, rfl⟩

/-- A job becomes active again where no job of its dataset is, and as the newest of its
    action. -/
theorem Change.active (h : Change hash db call job job') (hactive : job'.active = true) :
    job.active = true ∨ db.activeJob job.datasetId = none ∧
      db.latestJob job.migrationId job.action = some job := by
  cases h with
  | retried _ _ hfree hlatest => exact .inr ⟨hfree, hlatest⟩
  | cancelled => cases hactive
  | claimed hold => exact .inl hold
  | renewed hrunning => exact .inl (active_of_running hrunning)
  | finished => cases hactive
  | failed => cases hactive
  | requeued hrunning => exact .inl (active_of_running hrunning)

theorem Change.requestHash (h : Change hash db call job job')
    (hjob : job.requestHash = hash job.action job.payload) :
    job'.requestHash = hash job'.action job'.payload := by
  cases h with
  | retried => rfl
  | _ => exact hjob

theorem mem_replaced {jobs : Table Job.jobId} (hmem : job ∈ db.jobs)
    (hsame : SameTask job job') (hrows : jobs.rows = replaced db.jobs.rows job job') {row : Job} :
    row ∈ jobs ↔ row = job' ∨ row ∈ db.jobs ∧ row.jobId ≠ job.jobId := by
  rw [← Table.mem_rows, hrows, replaced, List.mem_map]
  constructor
  · rintro ⟨old, hold, rfl⟩
    by_cases hid : old.jobId = job.jobId
    · exact .inl (if_pos hid)
    · rw [if_neg hid]
      exact .inr ⟨hold, hid⟩
  · rintro (rfl | ⟨hrow, hid⟩)
    · exact ⟨job, hmem, if_pos rfl⟩
    · exact ⟨row, hrow, if_neg hid⟩

theorem find?_map_of_forall {α : Type} {p : α → Bool} {f : α → α} {xs : List α}
    (h : ∀ x ∈ xs, p (f x) = p x) : (xs.map f).find? p = (xs.find? p).map f := by
  induction xs with
  | nil => rfl
  | cons x rest ih =>
    obtain ⟨hx, hrest⟩ := List.forall_mem_cons.mp h
    rw [List.map_cons, List.find?_cons, List.find?_cons, hx, ih hrest]
    cases p x <;> rfl

/-- The newest job of an action stays the newest, changed or not. -/
theorem latestJob_replaced {jobs : Table Job.jobId} {issued : List Uuid} (hmem : job ∈ db.jobs)
    (hsame : SameTask job job') (hrows : jobs.rows = replaced db.jobs.rows job job')
    (migrationId : Uuid) (action : EmbeddingAction) :
    Db.latestJob { db with jobs, issued } migrationId action =
      (db.latestJob migrationId action).map fun row =>
        if row.jobId = job.jobId then job' else row := by
  rw [Db.latestJob, hrows]
  refine find?_map_of_forall fun row hrow => ?_
  by_cases hid : row.jobId = job.jobId
  · obtain rfl := Table.eq_of_key hrow hmem hid
    rw [if_pos rfl, hsame.migrationId, hsame.action]
  · rw [if_neg hid]

structure JobsOk (hash : EmbeddingAction → Payload → String) (db : Db) : Prop where
  datasets : DatasetsOk db
  oneActive : ∀ a ∈ db.jobs, ∀ b ∈ db.jobs, a.active = true → b.active = true →
    a.datasetId = b.datasetId → a = b
  newest : ∀ job ∈ db.jobs, job.active = true →
    db.latestJob job.migrationId job.action = some job
  hashes : ∀ job ∈ db.jobs, job.requestHash = hash job.action job.payload
  tokens : ∀ a ∈ db.jobs, ∀ b ∈ db.jobs, ∀ token, a.claimToken = some token →
    b.claimToken = some token → a = b
  issued : ∀ job ∈ db.jobs, ∀ token, job.claimToken = some token → token ∈ db.issued

theorem JobsOk.insert {migration : Migration} {jobs : Table Job.jobId} (hok : JobsOk hash db)
    (hmigration : db.migrations job.migrationId = some migration)
    (hdataset : migration.datasetId = job.datasetId)
    (hhash : job.requestHash = hash job.action job.payload) (htoken : job.claimToken = none)
    (hfree : db.activeJob job.datasetId = none) (hrows : jobs.rows = job :: db.jobs.rows) :
    JobsOk hash { db with jobs } := by
  have hmem : ∀ row, row ∈ jobs ↔ row = job ∨ row ∈ db.jobs := by
    intro row
    rw [← Table.mem_rows, hrows]
    exact List.mem_cons
  have hidle := activeJob_eq_none.mp hfree
  have hlatest : ∀ migrationId action, Db.latestJob { db with jobs } migrationId action =
      if job.migrationId = migrationId ∧ job.action = action then some job
      else db.latestJob migrationId action := by
    intro migrationId action
    rw [Db.latestJob, Db.latestJob, hrows, List.find?_cons]
    by_cases h : job.migrationId = migrationId ∧ job.action = action
    · simp [h]
    · rw [if_neg h]
      have hno : (decide (job.migrationId = migrationId) && decide (job.action = action)) = false := by
        simpa using h
      rw [hno]
  constructor
  · intro row hrow
    rcases (hmem row).mp hrow with rfl | hold
    · exact ⟨migration, hmigration, hdataset⟩
    · exact hok.datasets row hold
  · intro a ha b hb hactive hactive' hsame
    rcases (hmem a).mp ha with rfl | ha
    · rcases (hmem b).mp hb with rfl | hb
      · rfl
      · rw [hidle b hb hsame.symm] at hactive'
        cases hactive'
    · rcases (hmem b).mp hb with rfl | hb
      · rw [hidle a ha hsame] at hactive
        cases hactive
      · exact hok.oneActive a ha b hb hactive hactive' hsame
  · intro row hrow hactive
    rw [hlatest]
    rcases (hmem row).mp hrow with rfl | hold
    · exact if_pos ⟨rfl, rfl⟩
    · rw [if_neg, hok.newest row hold hactive]
      rintro ⟨hsame, -⟩
      -- A migration has one dataset, and this one has no active job.
      obtain ⟨found, hfound, hfounddataset⟩ := hok.datasets row hold
      rw [← hsame, hmigration] at hfound
      obtain rfl := Option.some.inj hfound
      rw [hidle row hold (hfounddataset.symm.trans hdataset)] at hactive
      cases hactive
  · intro row hrow
    rcases (hmem row).mp hrow with rfl | hold
    · exact hhash
    · exact hok.hashes row hold
  · intro a ha b hb token hta htb
    rcases (hmem a).mp ha with rfl | ha
    · rw [htoken] at hta
      cases hta
    · rcases (hmem b).mp hb with rfl | hb
      · rw [htoken] at htb
        cases htb
      · exact hok.tokens a ha b hb token hta htb
  · intro row hrow token ht
    rcases (hmem row).mp hrow with rfl | hold
    · rw [htoken] at ht
      cases ht
    · exact hok.issued row hold token ht

theorem JobsOk.change {jobs : Table Job.jobId} {issued : List Uuid} (hok : JobsOk hash db)
    (hjob : job ∈ db.jobs) (hchange : Change hash db call job job')
    (hrows : jobs.rows = replaced db.jobs.rows job job')
    (hgrows : ∀ token ∈ db.issued, token ∈ issued)
    (hgiven : ∀ token, job'.claimToken = some token →
      job.claimToken = some token ∨ token ∈ issued ∧ token ∉ db.issued) :
    JobsOk hash { db with jobs, issued } := by
  have hsame := hchange.sameTask
  have hmem : ∀ {row}, row ∈ jobs ↔ row = job' ∨ row ∈ db.jobs ∧ row.jobId ≠ job.jobId :=
    mem_replaced hjob hsame hrows
  -- Beside the job no other job of its dataset is active once it is.
  have halone : ∀ {row}, row ∈ db.jobs → row.jobId ≠ job.jobId → job'.active = true →
      row.active = true → row.datasetId ≠ job.datasetId := by
    intro row hrow hid hactive hrowactive hdataset
    rcases hchange.active hactive with hold | ⟨hfree, -⟩
    · exact hid (congrArg Job.jobId (hok.oneActive row hrow job hjob hrowactive hold hdataset))
    · rw [activeJob_eq_none.mp hfree row hrow hdataset] at hrowactive
      cases hrowactive
  constructor
  · intro row hrow
    rcases hmem.mp hrow with rfl | ⟨hold, -⟩
    · rw [hsame.migrationId, hsame.datasetId]
      exact hok.datasets job hjob
    · exact hok.datasets row hold
  · intro a ha b hb hactive hactive' hdataset
    rcases hmem.mp ha with rfl | ⟨ha, hida⟩
    · rcases hmem.mp hb with rfl | ⟨hb, hidb⟩
      · rfl
      · exact absurd (hdataset.symm.trans hsame.datasetId) (halone hb hidb hactive hactive')
    · rcases hmem.mp hb with rfl | ⟨hb, hidb⟩
      · exact absurd (hdataset.trans hsame.datasetId) (halone ha hida hactive' hactive)
      · exact hok.oneActive a ha b hb hactive hactive' hdataset
  · intro row hrow hactive
    rw [latestJob_replaced hjob hsame hrows]
    rcases hmem.mp hrow with rfl | ⟨hold, hid⟩
    · have hlatest : db.latestJob job.migrationId job.action = some job := by
        rcases hchange.active hactive with hold | ⟨-, hlatest⟩
        · exact hok.newest job hjob hold
        · exact hlatest
      rw [hsame.migrationId, hsame.action, hlatest, Option.map_some, if_pos rfl]
    · rw [hok.newest row hold hactive, Option.map_some, if_neg hid]
  · intro row hrow
    rcases hmem.mp hrow with rfl | ⟨hold, -⟩
    · exact hchange.requestHash (hok.hashes job hjob)
    · exact hok.hashes row hold
  · intro a ha b hb token hta htb
    have hother : ∀ {row}, row ∈ db.jobs → row.jobId ≠ job.jobId → row.claimToken = some token →
        job'.claimToken ≠ some token := by
      intro row hrow hid htoken htoken'
      rcases hgiven token htoken' with hold | ⟨-, hfresh⟩
      · exact hid (congrArg Job.jobId (hok.tokens row hrow job hjob token htoken hold))
      · exact hfresh (hok.issued row hrow token htoken)
    rcases hmem.mp ha with rfl | ⟨ha, hida⟩
    · rcases hmem.mp hb with rfl | ⟨hb, hidb⟩
      · rfl
      · exact absurd hta (hother hb hidb htb)
    · rcases hmem.mp hb with rfl | ⟨hb, hidb⟩
      · exact absurd htb (hother ha hida hta)
      · exact hok.tokens a ha b hb token hta htb
  · intro row hrow token htoken
    rcases hmem.mp hrow with rfl | ⟨hold, -⟩
    · rcases hgiven token htoken with hold | ⟨hnew, -⟩
      · exact hgrows token (hok.issued job hjob token hold)
      · exact hnew
    · exact hgrows token (hok.issued row hold token htoken)

theorem JobsOk.effect (hok : JobsOk hash db) (h : Effect hash db call db') : JobsOk hash db' := by
  cases h with
  | nothing => exact hok
  | inserted hmigration hdataset _ hhash htoken hfree _ _ hrows =>
    exact hok.insert hmigration hdataset hhash htoken hfree hrows
  | changed issued hmem hchange hrows hgrows hgiven =>
    exact hok.change hmem hchange hrows hgrows hgiven

theorem JobsOk.empty : JobsOk hash .empty := by
  constructor <;> exact fun _ h => absurd h List.not_mem_nil

end

/-! ## Moves -/

section

variable {hash : EmbeddingAction → Payload → String} {db : Db} {call : Call} {job job' : Job}
  {x : JobMove}

/-- Between two calls the jobs stay, and the migrations keep their datasets. -/
structure Quiet (db db' : Db) : Prop where
  jobs : db'.jobs = db.jobs
  issued : db'.issued = db.issued
  datasets : ∀ migrationId row, db.migrations migrationId = some row →
    ∃ row', db'.migrations migrationId = some row' ∧ row'.datasetId = row.datasetId

theorem makes_cases (hx : (actionJobs hash).Makes x) :
    (∃ call, x.input = .call call ∧
        (∀ token, call.token? = some token → token ∉ x.pre.issued) ∧
        x.pre.apply hash call = (x.reply, x.post)) ∨
      (∀ call, x.input ≠ .call call) ∧ Quiet x.pre x.post := by
  obtain ⟨pre, input, reply, post⟩ := x
  unfold Machine.Makes actionJobs at hx
  simp only at hx
  split at hx
  · rename_i call
    split at hx
    · cases hx
    · rename_i hfresh
      refine .inl ⟨call, rfl, fun token htoken => ?_, Option.some.inj hx⟩
      simpa [htoken] using hfresh
  · obtain ⟨-, rfl⟩ := Prod.mk.inj (Option.some.inj hx)
    exact .inr ⟨nofun, rfl, rfl, fun _ row h => ⟨row, h, rfl⟩⟩
  · rename_i migrationId row
    split at hx
    · cases hx
    · rename_i hkept
      obtain ⟨-, rfl⟩ := Prod.mk.inj (Option.some.inj hx)
      refine .inr ⟨nofun, rfl, rfl, fun other old hold => ?_⟩
      by_cases h : other = migrationId
      · subst h
        refine ⟨row, if_pos rfl, ?_⟩
        rw [hold] at hkept
        simp only [Option.any_some, decide_eq_true_eq, Decidable.not_not] at hkept
        exact hkept.symm
      · exact ⟨old, (if_neg h).trans hold, rfl⟩
  · obtain ⟨-, rfl⟩ := Prod.mk.inj (Option.some.inj hx)
    exact .inr ⟨nofun, rfl, rfl, fun _ row h => ⟨row, h, rfl⟩⟩

theorem JobsOk.quiet {db' : Db} (hok : JobsOk hash db) (h : Quiet db db') : JobsOk hash db' := by
  obtain ⟨now, jobs, migrations, revisions, issued⟩ := db'
  obtain ⟨rfl, rfl, hdatasets⟩ := h
  refine ⟨fun job hjob => ?_, hok.oneActive, hok.newest, hok.hashes, hok.tokens, hok.issued⟩
  obtain ⟨migration, hmigration, hdataset⟩ := hok.datasets job hjob
  obtain ⟨row, hrow, hsame⟩ := hdatasets _ _ hmigration
  exact ⟨row, hrow, hsame.trans hdataset⟩

theorem jobsOk_step (hx : (actionJobs hash).Makes x) (hok : JobsOk hash x.pre) :
    JobsOk hash x.post := by
  rcases makes_cases hx with ⟨call, -, hfresh, happly⟩ | ⟨-, hquiet⟩
  · have heffect : Effect hash x.pre call (x.pre.apply hash call).2 :=
      apply_effect hok.datasets hfresh
    rw [happly] at heffect
    exact hok.effect heffect
  · exact hok.quiet hquiet

theorem jobsOk_run {tr : List JobMove} (h : Run (actionJobs hash) .empty tr db) :
    JobsOk hash db :=
  h.invariant (fun _ hx => jobsOk_step hx) .empty

/-- Has the job been concluded? -/
def Job.terminal (job : Job) : Bool := !job.active

/-- An enqueue queues a failed job again in place. -/
def Revives (jobId : Uuid) (x : JobMove) : Prop :=
  ∃ call, x.input = .call call ∧ call.isEnqueue = true ∧
    ∃ job ∈ x.pre.jobs, ∃ job' ∈ x.post.jobs, job.jobId = jobId ∧ job'.jobId = jobId ∧
      job.state = .failed ∧ job'.state = .queued

/-- What an effect makes of a row. -/
theorem Effect.row {db' : Db} (h : Effect hash db call db') (hjob : job ∈ db.jobs) :
    job ∈ db'.jobs ∨ ∃ job' ∈ db'.jobs, Change hash db call job job' := by
  cases h with
  | nothing => exact .inl hjob
  | inserted _ _ _ _ _ _ _ _ hrows =>
    refine .inl ?_
    rw [← Table.mem_rows, hrows]
    exact List.mem_cons_of_mem _ hjob
  | @changed changed changed' jobs issued hmem hchange hrows =>
    have hiff : ∀ row, row ∈ jobs ↔ row = changed' ∨ row ∈ db.jobs ∧ row.jobId ≠ changed.jobId :=
      fun _ => mem_replaced hmem hchange.sameTask hrows
    by_cases hid : job.jobId = changed.jobId
    · obtain rfl := Table.eq_of_key hjob hmem hid
      exact .inr ⟨changed', (hiff _).mpr (.inl rfl), hchange⟩
    · exact .inl ((hiff _).mpr (.inr ⟨hjob, hid⟩))

/-- A concluded job changes only when it has failed and is queued again. -/
theorem terminal_kept (hx : (actionJobs hash).Makes x) (hok : JobsOk hash x.pre)
    (hjob : job ∈ x.pre.jobs) (hterminal : job.active = false) :
    job ∈ x.post.jobs ∨ Revives job.jobId x := by
  rcases makes_cases hx with ⟨call, hinput, hfresh, happly⟩ | ⟨-, hquiet⟩
  · have heffect : Effect hash x.pre call (x.pre.apply hash call).2 :=
      apply_effect hok.datasets hfresh
    rw [happly] at heffect
    rcases heffect.row hjob with hkept | ⟨job', hjob', hchange⟩
    · exact .inl hkept
    · cases hchange with
      | retried hcall hfailed =>
        exact .inr ⟨call, hinput, hcall, job, hjob, _, hjob', rfl, rfl, hfailed, rfl⟩
      | cancelled hactive =>
        rw [hterminal] at hactive
        cases hactive
      | claimed hactive =>
        rw [hterminal] at hactive
        cases hactive
      | renewed hrunning =>
        rw [active_of_running hrunning] at hterminal
        cases hterminal
      | finished hrunning =>
        rw [active_of_running hrunning] at hterminal
        cases hterminal
      | failed hrunning =>
        rw [active_of_running hrunning] at hterminal
        cases hterminal
      | requeued hrunning =>
        rw [active_of_running hrunning] at hterminal
        cases hterminal
  · exact .inl (hquiet.jobs ▸ hjob)

/-- A job that has failed stays as it is until it is queued again, and one that has
    succeeded for good. -/
theorem terminal_run {s t : Db} {tr : List JobMove} (h : Run (actionJobs hash) s tr t)
    (hok : JobsOk hash s) (hjob : job ∈ s.jobs) (hterminal : job.active = false)
    (hfrozen : job.state = .succeeded ∨ ∀ x ∈ tr, ¬ Revives job.jobId x) : job ∈ t.jobs := by
  have hrun := h.invariant_when (C := fun x => job.state = .succeeded ∨ ¬ Revives job.jobId x)
    (P := fun db => JobsOk hash db ∧ job ∈ db.jobs) ?_ ?_ ⟨hok, hjob⟩
  · exact hrun.2.2
  · intro x hx hcond ⟨hok, hjob⟩
    refine ⟨jobsOk_step hx hok, ?_⟩
    rcases terminal_kept hx hok hjob hterminal with hkept | hrevives
    · exact hkept
    · rcases hcond with hsucceeded | hnot
      · obtain ⟨-, -, -, row, hrow, -, -, hid, -, hfailed, -⟩ := hrevives
        obtain rfl := Table.eq_of_key hrow hjob hid
        rw [hsucceeded] at hfailed
        cases hfailed
      · exact absurd hrevives hnot
  · intro x hx
    exact hfrozen.imp_right fun hnot => hnot x hx

end

/-! ## Tokens -/

/-- The job and the claim token that a call of a worker carries. -/
def Call.fence : Call → Option (Uuid × Uuid)
  | .heartbeat jobId token _ => some (jobId, token)
  | .finish jobId token _ => some (jobId, token)
  | .fail jobId token _ => some (jobId, token)
  | .requeue jobId token => some (jobId, token)
  | _ => none

/-- A move concludes the claim of this token. -/
def Concludes (token : Uuid) (x : JobMove) : Prop :=
  ∃ job ∈ x.pre.jobs, ∃ job' ∈ x.post.jobs, job'.jobId = job.jobId ∧ job.state = .running ∧
    job.claimToken = some token ∧ job'.active = false

/-- The token was given and is no job's any more. -/
def Spent (token : Uuid) (db : Db) : Prop :=
  token ∈ db.issued ∧ ∀ job ∈ db.jobs, job.claimToken ≠ some token

section

variable {hash : EmbeddingAction → Payload → String} {db : Db} {call : Call} {job job' : Job}
  {jobId token : Uuid} {x : JobMove}

theorem updateReturning_stale {set : Job → Job} {keeps : ∀ job, (set job).jobId = job.jobId}
    (hstale : ∀ job ∈ db.jobs, job.jobId = jobId → job.claimToken ≠ some token) :
    db.updateReturning (Job.claimedAs jobId token) set keeps = (none, db) := by
  have hmiss : db.jobs.rows.find? (Job.claimedAs jobId token) = none := by
    refine List.find?_eq_none.mpr fun job hjob hclaimed => ?_
    obtain ⟨hid, -, htoken⟩ := claimedAs_iff.mp hclaimed
    exact hstale job hjob hid htoken
  rw [Db.updateReturning, hmiss]

/-- A token that is not the job's changes nothing. -/
theorem stale_changes_nothing (hfence : call.fence = some (jobId, token))
    (hstale : ∀ job ∈ db.jobs, job.jobId = jobId → job.claimToken ≠ some token) :
    (db.apply hash call).2 = db := by
  cases call with
  | heartbeat =>
    obtain ⟨rfl, rfl⟩ := Prod.mk.inj (Option.some.inj hfence)
    simp only [Db.apply, Db.heartbeatActionJob, updateReturning_stale hstale]
  | finish =>
    obtain ⟨rfl, rfl⟩ := Prod.mk.inj (Option.some.inj hfence)
    simp only [Db.apply, Db.finishActionJob, concludeActionJob_snd, updateReturning_stale hstale]
  | fail =>
    obtain ⟨rfl, rfl⟩ := Prod.mk.inj (Option.some.inj hfence)
    simp only [Db.apply, Db.failActionJob, concludeActionJob_snd, updateReturning_stale hstale]
  | requeue =>
    obtain ⟨rfl, rfl⟩ := Prod.mk.inj (Option.some.inj hfence)
    simp only [Db.apply, Db.requeueActionJob, updateReturning_stale hstale]
  | _ => cases hfence

theorem Change.concluded (h : Change hash db call job job') (hrunning : job.state = .running)
    (hterminal : job'.active = false) : job'.claimToken = none := by
  cases h with
  | retried _ hfailed =>
    rw [hrunning] at hfailed
    cases hfailed
  | cancelled => rfl
  | claimed => cases hterminal
  | renewed =>
    rw [Job.renewed, Job.active, hrunning] at hterminal
    cases hterminal
  | finished => rfl
  | failed => rfl
  | requeued => cases hterminal

/-- A call that concludes a claim spends its token. -/
theorem Effect.spends {db' : Db} (h : Effect hash db call db') (hok : JobsOk hash db)
    (hjob : job ∈ db.jobs) (hjob' : job' ∈ db'.jobs) (hid : job'.jobId = job.jobId)
    (hrunning : job.state = .running) (htoken : job.claimToken = some token)
    (hterminal : job'.active = false) : Spent token db' := by
  -- The row itself has changed.
  have hmoved : job ∉ db'.jobs := by
    intro hkept
    obtain rfl := Table.eq_of_key hjob' hkept hid
    rw [active_of_running hrunning] at hterminal
    cases hterminal
  cases h with
  | nothing => exact absurd hjob hmoved
  | inserted _ _ _ _ _ _ _ _ hrows =>
    refine absurd ?_ hmoved
    rw [← Table.mem_rows, hrows]
    exact List.mem_cons_of_mem _ hjob
  | @changed changed changed' jobs issued hmem hchange hrows hgrows =>
    have hiff : ∀ row, row ∈ jobs ↔ row = changed' ∨ row ∈ db.jobs ∧ row.jobId ≠ changed.jobId :=
      fun _ => mem_replaced hmem hchange.sameTask hrows
    have hself : job.jobId = changed.jobId := by
      by_contra hne
      exact hmoved ((hiff _).mpr (.inr ⟨hjob, hne⟩))
    obtain rfl := Table.eq_of_key hjob hmem hself
    obtain rfl : job' = changed' := by
      rcases (hiff _).mp hjob' with heq | ⟨-, hne⟩
      · exact heq
      · exact absurd hid hne
    refine ⟨hgrows token (hok.issued job hjob token htoken), fun row hrow hrowtoken => ?_⟩
    rcases (hiff _).mp hrow with rfl | ⟨hold, hne⟩
    · rw [hchange.concluded hrunning hterminal] at hrowtoken
      cases hrowtoken
    · exact hne (congrArg Job.jobId (hok.tokens row hold job hjob token hrowtoken htoken))

/-- A spent token stays spent. -/
theorem Effect.spent {db' : Db} (h : Effect hash db call db') (hspent : Spent token db) :
    Spent token db' := by
  obtain ⟨hissued, hfree⟩ := hspent
  cases h with
  | nothing => exact ⟨hissued, hfree⟩
  | inserted _ _ _ _ htoken _ _ _ hrows =>
    refine ⟨hissued, fun row hrow => ?_⟩
    rw [← Table.mem_rows, hrows] at hrow
    rcases List.mem_cons.mp hrow with rfl | hold
    · rw [htoken]
      nofun
    · exact hfree row hold
  | changed issued hmem hchange hrows hgrows hgiven =>
    refine ⟨hgrows token hissued, fun row hrow htoken => ?_⟩
    rcases (mem_replaced hmem hchange.sameTask hrows).mp hrow with rfl | ⟨hold, -⟩
    · rcases hgiven token htoken with hold | ⟨-, hnew⟩
      · exact hfree _ hmem hold
      · exact hnew hissued
    · exact hfree row hold htoken

theorem spent_of_concludes (hx : (actionJobs hash).Makes x) (hok : JobsOk hash x.pre)
    (h : Concludes token x) : Spent token x.post := by
  obtain ⟨job, hjob, job', hjob', hid, hrunning, htoken, hterminal⟩ := h
  rcases makes_cases hx with ⟨call, -, hfresh, happly⟩ | ⟨-, hquiet⟩
  · have heffect : Effect hash x.pre call (x.pre.apply hash call).2 :=
      apply_effect hok.datasets hfresh
    rw [happly] at heffect
    exact heffect.spends hok hjob hjob' hid hrunning htoken hterminal
  · obtain rfl := Table.eq_of_key (hquiet.jobs ▸ hjob' : job' ∈ x.pre.jobs) hjob hid
    rw [active_of_running hrunning] at hterminal
    cases hterminal

theorem spent_step (hx : (actionJobs hash).Makes x) (hok : JobsOk hash x.pre)
    (h : Spent token x.pre) : Spent token x.post := by
  rcases makes_cases hx with ⟨call, -, hfresh, happly⟩ | ⟨-, hquiet⟩
  · have heffect : Effect hash x.pre call (x.pre.apply hash call).2 :=
      apply_effect hok.datasets hfresh
    rw [happly] at heffect
    exact heffect.spent h
  · rw [Spent, hquiet.issued, hquiet.jobs]
    exact h

/-- Once a claim is concluded no later move concludes it. -/
theorem concluded_once {s t : Db} {tr : List JobMove} (h : Run (actionJobs hash) s tr t)
    (hok : JobsOk hash s) (hspent : Spent token s) : ∀ x ∈ tr, ¬ Concludes token x := by
  have hrun := (h.invariant_when (C := fun _ => True)
    (P := fun db => JobsOk hash db ∧ Spent token db)
    (fun x hx _ hp => ⟨jobsOk_step hx hp.1, spent_step hx hp.1 hp.2⟩) (fun _ _ => trivial)
    ⟨hok, hspent⟩).1
  rintro x hx ⟨job, hjob, -, -, -, -, htoken, -⟩
  exact (hrun x hx).1.2.2 job hjob htoken

/-! ## Conclusions -/

section

variable {state : JobState} {set : Job → Job} {keeps : ∀ job, (set job).jobId = job.jobId}

/-- The row a conclusion returns is there, concluded with its token. -/
theorem concludeActionJob_some {db' : Db}
    (h : db.concludeActionJob jobId token state set keeps = (some job, db'))
    (hset : ∀ job, (set job).state = state ∧ (set job).terminalClaimToken = some token) :
    job ∈ db'.jobs ∧ job.jobId = jobId ∧ job.state = state ∧
      job.terminalClaimToken = some token := by
  unfold Db.concludeActionJob at h
  have hone : ∀ job ∈ db.jobs, ∀ row ∈ db.jobs, job.claimedAs jobId token = true →
      row.claimedAs jobId token = true → job.jobId = row.jobId := by
    intro job _ row _ hjob hrow
    rw [(claimedAs_iff.mp hjob).1, (claimedAs_iff.mp hrow).1]
  rcases updateReturning_cases db (Job.claimedAs jobId token) set keeps hone with
    ⟨heq, -⟩ | ⟨row, hrow, hp, jobs, hrows, heq⟩
  · rw [heq] at h
    obtain ⟨hfind, rfl⟩ := Prod.mk.inj h
    have hp := List.find?_some hfind
    simp only [Bool.and_eq_true, decide_eq_true_eq] at hp
    exact ⟨List.mem_of_find?_eq_some hfind, hp.1.1, hp.1.2, hp.2⟩
  · rw [heq] at h
    obtain ⟨hjob, rfl⟩ := Prod.mk.inj h
    obtain rfl := Option.some.inj hjob
    refine ⟨?_, (keeps row).trans (claimedAs_iff.mp hp).1, hset row⟩
    rw [← Table.mem_rows, hrows]
    exact List.mem_map.mpr ⟨row, hrow, if_pos rfl⟩

/-- A conclusion that is repeated returns the row again. -/
theorem concludeActionJob_again (hjob : job ∈ db.jobs) (hid : job.jobId = jobId)
    (hstate : job.state = state) (hterminal : job.active = false)
    (htoken : job.terminalClaimToken = some token) :
    db.concludeActionJob jobId token state set keeps = (some job, db) := by
  have hmiss : db.jobs.rows.find? (Job.claimedAs jobId token) = none := by
    refine List.find?_eq_none.mpr fun row hrow hclaimed => ?_
    obtain ⟨hrowid, hrunning, -⟩ := claimedAs_iff.mp hclaimed
    obtain rfl := Table.eq_of_key hrow hjob (hrowid.trans hid.symm)
    rw [active_of_running hrunning] at hterminal
    cases hterminal
  have hfind : (db.jobs.rows.find? fun row =>
      row.jobId = jobId && row.state = state && row.terminalClaimToken = some token) = some job := by
    cases hfound : db.jobs.rows.find? fun row =>
        row.jobId = jobId && row.state = state && row.terminalClaimToken = some token with
    | none =>
      have := List.find?_eq_none.mp hfound job hjob
      simp [hid, hstate, htoken] at this
    | some row =>
      have hp := List.find?_some hfound
      simp only [Bool.and_eq_true, decide_eq_true_eq] at hp
      exact congrArg some
        (Table.eq_of_key (List.mem_of_find?_eq_some hfound) hjob (hp.1.1.trans hid.symm))
  rw [Db.concludeActionJob, Db.updateReturning, hmiss]
  exact congrArg (fun row => (row, db)) hfind

end

/-- A job that a cancel returns is there, failed. -/
theorem cancel_reply {migrationId : Uuid} {datasetId : String} {db' : Db}
    (h : db.cancelScopedActionJob jobId migrationId datasetId = (.ok (some job), db')) :
    job ∈ db'.jobs ∧ job.jobId = jobId ∧ job.state = .failed := by
  unfold Db.cancelScopedActionJob at h
  split at h
  · obtain ⟨hnone, -⟩ := Prod.mk.inj h
    cases hnone
  · rename_i current hfind
    have hp := List.find?_some hfind
    simp only [Bool.and_eq_true, decide_eq_true_eq] at hp
    have hmem : current ∈ db.jobs := List.mem_of_find?_eq_some hfind
    split at h
    · rename_i hcancelled
      obtain ⟨hjob, rfl⟩ := Prod.mk.inj h
      obtain rfl := Option.some.inj (Except.ok.inj hjob)
      exact ⟨hmem, hp.1.1, hcancelled.1⟩
    split at h
    · obtain ⟨herror, -⟩ := Prod.mk.inj h
      cases herror
    · rcases updateReturning_cases db (fun job => decide (job.jobId = jobId) && job.active)
        (.cancelled db.now) (Job.cancelled_jobId _) (by simp +contextual) with
        ⟨heq, -⟩ | ⟨row, hrow, hrowp, jobs, hrows, heq⟩
      · simp only [heq] at h
        obtain ⟨hnone, -⟩ := Prod.mk.inj h
        cases hnone
      · simp only [heq] at h
        obtain ⟨hjob, rfl⟩ := Prod.mk.inj h
        obtain rfl := Option.some.inj (Except.ok.inj hjob)
        simp only [Bool.and_eq_true, decide_eq_true_eq] at hrowp
        refine ⟨?_, hrowp.1, rfl⟩
        rw [← Table.mem_rows, hrows]
        exact List.mem_map.mpr ⟨row, hrow, if_pos rfl⟩

end

/-! ## Requests that are answered -/

/-- The postcondition of an action of a migration is true. -/
def Db.Holds (db : Db) (migrationId : Uuid) (action : EmbeddingAction) : Prop :=
  ∃ migration, db.migrations migrationId = some migration ∧
    satisfied db migration action = true

section

variable {hash : EmbeddingAction → Payload → String} {db : Db} {call : Call} {job job' : Job}
  {x : JobMove}

theorem apply_enqueue {migrationId : Uuid} {action : String} {payload : List (String × PyValue)}
    {requestedBy : String} {newId : Uuid} (hjob : job.requestHash = hash job.action job.payload)
    (hnormalize : normalize action payload = .ok (job.action, job.payload))
    (hanswer : ∀ request : Request, request.migrationId = migrationId →
      request.action = job.action → job.answers hash request = true →
      db.enqueueActionJob hash request = .ok ((job, true), db)) :
    db.apply hash (.enqueue migrationId action payload requestedBy newId) =
      (.enqueued job true, db) := by
  simp only [Db.apply, hnormalize]
  rw [hanswer _ rfl rfl (answers_iff.mpr ⟨hjob, rfl⟩)]

/-- The active job answers a request for it. -/
theorem active_answers (hok : JobsOk hash db) (hjob : job ∈ db.jobs) (hactive : job.active = true)
    {action : String} {payload : List (String × PyValue)}
    (hnormalize : normalize action payload = .ok (job.action, job.payload))
    (requestedBy : String) (newId : Uuid) :
    db.apply hash (.enqueue job.migrationId action payload requestedBy newId) =
      (.enqueued job true, db) := by
  obtain ⟨migration, hmigration, hdataset⟩ := hok.datasets job hjob
  have hfound : db.activeJob migration.datasetId = some job := by
    cases hfind : db.activeJob migration.datasetId with
    | none =>
      rw [activeJob_eq_none.mp hfind job hjob hdataset.symm] at hactive
      cases hactive
    | some other =>
      obtain ⟨hother, hsame, hotheractive⟩ := activeJob_eq_some hfind
      exact congrArg some
        (hok.oneActive other hother job hjob hotheractive hactive (hsame.trans hdataset))
  refine apply_enqueue (hok.hashes job hjob) hnormalize fun request hof haction hanswers => ?_
  rw [Db.enqueueActionJob, hof, hmigration]
  simp only [hfound, haction, hanswers, Bool.not_true, ne_eq, not_true, if_false,
    Bool.false_eq_true]

/-- The newest job of an action answers a request for it, once it has succeeded and as
    long as its postcondition is true. -/
theorem succeeded_answers (hok : JobsOk hash db) (hsucceeded : job.state = .succeeded)
    (hlatest : db.latestJob job.migrationId job.action = some job)
    (hholds : db.Holds job.migrationId job.action) (hfree : db.activeJob job.datasetId = none)
    {action : String} {payload : List (String × PyValue)}
    (hnormalize : normalize action payload = .ok (job.action, job.payload))
    (requestedBy : String) (newId : Uuid) :
    db.apply hash (.enqueue job.migrationId action payload requestedBy newId) =
      (.enqueued job true, db) := by
  have hjob := (latestJob_eq_some hlatest).1
  obtain ⟨migration, hmigration, hsatisfied⟩ := hholds
  obtain ⟨found, hfound, hdataset⟩ := hok.datasets job hjob
  obtain rfl := Option.some.inj (hmigration.symm.trans hfound)
  refine apply_enqueue (hok.hashes job hjob) hnormalize fun request hof haction hanswers => ?_
  rw [← hdataset] at hfree
  rw [Db.enqueueActionJob, hof, hmigration]
  simp only [hfree, haction, hlatest, hsucceeded, hsatisfied, hanswers, and_self, if_true,
    Bool.not_true, if_false, Bool.false_eq_true]

/-- A job that is concluded is the newest of its action. -/
theorem latest_of_concluded (hx : (actionJobs hash).Makes x) (hok : JobsOk hash x.pre)
    (hjob : job ∈ x.pre.jobs) (hactive : job.active = true) (hjob' : job' ∈ x.post.jobs)
    (hid : job'.jobId = job.jobId) (hterminal : job'.active = false) :
    x.post.latestJob job'.migrationId job'.action = some job' := by
  have hmoved : job ∉ x.post.jobs := by
    intro hkept
    obtain rfl := Table.eq_of_key hjob' hkept hid
    rw [hterminal] at hactive
    cases hactive
  rcases makes_cases hx with ⟨call, -, hfresh, happly⟩ | ⟨-, hquiet⟩
  · have heffect : Effect hash x.pre call (x.pre.apply hash call).2 :=
      apply_effect hok.datasets hfresh
    rw [happly] at heffect
    generalize x.post = post at *
    cases heffect with
    | nothing => exact absurd hjob hmoved
    | inserted _ _ _ _ _ _ _ _ hrows =>
      refine absurd ?_ hmoved
      rw [← Table.mem_rows, hrows]
      exact List.mem_cons_of_mem _ hjob
    | @changed changed changed' jobs issued hmem hchange hrows =>
      have hsame := hchange.sameTask
      have hiff : ∀ row, row ∈ jobs ↔
          row = changed' ∨ row ∈ x.pre.jobs ∧ row.jobId ≠ changed.jobId :=
        fun _ => mem_replaced hmem hsame hrows
      have hself : job.jobId = changed.jobId := by
        by_contra hne
        exact hmoved ((hiff _).mpr (.inr ⟨hjob, hne⟩))
      obtain rfl := Table.eq_of_key hjob hmem hself
      obtain rfl : job' = changed' := by
        rcases (hiff _).mp hjob' with heq | ⟨-, hne⟩
        · exact heq
        · exact absurd hid hne
      rw [latestJob_replaced hmem hsame hrows, hsame.migrationId, hsame.action,
        hok.newest job hjob hactive, Option.map_some, if_pos rfl]
  · exact absurd (hquiet.jobs.symm ▸ hjob) hmoved

/-- While its postcondition is true no newer job of its action comes in. -/
theorem latest_kept (hx : (actionJobs hash).Makes x) (hok : JobsOk hash x.pre)
    (hsucceeded : job.state = .succeeded)
    (hlatest : x.pre.latestJob job.migrationId job.action = some job)
    (hholds : x.pre.Holds job.migrationId job.action) :
    x.post.latestJob job.migrationId job.action = some job := by
  rcases makes_cases hx with ⟨call, -, hfresh, happly⟩ | ⟨-, hquiet⟩
  · have heffect : Effect hash x.pre call (x.pre.apply hash call).2 :=
      apply_effect hok.datasets hfresh
    rw [happly] at heffect
    generalize x.post = post at *
    cases heffect with
    | nothing => exact hlatest
    | @inserted new migration jobs hmigration _ _ _ _ _ _ hunanswered hrows =>
      rw [Db.latestJob, hrows, List.find?_cons]
      cases hsame : decide (new.migrationId = job.migrationId) && decide (new.action = job.action) with
      | false => exact hlatest
      | true =>
        simp only [Bool.and_eq_true, decide_eq_true_eq] at hsame
        obtain ⟨found, hfound, hsatisfied⟩ := hholds
        rw [hsame.1, hfound] at hmigration
        obtain rfl := Option.some.inj hmigration
        rw [← hsame.1, ← hsame.2] at hlatest
        exact absurd ⟨hsucceeded, hsame.2 ▸ hsatisfied⟩ (hunanswered job hlatest)
    | @changed changed changed' jobs issued hmem hchange hrows =>
      rw [latestJob_replaced hmem hchange.sameTask hrows, hlatest, Option.map_some, if_neg]
      intro hid
      obtain rfl := Table.eq_of_key (latestJob_eq_some hlatest).1 hmem hid
      -- No call changes a job that has succeeded.
      cases hchange with
      | retried _ hfailed =>
        rw [hsucceeded] at hfailed
        cases hfailed
      | cancelled hactive =>
        rw [Job.active, hsucceeded] at hactive
        cases hactive
      | claimed hactive =>
        rw [Job.active, hsucceeded] at hactive
        cases hactive
      | renewed hrunning =>
        rw [hsucceeded] at hrunning
        cases hrunning
      | finished hrunning =>
        rw [hsucceeded] at hrunning
        cases hrunning
      | failed hrunning =>
        rw [hsucceeded] at hrunning
        cases hrunning
      | requeued hrunning =>
        rw [hsucceeded] at hrunning
        cases hrunning
  · rw [Db.latestJob, hquiet.jobs]
    exact hlatest

end

/-! ## The fences -/

/-- What holds of a run of the producers and workers, and of the database it leads to. -/
structure Fenced (hash : EmbeddingAction → Payload → String) (tr : List JobMove) (db : Db) :
    Prop where
  oneActive : ∀ a ∈ db.jobs, ∀ b ∈ db.jobs, a.active = true → b.active = true →
    a.datasetId = b.datasetId → a = b
  /-- A call with a token that is not the job's changes nothing. -/
  stale : ∀ call jobId token, call.fence = some (jobId, token) →
    (∀ job ∈ db.jobs, job.jobId = jobId → job.claimToken ≠ some token) →
    (db.apply hash call).2 = db
  concludedOnce : ∀ tr₁ x tr₂ token, tr = tr₁ ++ x :: tr₂ → Concludes token x →
    ∀ y ∈ tr₂, ¬ Concludes token y
  finishAgain : ∀ tr₁ x tr₂ jobId token result job, tr = tr₁ ++ x :: tr₂ →
    x.input = .call (.finish jobId token result) → x.reply = .row (some job) →
    ∀ result', db.apply hash (.finish jobId token result') = (.row (some job), db)
  /-- A failure is returned again until the job is queued again. -/
  failAgain : ∀ tr₁ x tr₂ jobId token error job, tr = tr₁ ++ x :: tr₂ →
    x.input = .call (.fail jobId token error) → x.reply = .row (some job) →
    (∀ y ∈ tr₂, ¬ Revives jobId y) →
    ∀ error', db.apply hash (.fail jobId token error') = (.row (some job), db)
  /-- A cancelled job stays failed until it is queued again. -/
  cancelStays : ∀ tr₁ x tr₂ jobId migrationId datasetId job, tr = tr₁ ++ x :: tr₂ →
    x.input = .call (.cancel jobId migrationId datasetId) → x.reply = .row (some job) →
    (∀ y ∈ tr₂, ¬ Revives jobId y) →
    job.state = .failed ∧ ∀ row ∈ db.jobs, row.jobId = jobId → row = job
  activeAnswers : ∀ job ∈ db.jobs, job.active = true →
    ∀ action payload, normalize action payload = .ok (job.action, job.payload) →
    ∀ requestedBy newId, db.apply hash (.enqueue job.migrationId action payload requestedBy newId) =
      (.enqueued job true, db)
  /-- A job that has succeeded answers while its postcondition has been true ever since
      and no job of its dataset is active. -/
  succeededAnswers : ∀ tr₁ x tr₂ old job, tr = tr₁ ++ x :: tr₂ →
    old ∈ x.pre.jobs → old.active = true → job ∈ x.post.jobs → job.jobId = old.jobId →
    job.state = .succeeded →
    (∀ y ∈ tr₂, y.pre.Holds job.migrationId job.action) → db.Holds job.migrationId job.action →
    (∀ other ∈ db.jobs, other.datasetId = job.datasetId → other.active = false) →
    ∀ action payload, normalize action payload = .ok (job.action, job.payload) →
    ∀ requestedBy newId, db.apply hash (.enqueue job.migrationId action payload requestedBy newId) =
      (.enqueued job true, db)

/-- The action jobs are fenced in every run. -/
theorem action_jobs_fenced (hash : EmbeddingAction → Payload → String) {tr : List JobMove}
    {db : Db} (h : Run (actionJobs hash) .empty tr db) : Fenced hash tr db := by
  have hok := jobsOk_run h
  have hsplit : ∀ {tr₁ x tr₂}, tr = tr₁ ++ x :: tr₂ → (actionJobs hash).Makes x ∧
      JobsOk hash x.pre ∧ JobsOk hash x.post ∧ Run (actionJobs hash) x.post tr₂ db := by
    intro tr₁ x tr₂ htr
    obtain ⟨hbefore, hx, hafter⟩ := Run.of_split (htr ▸ h)
    have hpre := jobsOk_run hbefore
    exact ⟨hx, hpre, jobsOk_step hx hpre, hafter⟩
  have happlied : ∀ {x : JobMove} {call}, (actionJobs hash).Makes x → x.input = .call call →
      x.pre.apply hash call = (x.reply, x.post) := by
    intro x call hx hinput
    rcases makes_cases hx with ⟨made, hmade, -, happly⟩ | ⟨hnot, -⟩
    · obtain rfl := Input.call.inj (hmade.symm.trans hinput)
      exact happly
    · exact absurd hinput (hnot call)
  constructor
  · exact hok.oneActive
  · exact fun call jobId token => stale_changes_nothing
  · intro tr₁ x tr₂ token htr hconcludes
    obtain ⟨hx, hpre, hpost, hafter⟩ := hsplit htr
    exact concluded_once hafter hpost (spent_of_concludes hx hpre hconcludes)
  · intro tr₁ x tr₂ jobId token result job htr hinput hreply result'
    obtain ⟨hx, -, hpost, hafter⟩ := hsplit htr
    have happly := happlied hx hinput
    simp only [Db.apply, Db.finishActionJob] at happly
    obtain ⟨hrow, hdb⟩ := Prod.mk.inj happly
    rw [hreply] at hrow
    have hconcluded : x.pre.concludeActionJob jobId token .succeeded
        (.finished x.pre.now token result) (Job.finished_jobId _ _ _) = (some job, x.post) :=
      Prod.ext (Reply.row.inj hrow) hdb
    obtain ⟨hjob, hid, hstate, htoken⟩ :=
      concludeActionJob_some hconcluded fun _ => ⟨rfl, rfl⟩
    have hterminal : job.active = false := by rw [Job.active, hstate]
    have hkept := terminal_run hafter hpost hjob hterminal (.inl hstate)
    simp only [Db.apply, Db.finishActionJob,
      concludeActionJob_again hkept hid hstate hterminal htoken]
  · intro tr₁ x tr₂ jobId token error job htr hinput hreply hfrozen error'
    obtain ⟨hx, -, hpost, hafter⟩ := hsplit htr
    have happly := happlied hx hinput
    simp only [Db.apply, Db.failActionJob] at happly
    obtain ⟨hrow, hdb⟩ := Prod.mk.inj happly
    rw [hreply] at hrow
    have hconcluded : x.pre.concludeActionJob jobId token .failed
        (.hasFailed x.pre.now token error) (Job.hasFailed_jobId _ _ _) = (some job, x.post) :=
      Prod.ext (Reply.row.inj hrow) hdb
    obtain ⟨hjob, hid, hstate, htoken⟩ :=
      concludeActionJob_some hconcluded fun _ => ⟨rfl, rfl⟩
    have hterminal : job.active = false := by rw [Job.active, hstate]
    have hkept := terminal_run hafter hpost hjob hterminal (.inr (hid.symm ▸ hfrozen))
    simp only [Db.apply, Db.failActionJob,
      concludeActionJob_again hkept hid hstate hterminal htoken]
  · intro tr₁ x tr₂ jobId migrationId datasetId job htr hinput hreply hfrozen
    obtain ⟨hx, -, hpost, hafter⟩ := hsplit htr
    have happly := happlied hx hinput
    rw [hreply] at happly
    simp only [Db.apply] at happly
    split at happly
    · cases (Prod.mk.inj happly).1
    · rename_i row post hcancel
      obtain ⟨hrow, rfl⟩ := Prod.mk.inj happly
      obtain rfl := Reply.row.inj hrow
      obtain ⟨hjob, hid, hstate⟩ := cancel_reply hcancel
      have hterminal : job.active = false := by rw [Job.active, hstate]
      have hkept := terminal_run hafter hpost hjob hterminal (.inr (hid.symm ▸ hfrozen))
      exact ⟨hstate, fun row hrow hrowid => Table.eq_of_key hrow hkept (hrowid.trans hid.symm)⟩
  · intro job hjob hactive action payload hnormalize requestedBy newId
    exact active_answers hok hjob hactive hnormalize requestedBy newId
  · intro tr₁ x tr₂ old job htr hold hactive hjob hid hsucceeded hholds hend hfree action payload
      hnormalize requestedBy newId
    obtain ⟨hx, hpre, hpost, hafter⟩ := hsplit htr
    have hterminal : job.active = false := by rw [Job.active, hsucceeded]
    have hlatest := latest_of_concluded hx hpre hold hactive hjob hid hterminal
    have hkept := (hafter.invariant_when (C := fun y => y.pre.Holds job.migrationId job.action)
      (P := fun db => JobsOk hash db ∧ db.latestJob job.migrationId job.action = some job)
      (fun y hy hcond hp => ⟨jobsOk_step hy hp.1, latest_kept hy hp.1 hsucceeded hp.2 hcond⟩)
      hholds ⟨hpost, hlatest⟩).2.2
    exact succeeded_answers hok hsucceeded hkept hend (activeJob_eq_none.mpr hfree) hnormalize
      requestedBy newId

/-- A digest for the runs below. -/
def sampleHash (action : EmbeddingAction) (_ : Payload) : String := action.text

def shadowMigration : Migration := ⟨"kb-1", .shadowBuild, none, none, 3⟩

def backfilledMigration : Migration := ⟨"kb-1", .backfilling, none, none, 0⟩

/-- A backfill is claimed, its lease runs out, and another worker finishes it. -/
def takenOver : List Input :=
  [.migration "m1" shadowMigration,
   .call (.enqueue "m1" "backfill" [] "operator" "job-1"),
   .call (.claim "worker-1" 30 "token-1" []),
   .tick 31_000_000,
   .call (.claim "worker-2" 30 "token-2" []),
   .call (.finish "job-1" "token-1" "late"),
   .call (.finish "job-1" "token-2" "done")]

/-- The late worker is told nothing, the other its result. -/
theorem action_jobs_fenced_takenOver : ∃ tr db,
    Run (actionJobs sampleHash) .empty tr db ∧ Fenced sampleHash tr db ∧
      (tr.map Move.reply)[5]? = some (.row none) ∧
      db.jobs.rows.map (fun job => (job.state, job.result)) = [(.succeeded, some "done")] := by
  obtain ⟨tr, db, h, -, hcheck⟩ := Machine.exists_run (actionJobs sampleHash) .empty takenOver
    (fun tr db => decide ((tr.map Move.reply)[5]? = some (Reply.row none)) &&
      decide (db.jobs.rows.map (fun job => (job.state, job.result)) =
        [(JobState.succeeded, some "done")]))
    (by decide +kernel)
  simp only [Bool.and_eq_true, decide_eq_true_eq] at hcheck
  exact ⟨tr, db, h, action_jobs_fenced sampleHash h, hcheck.1, hcheck.2⟩

/-- A backfill is cancelled, requested again, claimed and finished. -/
def cancelledAndRetried : List Input :=
  [.migration "m1" shadowMigration,
   .call (.enqueue "m1" "backfill" [] "operator" "job-1"),
   .call (.cancel "job-1" "m1" "kb-1"),
   .call (.enqueue "m1" "backfill" [] "operator" "job-2"),
   .call (.claim "worker-1" 30 "token-1" []),
   .call (.finish "job-1" "token-1" "done")]

/-- A backfill has succeeded, and a verify is queued. -/
def backfillThenVerify : List Input :=
  [.migration "m1" shadowMigration,
   .call (.enqueue "m1" "backfill" [] "operator" "job-1"),
   .call (.claim "worker-1" 30 "token-1" []),
   .migration "m1" backfilledMigration,
   .call (.finish "job-1" "token-1" "done"),
   .call (.enqueue "m1" "verify" [] "operator" "job-2")]

/-- Is the postcondition of the job's action true? -/
def Db.holds (db : Db) (job : Job) : Bool :=
  (db.migrations job.migrationId).any fun migration => satisfied db migration job.action

/-- A cancelled job can succeed after all, once it is queued again; and a job whose
    postcondition is true is not returned while another one of its dataset is active. -/
theorem cancelled_job_succeeds :
    (∃ tr db, Run (actionJobs sampleHash) .empty tr db ∧
      ∃ x ∈ tr, ∃ job ∈ x.post.jobs.rows, ∃ row ∈ db.jobs.rows, job.state = .failed ∧
        job.error = some cancelledByOperator ∧ row.jobId = job.jobId ∧ row.state = .succeeded) ∧
    ∃ tr db, Run (actionJobs sampleHash) .empty tr db ∧
      ∃ job ∈ db.jobs.rows, job.state = .succeeded ∧ db.holds job = true ∧
        (db.apply sampleHash (.enqueue "m1" "backfill" [] "operator" "job-3")).1 =
          .raised (.state "migration already has active 'verify' job") := by
  constructor
  · obtain ⟨tr, db, h, -, hcheck⟩ := Machine.exists_run (actionJobs sampleHash) .empty
      cancelledAndRetried
      (fun tr db => tr.any fun x => x.post.jobs.rows.any fun job => db.jobs.rows.any fun row =>
        decide (job.state = .failed) && decide (job.error = some cancelledByOperator) &&
          decide (row.jobId = job.jobId) && decide (row.state = .succeeded))
      (by decide +kernel)
    obtain ⟨x, hx, hmove⟩ := List.any_eq_true.mp hcheck
    obtain ⟨job, hjob, hrows⟩ := List.any_eq_true.mp hmove
    obtain ⟨row, hrow, hall⟩ := List.any_eq_true.mp hrows
    simp only [Bool.and_eq_true, decide_eq_true_eq] at hall
    exact ⟨tr, db, h, x, hx, job, hjob, row, hrow, hall.1.1.1, hall.1.1.2, hall.1.2, hall.2⟩
  · obtain ⟨tr, db, h, -, hcheck⟩ := Machine.exists_run (actionJobs sampleHash) .empty
      backfillThenVerify
      (fun _ db => (db.jobs.rows.any fun job => decide (job.state = .succeeded) && db.holds job) &&
        decide ((db.apply sampleHash (.enqueue "m1" "backfill" [] "operator" "job-3")).1 =
          .raised (.state "migration already has active 'verify' job")))
      (by decide +kernel)
    obtain ⟨hjobs, hraised⟩ := Bool.and_eq_true_iff.mp hcheck
    obtain ⟨job, hjob, hall⟩ := List.any_eq_true.mp hjobs
    obtain ⟨hsucceeded, hholds⟩ := Bool.and_eq_true_iff.mp hall
    exact ⟨tr, db, h, job, hjob, of_decide_eq_true hsucceeded, hholds, of_decide_eq_true hraised⟩

end AiPlatform.Knowledge.ActionJobs
