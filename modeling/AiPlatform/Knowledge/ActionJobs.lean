/-
  AiPlatform.Knowledge.ActionJobs

  The durable action jobs of an embedding migration
  (`embedding_version_store.py`, `enqueue_action_job` to `requeue_action_job`).

  A call is one transaction, and its SET clauses are functions on rows.  The rows
  of the migrations and of the datasets, which other calls write, change at any
  time between two calls.
-/

import AiPlatform.Capability.PythonCanonical
import AiPlatform.Gateway.PythonText
import AiPlatform.Lib.Machine
import AiPlatform.Lib.Table

namespace AiPlatform.Knowledge.ActionJobs

open Capability (PyValue)
open Gateway (strip lower)
open Relational Transition

abbrev Uuid := String

/-! ## Rows -/

inductive MigrationState where
  | shadowBuild
  | backfilling
  | verified
  | gating
  | gateFailed
  | ready
  | completed
  | rolledBack
  | failed
  | abandoned
  deriving DecidableEq, Repr

def MigrationState.text : MigrationState → String
  | .shadowBuild => "shadow_build"
  | .backfilling => "backfilling"
  | .verified => "verified"
  | .gating => "gating"
  | .gateFailed => "gate_failed"
  | .ready => "ready"
  | .completed => "completed"
  | .rolledBack => "rolled_back"
  | .failed => "failed"
  | .abandoned => "abandoned"

inductive EmbeddingAction where
  | backfill
  | verify
  | gate
  deriving DecidableEq, Repr

def EmbeddingAction.text : EmbeddingAction → String
  | .backfill => "backfill"
  | .verify => "verify"
  | .gate => "gate"

/-- The members of `EMBEDDING_ACTIONS`. -/
def EmbeddingAction.ofText (text : String) : Option EmbeddingAction :=
  [EmbeddingAction.backfill, .verify, .gate].find? fun action => action.text = text

inductive JobState where
  | queued
  | running
  | succeeded
  | failed
  deriving DecidableEq, Repr

/-- A normalized payload: the parameters of a gate, the floats as their bits. -/
structure Payload where
  sampleSize : Option Int
  topK : Option Int
  tolerance : Option UInt64
  floor : Option UInt64
  deriving DecidableEq, Repr

structure Job where
  jobId : Uuid
  migrationId : Uuid
  datasetId : String
  action : EmbeddingAction
  requestHash : String
  state : JobState
  payload : Payload
  /-- The JSON text of the result. -/
  result : Option String
  error : Option String
  requestedBy : Option String
  attemptCount : Nat
  claimedBy : Option String
  claimToken : Option Uuid
  terminalClaimToken : Option Uuid
  availableAt : Nat
  leaseExpiresAt : Option Nat
  lastHeartbeatAt : Option Nat
  startedAt : Option Nat
  finishedAt : Option Nat
  createdAt : Nat
  updatedAt : Nat
  deriving DecidableEq, Repr

/-- `state IN ('queued', 'running')` -/
def Job.active (job : Job) : Bool :=
  match job.state with
  | .queued | .running => true
  | .succeeded | .failed => false

/-- What `enqueue_action_job` reads of a migration. -/
structure Migration where
  datasetId : String
  state : MigrationState
  /-- The `content_revision` in `totals.verified_authority`, if it holds an integer. -/
  verifiedAuthority : Option Int
  /-- The one in `gate.authority_snapshot`. -/
  authoritySnapshot : Option Int
  /-- What `_count_pending_segments_on_connection` counts. -/
  pending : Nat
  deriving DecidableEq, Repr

structure Db where
  /-- In microseconds. -/
  now : Nat
  /-- Newest first. -/
  jobs : Table Job.jobId
  migrations : Uuid → Option Migration
  /-- `datasets.content_revision` -/
  revisions : String → Option Int
  /-- The tokens `gen_random_uuid()` has given. -/
  issued : List Uuid

def Db.empty : Db := ⟨0, .empty, fun _ => none, fun _ => none, []⟩

/-! ## Parameters -/

inductive JobError where
  /-- A `ValueError`. -/
  | value (message : String)
  /-- A `MigrationStateError`. -/
  | state (message : String)
  deriving DecidableEq, Repr

/-- `1 <= value <= upper`, and no bool. -/
def gateInteger (key : String) (upper : Int) : Option PyValue → Except JobError (Option Int)
  | none => .ok none
  | some (.int n) =>
      if 1 ≤ n ∧ n ≤ upper then .ok (some n)
      else .error (.value s!"gate {key} must be an integer between 1 and {upper}")
  | some _ => .error (.value s!"gate {key} must be an integer between 1 and {upper}")

/-- The bits of 0.0, -0.0 and 1.0.  Of the bits below those of 1.0 all stand for a
    number between the two. -/
def zeroBits : UInt64 := 0

def negZeroBits : UInt64 := 0x8000000000000000

def oneBits : UInt64 := 0x3FF0000000000000

/-- `0.0 <= float(value) <= 1.0`, and no bool. -/
def gateNumber (key : String) : Option PyValue → Except JobError (Option UInt64)
  | none => .ok none
  | some (.float bits) =>
      if bits ≤ oneBits ∨ bits = negZeroBits then .ok (some bits)
      else .error (.value s!"gate {key} must be a number between 0 and 1")
  | some (.int n) =>
      if n = 0 then .ok (some zeroBits)
      else if n = 1 then .ok (some oneBits)
      else .error (.value s!"gate {key} must be a number between 0 and 1")
  | some _ => .error (.value s!"gate {key} must be a number between 0 and 1")

def gateParameters : List String := ["sample_size", "top_k", "tolerance", "floor"]

/-- A parameter that was given and is not `None`. -/
def given (payload : List (String × PyValue)) (key : String) : Option PyValue :=
  match payload.lookup key with
  | some .none => none
  | value => value

/-- `_normalize_action_payload` -/
def normalizeActionPayload (action : EmbeddingAction) (payload : List (String × PyValue)) :
    Except JobError Payload := do
  if action ≠ .gate then
    if payload ≠ [] then
      throw (.value s!"'{action.text}' action does not accept parameters")
    return ⟨none, none, none, none⟩
  let unknown := (payload.map Prod.fst).filter (· ∉ gateParameters)
  if unknown ≠ [] then
    throw (.value ("unsupported gate parameters: " ++ ", ".intercalate (unknown.mergeSort (· ≤ ·))))
  let sampleSize ← gateInteger "sample_size" 256 (given payload "sample_size")
  let topK ← gateInteger "top_k" 50 (given payload "top_k")
  let tolerance ← gateNumber "tolerance" (given payload "tolerance")
  let floor ← gateNumber "floor" (given payload "floor")
  return ⟨sampleSize, topK, tolerance, floor⟩

/-- The action and the payload of a request, normalized. -/
def normalize (action : String) (payload : List (String × PyValue)) :
    Except JobError (EmbeddingAction × Payload) :=
  match EmbeddingAction.ofText (lower (strip action)) with
  | none => .error (.value s!"unsupported embedding action '{lower (strip action)}'")
  | some action => (normalizeActionPayload action payload).map fun payload => (action, payload)

/-! ## `enqueue_action_job` -/

def BACKFILL_ENTRY_STATES : List MigrationState := [.shadowBuild, .backfilling, .failed]

/-- `_action_can_enqueue` -/
def actionCanEnqueue (action : EmbeddingAction) (state : MigrationState) : Bool :=
  match action with
  | .backfill => decide (state ∈ BACKFILL_ENTRY_STATES)
  | .verify => decide (state ∈ [MigrationState.backfilling, .verified, .failed])
  | .gate => decide (state ∈ [MigrationState.verified, .gateFailed, .gating])

/-- `_authority_revision_is_current` -/
def authorityRevisionIsCurrent (db : Db) (datasetId : String) (evidence : Option Int) : Bool :=
  match evidence, db.revisions datasetId with
  | some revision, some current => decide (current = revision)
  | _, _ => false

/-- Does the postcondition of a completed action still hold? -/
def satisfied (db : Db) (migration : Migration) (action : EmbeddingAction) : Bool :=
  migration.pending == 0 &&
    match action with
    | .backfill =>
        decide (migration.state ∈
          [MigrationState.backfilling, .verified, .gating, .gateFailed, .ready, .completed])
    | .verify =>
        decide (migration.state ∈
          [MigrationState.verified, .gating, .gateFailed, .ready, .completed]) &&
          authorityRevisionIsCurrent db migration.datasetId migration.verifiedAuthority
    | .gate =>
        decide (migration.state ∈ [MigrationState.ready, .completed]) &&
          authorityRevisionIsCurrent db migration.datasetId migration.authoritySnapshot

/-- The active job of a dataset. -/
def Db.activeJob (db : Db) (datasetId : String) : Option Job :=
  db.jobs.rows.find? fun job => job.datasetId = datasetId && job.active

/-- The newest job of an action. -/
def Db.latestJob (db : Db) (migrationId : Uuid) (action : EmbeddingAction) : Option Job :=
  db.jobs.rows.find? fun job => job.migrationId = migrationId && job.action = action

/-- `NULLIF(text, '')` -/
def nullIfEmpty (text : String) : Option String := if text = "" then none else some text

/-- The SET clause of a job that is queued again. -/
def Job.retried (now : Nat) (hash : String) (payload : Payload) (requestedBy : String)
    (job : Job) : Job :=
  { job with
    state := .queued
    payload
    requestedBy := nullIfEmpty requestedBy
    result := none
    error := none
    claimedBy := none
    claimToken := none
    requestHash := hash
    terminalClaimToken := none
    availableAt := now
    leaseExpiresAt := none
    lastHeartbeatAt := none
    startedAt := none
    finishedAt := none
    updatedAt := now }

@[simp] theorem Job.retried_jobId (now : Nat) (hash : String) (payload : Payload)
    (requestedBy : String) (job : Job) :
    (job.retried now hash payload requestedBy).jobId = job.jobId := rfl

/-- A row as the INSERT makes it. -/
def Job.new (now : Nat) (jobId migrationId : Uuid) (datasetId : String) (action : EmbeddingAction)
    (hash : String) (payload : Payload) (requestedBy : String) : Job :=
  { jobId, migrationId, datasetId, action, payload
    requestHash := hash
    state := .queued
    result := none
    error := none
    requestedBy := nullIfEmpty requestedBy
    attemptCount := 0
    claimedBy := none
    claimToken := none
    terminalClaimToken := none
    availableAt := now
    leaseExpiresAt := none
    lastHeartbeatAt := none
    startedAt := none
    finishedAt := none
    createdAt := now
    updatedAt := now }

/-- `UPDATE .. SET .. WHERE .. RETURNING *` on one row. -/
def Db.updateReturning (db : Db) (p : Job → Bool) (set : Job → Job)
    (keeps : ∀ job, (set job).jobId = job.jobId) : Option Job × Db :=
  match db.jobs.rows.find? p with
  | none => (none, db)
  | some job => (some (set job), { db with jobs := db.jobs.update p set keeps })

/-- The INSERT.  The index `one_active` and the primary key raise the same error. -/
def Db.insertJob (db : Db) (job : Job) : Except JobError (Job × Db) :=
  let violated : JobError :=
    .state "migration action was concurrently enqueued; retry the request"
  if (db.activeJob job.datasetId).isSome then .error violated
  else
    match db.jobs.insert job with
    | none => .error violated
    | some jobs => .ok (job, { db with jobs })

/-- A request for a job, normalized. -/
structure Request where
  migrationId : Uuid
  action : EmbeddingAction
  payload : Payload
  requestedBy : String
  /-- `gen_random_uuid()`, the default of `job_id`. -/
  newId : Uuid

/-- Is the job one that this request asked for? -/
def Job.answers (hash : EmbeddingAction → Payload → String) (request : Request) (job : Job) :
    Bool :=
  decide (job.requestHash = hash request.action request.payload) &&
    decide (job.payload = request.payload)

/-- A job is queued, where none is active and none answers the request. -/
def Db.queueJob (hash : EmbeddingAction → Payload → String) (db : Db) (request : Request)
    (migration : Migration) (latest : Option Job) : Except JobError ((Job × Bool) × Db) :=
  if !actionCanEnqueue request.action migration.state then
    .error (.state
      s!"migration in state '{migration.state.text}' cannot enqueue '{request.action.text}'")
  else if request.action = .verify ∧ migration.pending ≠ 0 then
    .error (.state s!"cannot enqueue verify while {migration.pending} chunks remain pending")
  else
    let digest := hash request.action request.payload
    let insert := (db.insertJob (.new db.now request.newId request.migrationId migration.datasetId
      request.action digest request.payload request.requestedBy)).map fun (job, db) =>
        ((job, false), db)
    match latest with
    | none => insert
    | some latest =>
        if latest.state = .failed ∧ latest.answers hash request then
          match db.updateReturning (fun job => job.jobId = latest.jobId && job.state = .failed)
              (.retried db.now digest request.payload request.requestedBy)
              (Job.retried_jobId _ _ _ _) with
          | (some job, db) => .ok ((job, true), db)
          | (none, _) => .error (.state "failed action job changed during retry")
        else insert

/-- `enqueue_action_job`, its arguments normalized: the job, whether it was there, and
    the database after the call. -/
def Db.enqueueActionJob (hash : EmbeddingAction → Payload → String) (db : Db)
    (request : Request) : Except JobError ((Job × Bool) × Db) :=
  match db.migrations request.migrationId with
  | none => .error (.state "migration not found")
  | some migration =>
      match db.activeJob migration.datasetId with
      | some active =>
          if active.migrationId ≠ request.migrationId then
            .error (.state "dataset already has an active migration action job")
          else if active.action ≠ request.action then
            .error (.state s!"migration already has active '{active.action.text}' job")
          else if !active.answers hash request then
            .error (.state s!"active '{request.action.text}' job has different parameters")
          else .ok ((active, true), db)
      | none =>
          let latest := db.latestJob request.migrationId request.action
          match latest with
          | some job =>
              if job.state = .succeeded ∧ satisfied db migration request.action then
                if !job.answers hash request then
                  .error (.state
                    s!"completed '{request.action.text}' job has different parameters")
                else .ok ((job, true), db)
              else db.queueJob hash request migration latest
          | none => db.queueJob hash request migration latest

/-! ## `cancel_scoped_action_job` -/

def cancelledByOperator : String := "cancelled by operator"

def JobState.text : JobState → String
  | .queued => "queued"
  | .running => "running"
  | .succeeded => "succeeded"
  | .failed => "failed"

def Job.cancelled (now : Nat) (job : Job) : Job :=
  { job with
    state := .failed
    result := none
    error := some cancelledByOperator
    claimedBy := none
    claimToken := none
    terminalClaimToken :=
      if job.state = .running then job.claimToken else job.terminalClaimToken
    leaseExpiresAt := none
    lastHeartbeatAt := if job.state = .running then some now else job.lastHeartbeatAt
    finishedAt := some now
    updatedAt := now }

@[simp] theorem Job.cancelled_jobId (now : Nat) (job : Job) :
    (job.cancelled now).jobId = job.jobId := rfl

def Db.cancelScopedActionJob (db : Db) (jobId migrationId : Uuid) (datasetId : String) :
    Except JobError (Option Job) × Db :=
  match db.jobs.rows.find? fun job =>
      job.jobId = jobId && job.migrationId = migrationId && job.datasetId = datasetId with
  | none => (.ok none, db)
  | some current =>
      if current.state = .failed ∧ current.error = some cancelledByOperator then
        (.ok (some current), db)
      else if !current.active then
        (.error (.state
          s!"migration action job in state '{current.state.text}' cannot be cancelled"), db)
      else
        let done := db.updateReturning (fun job => job.jobId = jobId && job.active)
          (.cancelled db.now) (Job.cancelled_jobId _)
        (.ok done.1, done.2)

/-! ## The calls of a worker -/

/-- `NOW() + make_interval(secs => max(int(lease_seconds), 1))` -/
def leaseEnd (now : Nat) (leaseSeconds : Int) : Nat :=
  now + 1_000_000 * (max leaseSeconds 1).toNat

/-- May a worker claim the job? -/
def Job.due (now : Nat) (job : Job) : Bool :=
  match job.state with
  | .queued => decide (job.availableAt ≤ now)
  | .running => job.leaseExpiresAt.any fun expires => expires < now
  | _ => false

/-- What the candidates are ordered by. -/
def Job.order (job : Job) : Nat × Nat :=
  (if job.state = .running then job.leaseExpiresAt.getD 0 else job.availableAt, job.createdAt)

/-- The first of these in the order of the candidates. -/
def firstCandidate : List Job → Option Job
  | [] => none
  | job :: rest =>
      match firstCandidate rest with
      | none => some job
      | some other =>
          if other.order.1 < job.order.1 ∨
              other.order.1 = job.order.1 ∧ other.order.2 < job.order.2 then some other
          else some job

def Job.claimed (now : Nat) (worker : String) (leaseSeconds : Int) (token : Uuid) (job : Job) :
    Job :=
  { job with
    state := .running
    claimedBy := some worker
    claimToken := some token
    terminalClaimToken := none
    leaseExpiresAt := some (leaseEnd now leaseSeconds)
    lastHeartbeatAt := some now
    startedAt := some (job.startedAt.getD now)
    finishedAt := none
    error := none
    attemptCount := job.attemptCount + 1
    updatedAt := now }

@[simp] theorem Job.claimed_jobId (now : Nat) (worker : String) (leaseSeconds : Int)
    (token : Uuid) (job : Job) :
    (job.claimed now worker leaseSeconds token).jobId = job.jobId := rfl

/-- `claim_next_action_job`: the job and whether it was running.  `locked` are the rows
    that other transactions hold. -/
def Db.claimNextActionJob (db : Db) (workerId : String) (leaseSeconds : Int) (token : Uuid)
    (locked : List Uuid) : Except JobError (Option (Job × Bool)) × Db :=
  let worker := strip workerId
  if worker = "" then (.error (.value "worker_id is required"), db)
  else
    match firstCandidate
        (db.jobs.rows.filter fun job => job.due db.now && decide (job.jobId ∉ locked)) with
    | none => (.ok none, db)
    | some candidate =>
        let done := db.updateReturning (fun job => job.jobId = candidate.jobId)
          (.claimed db.now worker leaseSeconds token) (Job.claimed_jobId _ _ _ _)
        (.ok (done.1.map fun job => (job, candidate.state = .running)),
          { done.2 with issued := token :: db.issued })

/-- `job_id = $1 AND state = 'running' AND claim_token = $2` -/
def Job.claimedAs (jobId token : Uuid) (job : Job) : Bool :=
  job.jobId = jobId && job.state = .running && job.claimToken = some token

def Job.renewed (now : Nat) (leaseSeconds : Int) (job : Job) : Job :=
  { job with
    leaseExpiresAt := some (leaseEnd now leaseSeconds)
    lastHeartbeatAt := some now
    updatedAt := now }

@[simp] theorem Job.renewed_jobId (now : Nat) (leaseSeconds : Int) (job : Job) :
    (job.renewed now leaseSeconds).jobId = job.jobId := rfl

def Db.heartbeatActionJob (db : Db) (jobId token : Uuid) (leaseSeconds : Int) : Bool × Db :=
  let done := db.updateReturning (Job.claimedAs jobId token) (.renewed db.now leaseSeconds)
    (Job.renewed_jobId _ _)
  (done.1.isSome, done.2)

def Job.finished (now : Nat) (token : Uuid) (result : String) (job : Job) : Job :=
  { job with
    state := .succeeded
    result := some result
    error := none
    claimedBy := none
    claimToken := none
    terminalClaimToken := some token
    leaseExpiresAt := none
    lastHeartbeatAt := some now
    finishedAt := some now
    updatedAt := now }

@[simp] theorem Job.finished_jobId (now : Nat) (token : Uuid) (result : String) (job : Job) :
    (job.finished now token result).jobId = job.jobId := rfl

def Job.hasFailed (now : Nat) (token : Uuid) (error : String) (job : Job) : Job :=
  { job with
    state := .failed
    result := none
    error := some (String.ofList (error.toList.take 4000))
    claimedBy := none
    claimToken := none
    terminalClaimToken := some token
    leaseExpiresAt := none
    lastHeartbeatAt := some now
    finishedAt := some now
    updatedAt := now }

@[simp] theorem Job.hasFailed_jobId (now : Nat) (token : Uuid) (error : String) (job : Job) :
    (job.hasFailed now token error).jobId = job.jobId := rfl

/-- An UPDATE of the claimed job, or else the row that the same call left before. -/
def Db.concludeActionJob (db : Db) (jobId token : Uuid) (state : JobState) (set : Job → Job)
    (keeps : ∀ job, (set job).jobId = job.jobId) : Option Job × Db :=
  match db.updateReturning (Job.claimedAs jobId token) set keeps with
  | (some job, db) => (some job, db)
  | (none, db) =>
      (db.jobs.rows.find? fun job =>
        job.jobId = jobId && job.state = state && job.terminalClaimToken = some token, db)

def Db.finishActionJob (db : Db) (jobId token : Uuid) (result : String) : Option Job × Db :=
  db.concludeActionJob jobId token .succeeded (.finished db.now token result)
    (Job.finished_jobId _ _ _)

def Db.failActionJob (db : Db) (jobId token : Uuid) (error : String) : Option Job × Db :=
  db.concludeActionJob jobId token .failed (.hasFailed db.now token error)
    (Job.hasFailed_jobId _ _ _)

def Job.requeued (now : Nat) (job : Job) : Job :=
  { job with
    state := .queued
    claimedBy := none
    claimToken := none
    terminalClaimToken := none
    availableAt := now
    leaseExpiresAt := none
    lastHeartbeatAt := none
    updatedAt := now }

@[simp] theorem Job.requeued_jobId (now : Nat) (job : Job) :
    (job.requeued now).jobId = job.jobId := rfl

def Db.requeueActionJob (db : Db) (jobId token : Uuid) : Bool × Db :=
  let done := db.updateReturning (Job.claimedAs jobId token) (.requeued db.now)
    (Job.requeued_jobId _)
  (done.1.isSome, done.2)

/-! ## Producers and workers -/

inductive Call where
  | enqueue (migrationId : Uuid) (action : String) (payload : List (String × PyValue))
      (requestedBy : String) (newId : Uuid)
  | cancel (jobId migrationId : Uuid) (datasetId : String)
  | claim (workerId : String) (leaseSeconds : Int) (token : Uuid) (locked : List Uuid)
  | heartbeat (jobId token : Uuid) (leaseSeconds : Int)
  | finish (jobId token : Uuid) (result : String)
  | fail (jobId token : Uuid) (error : String)
  | requeue (jobId token : Uuid)

inductive Reply where
  | enqueued (job : Job) (reused : Bool)
  | claimed (job : Option (Job × Bool))
  | row (job : Option Job)
  | done (hit : Bool)
  | raised (error : JobError)
  | nothing
  deriving DecidableEq, Repr

def Db.apply (hash : EmbeddingAction → Payload → String) (db : Db) : Call → Reply × Db
  | .enqueue migrationId action payload requestedBy newId =>
      match normalize action payload with
      | .error error => (.raised error, db)
      | .ok (action, payload) =>
          match db.enqueueActionJob hash ⟨migrationId, action, payload, strip requestedBy, newId⟩ with
          | .error error => (.raised error, db)
          | .ok ((job, reused), db) => (.enqueued job reused, db)
  | .cancel jobId migrationId datasetId =>
      match db.cancelScopedActionJob jobId migrationId datasetId with
      | (.error error, db) => (.raised error, db)
      | (.ok job, db) => (.row job, db)
  | .claim workerId leaseSeconds token locked =>
      match db.claimNextActionJob workerId leaseSeconds token locked with
      | (.error error, db) => (.raised error, db)
      | (.ok job, db) => (.claimed job, db)
  | .heartbeat jobId token leaseSeconds =>
      let done := db.heartbeatActionJob jobId token leaseSeconds
      (.done done.1, done.2)
  | .finish jobId token result =>
      let done := db.finishActionJob jobId token result
      (.row done.1, done.2)
  | .fail jobId token error =>
      let done := db.failActionJob jobId token error
      (.row done.1, done.2)
  | .requeue jobId token =>
      let done := db.requeueActionJob jobId token
      (.done done.1, done.2)

/-- The token a call is given by `gen_random_uuid()`. -/
def Call.token? : Call → Option Uuid
  | .claim _ _ token _ => some token
  | _ => none

inductive Input where
  | call (call : Call)
  | tick (micros : Nat)
  /-- A migration is written by another call.  Its dataset never changes. -/
  | migration (migrationId : Uuid) (row : Migration)
  | revision (datasetId : String) (revision : Option Int)

/-- Any number of producers and workers.  No token is given twice. -/
def actionJobs (hash : EmbeddingAction → Payload → String) : Machine Db Input Reply where
  step db
    | .call call =>
        if call.token?.any fun token => decide (token ∈ db.issued) then none
        else some (db.apply hash call)
    | .tick micros => some (.nothing, { db with now := db.now + micros })
    | .migration migrationId row =>
        if (db.migrations migrationId).any fun old => decide (old.datasetId ≠ row.datasetId) then
          none
        else some (.nothing, { db with
          migrations := fun other => if other = migrationId then some row else db.migrations other })
    | .revision datasetId revision =>
        some (.nothing, { db with
          revisions := fun other => if other = datasetId then revision else db.revisions other })

abbrev JobMove := Move Db Input Reply

end AiPlatform.Knowledge.ActionJobs
