/-
  AiPlatform.Runtime.DurableRecovery

  The tables that decide who may execute a run, and the statements that read
  and write them: the functions of `004_runtime_durable_recovery.sql`, the
  heartbeat of `postgres_store/execution.rs`, and what the gateway's run ledger
  and the recovery loop do to runs, leases and snapshots.

  Each function or statement is one atomic step.  `now` is what
  `clock_timestamp()` reads in it, in microseconds; `NOW()` is the start of its
  transaction, so a statement that has waited for a row lock reads an older
  time there, `started`.  An exception rolls back, so a failed call returns no
  database.  Row locks have no part in an atomic step and are left out.
-/

import AiPlatform.Lib.Table
import AiPlatform.Json.Value
import Mathlib.Algebra.Group.Nat.Defs

namespace AiPlatform.Runtime

open AiPlatform.Json Relational

abbrev Uuid := String

/-- `INTERVAL '30 seconds'`. -/
def EXECUTION_LEASE : Nat := 30 * 1000 * 1000

/-- The greatest `BIGINT`. -/
def BIGINT_MAX : Nat := 2 ^ 63 - 1

/-! ## Rows -/

structure Scope where
  tenantId : String
  userId : String
  sessionId : String
  deriving DecidableEq, Repr

inductive Engine where
  | agentRuntime
  | other (name : String)
  deriving DecidableEq, Repr

inductive RunStatus where
  | running
  | awaitingApproval
  | succeeded
  | completed
  | failed
  | cancelled
  | other (text : String)
  deriving DecidableEq, Repr

/-- `status IN ('running','awaiting_approval')`. -/
def RunStatus.isActive : RunStatus → Bool
  | .running | .awaitingApproval => true
  | _ => false

structure RunRow where
  runId : Uuid
  scope : Scope
  status : RunStatus
  engine : Engine
  harnessThreadId : Option Uuid
  runtimeSnapshotId : Option Uuid
  kernelRevision : Option String

/-- `SET status = ..`. -/
def RunRow.setStatus (r : RunRow) (status : RunStatus) : RunRow := { r with status := status }

structure ThreadRow where
  runtimeThreadId : Uuid
  scope : Scope
  deletedAt : Option Nat

structure SnapshotRow where
  snapshotId : Uuid
  runtimeThreadId : Uuid
  runId : Uuid
  scope : Scope
  expiresAt : Option Nat

inductive LeaseStatus where
  | active
  | exhausted
  | revoked
  | expired
  deriving DecidableEq, Repr

structure LeaseRow where
  leaseId : Uuid
  snapshotId : Uuid
  runId : Uuid
  runtimeThreadId : Uuid
  scope : Scope
  status : LeaseStatus
  expiresAt : Nat

/-- `SET status = 'revoked'`. -/
def LeaseRow.revoke (l : LeaseRow) : LeaseRow := { l with status := .revoked }

structure RevocationRow where
  snapshotId : Uuid
  scope : Scope

inductive ApprovalStatus where
  | pending
  | approved
  | cancelled
  | other (text : String)
  deriving DecidableEq, Repr

structure ApprovalRow where
  approvalId : Uuid
  runId : Option Uuid
  status : ApprovalStatus
  reason : Option String

/-- `assistant_session_runtime_assignments`, keyed by the session's scope. -/
structure AssignmentRow where
  scope : Scope
  runtimeOwner : String
  kernelRevision : Option String

/-- `assistant_runtime_execution_owners`. -/
structure OwnerRow where
  runId : Uuid
  runtimeThreadId : Uuid
  ownerId : Uuid
  fence : Nat
  leaseUntil : Nat
  context : Value
  heartbeatAt : Nat
  createdAt : Nat

/-- The database, and the latest time its clock has read. -/
structure RuntimeDb where
  clock : Nat
  runs : Table RunRow.runId
  threads : Table ThreadRow.runtimeThreadId
  snapshots : Table SnapshotRow.snapshotId
  leases : Table LeaseRow.leaseId
  revocations : Table RevocationRow.snapshotId
  approvals : Table ApprovalRow.approvalId
  assignments : Table AssignmentRow.scope
  owners : Table OwnerRow.runId

inductive SqlError where
  | recoveryNotActive
  | recoveryAuthorityExpired
  | threadAlreadyExecuting
  | executionAlreadyOwned
  | recoveryContextMismatch
  | recoveryContextMissing
  | executionFenceLost
  | executionAuthorityRevoked
  | executionContextImmutable
  | cancelScopeMismatch
  | assignmentMismatch
  | threadScopeMismatch
  | uniqueViolation
  | foreignKeyViolation
  | checkViolation
  | numericValueOutOfRange
  deriving DecidableEq, Repr

/-- The text of an exception the functions raise; the server words its own. -/
def SqlError.message : SqlError → Option String
  | .recoveryNotActive => some "RUNTIME_RECOVERY_NOT_ACTIVE"
  | .recoveryAuthorityExpired => some "RUNTIME_RECOVERY_AUTHORITY_EXPIRED"
  | .threadAlreadyExecuting => some "RUNTIME_THREAD_ALREADY_EXECUTING"
  | .executionAlreadyOwned => some "RUNTIME_EXECUTION_ALREADY_OWNED"
  | .recoveryContextMismatch => some "RUNTIME_RECOVERY_CONTEXT_MISMATCH"
  | .recoveryContextMissing => some "RUNTIME_RECOVERY_CONTEXT_MISSING"
  | .executionFenceLost => some "RUNTIME_EXECUTION_FENCE_LOST"
  | .executionAuthorityRevoked => some "RUNTIME_EXECUTION_AUTHORITY_REVOKED"
  | .executionContextImmutable => some "RUNTIME_EXECUTION_CONTEXT_IMMUTABLE"
  | .cancelScopeMismatch => some "RUNTIME_CANCEL_SCOPE_MISMATCH"
  | .assignmentMismatch => some "ASSISTANT_RUNTIME_ASSIGNMENT_MISMATCH"
  | .threadScopeMismatch => some "ASSISTANT_RUNTIME_THREAD_SCOPE_MISMATCH"
  | _ => none

/-! ## Arguments -/

/-- The claim a process holds. -/
structure ExecutionClaim where
  runId : Uuid
  threadId : Uuid
  ownerId : Uuid
  fence : Nat
  context : Value

/-- How recovery ends a turn. -/
inductive RecoveryOutcome where
  | completed
  | cancelled
  | failed
  deriving DecidableEq, Repr

def RecoveryOutcome.status : RecoveryOutcome → RunStatus
  | .completed => .completed
  | .cancelled => .cancelled
  | .failed => .failed

/-- What `issue_assistant_runtime_turn` is called with, as far as ownership
    depends on it. -/
structure TurnIssue where
  snapshotId : Uuid
  leaseId : Uuid
  runId : Uuid
  runtimeThreadId : Uuid
  scope : Scope
  kernelRevision : String
  expiresAt : Nat

def TurnIssue.snapshot (p : TurnIssue) : SnapshotRow :=
  { snapshotId := p.snapshotId
    runtimeThreadId := p.runtimeThreadId
    runId := p.runId
    scope := p.scope
    expiresAt := some p.expiresAt }

def TurnIssue.run (p : TurnIssue) : RunRow :=
  { runId := p.runId
    scope := p.scope
    status := .running
    engine := .agentRuntime
    harnessThreadId := some p.runtimeThreadId
    runtimeSnapshotId := some p.snapshotId
    kernelRevision := some p.kernelRevision }

def TurnIssue.lease (p : TurnIssue) : LeaseRow :=
  { leaseId := p.leaseId
    snapshotId := p.snapshotId
    runId := p.runId
    runtimeThreadId := p.runtimeThreadId
    scope := p.scope
    status := .active
    expiresAt := p.expiresAt }

namespace RuntimeDb

/-! ## What the functions look up -/

def isRevoked (db : RuntimeDb) (snapshotId : Uuid) : Bool :=
  db.revocations.any (fun x => x.snapshotId == snapshotId)

/-- The lease is active and so is what it was issued for: its snapshot has not
    expired and is not revoked. -/
def leaseHolds (db : RuntimeDb) (now : Nat) (l : LeaseRow) : Bool :=
  l.status == .active && decide (now < l.expiresAt)
    && db.snapshots.any (fun s => s.snapshotId == l.snapshotId
        && s.expiresAt.all (fun expiresAt => decide (now < expiresAt))
        && !db.isRevoked s.snapshotId)

/-- The join of lease, snapshot and revocations that the claim and the admission
    ask for. -/
def hasAuthority (db : RuntimeDb) (now : Nat) (pRun : Uuid) : Bool :=
  db.leases.any (fun l => l.runId == pRun && db.leaseHolds now l)

def threadIsOpen (db : RuntimeDb) (harnessThreadId : Option Uuid) : Bool :=
  db.threads.any (fun t => some t.runtimeThreadId == harnessThreadId && t.deletedAt.isNone)

/-- `other` is active. -/
def isActiveRun (db : RuntimeDb) (runId : Uuid) : Bool :=
  db.runs.any (fun other => other.runId == runId && other.status.isActive)

/-- An active run other than `pRun` has an owner row on the thread. -/
def threadIsExecuting (db : RuntimeDb) (harnessThreadId : Option Uuid) (pRun : Uuid) : Bool :=
  db.owners.any (fun o => some o.runtimeThreadId == harnessThreadId && o.runId != pRun
    && db.isActiveRun o.runId)

/-! ## The owner table -/

/-- The trigger before an update of an owner row. -/
def guardExecutionOwnerContext (now : Nat) (old new : OwnerRow) : Except SqlError OwnerRow :=
  if new.runId ≠ old.runId ∨ new.runtimeThreadId ≠ old.runtimeThreadId
      ∨ (new.context.beq old.context) = false then
    .error .executionContextImmutable
  else if new.ownerId = old.ownerId then
    if new.fence ≠ old.fence ∨ old.leaseUntil ≤ now then
      .error .executionFenceLost
    else .ok new
  else if now < old.leaseUntil ∨ new.fence ≠ old.fence + 1 then
    .error .executionAlreadyOwned
  else .ok new

/-- An update of the owner table: the trigger sees every row it hits. -/
def updateOwners (now : Nat) (cond : OwnerRow → Bool) (set : OwnerRow → OwnerRow)
    (hset : ∀ o, (set o).runId = o.runId) (db : RuntimeDb) :
    Except SqlError (List OwnerRow × RuntimeDb) :=
  match (db.owners.rows.filter cond).mapM
      (fun o => guardExecutionOwnerContext now o (set o)) with
  | .error e => .error e
  | .ok rows => .ok (rows, { db with owners := db.owners.update cond set hset })

/-- What a takeover writes. -/
def takeOver (now : Nat) (pOwner : Uuid) (o : OwnerRow) : OwnerRow :=
  { o with
    ownerId := pOwner
    fence := o.fence + 1
    leaseUntil := now + EXECUTION_LEASE
    heartbeatAt := now }

def claimRuntimeExecution (now : Nat) (pRun pOwner : Uuid) (pContext : Option Value)
    (db : RuntimeDb) : Except SqlError (OwnerRow × RuntimeDb) :=
  match db.runs.find? pRun with
  | none => .error .recoveryNotActive
  | some r =>
      if r.engine ≠ .agentRuntime ∨ r.status.isActive = false then
        .error .recoveryNotActive
      else
        match r.harnessThreadId with
        -- no thread equals NULL
        | none => .error .recoveryAuthorityExpired
        | some thread =>
            if db.threadIsOpen (some thread) = false ∨ db.hasAuthority now pRun = false then
              .error .recoveryAuthorityExpired
            else if db.threadIsExecuting (some thread) pRun = true then
              .error .threadAlreadyExecuting
            else
              match db.owners.find? pRun with
              | some claim =>
                  if claim.ownerId = pOwner ∨ now < claim.leaseUntil then
                    .error .executionAlreadyOwned
                  else if pContext.any (fun context => !context.beq claim.context) = true then
                    .error .recoveryContextMismatch
                  else if BIGINT_MAX < claim.fence + 1 then
                    .error .numericValueOutOfRange
                  else
                    match db.updateOwners now (fun o => o.runId == pRun)
                        (takeOver now pOwner) (fun _ => rfl) with
                    | .error e => .error e
                    -- the updated row is the one found, the only one of the run
                    | .ok (_, db') => .ok (takeOver now pOwner claim, db')
              | none =>
                  match pContext with
                  | none => .error .recoveryContextMissing
                  | some context =>
                      let claim : OwnerRow :=
                        { runId := pRun
                          runtimeThreadId := thread
                          ownerId := pOwner
                          fence := 1
                          leaseUntil := now + EXECUTION_LEASE
                          context := context
                          heartbeatAt := now
                          createdAt := now }
                      if context.isObject = false then .error .checkViolation
                      else
                        match db.owners.insert claim with
                        | none => .error .uniqueViolation
                        | some owners => .ok (claim, { db with owners := owners })

def assertRuntimeExecutionFence (now : Nat) (pRun pOwner : Uuid) (pFence : Nat)
    (db : RuntimeDb) : Except SqlError Bool :=
  if db.owners.any (fun o => o.runId == pRun && o.ownerId == pOwner && o.fence == pFence
      && decide (now < o.leaseUntil)) then
    .ok true
  else .error .executionFenceLost

def assertRuntimeExecution (now : Nat) (pRun pOwner : Uuid) (pFence : Nat)
    (db : RuntimeDb) : Except SqlError Bool :=
  if db.isActiveRun pRun && db.hasAuthority now pRun then
    assertRuntimeExecutionFence now pRun pOwner pFence db
  else .error .executionAuthorityRevoked

/-- What the heartbeat asks of the run: it is active, has an active lease that
    has not expired, and its snapshot is not revoked. -/
def heartbeatAllowed (db : RuntimeDb) (started : Nat) (runId : Uuid) : Bool :=
  db.runs.any (fun r => r.runId == runId && r.status.isActive
    && db.leases.any (fun l => l.runId == r.runId && l.status == .active
        && decide (started < l.expiresAt))
    && r.runtimeSnapshotId.all (fun snapshotId => !db.isRevoked snapshotId))

/-- Renew the lease; the reply says whether a row was hit. -/
def heartbeatExecution (now started : Nat) (claim : ExecutionClaim) (db : RuntimeDb) :
    Except SqlError (Bool × RuntimeDb) :=
  match db.updateOwners now
      (fun o => o.runId == claim.runId && o.ownerId == claim.ownerId && o.fence == claim.fence
        && decide (started < o.leaseUntil) && db.heartbeatAllowed started o.runId)
      (fun o => { o with leaseUntil := started + EXECUTION_LEASE, heartbeatAt := started })
      (fun _ => rfl) with
  | .error e => .error e
  | .ok (rows, db') => .ok (rows.length == 1, db')

/-! ## Runs and leases -/

/-- `UPDATE assistant_runs SET status = ..`, and how many rows it hit. -/
def closeRuns (cond : RunRow → Bool) (status : RunStatus) (db : RuntimeDb) :
    Nat × RuntimeDb :=
  (db.runs.count cond,
    { db with
      runs := db.runs.update cond (fun r => r.setStatus status) (fun _ => rfl) })

/-- `UPDATE assistant_runtime_model_leases SET status = 'revoked'` on active
    leases, and how many rows it hit. -/
def revokeLeases (cond : LeaseRow → Bool) (db : RuntimeDb) : Nat × RuntimeDb :=
  let hit := fun l : LeaseRow => cond l && l.status == .active
  (db.leases.count hit,
    { db with
      leases := db.leases.update hit LeaseRow.revoke (fun _ => rfl) })

/-- `UPDATE assistant_tool_approvals SET status = 'cancelled'` on the open
    approvals of a run. -/
def cancelApprovals (pRun : Uuid) (reason : String) (db : RuntimeDb) : RuntimeDb :=
  { db with
    approvals := db.approvals.update
      (fun a => a.runId == some pRun && (a.status == .pending || a.status == .approved))
      (fun a => { a with status := .cancelled, reason := some reason }) (fun _ => rfl) }

def cancelRuntimeExecution (pRun pThread : Uuid) (scope : Scope) (db : RuntimeDb) :
    Except SqlError (Bool × RuntimeDb) :=
  if db.runs.any (fun r => r.runId == pRun && r.harnessThreadId == some pThread
      && r.scope == scope) then
    let closed := db.closeRuns (fun r => r.runId == pRun && r.status.isActive) .cancelled
    if closed.1 = 0 then .ok (false, db)
    else
      let revoked := closed.2.revokeLeases (fun l => l.runId == pRun)
      .ok (true, revoked.2.cancelApprovals pRun "runtime_cancelled")
  else .error .cancelScopeMismatch

/-- The status `complete_run` writes for a terminal status. -/
def ledgerStatus (terminalStatus : String) : RunStatus :=
  if terminalStatus = "succeeded" then .succeeded
  else if terminalStatus = "cancelled" then .cancelled
  else .failed

/-- The first statement of `complete_run`. -/
def completeRunLeases (runId : Uuid) : RuntimeDb → Nat × RuntimeDb :=
  revokeLeases (fun l => l.runId == runId)

/-- The second statement of `complete_run`. -/
def completeRun (runId : Uuid) (terminalStatus : String) : RuntimeDb → Nat × RuntimeDb :=
  closeRuns (fun r => r.runId == runId && r.engine == .agentRuntime && r.status == .running)
    (ledgerStatus terminalStatus)

/-- The first statement of `fail_run`. -/
def failRunLeases (runId snapshotId : Uuid) : RuntimeDb → Nat × RuntimeDb :=
  revokeLeases (fun l => l.runId == runId && l.snapshotId == snapshotId)

/-- The second statement of `fail_run`. -/
def failRun (runId : Uuid) : RuntimeDb → Nat × RuntimeDb :=
  closeRuns (fun r => r.runId == runId && r.engine == .agentRuntime && r.status == .running)
    .failed

/-- The statement of `stop_run`. -/
def stopRun (runId : Uuid) (scope : Scope) : RuntimeDb → Nat × RuntimeDb :=
  revokeLeases (fun l => l.runId == runId && l.scope == scope)

/-- The statement of `terminal_projection`. -/
def terminalProjection (started : Nat) (claim : ExecutionClaim) (outcome : RecoveryOutcome)
    (db : RuntimeDb) : Nat × RuntimeDb :=
  db.closeRuns
    (fun r => r.runId == claim.runId && r.status.isActive
      && db.owners.any (fun o => o.runId == r.runId && o.ownerId == claim.ownerId
          && o.fence == claim.fence && decide (started < o.leaseUntil)))
    outcome.status

/-- The first statement of `close_expired_authority`. -/
def closeExpiredAuthority (started : Nat) (db : RuntimeDb) : Nat × RuntimeDb :=
  db.closeRuns
    (fun r => db.owners.any (fun o => o.runId == r.runId && decide (o.leaseUntil ≤ started))
      && r.status.isActive
      && (!db.leases.any (fun l => l.runId == r.runId && l.status == .active
            && decide (started < l.expiresAt))
          || r.runtimeSnapshotId.any (fun snapshotId => db.isRevoked snapshotId)))
    .failed

/-- Both closing statements of `approval_control.rs`. -/
def closeOrphanedRun (runId : Uuid) : RuntimeDb → Nat × RuntimeDb :=
  closeRuns (fun r => r.runId == runId && r.engine == .agentRuntime && r.status.isActive)
    .cancelled

/-! ## New rows -/

/-- `INSERT INTO assistant_runtime_snapshot_revocations`. -/
def revokeSnapshot (row : RevocationRow) (db : RuntimeDb) : Except SqlError RuntimeDb :=
  if db.snapshots.any (fun s => s.snapshotId == row.snapshotId && s.scope == row.scope) then
    match db.revocations.insert row with
    | none => .error .uniqueViolation
    | some revocations => .ok { db with revocations := revocations }
  else .error .foreignKeyViolation

/-- `authorize_root`: the insert of a thread, `ON CONFLICT DO NOTHING`. -/
def authorizeRoot (runtimeThreadId : Uuid) (scope : Scope) (db : RuntimeDb) : RuntimeDb :=
  match db.threads.insert
      { runtimeThreadId := runtimeThreadId, scope := scope, deletedAt := none } with
  | none => db
  | some threads => { db with threads := threads }

/-- The root's statement of `delete_thread`. -/
def deleteThread (started : Nat) (runtimeThreadId : Uuid) (db : RuntimeDb) : RuntimeDb :=
  { db with
    threads := db.threads.update (fun t => t.runtimeThreadId == runtimeThreadId)
      (fun t => { t with deletedAt := some (t.deletedAt.getD started) }) (fun _ => rfl) }

/-- The three inserts, each under its table's unique constraints. -/
def issueAssistantRuntimeTurn (p : TurnIssue) (db : RuntimeDb) : Except SqlError RuntimeDb :=
  if db.assignments.any (fun a => a.scope == p.scope && a.runtimeOwner == "agent_runtime"
      && a.kernelRevision == some p.kernelRevision) = false then
    .error .assignmentMismatch
  else if db.threads.any (fun t => t.runtimeThreadId == p.runtimeThreadId
      && t.scope == p.scope && t.deletedAt.isNone) = false then
    .error .threadScopeMismatch
  -- `assistant_runtime_snapshots_run_key`, `assistant_runtime_model_leases_snapshot_key`
  else if db.snapshots.any (fun s => s.runId == p.runId) = true
      ∨ db.leases.any (fun l => l.snapshotId == p.snapshotId) = true then
    .error .uniqueViolation
  else
    match db.snapshots.insert p.snapshot, db.runs.insert p.run, db.leases.insert p.lease with
    | some snapshots, some runs, some leases =>
        .ok { db with snapshots := snapshots, runs := runs, leases := leases }
    | _, _, _ => .error .uniqueViolation

end RuntimeDb

end AiPlatform.Runtime
