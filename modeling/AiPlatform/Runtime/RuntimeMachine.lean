/-
  AiPlatform.Runtime.RuntimeMachine

  The recovery tables as a machine: one move is one statement, at a clock that
  does not go back.

  Any number of runtime processes take part, each under an owner id of its own;
  a process that crashes makes no further call.  The gateway issues turns,
  completes runs and revokes leases in between, and threads come and go.
-/

import AiPlatform.Lib.Machine
import AiPlatform.Runtime.RecoverySpec

namespace AiPlatform.Runtime

open AiPlatform.Json Relational Transition

/-! ## Calls -/

/-- `waited` is how long before the statement its transaction began. -/
inductive RuntimeCall where
  | claim (pRun pOwner : Uuid) (pContext : Option Value)
  | assertFence (pRun pOwner : Uuid) (pFence : Nat)
  | assertExecution (pRun pOwner : Uuid) (pFence : Nat)
  | heartbeat (waited : Nat) (held : ExecutionClaim)
  | cancel (pRun pThread : Uuid) (scope : Scope)
  | completeRunLeases (runId : Uuid)
  | completeRun (runId : Uuid) (terminalStatus : String)
  | failRunLeases (runId snapshotId : Uuid)
  | failRun (runId : Uuid)
  | stopRun (runId : Uuid) (scope : Scope)
  | terminalProjection (waited : Nat) (held : ExecutionClaim) (outcome : RecoveryOutcome)
  | closeExpiredAuthority (waited : Nat)
  | closeOrphanedRun (runId : Uuid)
  | revokeSnapshot (row : RevocationRow)
  | authorizeRoot (runtimeThreadId : Uuid) (scope : Scope)
  | deleteThread (waited : Nat) (runtimeThreadId : Uuid)
  | issueTurn (p : TurnIssue)
  | wait

inductive SqlResult where
  | owner (row : OwnerRow)
  | flag (value : Bool)
  | rows (count : Nat)
  | void

def SqlResult.isFlag : SqlResult → Bool
  | .flag _ => true
  | _ => false

/-- Make a call on the database. -/
def RuntimeCall.apply (now : Nat) (db : RuntimeDb) :
    RuntimeCall → Except SqlError (SqlResult × RuntimeDb)
  | .claim pRun pOwner pContext =>
      match RuntimeDb.claimRuntimeExecution now pRun pOwner pContext db with
      | .error e => .error e
      | .ok (row, db') => .ok (.owner row, db')
  | .assertFence pRun pOwner pFence =>
      match RuntimeDb.assertRuntimeExecutionFence now pRun pOwner pFence db with
      | .error e => .error e
      | .ok passed => .ok (.flag passed, db)
  | .assertExecution pRun pOwner pFence =>
      match RuntimeDb.assertRuntimeExecution now pRun pOwner pFence db with
      | .error e => .error e
      | .ok passed => .ok (.flag passed, db)
  | .heartbeat waited held =>
      match RuntimeDb.heartbeatExecution now (now - waited) held db with
      | .error e => .error e
      | .ok (hit, db') => .ok (.flag hit, db')
  | .cancel pRun pThread scope =>
      match RuntimeDb.cancelRuntimeExecution pRun pThread scope db with
      | .error e => .error e
      | .ok (changed, db') => .ok (.flag changed, db')
  | .completeRunLeases runId =>
      let out := RuntimeDb.completeRunLeases runId db
      .ok (.rows out.1, out.2)
  | .completeRun runId terminalStatus =>
      let out := RuntimeDb.completeRun runId terminalStatus db
      .ok (.rows out.1, out.2)
  | .failRunLeases runId snapshotId =>
      let out := RuntimeDb.failRunLeases runId snapshotId db
      .ok (.rows out.1, out.2)
  | .failRun runId =>
      let out := RuntimeDb.failRun runId db
      .ok (.rows out.1, out.2)
  | .stopRun runId scope =>
      let out := RuntimeDb.stopRun runId scope db
      .ok (.rows out.1, out.2)
  | .terminalProjection waited held outcome =>
      let out := RuntimeDb.terminalProjection (now - waited) held outcome db
      .ok (.rows out.1, out.2)
  | .closeExpiredAuthority waited =>
      let out := RuntimeDb.closeExpiredAuthority (now - waited) db
      .ok (.rows out.1, out.2)
  | .closeOrphanedRun runId =>
      let out := RuntimeDb.closeOrphanedRun runId db
      .ok (.rows out.1, out.2)
  | .revokeSnapshot row =>
      match RuntimeDb.revokeSnapshot row db with
      | .error e => .error e
      | .ok db' => .ok (.void, db')
  | .authorizeRoot runtimeThreadId scope =>
      .ok (.void, RuntimeDb.authorizeRoot runtimeThreadId scope db)
  | .deleteThread waited runtimeThreadId =>
      .ok (.void, RuntimeDb.deleteThread (now - waited) runtimeThreadId db)
  | .issueTurn p =>
      match RuntimeDb.issueAssistantRuntimeTurn p db with
      | .error e => .error e
      | .ok db' => .ok (.void, db')
  | .wait => .ok (.void, db)

/-- A call and what the clock reads in it. -/
structure RuntimeCallAt where
  now : Nat
  call : RuntimeCall

/-- The clock does not go back, and a failed call leaves the rest as it was. -/
def runtimeMachine : Machine RuntimeDb RuntimeCallAt (Except SqlError SqlResult) where
  step db input :=
    if db.clock ≤ input.now then
      match input.call.apply input.now db with
      | .error e => some (.error e, { db with clock := input.now })
      | .ok (result, db') => some (.ok result, { db' with clock := input.now })
    else none

abbrev RuntimeMove := Move RuntimeDb RuntimeCallAt (Except SqlError SqlResult)

/-! ## What a move does -/

open RuntimeDb in
theorem RuntimeCall.apply_step {now : Nat} {db db' : RuntimeDb} {call : RuntimeCall}
    {result : SqlResult} (h : call.apply now db = .ok (result, db')) : DbStep now db db' := by
  cases call with
  | claim pRun pOwner pContext =>
      simp only [RuntimeCall.apply] at h
      split at h
      · exact absurd h (by simp)
      · rename_i hclaim
        obtain ⟨-, rfl⟩ := Prod.mk.inj (Except.ok.inj h)
        exact claimRuntimeExecution_step hclaim
  | heartbeat waited held =>
      simp only [RuntimeCall.apply] at h
      split at h
      · exact absurd h (by simp)
      · rename_i hbeat
        obtain ⟨-, rfl⟩ := Prod.mk.inj (Except.ok.inj h)
        exact heartbeatExecution_step hbeat
  | cancel pRun pThread scope =>
      simp only [RuntimeCall.apply] at h
      split at h
      · exact absurd h (by simp)
      · rename_i hcancel
        obtain ⟨-, rfl⟩ := Prod.mk.inj (Except.ok.inj h)
        exact cancelRuntimeExecution_step hcancel
  | assertFence pRun pOwner pFence | assertExecution pRun pOwner pFence =>
      simp only [RuntimeCall.apply] at h
      split at h
      · exact absurd h (by simp)
      · obtain ⟨-, rfl⟩ := Prod.mk.inj (Except.ok.inj h)
        exact .refl now db
  | completeRunLeases runId | failRunLeases runId snapshotId | stopRun runId scope =>
      obtain ⟨-, rfl⟩ := Prod.mk.inj (Except.ok.inj h)
      exact revokeLeases_step now _ db
  | completeRun runId terminalStatus =>
      obtain ⟨-, rfl⟩ := Prod.mk.inj (Except.ok.inj h)
      exact closeRuns_step now db (ledgerStatus_isActive terminalStatus)
  | failRun runId | closeExpiredAuthority waited | closeOrphanedRun runId =>
      obtain ⟨-, rfl⟩ := Prod.mk.inj (Except.ok.inj h)
      exact closeRuns_step now db rfl
  | terminalProjection waited held outcome =>
      obtain ⟨-, rfl⟩ := Prod.mk.inj (Except.ok.inj h)
      exact closeRuns_step now db outcome.status_isActive
  | revokeSnapshot row =>
      simp only [RuntimeCall.apply] at h
      split at h
      · exact absurd h (by simp)
      · rename_i hrevoke
        obtain ⟨-, rfl⟩ := Prod.mk.inj (Except.ok.inj h)
        exact revokeSnapshot_step hrevoke
  | authorizeRoot runtimeThreadId scope =>
      obtain ⟨-, rfl⟩ := Prod.mk.inj (Except.ok.inj h)
      exact authorizeRoot_step now runtimeThreadId scope db
  | deleteThread waited runtimeThreadId =>
      obtain ⟨-, rfl⟩ := Prod.mk.inj (Except.ok.inj h)
      exact .of_untouched rfl rfl rfl rfl rfl
  | issueTurn p =>
      simp only [RuntimeCall.apply] at h
      split at h
      · exact absurd h (by simp)
      · rename_i hissue
        obtain ⟨-, rfl⟩ := Prod.mk.inj (Except.ok.inj h)
        exact issueAssistantRuntimeTurn_step hissue
  | wait =>
      obtain ⟨-, rfl⟩ := Prod.mk.inj (Except.ok.inj h)
      exact .refl now db

/-- The tables do not depend on the clock. -/
theorem RuntimeDb.DbStep.tick {now : Nat} {db db' : RuntimeDb} (h : DbStep now db db')
    (clock : Nat) : DbStep now db { db' with clock := clock } where
  runs := h.runs
  leases := h.leases
  snapshots := h.snapshots
  revocations := h.revocations
  owners := h.owners
  opened := h.opened
  constraints := fun hc => (h.constraints hc).of_leases rfl fun l hl => ⟨l, hl, rfl, .refl l⟩

/-- A move is a step of the tables at a time not before the clock. -/
theorem runtimeStep {x : RuntimeMove} (hx : runtimeMachine.Makes x) :
    x.pre.clock ≤ x.input.now ∧ x.post.clock = x.input.now ∧
      RuntimeDb.DbStep x.input.now x.pre x.post := by
  obtain ⟨pre, ⟨now, call⟩, reply, post⟩ := x
  simp only [Machine.Makes, runtimeMachine] at hx
  split at hx
  · rename_i hclock
    split at hx
    · obtain ⟨-, rfl⟩ := Prod.mk.inj (Option.some.inj hx)
      exact ⟨hclock, rfl, (RuntimeDb.DbStep.refl now pre).tick now⟩
    · rename_i happly
      obtain ⟨-, rfl⟩ := Prod.mk.inj (Option.some.inj hx)
      exact ⟨hclock, rfl, (RuntimeCall.apply_step happly).tick now⟩
  · exact absurd hx (by simp)

/-- The call behind a reply that is no error. -/
theorem apply_of_makes {x : RuntimeMove} (hx : runtimeMachine.Makes x) {result : SqlResult}
    (hreply : x.reply = .ok result) :
    ∃ db', x.input.call.apply x.input.now x.pre = .ok (result, db') ∧
      x.post = { db' with clock := x.input.now } := by
  obtain ⟨pre, ⟨now, call⟩, reply, post⟩ := x
  obtain rfl : reply = .ok result := hreply
  simp only [Machine.Makes, runtimeMachine] at hx
  split at hx
  · split at hx
    · exact absurd (Prod.mk.inj (Option.some.inj hx)).1 (by simp)
    · rename_i result' db' happly
      obtain ⟨hres, rfl⟩ := Prod.mk.inj (Option.some.inj hx)
      obtain rfl := Except.ok.inj hres
      exact ⟨db', happly, rfl⟩
  · exact absurd hx (by simp)

end AiPlatform.Runtime
