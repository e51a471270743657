/-
  AiPlatform.Runtime.RecoverySpec

  What a statement of `DurableRecovery` can do to the database.

  `DbStep` says it once for all of them, table by table: runs and leases are
  only ever ended, snapshots and revocations stay, an owner row is renewed by
  its owner while its lease runs or taken over when it is over, and a new owner
  row is claimed on a thread on which no other active run has one.
-/

import AiPlatform.Runtime.DurableRecovery

namespace AiPlatform.Runtime

open AiPlatform.Json Relational

/-! ## Rows over time -/

/-- A run keeps its thread, and one that has ended stays so. -/
structure RunRow.Precedes (r r' : RunRow) : Prop where
  thread : r'.harnessThreadId = r.harnessThreadId
  active : r'.status.isActive = true → r.status.isActive = true

/-- A lease keeps what it was issued for, and one that has ended stays so. -/
structure LeaseRow.Precedes (l l' : LeaseRow) : Prop where
  snapshotId : l'.snapshotId = l.snapshotId
  runId : l'.runId = l.runId
  active : l'.status = .active → l.status = .active

/-- An owner row keeps its thread and its context, and its owner as long as it
    keeps its fence. -/
structure OwnerRow.Precedes (o o' : OwnerRow) : Prop where
  thread : o'.runtimeThreadId = o.runtimeThreadId
  context : o'.context = o.context
  fence : o.fence < o'.fence ∨ (o'.fence = o.fence ∧ o'.ownerId = o.ownerId)

/-- What one statement makes of an owner row. -/
inductive OwnerMove (now : Nat) : OwnerRow → OwnerRow → Prop
  | same (o : OwnerRow) : OwnerMove now o o
  | renewed (o : OwnerRow) (leaseUntil heartbeatAt : Nat) (hlive : now < o.leaseUntil) :
      OwnerMove now o { o with leaseUntil := leaseUntil, heartbeatAt := heartbeatAt }
  | takenOver (o : OwnerRow) (pOwner : Uuid) (hne : pOwner ≠ o.ownerId)
      (hover : o.leaseUntil ≤ now) : OwnerMove now o (RuntimeDb.takeOver now pOwner o)

theorem RunRow.Precedes.refl (r : RunRow) : r.Precedes r := ⟨rfl, id⟩

theorem RunRow.Precedes.trans {a b c : RunRow} (h : a.Precedes b) (h' : b.Precedes c) :
    a.Precedes c :=
  ⟨h'.thread.trans h.thread, fun hc => h.active (h'.active hc)⟩

theorem LeaseRow.Precedes.refl (l : LeaseRow) : l.Precedes l := ⟨rfl, rfl, id⟩

theorem LeaseRow.Precedes.trans {a b c : LeaseRow} (h : a.Precedes b) (h' : b.Precedes c) :
    a.Precedes c :=
  ⟨h'.snapshotId.trans h.snapshotId, h'.runId.trans h.runId,
    fun hc => h.active (h'.active hc)⟩

theorem OwnerRow.Precedes.refl (o : OwnerRow) : o.Precedes o := ⟨rfl, rfl, .inr ⟨rfl, rfl⟩⟩

theorem OwnerRow.Precedes.trans {a b c : OwnerRow} (h : a.Precedes b) (h' : b.Precedes c) :
    a.Precedes c where
  thread := h'.thread.trans h.thread
  context := h'.context.trans h.context
  fence := by
    have hab := h.fence
    have hbc := h'.fence
    rcases hab with hlt | ⟨heq, hown⟩
    · left
      omega
    · rcases hbc with hlt' | ⟨heq', hown'⟩
      · left
        omega
      · exact .inr ⟨heq'.trans heq, hown'.trans hown⟩

theorem OwnerMove.precedes {now : Nat} {o o' : OwnerRow} (h : OwnerMove now o o') :
    o.Precedes o' := by
  cases h with
  | same => exact .refl o
  | renewed leaseUntil heartbeatAt hlive => exact ⟨rfl, rfl, .inr ⟨rfl, rfl⟩⟩
  | takenOver pOwner hne hover => exact ⟨rfl, rfl, .inl (Nat.lt_succ_self _)⟩

theorem RecoveryOutcome.status_isActive (outcome : RecoveryOutcome) :
    outcome.status.isActive = false := by
  cases outcome <;> rfl

/-! ## The constraints of the schema -/

namespace RuntimeDb

/-- `assistant_runtime_snapshots_run_key`, and the two constraints that tie a
    lease to its snapshot. -/
structure Constraints (db : RuntimeDb) : Prop where
  snapshotsRunKey : ∀ s ∈ db.snapshots, ∀ s' ∈ db.snapshots, s.runId = s'.runId →
    s.snapshotId = s'.snapshotId
  leasesSnapshotKey : ∀ l ∈ db.leases, ∀ l' ∈ db.leases, l.snapshotId = l'.snapshotId →
    l.leaseId = l'.leaseId
  leasesSnapshotFk : ∀ l ∈ db.leases, ∃ s ∈ db.snapshots,
    s.snapshotId = l.snapshotId ∧ s.runId = l.runId

/-- A run has one lease at most. -/
theorem Constraints.lease_unique {db : RuntimeDb} (h : db.Constraints) {l l' : LeaseRow}
    (hl : l ∈ db.leases) (hl' : l' ∈ db.leases) (hrun : l.runId = l'.runId) : l = l' := by
  obtain ⟨s, hs, hid, hsrun⟩ := h.leasesSnapshotFk l hl
  obtain ⟨s', hs', hid', hsrun'⟩ := h.leasesSnapshotFk l' hl'
  have hsnap : s.snapshotId = s'.snapshotId :=
    h.snapshotsRunKey s hs s' hs' (by rw [hsrun, hsrun', hrun])
  have hkey : l.leaseId = l'.leaseId :=
    h.leasesSnapshotKey l hl l' hl' (by rw [← hid, ← hid', hsnap])
  exact Table.eq_of_key hl hl' hkey

/-- The constraints hold of leases that keep what they were issued for. -/
theorem Constraints.of_leases {db db' : RuntimeDb} (h : db.Constraints)
    (hsnapshots : db'.snapshots = db.snapshots)
    (hfrom : ∀ l' ∈ db'.leases, ∃ l ∈ db.leases, l'.leaseId = l.leaseId ∧ l.Precedes l') :
    db'.Constraints where
  snapshotsRunKey := by
    rw [hsnapshots]
    exact h.snapshotsRunKey
  leasesSnapshotKey := by
    intro l₁ hl₁ l₂ hl₂ hsnap
    obtain ⟨k₁, hk₁, hid₁, hp₁⟩ := hfrom l₁ hl₁
    obtain ⟨k₂, hk₂, hid₂, hp₂⟩ := hfrom l₂ hl₂
    rw [hid₁, hid₂]
    exact h.leasesSnapshotKey k₁ hk₁ k₂ hk₂ (by rw [← hp₁.snapshotId, hsnap, hp₂.snapshotId])
  leasesSnapshotFk := by
    intro l' hl'
    obtain ⟨l, hl, -, hp⟩ := hfrom l' hl'
    obtain ⟨s, hs, hid, hrun⟩ := h.leasesSnapshotFk l hl
    rw [hsnapshots]
    exact ⟨s, hs, hid.trans hp.snapshotId.symm, hrun.trans hp.runId.symm⟩

/-! ## One step -/

/-- No owner row is the run's. -/
def Unowned (db : RuntimeDb) (runId : Uuid) : Prop := ∀ o ∈ db.owners, o.runId ≠ runId

/-- What a claim has found when it opens an owner row. -/
def Claimable (db : RuntimeDb) (o : OwnerRow) : Prop :=
  (∃ r ∈ db.runs, r.runId = o.runId ∧ r.harnessThreadId = some o.runtimeThreadId) ∧
    db.threadIsExecuting (some o.runtimeThreadId) o.runId = false

/-- What one statement can do. -/
structure DbStep (now : Nat) (db db' : RuntimeDb) : Prop where
  runs : Table.Evolves RunRow.Precedes db.runs db'.runs
  leases : Table.Evolves LeaseRow.Precedes db.leases db'.leases
  snapshots : Table.Evolves Eq db.snapshots db'.snapshots
  revocations : Table.Evolves Eq db.revocations db'.revocations
  owners : Table.Evolves (OwnerMove now) db.owners db'.owners
  opened : ∀ o' ∈ db'.owners, db.Unowned o'.runId → db.Claimable o' ∧
    ∀ o'' ∈ db'.owners, db.Unowned o''.runId → o''.runId = o'.runId
  constraints : db.Constraints → db'.Constraints

/-- A statement that leaves owners, snapshots and revocations alone, and issues
    no lease. -/
theorem DbStep.of_runs_leases {now : Nat} {db db' : RuntimeDb}
    (hruns : Table.Evolves RunRow.Precedes db.runs db'.runs)
    (hleases : Table.Evolves LeaseRow.Precedes db.leases db'.leases)
    (hfrom : ∀ l' ∈ db'.leases, ∃ l ∈ db.leases, l'.leaseId = l.leaseId ∧ l.Precedes l')
    (hsnapshots : db'.snapshots = db.snapshots) (hrevocations : db'.revocations = db.revocations)
    (howners : db'.owners = db.owners) : DbStep now db db' where
  runs := hruns
  leases := hleases
  snapshots := hsnapshots ▸ .refl fun _ => rfl
  revocations := hrevocations ▸ .refl fun _ => rfl
  owners := howners ▸ .refl .same
  opened := by
    intro o ho hnew
    rw [howners] at ho
    exact absurd rfl (hnew o ho)
  constraints := fun h => h.of_leases hsnapshots hfrom

/-- A statement that leaves runs and leases alone as well. -/
theorem DbStep.of_untouched {now : Nat} {db db' : RuntimeDb} (hruns : db'.runs = db.runs)
    (hleases : db'.leases = db.leases) (hsnapshots : db'.snapshots = db.snapshots)
    (hrevocations : db'.revocations = db.revocations) (howners : db'.owners = db.owners) :
    DbStep now db db' := by
  refine .of_runs_leases (hruns ▸ .refl .refl) (hleases ▸ .refl .refl) ?_ hsnapshots
    hrevocations howners
  intro l hl
  rw [hleases] at hl
  exact ⟨l, hl, rfl, .refl l⟩

/-- A statement that changes only the owner table. -/
theorem DbStep.of_owners {now : Nat} {db : RuntimeDb} {owners : Table OwnerRow.runId}
    (howners : Table.Evolves (OwnerMove now) db.owners owners)
    (hopened : ∀ o' ∈ owners, db.Unowned o'.runId → db.Claimable o' ∧
      ∀ o'' ∈ owners, db.Unowned o''.runId → o''.runId = o'.runId) :
    DbStep now db { db with owners := owners } where
  runs := .refl .refl
  leases := .refl .refl
  snapshots := .refl fun _ => rfl
  revocations := .refl fun _ => rfl
  owners := howners
  opened := hopened
  constraints := fun h => h.of_leases rfl fun l hl => ⟨l, hl, rfl, .refl l⟩

theorem DbStep.refl (now : Nat) (db : RuntimeDb) : DbStep now db db :=
  .of_untouched rfl rfl rfl rfl rfl

/-! ## Runs and leases -/

theorem closeRuns_runs {cond : RunRow → Bool} {status : RunStatus} (db : RuntimeDb)
    (hstatus : status.isActive = false) :
    Table.Evolves RunRow.Precedes db.runs (closeRuns cond status db).2.runs := by
  show Table.Evolves RunRow.Precedes db.runs
    (db.runs.update cond (fun r => r.setStatus status) fun _ => rfl)
  refine .update _ RunRow.Precedes.refl ?_
  intro r _ _
  refine ⟨rfl, fun hactive => ?_⟩
  have hstill : status.isActive = true := hactive
  rw [hstatus] at hstill
  exact absurd hstill Bool.false_ne_true

theorem closeRuns_step {cond : RunRow → Bool} {status : RunStatus} (now : Nat)
    (db : RuntimeDb) (hstatus : status.isActive = false) :
    DbStep now db (closeRuns cond status db).2 :=
  .of_runs_leases (closeRuns_runs db hstatus) (.refl .refl)
    (fun l hl => ⟨l, hl, rfl, .refl l⟩) rfl rfl rfl

theorem revoke_precedes (l : LeaseRow) : l.Precedes l.revoke :=
  ⟨rfl, rfl, fun h => nomatch h⟩

theorem revokeLeases_leases (cond : LeaseRow → Bool) (db : RuntimeDb) :
    Table.Evolves LeaseRow.Precedes db.leases (revokeLeases cond db).2.leases := by
  show Table.Evolves LeaseRow.Precedes db.leases
    (db.leases.update (fun l => cond l && l.status == .active) LeaseRow.revoke fun _ => rfl)
  exact .update _ LeaseRow.Precedes.refl (fun l _ _ => revoke_precedes l)

theorem from_revokeLeases {cond : LeaseRow → Bool} {db : RuntimeDb} {l' : LeaseRow}
    (hl' : l' ∈ (revokeLeases cond db).2.leases) :
    ∃ l ∈ db.leases, l'.leaseId = l.leaseId ∧ l.Precedes l' := by
  have hmem : l' ∈ db.leases.update (fun l => cond l && l.status == .active) LeaseRow.revoke
      (fun _ => rfl) := hl'
  exact Table.from_update _ LeaseRow.Precedes.refl (fun l _ _ => revoke_precedes l) hmem

theorem revokeLeases_step (now : Nat) (cond : LeaseRow → Bool) (db : RuntimeDb) :
    DbStep now db (revokeLeases cond db).2 :=
  .of_runs_leases (.refl .refl) (revokeLeases_leases cond db)
    (fun _ hl' => from_revokeLeases hl') rfl rfl rfl

theorem cancelRuntimeExecution_step {now : Nat} {pRun pThread : Uuid} {scope : Scope}
    {db db' : RuntimeDb} {changed : Bool}
    (h : cancelRuntimeExecution pRun pThread scope db = .ok (changed, db')) :
    DbStep now db db' := by
  unfold cancelRuntimeExecution at h
  split at h
  · dsimp only at h
    split at h
    · obtain ⟨-, rfl⟩ := Prod.mk.inj (Except.ok.inj h)
      exact .refl now db
    · obtain ⟨-, rfl⟩ := Prod.mk.inj (Except.ok.inj h)
      exact .of_runs_leases (closeRuns_runs db rfl) (revokeLeases_leases _ _)
        (fun _ hl' => from_revokeLeases hl') rfl rfl rfl
  · exact absurd h (by simp)

theorem ledgerStatus_isActive (terminalStatus : String) :
    (ledgerStatus terminalStatus).isActive = false := by
  unfold ledgerStatus
  split
  · rfl
  · split <;> rfl

/-! ## The owner table -/

theorem guardExecutionOwnerContext_ok {now : Nat} {old new row : OwnerRow}
    (h : guardExecutionOwnerContext now old new = .ok row) :
    (new.ownerId = old.ownerId → new.fence = old.fence ∧ now < old.leaseUntil) ∧
      (new.ownerId ≠ old.ownerId → old.leaseUntil ≤ now) := by
  unfold guardExecutionOwnerContext at h
  split at h
  · exact absurd h (by simp)
  · split at h
    · rename_i hsame
      split at h
      · exact absurd h (by simp)
      · rename_i hlive
        exact ⟨fun _ => ⟨by omega, by omega⟩, fun hne => absurd hsame hne⟩
    · rename_i hne
      split at h
      · exact absurd h (by simp)
      · rename_i hover
        exact ⟨fun hsame => absurd hsame hne, fun _ => by omega⟩

theorem ok_of_mapM {α β ε : Type} {f : α → Except ε β} {xs : List α} {ys : List β}
    (h : xs.mapM f = .ok ys) : ∀ x ∈ xs, ∃ y, f x = .ok y := by
  induction xs generalizing ys with
  | nil => exact fun _ hx => absurd hx (List.not_mem_nil)
  | cons x xs ih =>
      rw [List.mapM_cons] at h
      cases hx : f x with
      | error e => simp [hx, bind, Except.bind] at h
      | ok y =>
          cases hxs : xs.mapM f with
          | error e => simp [hx, hxs, bind, Except.bind] at h
          | ok rest =>
              intro z hz
              rcases List.mem_cons.mp hz with rfl | hz
              · exact ⟨y, hx⟩
              · exact ih hxs z hz

/-- An update that goes through has passed the trigger on every row it hits. -/
theorem updateOwners_ok {now : Nat} {cond : OwnerRow → Bool} {set : OwnerRow → OwnerRow}
    {hset : ∀ o, (set o).runId = o.runId} {db db' : RuntimeDb} {rows : List OwnerRow}
    (h : updateOwners now cond set hset db = .ok (rows, db')) :
    db' = { db with owners := db.owners.update cond set hset } ∧
      ∀ o ∈ db.owners, cond o = true → ∃ row, guardExecutionOwnerContext now o (set o) = .ok row := by
  unfold updateOwners at h
  split at h
  · exact absurd h (by simp)
  · rename_i hmap
    obtain ⟨-, rfl⟩ := Prod.mk.inj (Except.ok.inj h)
    refine ⟨rfl, ?_⟩
    intro o ho hcond
    exact ok_of_mapM hmap o (List.mem_filter.mpr ⟨ho, hcond⟩)

/-- An update that is a move on every row it hits is a step. -/
theorem updateOwners_step {now : Nat} {cond : OwnerRow → Bool} {set : OwnerRow → OwnerRow}
    {hset : ∀ o, (set o).runId = o.runId} {db db' : RuntimeDb} {rows : List OwnerRow}
    (h : updateOwners now cond set hset db = .ok (rows, db'))
    (hmove : ∀ o row, guardExecutionOwnerContext now o (set o) = .ok row →
      OwnerMove now o (set o)) : DbStep now db db' := by
  obtain ⟨rfl, hguard⟩ := updateOwners_ok h
  have hrow : ∀ o ∈ db.owners, cond o = true → OwnerMove now o (set o) := by
    intro o ho hcond
    obtain ⟨row, hok⟩ := hguard o ho hcond
    exact hmove o row hok
  refine .of_owners (.update hset .same hrow) ?_
  intro o' ho' hnew
  obtain ⟨o, ho, hkey, -⟩ := Table.from_update hset OwnerMove.same hrow ho'
  exact absurd hkey.symm (hnew o ho)

theorem heartbeatExecution_step {now started : Nat} {claim : ExecutionClaim}
    {db db' : RuntimeDb} {hit : Bool}
    (h : heartbeatExecution now started claim db = .ok (hit, db')) : DbStep now db db' := by
  unfold heartbeatExecution at h
  split at h
  · exact absurd h (by simp)
  · rename_i hupdate
    obtain ⟨-, rfl⟩ := Prod.mk.inj (Except.ok.inj h)
    refine updateOwners_step hupdate ?_
    intro o row hok
    exact .renewed o _ _ ((guardExecutionOwnerContext_ok hok).1 rfl).2

/-- The trigger lets no owner take its own row over. -/
theorem takeOver_move {now : Nat} {pOwner : Uuid} {o row : OwnerRow}
    (h : guardExecutionOwnerContext now o (takeOver now pOwner o) = .ok row) :
    OwnerMove now o (takeOver now pOwner o) := by
  obtain ⟨hsame, hother⟩ := guardExecutionOwnerContext_ok h
  by_cases hown : pOwner = o.ownerId
  · have hfence : o.fence + 1 = o.fence := (hsame hown).1
    omega
  · exact .takenOver o pOwner hown (hother hown)

/-- A claim takes over the row of its run, or opens one. -/
theorem claimRuntimeExecution_step {now : Nat} {pRun pOwner : Uuid} {pContext : Option Value}
    {db db' : RuntimeDb} {claim : OwnerRow}
    (h : claimRuntimeExecution now pRun pOwner pContext db = .ok (claim, db')) :
    DbStep now db db' := by
  unfold claimRuntimeExecution at h
  split at h
  · exact absurd h (by simp)
  rename_i r hr
  obtain ⟨hmem, hrun⟩ := Table.find?_eq_some hr
  split at h
  · exact absurd h (by simp)
  split at h
  · exact absurd h (by simp)
  rename_i thread hthread
  split at h
  · exact absurd h (by simp)
  split at h
  · exact absurd h (by simp)
  rename_i hexecuting
  split at h
  · rename_i old hold
    split at h
    · exact absurd h (by simp)
    split at h
    · exact absurd h (by simp)
    split at h
    · exact absurd h (by simp)
    split at h
    · exact absurd h (by simp)
    rename_i hupdate
    obtain ⟨-, rfl⟩ := Prod.mk.inj (Except.ok.inj h)
    exact updateOwners_step hupdate (fun _ _ hok => takeOver_move hok)
  · rename_i hnone
    split at h
    · exact absurd h (by simp)
    rename_i context
    dsimp only at h
    split at h
    · exact absurd h (by simp)
    split at h
    · exact absurd h (by simp)
    rename_i owners hinsert
    obtain ⟨-, rfl⟩ := Prod.mk.inj (Except.ok.inj h)
    have honly : ∀ o' ∈ owners, db.Unowned o'.runId → o'.runId = pRun := by
      intro o' ho' hnew
      rcases (Table.mem_insert hinsert).mp ho' with rfl | hold
      · rfl
      · exact absurd rfl (hnew o' hold)
    refine .of_owners (.insert .same hinsert) ?_
    intro o' ho' hnew
    rcases (Table.mem_insert hinsert).mp ho' with rfl | hold
    · exact ⟨⟨⟨r, hmem, hrun, hthread⟩, Bool.eq_false_iff.mpr hexecuting⟩, honly⟩
    · exact absurd rfl (hnew o' hold)

/-! ## New rows -/

theorem revokeSnapshot_ok {row : RevocationRow} {db db' : RuntimeDb}
    (h : revokeSnapshot row db = .ok db') :
    (∃ s ∈ db.snapshots, s.snapshotId = row.snapshotId) ∧
      ∃ revocations, db.revocations.insert row = some revocations ∧
        db' = { db with revocations := revocations } := by
  unfold revokeSnapshot at h
  split at h
  · rename_i hsnapshot
    split at h
    · exact absurd h (by simp)
    · rename_i revocations hinsert
      obtain ⟨s, hs, hcond⟩ := Table.any_eq_true.mp hsnapshot
      simp only [Bool.and_eq_true, beq_iff_eq] at hcond
      exact ⟨⟨s, hs, hcond.1⟩, revocations, hinsert, (Except.ok.inj h).symm⟩
  · exact absurd h (by simp)

theorem revokeSnapshot_step {now : Nat} {row : RevocationRow} {db db' : RuntimeDb}
    (h : revokeSnapshot row db = .ok db') : DbStep now db db' := by
  obtain ⟨-, revocations, hinsert, rfl⟩ := revokeSnapshot_ok h
  exact
    { runs := .refl .refl
      leases := .refl .refl
      snapshots := .refl fun _ => rfl
      revocations := .insert (fun _ => rfl) hinsert
      owners := .refl .same
      opened := fun o ho hnew => absurd rfl (hnew o ho)
      constraints := fun hc => hc.of_leases rfl fun l hl => ⟨l, hl, rfl, .refl l⟩ }

theorem authorizeRoot_step (now : Nat) (runtimeThreadId : Uuid) (scope : Scope)
    (db : RuntimeDb) : DbStep now db (authorizeRoot runtimeThreadId scope db) := by
  unfold authorizeRoot
  split
  · exact .refl now db
  · exact .of_untouched rfl rfl rfl rfl rfl

theorem issueAssistantRuntimeTurn_ok {p : TurnIssue} {db db' : RuntimeDb}
    (h : issueAssistantRuntimeTurn p db = .ok db') :
    (∀ s ∈ db.snapshots, s.runId ≠ p.runId) ∧ (∀ l ∈ db.leases, l.snapshotId ≠ p.snapshotId) ∧
      ∃ snapshots runs leases, db.snapshots.insert p.snapshot = some snapshots ∧
        db.runs.insert p.run = some runs ∧ db.leases.insert p.lease = some leases ∧
        db' = { db with snapshots := snapshots, runs := runs, leases := leases } := by
  unfold issueAssistantRuntimeTurn at h
  split at h
  · exact absurd h (by simp)
  split at h
  · exact absurd h (by simp)
  split at h
  · exact absurd h (by simp)
  rename_i hunique
  split at h
  · rename_i snapshots runs leases hs hr hl
    rw [not_or, Bool.not_eq_true, Bool.not_eq_true, Table.any_eq_false,
      Table.any_eq_false] at hunique
    refine ⟨?_, ?_, snapshots, runs, leases, hs, hr, hl, (Except.ok.inj h).symm⟩
    · intro s hmem heq
      have hne := hunique.1 s hmem
      simp [heq] at hne
    · intro l hmem heq
      have hne := hunique.2 l hmem
      simp [heq] at hne
  · exact absurd h (by simp)

/-- A turn is issued with a snapshot and a lease of its own. -/
theorem issueAssistantRuntimeTurn_constraints {p : TurnIssue} {db db' : RuntimeDb}
    (h : issueAssistantRuntimeTurn p db = .ok db') (hc : db.Constraints) : db'.Constraints := by
  obtain ⟨hrun, hsnapshot, snapshots, runs, leases, hs, -, hl, rfl⟩ :=
    issueAssistantRuntimeTurn_ok h
  constructor
  · intro s hmem s' hmem' heq
    rcases (Table.mem_insert hs).mp hmem with rfl | hold
    · rcases (Table.mem_insert hs).mp hmem' with rfl | hold'
      · rfl
      · exact absurd heq.symm (hrun s' hold')
    · rcases (Table.mem_insert hs).mp hmem' with rfl | hold'
      · exact absurd heq (hrun s hold)
      · exact hc.snapshotsRunKey s hold s' hold' heq
  · intro l hmem l' hmem' heq
    rcases (Table.mem_insert hl).mp hmem with rfl | hold
    · rcases (Table.mem_insert hl).mp hmem' with rfl | hold'
      · rfl
      · exact absurd heq.symm (hsnapshot l' hold')
    · rcases (Table.mem_insert hl).mp hmem' with rfl | hold'
      · exact absurd heq (hsnapshot l hold)
      · exact hc.leasesSnapshotKey l hold l' hold' heq
  · intro l hmem
    rcases (Table.mem_insert hl).mp hmem with rfl | hold
    · exact ⟨p.snapshot, (Table.mem_insert hs).mpr (.inl rfl), rfl, rfl⟩
    · obtain ⟨s, hsmem, hid, hsrun⟩ := hc.leasesSnapshotFk l hold
      exact ⟨s, (Table.mem_insert hs).mpr (.inr hsmem), hid, hsrun⟩

theorem issueAssistantRuntimeTurn_step {now : Nat} {p : TurnIssue} {db db' : RuntimeDb}
    (h : issueAssistantRuntimeTurn p db = .ok db') : DbStep now db db' := by
  have hconstraints := issueAssistantRuntimeTurn_constraints h
  obtain ⟨-, -, snapshots, runs, leases, hs, hr, hl, rfl⟩ := issueAssistantRuntimeTurn_ok h
  exact
    { runs := .insert .refl hr
      leases := .insert .refl hl
      snapshots := .insert (fun _ => rfl) hs
      revocations := .refl fun _ => rfl
      owners := .refl .same
      opened := fun o ho hnew => absurd rfl (hnew o ho)
      constraints := hconstraints }

end RuntimeDb

end AiPlatform.Runtime
