/-
  AiPlatform.Runtime.Ownership

  Who executes a run, over every order of claims, heartbeats, cancels,
  completions, revocations and assertions.

    * `OwnersOk` — of the active runs of a thread one has an owner row at most;
    * `Lost` — a pair of owner and fence that can no longer pass;
    * `Ended` — a run nothing is admitted for any more.
-/

import AiPlatform.Runtime.RuntimeMachine

namespace AiPlatform.Runtime

open AiPlatform.Json Relational Transition

/-! ## One owned run on a thread -/

namespace RuntimeDb

structure OwnersOk (db : RuntimeDb) : Prop where
  constraints : db.Constraints
  runsFk : ∀ o ∈ db.owners, ∃ r ∈ db.runs, r.runId = o.runId ∧
    r.harnessThreadId = some o.runtimeThreadId
  alone : ∀ o ∈ db.owners, ∀ o' ∈ db.owners, o.runtimeThreadId = o'.runtimeThreadId →
    db.isActiveRun o.runId = true → db.isActiveRun o'.runId = true → o.runId = o'.runId

/-- A database under its constraints in which nothing has been claimed. -/
structure Initial (db : RuntimeDb) : Prop where
  constraints : db.Constraints
  owners : db.owners.rows = []

theorem Initial.ownersOk {db : RuntimeDb} (h : db.Initial) : db.OwnersOk where
  constraints := h.constraints
  runsFk := by
    intro o ho
    rw [← Table.mem_rows, h.owners] at ho
    exact absurd ho List.not_mem_nil
  alone := by
    intro o ho
    rw [← Table.mem_rows, h.owners] at ho
    exact absurd ho List.not_mem_nil

theorem isActiveRun_iff {db : RuntimeDb} {runId : Uuid} :
    db.isActiveRun runId = true ↔ ∃ r ∈ db.runs, r.runId = runId ∧ r.status.isActive = true := by
  unfold isActiveRun
  rw [Table.any_eq_true]
  simp only [Bool.and_eq_true, beq_iff_eq]

/-- A run that is there and active after a step was active before it. -/
theorem DbStep.isActiveRun_pre {now : Nat} {db db' : RuntimeDb} (h : DbStep now db db')
    {r : RunRow} (hr : r ∈ db.runs) (hactive : db'.isActiveRun r.runId = true) :
    db.isActiveRun r.runId = true := by
  obtain ⟨r', hr', hid, hactive'⟩ := isActiveRun_iff.mp hactive
  have hprec : r.Precedes r' := h.runs.of_key hr hr' hid
  exact isActiveRun_iff.mpr ⟨r, hr, rfl, hprec.active hactive'⟩

/-- Where an owner row after a step comes from. -/
theorem DbStep.owner_origin {now : Nat} {db db' : RuntimeDb} (h : DbStep now db db')
    {o' : OwnerRow} (ho' : o' ∈ db'.owners) :
    (∃ o ∈ db.owners, o'.runId = o.runId ∧ OwnerMove now o o') ∨
      (db.Unowned o'.runId ∧ db.Claimable o') := by
  rcases h.owners.fresh o' ho' with hold | hnew
  · exact .inl hold
  · exact .inr ⟨hnew, (h.opened o' ho' hnew).1⟩

theorem DbStep.runsFk {now : Nat} {db db' : RuntimeDb} (h : DbStep now db db')
    (hok : db.OwnersOk) {o' : OwnerRow} (ho' : o' ∈ db'.owners) :
    ∃ r ∈ db.runs, r.runId = o'.runId ∧ r.harnessThreadId = some o'.runtimeThreadId := by
  rcases h.owner_origin ho' with ⟨o, ho, hid, hmove⟩ | ⟨-, hrun, -⟩
  · obtain ⟨r, hr, hrid, hthread⟩ := hok.runsFk o ho
    exact ⟨r, hr, hrid.trans hid.symm, by rw [hthread, hmove.precedes.thread]⟩
  · exact hrun

/-- A claim that opens a row finds no other active run with one on its thread. -/
theorem Claimable.not_executing {db : RuntimeDb} {o o' : OwnerRow} (h : db.Claimable o')
    (ho : o ∈ db.owners) (hthread : o.runtimeThreadId = o'.runtimeThreadId)
    (hne : o.runId ≠ o'.runId) : db.isActiveRun o.runId = false := by
  have hnone := Table.any_eq_false.mp h.2 o ho
  have hsome : (some o.runtimeThreadId == some o'.runtimeThreadId) = true :=
    beq_iff_eq.mpr (congrArg some hthread)
  have hother : (o.runId != o'.runId) = true := bne_iff_ne.mpr hne
  rw [hsome, hother, Bool.true_and, Bool.true_and] at hnone
  exact hnone

theorem OwnersOk.step {now : Nat} {db db' : RuntimeDb} (hok : db.OwnersOk)
    (h : DbStep now db db') : db'.OwnersOk where
  constraints := h.constraints hok.constraints
  runsFk := by
    intro o' ho'
    obtain ⟨r, hr, hid, hthread⟩ := h.runsFk hok ho'
    obtain ⟨r', hr', hid', hprec⟩ := h.runs.kept r hr
    exact ⟨r', hr', hid'.trans hid, hprec.thread.trans hthread⟩
  alone := by
    intro o₁' ho₁' o₂' ho₂' hthread hactive₁ hactive₂
    obtain ⟨r₁, hr₁, hid₁, -⟩ := h.runsFk hok ho₁'
    obtain ⟨r₂, hr₂, hid₂, -⟩ := h.runsFk hok ho₂'
    rw [← hid₁] at hactive₁
    rw [← hid₂] at hactive₂
    have hpre₁ := h.isActiveRun_pre hr₁ hactive₁
    have hpre₂ := h.isActiveRun_pre hr₂ hactive₂
    rcases h.owner_origin ho₁' with ⟨o₁, ho₁, hrun₁, hmove₁⟩ | ⟨hnew₁, hclaim₁⟩
    · have ht₁ : o₁.runtimeThreadId = o₁'.runtimeThreadId := hmove₁.precedes.thread.symm
      rcases h.owner_origin ho₂' with ⟨o₂, ho₂, hrun₂, hmove₂⟩ | ⟨hnew₂, hclaim₂⟩
      · have ht₂ : o₂'.runtimeThreadId = o₂.runtimeThreadId := hmove₂.precedes.thread
        rw [hrun₁, hrun₂]
        rw [hid₁, hrun₁] at hpre₁
        rw [hid₂, hrun₂] at hpre₂
        exact hok.alone o₁ ho₁ o₂ ho₂ (by rw [ht₁, hthread, ht₂]) hpre₁ hpre₂
      · have hidle := hclaim₂.not_executing ho₁ (ht₁.trans hthread) (hnew₂ o₁ ho₁)
        rw [hid₁, hrun₁, hidle] at hpre₁
        exact absurd hpre₁ Bool.false_ne_true
    · rcases h.owner_origin ho₂' with ⟨o₂, ho₂, hrun₂, hmove₂⟩ | ⟨hnew₂, hclaim₂⟩
      · have ht₂ : o₂.runtimeThreadId = o₂'.runtimeThreadId := hmove₂.precedes.thread.symm
        have hidle := hclaim₁.not_executing ho₂ (ht₂.trans hthread.symm) (hnew₁ o₂ ho₂)
        rw [hid₂, hrun₂, hidle] at hpre₂
        exact absurd hpre₂ Bool.false_ne_true
      · exact (h.opened o₂' ho₂' hnew₂).2 o₁' ho₁' hnew₁

/-! ## Passing the fence -/

/-- The pair passes `assert_runtime_execution_fence` at this instant. -/
def Passes (db : RuntimeDb) (run owner : Uuid) (fence : Nat) : Prop :=
  assertRuntimeExecutionFence db.clock run owner fence db = .ok true

theorem passes_iff {db : RuntimeDb} {run owner : Uuid} {fence : Nat} :
    db.Passes run owner fence ↔ ∃ o ∈ db.owners, o.runId = run ∧ o.ownerId = owner ∧
      o.fence = fence ∧ db.clock < o.leaseUntil := by
  unfold Passes assertRuntimeExecutionFence
  split
  · rename_i hany
    obtain ⟨o, ho, hcond⟩ := Table.any_eq_true.mp hany
    simp only [Bool.and_eq_true, beq_iff_eq, decide_eq_true_eq] at hcond
    obtain ⟨⟨⟨hrun, howner⟩, hfence⟩, hlive⟩ := hcond
    exact ⟨fun _ => ⟨o, ho, hrun, howner, hfence, hlive⟩, fun _ => rfl⟩
  · rename_i hnone
    refine ⟨fun h => absurd h (by simp), ?_⟩
    rintro ⟨o, ho, hrun, howner, hfence, hlive⟩
    refine absurd (Table.any_eq_true.mpr ⟨o, ho, ?_⟩) hnone
    simp only [Bool.and_eq_true, beq_iff_eq, decide_eq_true_eq]
    exact ⟨⟨⟨hrun, howner⟩, hfence⟩, hlive⟩

/-- The row of a run names the one pair that can pass. -/
theorem passes_unique {db : RuntimeDb} {run owner owner' : Uuid} {fence fence' : Nat}
    (h : db.Passes run owner fence) (h' : db.Passes run owner' fence') :
    owner' = owner ∧ fence' = fence := by
  obtain ⟨o, ho, hrun, rfl, rfl, -⟩ := passes_iff.mp h
  obtain ⟨o', ho', hrun', rfl, rfl, -⟩ := passes_iff.mp h'
  obtain rfl : o = o' := Table.eq_of_key ho ho' (hrun.trans hrun'.symm)
  exact ⟨rfl, rfl⟩

/-- The run's fence has gone past the pair's, or stands there under another owner
    or with the lease over. -/
def Lost (db : RuntimeDb) (run owner : Uuid) (fence : Nat) : Prop :=
  ∃ o ∈ db.owners, o.runId = run ∧
    (fence < o.fence ∨ (o.fence = fence ∧ (o.ownerId ≠ owner ∨ o.leaseUntil ≤ db.clock)))

theorem Lost.not_passes {db : RuntimeDb} {run owner : Uuid} {fence : Nat}
    (h : db.Lost run owner fence) : ¬ db.Passes run owner fence := by
  intro hpasses
  obtain ⟨o, ho, hrun, hlost⟩ := h
  obtain ⟨o', ho', hrun', howner, hfence, hlive⟩ := passes_iff.mp hpasses
  obtain rfl : o = o' := Table.eq_of_key ho ho' (hrun.trans hrun'.symm)
  rcases hlost with hpast | ⟨-, hother | hover⟩
  · omega
  · exact hother howner
  · omega

end RuntimeDb

open RuntimeDb

/-- A lost pair stays lost: its lease is not renewed once it is over, and a
    takeover moves the fence on. -/
theorem lost_step {x : RuntimeMove} (hx : runtimeMachine.Makes x) {run owner : Uuid}
    {fence : Nat} (h : x.pre.Lost run owner fence) : x.post.Lost run owner fence := by
  obtain ⟨hclock, hpost, hstep⟩ := runtimeStep hx
  obtain ⟨o, ho, hrun, hlost⟩ := h
  obtain ⟨o', ho', hid, hmove⟩ := hstep.owners.kept o ho
  refine ⟨o', ho', hid.trans hrun, ?_⟩
  rw [hpost]
  cases hmove with
  | same =>
      rcases hlost with hpast | ⟨hfence, hother | hover⟩
      · exact .inl hpast
      · exact .inr ⟨hfence, .inl hother⟩
      · exact .inr ⟨hfence, .inr (Nat.le_trans hover hclock)⟩
  | renewed leaseUntil heartbeatAt hlive =>
      rcases hlost with hpast | ⟨hfence, hother | hover⟩
      · exact .inl hpast
      · exact .inr ⟨hfence, .inl hother⟩
      · omega
  | takenOver pOwner hne hover =>
      left
      show fence < o.fence + 1
      omega

theorem lost_run {s t : RuntimeDb} {tr : List RuntimeMove} (h : Run runtimeMachine s tr t)
    {run owner : Uuid} {fence : Nat} (hlost : s.Lost run owner fence) :
    t.Lost run owner fence :=
  h.invariant (P := fun db => db.Lost run owner fence) (fun _ hx => lost_step hx) hlost

/-- Over a run owner rows stay, with their thread and context, and the fence only
    goes up. -/
theorem owners_run {s t : RuntimeDb} {tr : List RuntimeMove} (h : Run runtimeMachine s tr t) :
    Table.Evolves OwnerRow.Precedes s.owners t.owners := by
  refine h.rel (P := fun _ => True)
    (R := fun s t => Table.Evolves OwnerRow.Precedes s.owners t.owners)
    (fun s => .refl .refl) ?_ (fun _ _ _ => trivial) ?_ trivial
  · intro a b c hab hbc
    exact hab.trans .trans hbc
  · intro x hx _
    exact (runtimeStep hx).2.2.owners.mono (fun _ _ hmove => hmove.precedes)

/-- A pair that has passed and does not pass any more is lost. -/
theorem lost_of_stopped {s t : RuntimeDb} {tr : List RuntimeMove}
    (h : Run runtimeMachine s tr t) {run owner : Uuid} {fence : Nat}
    (hpassed : s.Passes run owner fence) (hstopped : ¬ t.Passes run owner fence) :
    t.Lost run owner fence := by
  obtain ⟨o, ho, hrun, howner, hfence, -⟩ := passes_iff.mp hpassed
  obtain ⟨o', ho', hid, hprec⟩ := (owners_run h).kept o ho
  refine ⟨o', ho', hid.trans hrun, ?_⟩
  rcases hprec.fence with hlt | ⟨hsame, hown⟩
  · left
    omega
  · refine .inr ⟨hsame.trans hfence, .inr ?_⟩
    by_contra hlive
    refine hstopped (passes_iff.mpr ⟨o', ho', hid.trans hrun, hown.trans howner,
      hsame.trans hfence, ?_⟩)
    omega

/-! ## Ended runs -/

/-- The run is no longer active, its lease is not, or its snapshot is revoked. -/
def RuntimeDb.Ended (db : RuntimeDb) (run : Uuid) : Prop :=
  (∃ r ∈ db.runs, r.runId = run ∧ r.status.isActive = false) ∨
    (∃ l ∈ db.leases, l.runId = run ∧ l.status ≠ .active) ∨
    (∃ s ∈ db.snapshots, s.runId = run ∧ db.isRevoked s.snapshotId = true)

theorem isRevoked_step {now : Nat} {db db' : RuntimeDb} (h : DbStep now db db')
    {snapshotId : Uuid} (hrevoked : db.isRevoked snapshotId = true) :
    db'.isRevoked snapshotId = true := by
  obtain ⟨x, hx, hid⟩ := Table.any_eq_true.mp hrevoked
  obtain ⟨x', hx', -, rfl⟩ := h.revocations.kept x hx
  exact Table.any_eq_true.mpr ⟨x, hx', hid⟩

theorem ended_step {now : Nat} {db db' : RuntimeDb} (h : DbStep now db db') {run : Uuid}
    (hended : db.Ended run) : db'.Ended run := by
  rcases hended with ⟨r, hr, hid, hinactive⟩ | ⟨l, hl, hid, hinactive⟩ | ⟨s, hs, hid, hrevoked⟩
  · obtain ⟨r', hr', hid', hprec⟩ := h.runs.kept r hr
    refine .inl ⟨r', hr', hid'.trans hid, ?_⟩
    by_contra hactive
    rw [hprec.active (Bool.not_eq_false _ ▸ hactive)] at hinactive
    exact absurd hinactive (by decide)
  · obtain ⟨l', hl', -, hprec⟩ := h.leases.kept l hl
    exact .inr (.inl ⟨l', hl', hprec.runId.trans hid, fun hactive => hinactive (hprec.active hactive)⟩)
  · obtain ⟨s', hs', -, rfl⟩ := h.snapshots.kept s hs
    exact .inr (.inr ⟨s, hs', hid, isRevoked_step h hrevoked⟩)

theorem ended_run {s t : RuntimeDb} {tr : List RuntimeMove} (h : Run runtimeMachine s tr t)
    {run : Uuid} (hended : s.Ended run) : t.Ended run :=
  h.invariant (P := fun db => db.Ended run) (fun _ hx => ended_step (runtimeStep hx).2.2) hended

/-- Whoever asks, an ended run is refused: it has one lease, for one snapshot. -/
theorem RuntimeDb.Ended.refused {db : RuntimeDb} (hc : db.Constraints) {run : Uuid}
    (h : db.Ended run) (now : Nat) (owner : Uuid) (fence : Nat) :
    assertRuntimeExecution now run owner fence db = .error .executionAuthorityRevoked := by
  unfold assertRuntimeExecution
  rw [if_neg]
  rw [Bool.and_eq_true]
  rintro ⟨hactive, hauthority⟩
  obtain ⟨l, hl, hcond⟩ := Table.any_eq_true.mp hauthority
  simp only [Bool.and_eq_true, beq_iff_eq, leaseHolds, Table.any_eq_true] at hcond
  obtain ⟨hlrun, ⟨hlactive, -⟩, s, hs, ⟨hsid, -⟩, hsrevoked⟩ := hcond
  rcases h with ⟨r, hr, hid, hinactive⟩ | ⟨l', hl', hid, hinactive⟩ | ⟨s', hs', hid, hrevoked⟩
  · obtain ⟨r', hr', hid', hactive'⟩ := isActiveRun_iff.mp hactive
    obtain rfl : r = r' := Table.eq_of_key hr hr' (hid.trans hid'.symm)
    rw [hinactive] at hactive'
    exact absurd hactive' Bool.false_ne_true
  · obtain rfl : l = l' := hc.lease_unique hl hl' (hlrun.trans hid.symm)
    exact hinactive hlactive
  · obtain ⟨s₀, hs₀, hsid₀, hsrun₀⟩ := hc.leasesSnapshotFk l hl
    have hsame : s₀.snapshotId = s'.snapshotId :=
      hc.snapshotsRunKey s₀ hs₀ s' hs' (by rw [hsrun₀, hlrun, hid])
    rw [hsid, ← hsid₀, hsame, hrevoked] at hsrevoked
    exact absurd hsrevoked (by decide)

theorem closeRuns_ended {cond : RunRow → Bool} {status : RunStatus} {db : RuntimeDb}
    {run : Uuid} (hcond : ∀ r, cond r = true → r.runId = run)
    (hstatus : status.isActive = false) (hhit : 0 < (closeRuns cond status db).1) :
    (closeRuns cond status db).2.Ended run := by
  obtain ⟨r, hr, hr'⟩ := Table.count_pos.mp hhit
  have hmem : r.setStatus status ∈ (closeRuns cond status db).2.runs :=
    Table.update_mem (f := fun r => r.setStatus status) (fun _ => rfl) hr hr'
  exact .inl ⟨r.setStatus status, hmem, hcond r hr', hstatus⟩

theorem revokeLeases_ended {cond : LeaseRow → Bool} {db : RuntimeDb} {run : Uuid}
    (hcond : ∀ l, cond l = true → l.runId = run) (hhit : 0 < (revokeLeases cond db).1) :
    (revokeLeases cond db).2.Ended run := by
  obtain ⟨l, hl, hl'⟩ := Table.count_pos.mp hhit
  have hrun : l.runId = run := hcond l (Bool.and_eq_true _ _ ▸ hl').1
  have hmem : l.revoke ∈ (revokeLeases cond db).2.leases :=
    Table.update_mem (f := LeaseRow.revoke) (fun _ => rfl) hl hl'
  exact .inr (.inl ⟨l.revoke, hmem, hrun, nofun⟩)

/-- Whatever a cancel returns, the run it names is not active afterwards. -/
theorem cancelRuntimeExecution_ended {pRun pThread : Uuid} {scope : Scope} {db db' : RuntimeDb}
    {changed : Bool} (h : cancelRuntimeExecution pRun pThread scope db = .ok (changed, db')) :
    db'.Ended pRun := by
  unfold cancelRuntimeExecution at h
  split at h
  · rename_i hscope
    obtain ⟨r, hr, hcond⟩ := Table.any_eq_true.mp hscope
    simp only [Bool.and_eq_true, beq_iff_eq] at hcond
    obtain ⟨⟨hrun, -⟩, -⟩ := hcond
    dsimp only at h
    split at h
    · rename_i hnone
      obtain ⟨-, rfl⟩ := Prod.mk.inj (Except.ok.inj h)
      refine .inl ⟨r, hr, hrun, ?_⟩
      by_contra hactive
      have hhit : 0 < db.runs.count (fun r => r.runId == pRun && r.status.isActive) := by
        refine Table.count_pos.mpr ⟨r, hr, ?_⟩
        simp only [hrun, beq_self_eq_true, Bool.true_and]
        exact Bool.not_eq_false _ ▸ hactive
      exact absurd hnone (by show ¬ db.runs.count _ = 0; omega)
    · rename_i hsome
      obtain ⟨-, rfl⟩ := Prod.mk.inj (Except.ok.inj h)
      have hclosed : (closeRuns (fun r => r.runId == pRun && r.status.isActive)
          .cancelled db).2.Ended pRun :=
        closeRuns_ended (fun r hr => beq_iff_eq.mp (Bool.and_eq_true _ _ ▸ hr).1) rfl
          (Nat.pos_of_ne_zero hsome)
      exact ended_step (revokeLeases_step 0 (fun l => l.runId == pRun) _) hclosed
  · exact absurd h (by simp)

/-- The run whose rows a statement of the ledger or of recovery ends. -/
def RuntimeCall.endsRowsOf : RuntimeCall → Option Uuid
  | .completeRunLeases runId | .failRunLeases runId _ | .stopRun runId _ => some runId
  | .completeRun runId _ | .failRun runId | .closeOrphanedRun runId => some runId
  | .terminalProjection _ held _ => some held.runId
  | _ => none

theorem RuntimeCall.endsRows_ended {call : RuntimeCall} {now count : Nat} {db db' : RuntimeDb}
    {run : Uuid} (h : call.apply now db = .ok (.rows count, db'))
    (hrun : call.endsRowsOf = some run) (hhit : 0 < count) : db'.Ended run := by
  cases call with
  | completeRunLeases runId =>
      obtain rfl := Option.some.inj hrun
      obtain ⟨hcount, rfl⟩ := Prod.mk.inj (Except.ok.inj h)
      obtain rfl := SqlResult.rows.inj hcount
      exact revokeLeases_ended (fun l hl => beq_iff_eq.mp hl) hhit
  | failRunLeases runId snapshotId | stopRun runId scope =>
      obtain rfl := Option.some.inj hrun
      obtain ⟨hcount, rfl⟩ := Prod.mk.inj (Except.ok.inj h)
      obtain rfl := SqlResult.rows.inj hcount
      refine revokeLeases_ended (fun l hl => ?_) hhit
      simp only [Bool.and_eq_true, beq_iff_eq] at hl
      exact hl.1
  | completeRun runId terminalStatus =>
      obtain rfl := Option.some.inj hrun
      obtain ⟨hcount, rfl⟩ := Prod.mk.inj (Except.ok.inj h)
      obtain rfl := SqlResult.rows.inj hcount
      refine closeRuns_ended (fun r hr => ?_) (ledgerStatus_isActive terminalStatus) hhit
      simp only [Bool.and_eq_true, beq_iff_eq] at hr
      exact hr.1.1
  | failRun runId | closeOrphanedRun runId =>
      obtain rfl := Option.some.inj hrun
      obtain ⟨hcount, rfl⟩ := Prod.mk.inj (Except.ok.inj h)
      obtain rfl := SqlResult.rows.inj hcount
      refine closeRuns_ended (fun r hr => ?_) rfl hhit
      simp only [Bool.and_eq_true, beq_iff_eq] at hr
      exact hr.1.1
  | terminalProjection waited held outcome =>
      obtain rfl := Option.some.inj hrun
      obtain ⟨hcount, rfl⟩ := Prod.mk.inj (Except.ok.inj h)
      obtain rfl := SqlResult.rows.inj hcount
      refine closeRuns_ended (fun r hr => ?_) outcome.status_isActive hhit
      simp only [Bool.and_eq_true, beq_iff_eq] at hr
      exact hr.1.1
  | _ => exact absurd hrun (by simp [RuntimeCall.endsRowsOf])

theorem RuntimeCall.cancel_ended {now : Nat} {db db' : RuntimeDb} {run thread : Uuid}
    {scope : Scope} {result : SqlResult}
    (h : (RuntimeCall.cancel run thread scope).apply now db = .ok (result, db')) :
    db'.Ended run := by
  simp only [RuntimeCall.apply] at h
  split at h
  · exact absurd h (by simp)
  · rename_i hcancel
    obtain ⟨-, rfl⟩ := Prod.mk.inj (Except.ok.inj h)
    exact cancelRuntimeExecution_ended hcancel

theorem RuntimeCall.revokeSnapshot_ended {now : Nat} {db db' : RuntimeDb} {run : Uuid}
    {row : RevocationRow} {result : SqlResult}
    (h : (RuntimeCall.revokeSnapshot row).apply now db = .ok (result, db')) {s : SnapshotRow}
    (hs : s ∈ db.snapshots) (hid : s.snapshotId = row.snapshotId) (hrun : s.runId = run) :
    db'.Ended run := by
  simp only [RuntimeCall.apply] at h
  split at h
  · exact absurd h (by simp)
  · rename_i hrevoke
    obtain ⟨-, rfl⟩ := Prod.mk.inj (Except.ok.inj h)
    obtain ⟨-, revocations, hinsert, rfl⟩ := revokeSnapshot_ok hrevoke
    refine .inr (.inr ⟨s, hs, hrun, Table.any_eq_true.mpr ⟨row, ?_, ?_⟩⟩)
    · exact (Table.mem_insert hinsert).mpr (.inl rfl)
    · exact beq_iff_eq.mpr hid.symm

/-- The move cancels the run, ends a row of it, or revokes its snapshot. -/
def EndsAuthority (run : Uuid) (x : RuntimeMove) : Prop :=
  match x.reply with
  | .ok (.flag _) => ∃ thread scope, x.input.call = .cancel run thread scope
  | .ok (.rows count) => 0 < count ∧ x.input.call.endsRowsOf = some run
  | .ok .void => ∃ row, x.input.call = .revokeSnapshot row ∧
      ∃ s ∈ x.pre.snapshots, s.snapshotId = row.snapshotId ∧ s.runId = run
  | _ => False

theorem ended_of_ends {x : RuntimeMove} (hx : runtimeMachine.Makes x) {run : Uuid}
    (h : EndsAuthority run x) : x.post.Ended run := by
  unfold EndsAuthority at h
  split at h
  · rename_i changed hreply
    obtain ⟨thread, scope, hcall⟩ := h
    obtain ⟨db', happly, hpost⟩ := apply_of_makes hx hreply
    rw [hcall] at happly
    have hended : db'.Ended run := RuntimeCall.cancel_ended happly
    rw [hpost]
    exact hended
  · rename_i count hreply
    obtain ⟨hhit, hrun⟩ := h
    obtain ⟨db', happly, hpost⟩ := apply_of_makes hx hreply
    have hended : db'.Ended run := RuntimeCall.endsRows_ended happly hrun hhit
    rw [hpost]
    exact hended
  · rename_i hreply
    obtain ⟨row, hcall, s, hs, hid, hrun⟩ := h
    obtain ⟨db', happly, hpost⟩ := apply_of_makes hx hreply
    rw [hcall] at happly
    have hended : db'.Ended run := RuntimeCall.revokeSnapshot_ended happly hs hid hrun
    rw [hpost]
    exact hended
  · exact h.elim

/-! ## Fenced ownership -/

theorem ownersOk_run {s t : RuntimeDb} {tr : List RuntimeMove} (h : Run runtimeMachine s tr t)
    (hs : s.OwnersOk) : t.OwnersOk :=
  h.invariant (P := OwnersOk) (fun _ hx hok => hok.step (runtimeStep hx).2.2) hs

/-- What a move leaves of an owner row: its context, and either its fence or a
    lease that was over and the next fence for another owner. -/
theorem handover {x : RuntimeMove} (hx : runtimeMachine.Makes x) {o : OwnerRow}
    (ho : o ∈ x.pre.owners) :
    ∃ o' ∈ x.post.owners, o'.runId = o.runId ∧ o'.context = o.context ∧
      (o'.ownerId = o.ownerId → o'.fence = o.fence) ∧
      (o'.ownerId ≠ o.ownerId → o'.fence = o.fence + 1 ∧ o.leaseUntil ≤ x.input.now) := by
  obtain ⟨o', ho', hid, hmove⟩ := (runtimeStep hx).2.2.owners.kept o ho
  refine ⟨o', ho', hid, hmove.precedes.context, ?_, ?_⟩
  · intro hsame
    cases hmove with
    | same | renewed => rfl
    | takenOver pOwner hne hover => exact absurd hsame hne
  · intro hother
    cases hmove with
    | same | renewed => exact absurd rfl hother
    | takenOver pOwner hne hover => exact ⟨rfl, hover⟩

/-- Ownership of a run is fenced.  In every state one pair of owner and fence
    passes at most, and of the active runs of a thread one has an owner row at
    most.  A move changes the owner only once the lease is over, to the next
    fence, and never the context; a pair that has stopped passing does not pass
    again; and nothing is admitted for a run after a move that ends its
    authority. -/
theorem run_ownership_fenced {db₀ db : RuntimeDb} {tr : List RuntimeMove}
    (hinit : db₀.Initial) (h : Run runtimeMachine db₀ tr db) :
    (∀ run owner owner' fence fence', db.Passes run owner fence → db.Passes run owner' fence' →
      owner' = owner ∧ fence' = fence) ∧
    (∀ r ∈ db.runs, ∀ r' ∈ db.runs, r.harnessThreadId = r'.harnessThreadId →
      r.status.isActive = true → r'.status.isActive = true →
      (∃ o ∈ db.owners, o.runId = r.runId) → (∃ o ∈ db.owners, o.runId = r'.runId) → r = r') ∧
    (∀ x ∈ tr, ∀ o ∈ x.pre.owners, ∃ o' ∈ x.post.owners, o'.runId = o.runId ∧
      o'.context = o.context ∧ (o'.ownerId = o.ownerId → o'.fence = o.fence) ∧
      (o'.ownerId ≠ o.ownerId → o'.fence = o.fence + 1 ∧ o.leaseUntil ≤ x.input.now)) ∧
    (∀ passed stopped tr₁ tr₂ run owner fence, Run runtimeMachine passed tr₁ stopped →
      Run runtimeMachine stopped tr₂ db → passed.Passes run owner fence →
      ¬ stopped.Passes run owner fence → ¬ db.Passes run owner fence) ∧
    (∀ tr₁ x tr₂ run, tr = tr₁ ++ x :: tr₂ → EndsAuthority run x → ∀ now owner fence,
      assertRuntimeExecution now run owner fence db = .error .executionAuthorityRevoked) := by
  have hok : db.OwnersOk := ownersOk_run h hinit.ownersOk
  refine ⟨?_, ?_, ?_, ?_, ?_⟩
  · intro run owner owner' fence fence' hpasses hpasses'
    exact passes_unique hpasses hpasses'
  · intro r hr r' hr' hthread hactive hactive' ⟨o, ho, hid⟩ ⟨o', ho', hid'⟩
    obtain ⟨k, hk, hkid, hkthread⟩ := hok.runsFk o ho
    obtain ⟨k', hk', hkid', hkthread'⟩ := hok.runsFk o' ho'
    obtain rfl : k = r := Table.eq_of_key hk hr (hkid.trans hid)
    obtain rfl : k' = r' := Table.eq_of_key hk' hr' (hkid'.trans hid')
    have hsame : o.runtimeThreadId = o'.runtimeThreadId := by
      rw [hkthread, hkthread'] at hthread
      exact Option.some.inj hthread
    have hrun : o.runId = o'.runId :=
      hok.alone o ho o' ho' hsame (isActiveRun_iff.mpr ⟨k, hk, hkid, hactive⟩)
        (isActiveRun_iff.mpr ⟨k', hk', hkid', hactive'⟩)
    exact Table.eq_of_key hk hk' (hkid.trans (hrun.trans hkid'.symm))
  · intro x hx o ho
    obtain ⟨-, -, hmakes⟩ := h.of_mem hx
    exact handover hmakes ho
  · intro passed stopped tr₁ tr₂ run owner fence h₁ h₂ hpassed hstopped
    exact (lost_run h₂ (lost_of_stopped h₁ hpassed hstopped)).not_passes
  · intro tr₁ x tr₂ run htr hends now owner fence
    rw [htr] at h
    obtain ⟨-, hmakes, hrest⟩ := h.of_split
    exact (ended_run hrest (ended_of_ends hmakes hends)).refused hok.constraints now owner fence

/-- A session with one thread, and nothing issued yet. -/
def sampleDb : RuntimeDb :=
  { clock := 0
    runs := .empty
    threads := ⟨[⟨"thread", ⟨"tenant", "user", "session"⟩, none⟩], by decide⟩
    snapshots := .empty
    leases := .empty
    revocations := .empty
    approvals := .empty
    assignments :=
      ⟨[⟨⟨"tenant", "user", "session"⟩, "agent_runtime", some "kernel"⟩], by decide⟩
    owners := .empty }

/-- The lease the first process holds runs out, and a second one takes over. -/
def takeoverCalls : List RuntimeCallAt :=
  [ ⟨0, .issueTurn ⟨"snapshot", "lease", "run", "thread", ⟨"tenant", "user", "session"⟩, "kernel",
      3600 * 1000 * 1000⟩⟩,
    ⟨1000, .claim "run" "first" (some (.object []))⟩,
    ⟨20 * 1000 * 1000, .heartbeat 0 ⟨"run", "thread", "first", 1, .object []⟩⟩,
    ⟨40 * 1000 * 1000, .claim "run" "second" none⟩,
    ⟨60 * 1000 * 1000, .claim "run" "second" none⟩,
    ⟨61 * 1000 * 1000, .heartbeat 0 ⟨"run", "thread", "first", 1, .object []⟩⟩ ]

theorem sampleDb_initial : sampleDb.Initial where
  constraints :=
    { snapshotsRunKey := fun _ hs => absurd hs List.not_mem_nil
      leasesSnapshotKey := fun _ hl => absurd hl List.not_mem_nil
      leasesSnapshotFk := fun _ hl => absurd hl List.not_mem_nil }
  owners := rfl

theorem run_ownership_fenced_takeover :
    ∃ tr db, Run runtimeMachine sampleDb tr db ∧ tr.map Move.input = takeoverCalls ∧
      db.Passes "run" "second" 2 ∧
      ∀ owner fence, db.Passes "run" owner fence → owner = "second" ∧ fence = 2 := by
  obtain ⟨tr, db, hrun, hcalls, hpasses⟩ := runtimeMachine.exists_run sampleDb takeoverCalls
    (fun _ db => db.owners.any (fun o => o.runId == "run" && o.ownerId == "second"
      && o.fence == 2 && decide (db.clock < o.leaseUntil))) (by decide)
  have hsecond : db.Passes "run" "second" 2 := if_pos hpasses
  refine ⟨tr, db, hrun, hcalls, hsecond, ?_⟩
  intro owner fence hother
  exact (run_ownership_fenced sampleDb_initial hrun).1 _ _ _ _ _ hsecond hother

end AiPlatform.Runtime
