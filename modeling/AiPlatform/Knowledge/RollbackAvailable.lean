/-
  AiPlatform.Knowledge.RollbackAvailable

  A failure-free rollback with no other call beside it.

  Whatever the transitions before it have left, it ends with PostgreSQL on v1 and
  the lifecycle row in `shadow`.  The collection follows unless it is ahead of
  PostgreSQL (`bm25_v2` there, `lexical_v1` in PostgreSQL): such a profile is
  refused and left alone.  A collection is left ahead only by a transition that
  dies, or whose abort makes its last call, while it is.
-/

import AiPlatform.Knowledge.LexicalCutover

namespace AiPlatform.Knowledge

open Transition

/-- The collection metadata says v2 while PostgreSQL selects v1. -/
def Stores.Ahead (s : Stores) : Prop := s.postgres = .lexicalV1 ∧ s.collection = .bm25V2

instance (s : Stores) : Decidable s.Ahead := inferInstanceAs (Decidable (_ ∧ _))

/-- A dataset without a row counts as `shadow`. -/
def Stores.rowState (s : Stores) : LifecycleState := s.row.elim .shadow LifecycleRow.state

/-! ## The kill switch -/

/-- `keep_shadow_writes` once `rollback` has looked at the kill switch. -/
def keepShadowWrites (enabled keep : Bool) : Bool :=
  if !keep || !enabled then keep && enabled else keep

/-- Does `ensure_lexical_config` raise for a selection of v1?  With the kill switch off
    only an emergency rollback goes on, one that turns the shadow writes off. -/
def requiresEnabled (enabled shadowWrites : Bool) : Bool :=
  let emergencyRollback := !shadowWrites
  !enabled && (!emergencyRollback && shadowWrites)

/-- The kill switch never stops a rollback. -/
theorem requiresEnabled_keepShadowWrites (enabled keep : Bool) :
    requiresEnabled enabled (keepShadowWrites enabled keep) = false := by
  cases enabled <;> cases keep <;> rfl

/-! ## A rollback on its own -/

/-- How the call at hand ends when no store fails. -/
def Executor.failureFree (enabled keep : Bool) (e : Executor) : Outcome :=
  match e.phase with
  | .running (.ensureLexicalConfig :: _) _ =>
      if requiresEnabled enabled (keepShadowWrites enabled keep) then .refused else .done
  | _ => .done

/-- An executor makes `n` calls, fewer if it is through before. -/
def Executor.alone (enabled keep : Bool) (n : Nat) (s : Stores) (e : Executor) : Stores × Executor :=
  match n with
  | 0 => (s, e)
  | n + 1 =>
      match e.act s (e.failureFree enabled keep) with
      | some next => next.2.alone enabled keep n next.1
      | none => (s, e)

/-- No rollback makes more than 17 calls. -/
def rollbackAlone (enabled keep : Bool) (s : Stores) : Stores × Executor :=
  Executor.alone enabled keep 17 s ⟨.rollback, .snapshot⟩

variable {s s' : Stores} {e e' : Executor} {enabled keep : Bool}

theorem failureFree_eq : e.failureFree enabled keep = .done := by
  unfold Executor.failureFree
  rw [requiresEnabled_keepShadowWrites]
  split <;> rfl

theorem alone_of_act {n : Nat} {next : Stores × Executor} (hact : e.act s .done = some next) :
    e.alone enabled keep (n + 1) s = next.2.alone enabled keep n next.1 := by
  rw [Executor.alone, failureFree_eq, hact]

theorem alone_of_idle {n : Nat} (hact : e.act s .done = none) :
    e.alone enabled keep n s = (s, e) := by
  cases n with
  | zero => rfl
  | succ n => rw [Executor.alone, failureFree_eq, hact]

/-- The executor at place `i` of a pool makes these calls in a run. -/
theorem alone_run (n : Nat) {i : Nat} {threads : List Executor} (h : threads[i]? = some e) :
    ∃ tr, Run lifecycle.machine ⟨s, threads⟩ tr
        ⟨(e.alone enabled keep n s).1, threads.set i (e.alone enabled keep n s).2⟩ ∧
      ∀ x ∈ tr, x.input = .step i .done := by
  have hidle : ∃ tr, Run lifecycle.machine ⟨s, threads⟩ tr ⟨s, threads.set i e⟩ ∧
      ∀ x ∈ tr, x.input = .step i .done := by
    obtain ⟨hi, rfl⟩ := List.getElem?_eq_some_iff.mp h
    rw [List.set_getElem_self]
    exact ⟨[], .nil _, fun _ hx => absurd hx List.not_mem_nil⟩
  induction n generalizing s e threads with
  | zero => exact hidle
  | succ n ih =>
    cases hact : e.act s .done with
    | none =>
      rw [alone_of_idle hact]
      exact hidle
    | some next =>
      obtain ⟨hi, -⟩ := List.getElem?_eq_some_iff.mp h
      have hnext : (threads.set i next.2)[i]? = some next.2 := List.getElem?_set_self hi
      have hmakes : lifecycle.machine.Makes
          ⟨⟨s, threads⟩, .step i .done, (), ⟨next.1, threads.set i next.2⟩⟩ := by
        have hthread : lifecycle.act s e .done = some next := hact
        simp only [Machine.Makes, Program.machine, h, hthread, Option.map_some]
      obtain ⟨tr, hrun, hinput⟩ := ih hnext ⟨[], by rw [List.set_set]; exact .nil _, fun _ hx => absurd hx List.not_mem_nil⟩
      rw [List.set_set] at hrun
      rw [alone_of_act hact]
      exact ⟨_ :: tr, .cons hmakes hrun, List.forall_mem_cons.mpr ⟨rfl, hinput⟩⟩

/-- What a rollback on its own leaves. -/
theorem rollbackAlone_spec (enabled keep : Bool) (hfree : s.barrier = false) :
    (rollbackAlone enabled keep s).2.phase = .finished ∧
      (rollbackAlone enabled keep s).1.postgres = .lexicalV1 ∧
      (rollbackAlone enabled keep s).1.rowState = .shadow ∧
      (rollbackAlone enabled keep s).1.collection =
        if s.postgres = .lexicalV1 then s.collection else .lexicalV1 := by
  obtain ⟨postgres, collection, receipt, row, tokens, barrier⟩ := s
  cases hfree
  cases postgres with
  | lexicalV1 =>
    cases row with
    | none =>
      simp [rollbackAlone, Executor.alone, failureFree_eq, Executor.act, Executor.proceed, Executor.enter, Stores.rowState]
    | some row =>
      obtain ⟨state, epoch, token⟩ := row
      cases state <;>
        simp [rollbackAlone, Executor.alone, failureFree_eq, Executor.act, Executor.proceed,
          Executor.enter, Stores.rowState, steadyOf, Stores.recover, Stores.setRow, Phase.raised,
          Phase.critical, Kind.origin]
  | bm25V2 =>
    cases row with
    | none =>
      simp [rollbackAlone, Executor.alone, failureFree_eq, Executor.act, Executor.proceed,
        Executor.enter, Stores.rowState, steadyOf, Stores.ensureRow, Stores.recover, Stores.setRow,
        Stores.beginTransition, Stores.invalidateReceipt, Stores.flipActiveVersion, Stores.settle,
        Phase.critical, Kind.origin, Kind.target, Kind.inProgress, Kind.calls, Call.perform,
        Attempt.after]
    | some row =>
      obtain ⟨state, epoch, token⟩ := row
      cases state <;>
        simp [rollbackAlone, Executor.alone, failureFree_eq, Executor.act, Executor.proceed,
          Executor.enter, Stores.rowState, steadyOf, Stores.recover, Stores.setRow,
          Stores.beginTransition, Stores.invalidateReceipt, Stores.flipActiveVersion, Stores.settle,
          Phase.critical, Kind.origin, Kind.target, Kind.inProgress, Kind.calls, Call.perform,
          Attempt.after]

/-! ## Where the collection is left ahead -/

/-- The process dies, or the abort makes its last call. -/
def Executor.gives (outcome : Outcome) (e : Executor) : Bool :=
  match e.phase with
  | .aborting .failTransition _ => true
  | _ => decide (outcome = .crash)

/-- A transition ends so, and leaves the collection ahead. -/
def endsAhead (x : LifecycleMove) : Bool :=
  match x.input with
  | .step i outcome =>
      x.pre.threads[i]?.any fun e =>
        e.phase.critical && e.gives outcome && decide x.pre.shared.Ahead
  | _ => false

/-- The phases from the barrier to `begin_transition`. -/
def Phase.recovers : Phase → Bool
  | recoverState | recoverEnsure | recoverSnapshot _ | recoverWrite _ _ | recoverRead | authority
  | beginTransition => true
  | _ => false

/-- A transition finds the collection not ahead, and moves both selections. -/
structure KeepsUp (e : Executor) (s : Stores) : Prop where
  recovers : e.phase.recovers = true → ¬ s.Ahead
  running : ∀ calls attempt, e.phase = .running calls attempt →
    (Call.flipActiveVersion ∉ calls → s.postgres = e.kind.target) ∧
      (Call.ensureLexicalConfig ∉ calls → s.collection = e.kind.target)

variable {phase' : Phase} {outcome : Outcome}

theorem critical_of_recovers {phase : Phase} (h : phase.recovers = true) : phase.critical = true := by
  cases phase <;> first | rfl | cases h

theorem critical_cases {phase : Phase} (h : phase.critical = true) :
    phase.recovers = true ∨ (∃ calls attempt, phase = .running calls attempt) ∨
      ∃ call attempt, phase = .aborting call attempt := by
  cases phase with
  | running calls attempt => exact .inr (.inl ⟨calls, attempt, rfl⟩)
  | aborting call attempt => exact .inr (.inr ⟨call, attempt, rfl⟩)
  | _ => first | exact .inl rfl | cases h

theorem keepsUp_outside (houtside : e.phase.critical = false) : KeepsUp e s where
  recovers hrecovers := by
    rw [critical_of_recovers hrecovers] at houtside
    cases houtside
  running calls attempt hphase := by
    rw [hphase] at houtside
    cases houtside

theorem KeepsUp.congr (h : KeepsUp e s) (hpostgres : s'.postgres = s.postgres)
    (hcollection : s'.collection = s.collection) : KeepsUp e s' where
  recovers hrecovers := by
    unfold Stores.Ahead
    rw [hpostgres, hcollection]
    exact h.recovers hrecovers
  running calls attempt hphase := by
    rw [hpostgres, hcollection]
    exact h.running calls attempt hphase

theorem ahead_congr (hpostgres : s'.postgres = s.postgres) (hcollection : s'.collection = s.collection) :
    s'.Ahead ↔ s.Ahead := by
  unfold Stores.Ahead
  rw [hpostgres, hcollection]

/-- Up to `begin_transition` the selections stay, and then all calls are to be made. -/
theorem proceed_recovers (hrecovers : e.phase.recovers = true)
    (h : e.proceed s = some (s', phase')) :
    s'.postgres = s.postgres ∧ s'.collection = s.collection ∧
      (phase'.recovers = true ∨ ∃ attempt, phase' = .running e.kind.calls attempt) := by
  obtain ⟨kind, phase⟩ := e
  cases phase with
  | recoverState =>
    simp only [Executor.proceed] at h
    split at h <;> cases h <;> exact ⟨rfl, rfl, .inl rfl⟩
  | recoverEnsure => cases h; exact ⟨rfl, rfl, .inl rfl⟩
  | recoverSnapshot found =>
    cases h
    refine ⟨rfl, rfl, .inl ?_⟩
    split <;> rfl
  | recoverWrite found steady =>
    obtain ⟨s₁, hrecover, heq⟩ := Option.map_eq_some_iff.mp h
    cases heq
    unfold Stores.recover at hrecover
    split at hrecover
    · split at hrecover <;> cases hrecover
      exact ⟨rfl, rfl, .inl rfl⟩
    · cases hrecover
  | recoverRead =>
    simp only [Executor.proceed] at h
    split at h
    · split at h <;> cases h
      exact ⟨rfl, rfl, .inl rfl⟩
    · cases h
  | authority => cases h; exact ⟨rfl, rfl, .inl rfl⟩
  | beginTransition =>
    obtain ⟨s₁, hbegin, heq⟩ := Option.map_eq_some_iff.mp h
    cases heq
    unfold Stores.beginTransition at hbegin
    split at hbegin
    · split at hbegin <;> cases hbegin
      exact ⟨rfl, rfl, .inr ⟨_, rfl⟩⟩
    · cases hbegin
      exact ⟨rfl, rfl, .inr ⟨_, rfl⟩⟩
  | _ => cases hrecovers

/-- A call that comes off leaves fewer selections to move. -/
theorem KeepsUp.perform {call : Call} {calls : List Call} {attempt : Attempt} {kind : Kind}
    (h : KeepsUp ⟨kind, .running (call :: calls) attempt⟩ s)
    (hcall : call.perform s kind attempt = some s') :
    (Call.flipActiveVersion ∉ calls → s'.postgres = kind.target) ∧
      (Call.ensureLexicalConfig ∉ calls → s'.collection = kind.target) := by
  obtain ⟨hflips, hensures⟩ := h.running _ _ rfl
  rcases perform_selections hcall with ⟨rfl, -, hpostgres, hcollection⟩ | ⟨rfl, hpostgres, hcollection⟩ |
    ⟨hflip, hensure, hpostgres, hcollection⟩
  · refine ⟨fun _ => hpostgres, fun hnot => hcollection.trans (hensures ?_)⟩
    exact List.not_mem_cons_of_ne_of_not_mem nofun hnot
  · refine ⟨fun hnot => hpostgres.trans (hflips ?_), fun _ => hcollection⟩
    exact List.not_mem_cons_of_ne_of_not_mem nofun hnot
  · exact ⟨fun hnot => hpostgres.trans (hflips (List.not_mem_cons_of_ne_of_not_mem hflip.symm hnot)),
      fun hnot => hcollection.trans (hensures (List.not_mem_cons_of_ne_of_not_mem hensure.symm hnot))⟩

theorem KeepsUp.of_recovers {kind : Kind} (hrecovers : phase'.recovers = true) (h : ¬ s.Ahead) :
    KeepsUp ⟨kind, phase'⟩ s where
  recovers _ := h
  running calls attempt hphase := by
    have hrunning : phase' = .running calls attempt := hphase
    rw [hrunning] at hrecovers
    cases hrecovers

/-- Nothing is asked of an executor that aborts or has ended. -/
def Phase.over : Phase → Bool
  | aborting _ _ | finished => true
  | _ => false

theorem KeepsUp.of_over {kind : Kind} (hover : phase'.over = true) : KeepsUp ⟨kind, phase'⟩ s := by
  cases phase' with
  | aborting call attempt => exact ⟨nofun, nofun⟩
  | finished => exact ⟨nofun, nofun⟩
  | _ => cases hover

theorem over_raised (phase : Phase) : phase.raised.over = true := by
  cases phase with
  | aborting call attempt => cases call <;> rfl
  | _ => rfl

theorem over_lost (phase : Phase) : phase.lost.over = true := by
  cases phase with
  | running calls attempt => cases calls <;> rfl
  | aborting call attempt => cases call <;> rfl
  | _ => rfl

theorem proceed_aborting {kind : Kind} {call : AbortCall} {attempt : Attempt}
    (h : Executor.proceed ⟨kind, .aborting call attempt⟩ s = some (s', phase')) :
    phase'.over = true ∧ (phase' = .finished → call = .failTransition ∧
      s'.postgres = s.postgres ∧ s'.collection = s.collection) := by
  cases call with
  | flipBack =>
    obtain ⟨s₁, -, heq⟩ := Option.map_eq_some_iff.mp h
    cases heq
    exact ⟨rfl, nofun⟩
  | failTransition =>
    obtain ⟨s₁, hsettle, heq⟩ := Option.map_eq_some_iff.mp h
    cases heq
    unfold Stores.settle at hsettle
    split at hsettle
    · split at hsettle <;> cases hsettle
      exact ⟨rfl, fun _ => ⟨rfl, rfl, rfl⟩⟩
    · cases hsettle
  | _ =>
    cases h
    exact ⟨rfl, nofun⟩

theorem moves_both (kind : Kind) :
    Call.flipActiveVersion ∈ kind.calls ∧ Call.ensureLexicalConfig ∈ kind.calls := by
  cases kind <;> decide

/-- What an executor knows after a call that comes off. -/
theorem proceed_keepsUp (h : KeepsUp e s)
    (hfree : e.phase.critical = false → s.barrier = false → ¬ s.Ahead)
    (hproceed : e.proceed s = some (s', phase')) : KeepsUp ⟨e.kind, phase'⟩ s' := by
  obtain ⟨kind, phase⟩ := e
  cases hrecovers : phase.recovers with
  | true =>
    obtain ⟨hpostgres, hcollection, hnext | ⟨attempt, rfl⟩⟩ := proceed_recovers hrecovers hproceed
    · exact .of_recovers hnext ((ahead_congr hpostgres hcollection).not.mpr (h.recovers hrecovers))
    · refine ⟨fun hrecovers => absurd hrecovers Bool.false_ne_true, ?_⟩
      rintro calls attempt ⟨rfl, rfl⟩
      exact ⟨fun hnot => absurd (moves_both kind).1 hnot, fun hnot => absurd (moves_both kind).2 hnot⟩
  | false =>
    cases phase with
    | barrier =>
      simp only [Executor.proceed] at hproceed
      split at hproceed
      · cases hproceed
      · rename_i hbarrier
        cases hproceed
        exact .of_recovers rfl (hfree rfl (Bool.eq_false_iff.mpr hbarrier))
    | running calls attempt =>
      cases calls with
      | nil => cases hproceed
      | cons call calls =>
        obtain ⟨s₁, hperform, heq⟩ := Option.map_eq_some_iff.mp hproceed
        cases heq
        have hmoves := h.perform hperform
        split
        · exact .of_over rfl
        · refine ⟨fun hrecovers => absurd hrecovers Bool.false_ne_true, ?_⟩
          rintro calls attempt ⟨rfl, rfl⟩
          exact hmoves
    | aborting call attempt => exact .of_over (proceed_aborting hproceed).1
    | snapshot =>
      cases hproceed
      exact keepsUp_outside rfl
    | profile postgres =>
      simp only [Executor.proceed] at hproceed
      split at hproceed <;> cases hproceed <;> exact keepsUp_outside rfl
    | state postgres =>
      simp only [Executor.proceed] at hproceed
      split at hproceed
      · cases hproceed
        split <;> exact keepsUp_outside rfl
      · split at hproceed <;> cases hproceed <;> exact keepsUp_outside rfl
    | ensureRow =>
      cases hproceed
      exact keepsUp_outside rfl
    | finished => cases hproceed
    | _ => cases hrecovers

/-- What an executor knows after a step of its own. -/
theorem act_keepsUp (h : KeepsUp e s)
    (hfree : e.phase.critical = false → s.barrier = false → ¬ s.Ahead)
    (hact : e.act s outcome = some (s', e')) : KeepsUp e' s' := by
  obtain ⟨s₁, phase, henter, hcases⟩ := act_cases hact
  obtain ⟨rfl, hpostgres, hcollection, -, -⟩ := enter_eq henter
  suffices hnext : KeepsUp ⟨e.kind, phase⟩ s₁ from hnext.congr hpostgres hcollection
  rcases hcases with ⟨-, hproceed⟩ | ⟨-, rfl, -⟩ | ⟨rfl, ⟨-, -, rfl⟩ | ⟨-, rfl⟩⟩
  · exact proceed_keepsUp h hfree hproceed
  · exact .of_over (over_lost _)
  · exact .of_over (over_raised _)
  · exact .of_over rfl

/-- A call that raises ends an abort only when it is the last one. -/
theorem aborting_raised {call : AbortCall} {attempt : Attempt}
    (h : (Phase.aborting call attempt).raised = .finished) : call = .failTransition := by
  cases call with
  | failTransition => rfl
  | _ => cases h

theorem gives_aborting {kind : Kind} {call : AbortCall} {attempt : Attempt}
    (h : call = .failTransition ∨ outcome = .crash) :
    Executor.gives outcome ⟨kind, .aborting call attempt⟩ = true := by
  rcases h with rfl | rfl
  · rfl
  · cases call <;> rfl

/-- A transition that ends leaves the collection ahead exactly when it was and the
    transition dies or has aborted. -/
theorem act_ends (h : KeepsUp e s) (hcritical : e.phase.critical = true)
    (hact : e.act s outcome = some (s', e')) (hends : e'.phase = .finished) :
    s'.barrier = false ∧ (s'.Ahead ↔ s.Ahead ∧ e.gives outcome = true) := by
  obtain ⟨s₁, phase, henter, hcases⟩ := act_cases hact
  obtain ⟨rfl, hpostgres, hcollection, -, -⟩ := enter_eq henter
  obtain rfl : phase = .finished := hends
  have hbarrier : s'.barrier = false := by
    simp only [Executor.enter, hcritical, and_self, if_true, Prod.mk.injEq] at henter
    rw [← henter.1]
  refine ⟨hbarrier, (ahead_congr hpostgres hcollection).trans ?_⟩
  obtain ⟨kind, phase⟩ := e
  rcases critical_cases hcritical with hrecovers | ⟨calls, attempt, rfl⟩ | ⟨call, attempt, rfl⟩
  · have hnot : ¬ s.Ahead := h.recovers hrecovers
    refine iff_of_false ?_ fun hahead => hnot hahead.1
    rcases hcases with ⟨-, hproceed⟩ | ⟨-, -, phase', hproceed⟩ | ⟨rfl, -⟩
    · obtain ⟨hp, hc, -⟩ := proceed_recovers hrecovers hproceed
      exact (ahead_congr hp hc).not.mpr hnot
    · obtain ⟨hp, hc, -⟩ := proceed_recovers hrecovers hproceed
      exact (ahead_congr hp hc).not.mpr hnot
    · exact hnot
  · rcases hcases with ⟨rfl, hproceed⟩ | ⟨-, hlost, -⟩ | ⟨rfl, ⟨-, -, hraised⟩ | ⟨rfl, -⟩⟩
    · -- The last call leaves both selections on the target.
      refine iff_of_false ?_ fun hahead => by cases hahead.2
      cases calls with
      | nil => cases hproceed
      | cons call calls =>
        obtain ⟨s₂, hperform, heq⟩ := Option.map_eq_some_iff.mp hproceed
        obtain ⟨hpost, hcol⟩ := h.perform hperform
        obtain ⟨rfl, hlast⟩ := Prod.mk.inj heq
        split at hlast
        · rename_i hnil
          rw [hnil] at hpost hcol
          intro hahead
          cases kind with
          | cutover => cases (hpost List.not_mem_nil).symm.trans hahead.1
          | rollback => cases (hcol List.not_mem_nil).symm.trans hahead.2
        · cases hlast
    · cases calls <;> cases hlost
    · cases hraised
    · exact ⟨fun hahead => ⟨hahead, rfl⟩, And.left⟩
  · rcases hcases with ⟨-, hproceed⟩ | ⟨-, hlost, phase', hproceed⟩ |
      ⟨rfl, ⟨-, -, hraised⟩ | ⟨rfl, -⟩⟩
    · obtain ⟨rfl, hp, hc⟩ := (proceed_aborting hproceed).2 rfl
      exact (ahead_congr hp hc).trans (and_iff_left (gives_aborting (.inl rfl))).symm
    · obtain rfl := aborting_raised hlost.symm
      obtain ⟨s₂, -, heq⟩ := Option.map_eq_some_iff.mp hproceed
      obtain ⟨-, rfl⟩ := Prod.mk.inj heq
      obtain ⟨-, hp, hc⟩ := (proceed_aborting hproceed).2 rfl
      exact (ahead_congr hp hc).trans (and_iff_left (gives_aborting (.inl rfl))).symm
    · obtain rfl := aborting_raised hraised.symm
      exact (and_iff_left (gives_aborting (.inl rfl))).symm
    · exact (and_iff_left (gives_aborting (.inr rfl))).symm

theorem act_gives (hgives : e.gives outcome = true) (hact : e.act s outcome = some (s', e')) :
    e'.phase = .finished := by
  obtain ⟨s₁, phase, henter, hcases⟩ := act_cases hact
  obtain ⟨rfl, -⟩ := enter_eq henter
  obtain ⟨kind, phase'⟩ := e
  unfold Executor.gives at hgives
  split at hgives
  · rename_i attempt hphase
    obtain rfl : phase' = .aborting .failTransition attempt := hphase
    rcases hcases with ⟨-, hproceed⟩ | ⟨-, hlost, -⟩ | ⟨-, ⟨-, -, hraised⟩ | ⟨-, hcrash⟩⟩
    · obtain ⟨s₂, -, heq⟩ := Option.map_eq_some_iff.mp hproceed
      exact (Prod.mk.inj heq).2.symm
    · exact hlost
    · exact hraised
    · exact hcrash
  · obtain rfl := of_decide_eq_true hgives
    cases phase' <;> cases hact <;> rfl

/-- While an executor goes on the barrier stays held. -/
theorem act_goes_on (hcritical : e.phase.critical = true)
    (hact : e.act s outcome = some (s', e')) (hgoes : e'.phase ≠ .finished) :
    s'.barrier = s.barrier := by
  obtain ⟨s₁, phase, henter, hcases⟩ := act_cases hact
  obtain ⟨rfl, -, -, -, hsame | ⟨-, rfl⟩⟩ := enter_eq henter
  · refine hsame.trans ?_
    rcases hcases with ⟨-, hproceed⟩ | ⟨-, -, phase', hproceed⟩ | ⟨rfl, -⟩
    · exact proceed_barrier hcritical hproceed
    · exact proceed_barrier hcritical hproceed
    · rfl
  · exact absurd rfl hgoes

/-! ## Every run -/

/-- What every executor of a pool knows. -/
structure PoolKeepsUp (pool : Pool Stores Executor) : Prop extends Exclusive pool where
  keepsUp : ∀ e ∈ pool.threads, KeepsUp e pool.shared

/-- Whenever no executor holds the barrier the collection is not ahead. -/
def Level (pool : Pool Stores Executor) : Prop := pool.shared.barrier = false → ¬ pool.shared.Ahead

variable {x : LifecycleMove} {i : Nat}

theorem poolKeepsUp_step (hx : lifecycle.machine.Makes x) (hok : PoolKeepsUp x.pre)
    (hlevel : Level x.pre) : PoolKeepsUp x.post := by
  rcases Pool.makes_cases hx with ⟨e, -, hadmits, hpost⟩ | ⟨i, outcome, e, e', hacts⟩ | ⟨event, -⟩
  · have houtside : e.phase.critical = false := by
      have hphase : e.phase = .snapshot := of_decide_eq_true hadmits
      rw [hphase]
      rfl
    refine ⟨hok.toExclusive.spawn houtside hpost, ?_⟩
    rw [hpost]
    intro f hf
    rcases List.mem_append.mp hf with hf | hf
    · exact hok.keepsUp f hf
    · exact keepsUp_outside (List.mem_singleton.mp hf ▸ houtside)
  · have hself : KeepsUp e' x.post.shared :=
      act_keepsUp (hok.keepsUp e (List.mem_of_getElem? hacts.found)) (fun _ => hlevel) hacts.act
    exact ⟨hok.toExclusive.acts hacts, hok.toExclusive.forall_acts (fun _ _ => keepsUp_outside)
      (fun _ _ _ hpostgres hcollection _ h => h.congr hpostgres hcollection) hacts hok.keepsUp hself⟩
  · exact event.elim

theorem endsAhead_acts {outcome : Outcome} (hacts : Pool.Acts lifecycle x i outcome e e') :
    endsAhead x = false ↔
      ¬ (e.phase.critical = true ∧ e.gives outcome = true ∧ x.pre.shared.Ahead) := by
  rw [endsAhead, hacts.input]
  simp [hacts.found]

/-- A step leaves the barrier free and the collection ahead exactly when a transition
    ends so. -/
theorem level_step (hx : lifecycle.machine.Makes x) (hok : PoolKeepsUp x.pre)
    (hlevel : Level x.pre) : Level x.post ↔ endsAhead x = false := by
  rcases Pool.makes_cases hx with ⟨e, hinput, -, hpost⟩ | ⟨i, outcome, e, e', hacts⟩ | ⟨event, -⟩
  · refine iff_of_true ?_ (by rw [endsAhead, hinput])
    rw [hpost]
    exact hlevel
  · have hmem := List.mem_of_getElem? hacts.found
    have hact : e.act x.pre.shared outcome = some (x.post.shared, e') := hacts.act
    rw [endsAhead_acts hacts]
    cases hcritical : e.phase.critical with
    | false =>
      refine iff_of_true (fun hfree => ?_) fun hends => by cases hends.1
      obtain ⟨hpostgres, hcollection, -, hsame | ⟨-, htaken⟩⟩ := act_outside hact hcritical
      · exact (ahead_congr hpostgres hcollection).not.mpr (hlevel (hsame.symm.trans hfree))
      · rw [htaken] at hfree
        cases hfree
    | true =>
      by_cases hends : e'.phase = .finished
      · obtain ⟨hfree, hahead⟩ := act_ends (hok.keepsUp e hmem) hcritical hact hends
        rw [Level, hahead]
        constructor
        · rintro h ⟨-, hgives, hpre⟩
          exact h hfree ⟨hpre, hgives⟩
        · rintro h - ⟨hpre, hgives⟩
          exact h ⟨rfl, hgives, hpre⟩
      · refine iff_of_true (fun hfree => ?_) fun h => hends (act_gives h.2.1 hact)
        rw [act_goes_on hcritical hact hends, hok.held e hmem hcritical] at hfree
        cases hfree
  · exact event.elim

/-- Whatever a run of transitions leaves, a failure-free rollback on its own ends with
    PostgreSQL on v1 and the row in `shadow`, and with the collection on v1 unless the
    collection was ahead.  It is never ahead exactly when no transition dies or aborts
    while it is. -/
theorem rollback_available {postgres collection : Selection} {receipt : ReceiptStatus}
    {row : Option LifecycleRow} {tr : List LifecycleMove} {final : Pool Stores Executor}
    (hrest : postgres = .lexicalV1 → collection = .lexicalV1)
    (h : Run lifecycle.machine (Stores.atRest postgres collection receipt row) tr final) :
    (∀ x ∈ tr, x.post.shared.barrier = false → ∀ enabled keep : Bool,
        let left := rollbackAlone enabled keep x.post.shared
        left.2.phase = .finished ∧ left.1.postgres = .lexicalV1 ∧ left.1.rowState = .shadow ∧
          (left.1.collection = .lexicalV1 ↔ ¬ x.post.shared.Ahead)) ∧
      ((∀ x ∈ tr, x.post.shared.barrier = false → ¬ x.post.shared.Ahead) ↔
        ∀ x ∈ tr, endsAhead x = false) := by
  constructor
  · intro x _ hfree enabled keep
    obtain ⟨hfinished, hpostgres, hrow, hcollection⟩ := rollbackAlone_spec enabled keep hfree
    refine ⟨hfinished, hpostgres, hrow, ?_⟩
    rw [hcollection, Stores.Ahead]
    cases x.post.shared.postgres <;> cases x.post.shared.collection <;> decide
  · refine Run.forall_iff (P := PoolKeepsUp) (Q := Level) (fun _ => poolKeepsUp_step)
      (fun _ => level_step) h ⟨exclusive_atRest, nofun⟩ ?_
    rintro - ⟨hpostgres, hcollection⟩
    cases (hrest hpostgres).symm.trans hcollection

/-- After a cutover a rollback with the kill switch off brings both selections back. -/
theorem rollback_available_cutover :
    ∃ tr final, Run lifecycle.machine (Stores.atRest .lexicalV1 .lexicalV1 .absent none) tr final ∧
      (∃ x ∈ tr, x.post.shared.barrier = false ∧ x.post.shared.postgres = .bm25V2 ∧
        (rollbackAlone false true x.post.shared).1.collection = .lexicalV1) ∧
      ((∀ x ∈ tr, x.post.shared.barrier = false → ¬ x.post.shared.Ahead) ↔
        ∀ x ∈ tr, endsAhead x = false) := by
  obtain ⟨tr, final, hexec, x, hx, hfree, hpostgres⟩ :
      ∃ tr final, lifecycle.machine.exec (Stores.atRest .lexicalV1 .lexicalV1 .absent none)
          (.spawn ⟨.cutover, .snapshot⟩ :: List.replicate 19 (.step 0 .done)) = some (tr, final) ∧
        ∃ x ∈ tr, x.post.shared.barrier = false ∧ x.post.shared.postgres = .bm25V2 :=
    ⟨_, _, rfl, _, List.mem_of_getLast? rfl, rfl, rfl⟩
  have hrun := Machine.run_of_exec hexec
  obtain ⟨hleft, hlevel⟩ := rollback_available (fun _ => rfl) hrun
  refine ⟨tr, final, hrun, ⟨x, hx, hfree, hpostgres, ?_⟩, hlevel⟩
  refine (hleft x hx hfree false true).2.2.2.mpr fun hahead => ?_
  cases hahead.1.symm.trans hpostgres

/-- `ensure_lexical_config` of a cutover raises after it has written the metadata: the
    abort leaves the collection on v2, and every rollback is refused. -/
theorem rollback_refused :
    ¬ ∀ (postgres collection : Selection) (receipt : ReceiptStatus) (row : Option LifecycleRow)
      (tr : List LifecycleMove) (final : Pool Stores Executor),
      (postgres = .lexicalV1 → collection = .lexicalV1) →
      Run lifecycle.machine (Stores.atRest postgres collection receipt row) tr final →
      ∀ x ∈ tr, x.post.shared.barrier = false → ∀ enabled keep : Bool,
        let left := rollbackAlone enabled keep x.post.shared
        left.2.phase = .finished ∧ left.1.postgres = .lexicalV1 ∧
          left.1.collection = .lexicalV1 ∧ left.1.rowState = .shadow := by
  intro h
  obtain ⟨tr, final, hexec, x, hx, hfree, hcollection⟩ :
      ∃ tr final, lifecycle.machine.exec (Stores.atRest .lexicalV1 .lexicalV1 .absent none)
          (.spawn ⟨.cutover, .snapshot⟩ ::
            (List.replicate 13 (.step 0 .done) ++
              [.step 0 .lost, .step 0 .done, .step 0 .done])) = some (tr, final) ∧
        ∃ x ∈ tr, x.post.shared.barrier = false ∧
          (rollbackAlone true true x.post.shared).1.collection = .bm25V2 :=
    ⟨_, _, rfl, _, List.mem_of_getLast? rfl, rfl, rfl⟩
  have hleft := (h _ _ _ _ tr final (fun _ => rfl) (Machine.run_of_exec hexec) x hx hfree true true).2.2.1
  rw [hcollection] at hleft
  cases hleft

end AiPlatform.Knowledge
