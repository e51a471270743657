/-
  AiPlatform.Worker.Cancel

  How a claimed execution that may have a side effect ends.

  `MemoryStore::cancel` picks the terminal status from what it has read and
  appends it in a second critical section.  When the read saw no claim and a
  dispatch has come in between, the append goes through without a fence and the
  execution ends as cancelled while its worker is at work.
-/

import AiPlatform.Worker.Recovery
import AiPlatform.Worker.Reservation

namespace AiPlatform.Worker

open AiPlatform.Json AiPlatform.Capability Transition

variable {toVec : Payload → Option (List UInt8)}

/-! ## What tasks know -/

/-- An open execution has no result summary yet. -/
def SlotPending (slot : Slot) : Prop :=
  ∀ record, slot.record = some record → record.execution.status.isTerminal = false →
    record.resultSummary = none

/-- What a task has read holds of the store: recovery's records have no result
    summary, and a cancel has read the execution it is about to finish. -/
def TaskOk (store : MemoryState) : Task → Prop
  | .recovering records => ∀ record ∈ records, record.resultSummary = none
  | .terminalizing record rest =>
      record.resultSummary = none ∧ ∀ other ∈ rest, other.resultSummary = none
  | .cancelAppending scope id current =>
      current.scope = scope ∧ ∃ record, store.executions[id]? = some record ∧
        record.identity = current.identity
  | _ => True

structure WorkerOk (w : WorkerState) : Prop where
  pending : ∀ executionId, SlotPending (w.store.slot executionId)
  tasks : ∀ task ∈ w.tasks, TaskOk w.store task

theorem pending_step {executionId : String} {y : StoreMove} {a b : Slot}
    (h : SlotStep executionId y a b) (ha : SlotPending a) : SlotPending b := by
  cases h with
  | same _ _ => exact ha
  | create log requested _ _ _ _ _ =>
      intro record hrecord _
      obtain rfl := Option.some.inj hrecord
      rfl
  | claim record log fence _ _ hopen =>
      intro record' hrecord' _
      obtain rfl := Option.some.inj hrecord'
      exact ha record rfl hopen.open_
  | reclaim record log fence _ _ _ | renew record log fence leaseMs _ _
  | refuse record log eventId event status payload fence _ _ _ =>
      intro record' hrecord' hopen'
      obtain rfl := Option.some.inj hrecord'
      exact ha record rfl hopen'
  | append record log eventId event status payload fence _ hadm _ =>
      intro record' hrecord' hopen'
      obtain rfl := Option.some.inj hrecord'
      rw [ExecutionRecord.appended_status] at hopen'
      show (if status.isTerminal = true then _ else record.resultSummary) = none
      rw [hopen', if_neg Bool.false_ne_true]
      exact ha record rfl hadm.open_

/-- What a task knows stays true while records keep their identity. -/
theorem TaskOk.mono {store store' : MemoryState} {task : Task} (h : TaskOk store task)
    (hkeep : ∀ (id : String) record, store.executions[id]? = some record →
      ∃ record', store'.executions[id]? = some record' ∧
        record'.identity = record.identity) : TaskOk store' task := by
  cases task with
  | cancelAppending scope id current =>
      obtain ⟨hscope, record, hat, hid⟩ := h
      obtain ⟨record', hat', hid'⟩ := hkeep id record hat
      exact ⟨hscope, record', hat', hid'.trans hid⟩
  | _ => exact h

theorem isTerminal_of_recoverable {now : Nat} {record : ExecutionRecord}
    (h : isRecoverableExecution now record = true) :
    record.execution.status.isTerminal = false := by
  unfold isRecoverableExecution at h
  cases hs : record.execution.status <;> first | rfl | simp [hs] at h

/-- A task that carries no record it has read. -/
def Task.carriesNothing : Task → Bool
  | .recovering _ | .terminalizing _ _ | .cancelAppending _ _ _ => false
  | _ => true

theorem TaskOk.of_nothing {store : MemoryState} {task : Task}
    (h : task.carriesNothing = true) : TaskOk store task := by
  cases task <;> first | trivial | exact absurd h (by simp [Task.carriesNothing])

/-- Only recovery's query, its terminal event and a cancel's read are followed by a
    task that carries records. -/
theorem Task.carriesNothing_of_next {choice : Choice} {task new : Task} {reply : StoreReply}
    (hnew : new ∈ task.next choice reply) :
    new.carriesNothing = true ∨ task = .loadingRecoverable ∨
      (∃ record rest, task = .terminalizing record rest) ∨
      ∃ scope id, task = .cancelling scope id := by
  unfold Task.next at hnew
  split at hnew
  all_goals first
    | exact .inr (.inl rfl)
    | exact .inr (.inr (.inl ⟨_, _, rfl⟩))
    | exact .inr (.inr (.inr ⟨_, _, rfl⟩))
    | left
  all_goals (try split at hnew)
  all_goals simp only [List.mem_cons, List.not_mem_nil, or_false] at hnew
  all_goals rcases hnew with rfl | rfl <;> rfl

/-- What follows a call knows what the reply says. -/
theorem taskOk_next {y : StoreMove} (hy : (storeMachine toVec).Makes y) {choice : Choice}
    {task : Task} (hcall : task.call toVec choice = some y.input.call)
    (hpending : ∀ executionId, SlotPending (y.pre.slot executionId))
    (htask : TaskOk y.pre task) :
    ∀ new ∈ task.next choice y.reply, TaskOk y.post new := by
  obtain ⟨pre, ⟨now, call⟩, reply, post⟩ := y
  have happly := (StoreMachine.makes_mk.mp hy).2
  simp only at hcall hpending htask
  intro new hnew
  rcases Task.carriesNothing_of_next hnew with
    hnothing | rfl | ⟨record, rest, rfl⟩ | ⟨scope, id, rfl⟩
  · exact .of_nothing hnothing
  · obtain rfl := Option.some.inj hcall
    obtain ⟨rfl, rfl⟩ := Prod.mk.inj happly
    obtain rfl := List.mem_singleton.mp hnew
    intro record hrecord
    obtain ⟨hmem, hrec⟩ := List.mem_filter.mp hrecord
    obtain ⟨id, hat⟩ := OrdMap.mem_values.mp hmem
    exact hpending id record hat (isTerminal_of_recoverable hrec)
  · obtain rfl := List.mem_singleton.mp hnew
    exact htask.2
  · obtain rfl := Option.some.inj hcall
    obtain ⟨rfl, rfl⟩ := Prod.mk.inj happly
    cases hget : MemoryStore.get scope id pre with
    | error e => simp [Task.next, hget] at hnew
    | ok current =>
        obtain ⟨hat, hscope⟩ := recordForScope_ok.mp hget
        simp only [Task.next, hget] at hnew
        split at hnew
        · simp at hnew
        · obtain rfl := List.mem_singleton.mp hnew
          exact ⟨hscope, current, hat, rfl⟩

/-- What follows a local move knows what its task knew. -/
theorem taskOk_proceed {store : MemoryState} {now : Nat} {choice : Choice} {task : Task}
    (htask : TaskOk store task) : ∀ new ∈ task.proceed now choice, TaskOk store new := by
  intro new hnew
  cases task with
  | recovering records =>
      cases records with
      | nil => simp [Task.proceed] at hnew
      | cons record rest =>
          have hrecord : record.resultSummary = none :=
            htask record (List.mem_cons_self ..)
          have hrest : ∀ other ∈ rest, other.resultSummary = none :=
            fun other hother => htask other (List.mem_cons_of_mem _ hother)
          simp only [Task.proceed] at hnew
          split at hnew
          · obtain rfl := List.mem_singleton.mp hnew
            exact hrest
          · split at hnew
            · obtain rfl := List.mem_singleton.mp hnew
              exact ⟨hrecord, hrest⟩
            · split at hnew
              · rcases List.mem_cons.mp hnew with rfl | hnew
                · trivial
                · obtain rfl := List.mem_singleton.mp hnew
                  exact hrest
              · obtain rfl := List.mem_singleton.mp hnew
                exact hrest
  | terminalizing record rest =>
      obtain rfl := List.mem_singleton.mp hnew
      exact htask.2
  | operating scope id fence =>
      obtain rfl := List.mem_singleton.mp hnew
      trivial
  | _ => simp [Task.proceed] at hnew

theorem workerOk_step {x : WorkerMove} (hx : (workerMachine toVec).Makes x)
    (h : WorkerOk x.pre) : WorkerOk x.post := by
  rcases WorkerMachine.cases_store hx with
    ⟨_, hstore, htasks⟩ | ⟨y, _, hy, hpre, hpost, _, _, hby⟩
  · refine ⟨by rw [hstore]; exact h.pending, ?_⟩
    intro task htask
    rw [hstore]
    cases htasks task htask with
    | stays hmem => exact h.tasks task hmem
    | comes hnew => exact .of_nothing (by rcases hnew with ⟨_, rfl⟩ | ⟨_, _, rfl⟩ | rfl <;> rfl)
    | follows old choice hold hnew => exact taskOk_proceed (h.tasks old hold) task hnew
  · have hkeep : ∀ (id : String) record, x.pre.store.executions[id]? = some record →
        ∃ record', x.post.store.executions[id]? = some record' ∧
          record'.identity = record.identity := by
      rw [← hpre, ← hpost]
      exact fun id record hat => (StoreMachine.slotStep hy id).persists hat
    have hpending : ∀ executionId, SlotPending (y.pre.slot executionId) := by
      rw [hpre]
      exact h.pending
    constructor
    · intro executionId
      rw [← hpost]
      exact pending_step (StoreMachine.slotStep hy executionId) (hpending executionId)
    · intro task htask
      rcases hby with ⟨hsame, _⟩ | ⟨i, choice, old, hcalls⟩
      · rw [hsame] at htask
        exact (h.tasks task htask).mono hkeep
      · rw [hcalls.tasks] at htask
        rcases WorkerMachine.mem_replaceTask htask with hmem | hnew
        · exact (h.tasks task hmem).mono hkeep
        · have hold : TaskOk y.pre old := by
            rw [hpre]
            exact h.tasks old (List.mem_of_getElem? hcalls.found)
          rw [← hpost]
          exact taskOk_next hy hcalls.call hpending hold task hnew

theorem workerOk_init : WorkerOk .init where
  pending := by
    intro executionId record hrecord
    exact absurd hrecord (by simp [WorkerState.init])
  tasks := by
    intro task htask
    exact absurd htask (List.not_mem_nil)

/-! ## Ends -/

/-- When the move ends a claimed execution that may write, it ends it with
    `side_effect_unknown` or it is the report of the worker that holds the fence. -/
def EndsHonestly (toVec : Payload → Option (List UInt8)) (executionId : String)
    (x : WorkerMove) : Prop :=
  ∀ record fence, x.pre.store.executions[executionId]? = some record →
    record.execution.effect ≠ .read → record.execution.status.isTerminal = false →
    record.dispatchFence = some fence →
    ∀ record', x.post.store.executions[executionId]? = some record' →
      record'.execution.status.isTerminal = true →
      record'.execution.status = .sideEffectUnknown ∨
        ∃ i choice scope result, x.input = .step i choice ∧
          x.pre.tasks[i]? = some (.reportTerminal scope executionId fence result) ∧
          record'.execution.status = (terminalOf toVec result).1

/-- The move is the append of a cancel that has read an unclaimed execution, on an
    execution that may write and has been claimed since. -/
def WorkerMove.cancelsStale (x : WorkerMove) : Bool :=
  match x.input with
  | .step i _ =>
      match x.pre.tasks[i]? with
      | some (.cancelAppending _ id current) =>
          current.dispatchFence.isNone
            && x.pre.store.executions[id]?.any (fun record =>
              record.execution.effect != .read && record.dispatchFence.isSome
                && !record.execution.status.isTerminal)
      | _ => false
  | _ => false

/-- Recovery cannot tell how an execution without a result summary has ended. -/
theorem recoveredTerminal_unknown {record : ExecutionRecord}
    (h : record.resultSummary = none) :
    (recoveredTerminal record).1 = .sideEffectUnknown := by
  have hnone : durableRecoveryResult record = none := by
    unfold durableRecoveryResult
    rw [h]
    cases record.execution.effect <;> rfl
  simp [recoveredTerminal, hnone]

/-- A terminal event that a task appends to a claimed execution that may write. -/
theorem ends_of_call {x : WorkerMove} {i : Nat} {choice : Choice} {task : Task}
    {call : StoreCall} {executionId eventId event fence : String} {record : ExecutionRecord}
    {status : CapabilityExecutionStatus} {payload : Payload} {given : Option String}
    (hinput : x.input = .step i choice) (hfound : x.pre.tasks[i]? = some task)
    (hcall : task.call toVec choice = some call)
    (happ : call.Appends executionId record eventId event status payload given)
    (hok : TaskOk x.pre.store task)
    (hat : x.pre.store.executions[executionId]? = some record)
    (hwrite : record.execution.effect ≠ .read)
    (hopen : record.execution.status.isTerminal = false)
    (hfence : record.dispatchFence = some fence)
    (hgiven : ∀ f, given = some f → record.dispatchFence = some f)
    (hterminal : status.isTerminal = true) (hstale : x.cancelsStale = false) :
    status = .sideEffectUnknown ∨
      ∃ i choice scope result, x.input = .step i choice ∧
        x.pre.tasks[i]? = some (.reportTerminal scope executionId fence result) ∧
        status = (terminalOf toVec result).1 := by
  cases happ with
  | cancel eventId => cases task <;> simp [Task.call] at hcall
  | appendEvent eventId event status payload given =>
      cases task with
      | publishing scope id | reportDispatched scope id f | reportRunning scope id f =>
          simp only [Task.call, Option.some.injEq, StoreCall.appendEvent.injEq] at hcall
          rw [← hcall.2.2.2.2.1] at hterminal
          exact absurd hterminal (by simp [CapabilityExecutionStatus.isTerminal])
      | reportTerminal scope id f result =>
          simp only [Task.call, Option.some.injEq, StoreCall.appendEvent.injEq] at hcall
          obtain ⟨_, rfl, _, _, rfl, _, rfl⟩ := hcall
          obtain rfl : f = fence := by
            have := hgiven f rfl
            rw [hfence] at this
            exact (Option.some.inj this).symm
          exact .inr ⟨i, choice, scope, result, hinput, hfound, rfl⟩
      | terminalizing r rest =>
          simp only [Task.call, Option.map_eq_some_iff, StoreCall.appendEvent.injEq] at hcall
          obtain ⟨_, _, _, _, _, _, rfl, _⟩ := hcall
          exact .inl (recoveredTerminal_unknown hok.1)
      | cancelAppending scope id current =>
          simp only [Task.call, Option.some.injEq, StoreCall.appendEvent.injEq] at hcall
          obtain ⟨_, rfl, _, _, rfl, _, _⟩ := hcall
          left
          obtain ⟨_, seen, hseen, hid⟩ := hok
          obtain rfl : seen = record := Option.some.inj (hseen.symm.trans hat)
          have heffect : current.execution.effect ≠ .read := by
            have := congrArg (fun i : NewExecution => i.execution.effect) hid
            exact fun hread => hwrite (this.trans hread)
          have hsome : current.dispatchFence.isSome = true := by
            by_contra hnone
            have : current.dispatchFence = none := by simpa using hnone
            simp [WorkerMove.cancelsStale, hinput, hfound, hat, hwrite, hopen, hfence,
              this] at hstale
          simp [MemoryStore.cancelStatus, heffect, hsome]
      | _ => simp [Task.call] at hcall

/-- Every move that is no stale cancel ends executions honestly. -/
theorem endsHonestly_of_fresh {x : WorkerMove} (hx : (workerMachine toVec).Makes x)
    (hok : WorkerOk x.pre) (hstale : x.cancelsStale = false) (executionId : String) :
    EndsHonestly toVec executionId x := by
  intro record fence hat hwrite hopen hfence record' hat' hterminal
  have unchanged : record'.execution.status = record.execution.status → False := by
    intro hsame
    rw [hsame, hopen] at hterminal
    exact absurd hterminal Bool.false_ne_true
  rcases WorkerMachine.cases_store hx with
    ⟨_, hstore, _⟩ | ⟨y, _, hy, hpre, hpost, _, _, hby⟩
  · rw [hstore, hat] at hat'
    exact (unchanged (congrArg (·.execution.status) (Option.some.inj hat').symm)).elim
  · have hstep := StoreMachine.slotStep hy executionId
    rw [hpre, MemoryState.slot_of_record hat, hpost] at hstep
    generalize hslot : x.post.store.slot executionId = post at hstep
    have hget : post.record = some record' := (congrArg Slot.record hslot).symm.trans hat'
    cases hstep with
    | same _ _ | reclaim _ _ _ _ _ _ | renew _ _ _ _ _ _ | refuse _ _ _ _ _ _ _ _ _ _ =>
        obtain rfl := Option.some.inj hget
        exact (unchanged rfl).elim
    | claim _ _ _ _ _ hun =>
        rw [hun.fence] at hfence
        exact absurd hfence (by simp)
    | append _ _ eventId event status payload given happ hadm _ =>
        obtain rfl := Option.some.inj hget
        rw [ExecutionRecord.appended_status] at hterminal ⊢
        rcases hby with ⟨_, _, _, hcall⟩ | ⟨i, choice, task, hcalls⟩
        · rw [hcall] at happ
          exact nomatch happ
        · exact ends_of_call hcalls.input hcalls.found hcalls.call happ
            (hok.tasks task (List.mem_of_getElem? hcalls.found)) hat hwrite hopen hfence
            hadm.fence hterminal hstale

/-- A stale cancel ends its execution as cancelled, and no worker has said so. -/
theorem not_endsHonestly_of_stale {x : WorkerMove} (hx : (workerMachine toVec).Makes x)
    (hok : WorkerOk x.pre)
    (hfits : MemoryStore.payloadFits toVec (MemoryStore.cancelPayload .cancelled) = true)
    (hstale : x.cancelsStale = true) : ∃ executionId, ¬ EndsHonestly toVec executionId x := by
  simp only [WorkerMove.cancelsStale] at hstale
  split at hstale
  swap
  · exact absurd hstale Bool.false_ne_true
  rename_i i choice hinput
  split at hstale
  swap
  · exact absurd hstale Bool.false_ne_true
  rename_i scope executionId current hfound
  simp only [Bool.and_eq_true, Option.any_eq_true, bne_iff_ne, Bool.not_eq_true',
    Option.isNone_iff_eq_none, Option.isSome_iff_exists] at hstale
  obtain ⟨hnone, record, hat, ⟨hwrite, fence, hfence⟩, hopen⟩ := hstale
  have hstatus : MemoryStore.cancelStatus current = .cancelled := by
    simp [MemoryStore.cancelStatus, hnone]
  obtain ⟨hscope, seen, hseen, hid⟩ := hok.tasks _ (List.mem_of_getElem? hfound)
  obtain rfl : seen = record := Option.some.inj (hseen.symm.trans hat)
  have hr : recordForScope x.pre.store scope executionId = .ok seen := by
    refine recordForScope_ok.mpr ⟨hat, ?_⟩
    rw [← hscope]
    exact congrArg (fun i : NewExecution => i.execution.scope) hid
  obtain ⟨hfresh, hpost⟩ := WorkerMachine.step_calls hx hinput hfound rfl
  simp only [StoreCall.apply, hstatus, hnone] at hpost
  rw [MemoryStore.appendEvent_ok toVec hfits (by simpa [Task.fresh] using hfresh) hr
    ⟨hopen, rfl, fun f hf => absurd hf (by simp)⟩ (fun hn => absurd hn (by decide))] at hpost
  have hat' : x.post.store.executions[executionId]? =
      some (seen.appended x.pre.now .cancelled (MemoryStore.cancelPayload .cancelled)) := by
    rw [hpost]
    exact Std.ExtTreeMap.getElem?_insert_self
  refine ⟨executionId, ?_⟩
  intro hends
  rcases hends seen fence hat hwrite hopen hfence _ hat'
      (by rw [ExecutionRecord.appended_status]; rfl) with
    hunknown | ⟨j, choice', scope', result, hinput', hfound', _⟩
  · rw [ExecutionRecord.appended_status] at hunknown
    exact absurd hunknown (by simp)
  · obtain ⟨rfl, _⟩ := WorkerInput.step.inj (hinput.symm.trans hinput')
    exact absurd (hfound.symm.trans hfound') (by simp)

/-! ## Runs -/

theorem workerOk_run {w : WorkerState} {tr : List WorkerMove}
    (h : Run (workerMachine toVec) .init tr w) :
    ∀ x ∈ tr, (workerMachine toVec).Makes x ∧ WorkerOk x.pre := by
  intro x hx
  obtain ⟨tr₁, hbefore, hmakes⟩ := Run.of_mem h hx
  exact ⟨hmakes, Run.invariant (fun _ hy => workerOk_step hy) hbefore workerOk_init⟩

/-- Every claimed execution that may write ends honestly exactly in the runs
    without a stale cancel. -/
theorem ends_honestly_iff {w : WorkerState} {tr : List WorkerMove}
    (hfits : MemoryStore.payloadFits toVec (MemoryStore.cancelPayload .cancelled) = true)
    (h : Run (workerMachine toVec) .init tr w) :
    (∀ x ∈ tr, ∀ executionId, EndsHonestly toVec executionId x) ↔
      ∀ x ∈ tr, x.cancelsStale = false := by
  constructor
  · intro hends x hx
    obtain ⟨hmakes, hok⟩ := workerOk_run h x hx
    by_contra hstale
    obtain ⟨executionId, hnot⟩ :=
      not_endsHonestly_of_stale hmakes hok hfits (by simpa using hstale)
    exact hnot (hends x hx executionId)
  · intro hstale x hx executionId
    obtain ⟨hmakes, hok⟩ := workerOk_run h x hx
    exact endsHonestly_of_fresh hmakes hok (hstale x hx) executionId

/-- A write is claimed and then cancelled. -/
def cancelClaimed : List WorkerInput :=
  [.approve "approval-1" (.object []),
    .create (sampleRequest sampleId .write), .step 0 (choose ""), .step 0 (choose ""),
    .step 0 (choose ""), .step 0 (choose "fence-1"),
    .cancel sampleScope sampleId, .step 3 (choose ""), .step 3 (choose "event-5")]

/-- It ends as unknown. -/
theorem ends_honestly_iff_claimed :
    ∃ tr w record, Run (workerMachine plainToVec) .init tr w ∧
      w.store.executions[sampleId]? = some record ∧
      record.execution.status = .sideEffectUnknown ∧
      ∀ x ∈ tr, ∀ executionId, EndsHonestly plainToVec executionId x := by
  obtain ⟨tr, w, h, _, hcheck⟩ := Machine.exists_run (workerMachine plainToVec) .init
    cancelClaimed
    (fun tr w => tr.all (fun x => !WorkerMove.cancelsStale x)
      && w.store.executions[sampleId]?.any (fun record : ExecutionRecord =>
        record.execution.status == .sideEffectUnknown))
    (by decide)
  simp only [Bool.and_eq_true, List.all_eq_true, Bool.not_eq_true', Option.any_eq_true,
    beq_iff_eq] at hcheck
  obtain ⟨hstale, record, hat, hstatus⟩ := hcheck
  exact ⟨tr, w, record, h, hat, hstatus, (ends_honestly_iff (by decide) h).mpr hstale⟩

/-- A cancel reads a write before it is claimed and ends it after. -/
def cancelAcrossClaim : List WorkerInput :=
  [.approve "approval-1" (.object []),
    .create (sampleRequest sampleId .write), .step 0 (choose ""), .step 0 (choose ""),
    .cancel sampleScope sampleId, .step 2 (choose ""),
    .step 0 (choose ""), .step 0 (choose "fence-1"),
    .step 3 (choose "event-5")]

/-- It ends as cancelled, with its fence set and its worker still there. -/
theorem cancelled_across_claim :
    ∃ tr w record, Run (workerMachine plainToVec) .init tr w ∧
      w.store.executions[sampleId]? = some record ∧ record.execution.effect = .write ∧
      record.dispatchFence = some "fence-1" ∧ record.execution.status = .cancelled ∧
      ¬ ∀ x ∈ tr, ∀ executionId, EndsHonestly plainToVec executionId x := by
  obtain ⟨tr, w, h, _, hcheck⟩ := Machine.exists_run (workerMachine plainToVec) .init
    cancelAcrossClaim
    (fun tr w => tr.any WorkerMove.cancelsStale
      && w.store.executions[sampleId]?.any (fun record : ExecutionRecord =>
        decide (record.execution.effect = .write ∧ record.dispatchFence = some "fence-1" ∧
          record.execution.status = .cancelled)))
    (by decide)
  simp only [Bool.and_eq_true, List.any_eq_true, Option.any_eq_true,
    decide_eq_true_eq] at hcheck
  obtain ⟨⟨x, hx, hstale⟩, record, hat, heffect, hfence, hstatus⟩ := hcheck
  refine ⟨tr, w, record, h, hat, heffect, hfence, hstatus, ?_⟩
  intro hends
  obtain ⟨hmakes, hok⟩ := workerOk_run h x hx
  obtain ⟨executionId, hnot⟩ := not_endsHonestly_of_stale hmakes hok (by decide) hstale
  exact hnot (hends x hx executionId)

end AiPlatform.Worker
