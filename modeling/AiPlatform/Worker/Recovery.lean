/-
  AiPlatform.Worker.Recovery

  Executions whose worker is gone come back through `recoverable()`.

  For an execution that may write, that rests on its status telling whether it
  has been claimed: published without a fence, dispatched or running with one.
  One step of the worker can break this.  `create_execution` appends the
  published event after its reservation, and recovery may claim the execution in
  between; the late event sets the status back and leaves the fence.
-/

import AiPlatform.Worker.Tasks

namespace AiPlatform.Worker

open AiPlatform.Json AiPlatform.Capability Transition

variable {toVec : Payload → Option (List UInt8)}

/-! ## Status and fence -/

/-- The status of an execution that may write tells whether it is claimed. -/
structure StatusTellsFence (record : ExecutionRecord) : Prop where
  published : record.execution.status = .published → record.dispatchFence = none
  dispatched : record.execution.status = .dispatched → record.dispatchFence ≠ none
  running : record.execution.status = .running → record.dispatchFence ≠ none

def SlotTellsFence (slot : Slot) : Prop :=
  ∀ record, slot.record = some record → record.execution.effect ≠ .read →
    StatusTellsFence record

/-- The store move appends a published event to a claimed execution that may
    write and has no event yet. -/
def PublishesLate (executionId : String) (y : StoreMove) : Prop :=
  ∃ record eventId event payload fence,
    y.pre.executions[executionId]? = some record ∧
    y.input.call.Appends executionId record eventId event .published payload fence ∧
    record.execution.effect ≠ .read ∧ record.dispatchFence ≠ none ∧ record.lastSequence = 0

theorem tellsFence_step {y : StoreMove} (hy : (storeMachine toVec).Makes y)
    (executionId : String) (hlate : ¬ PublishesLate executionId y)
    (h : SlotTellsFence (y.pre.slot executionId)) :
    SlotTellsFence (y.post.slot executionId) := by
  have hstep := StoreMachine.slotStep hy executionId
  generalize hpre : y.pre.slot executionId = pre at hstep h
  have hget : y.pre.executions[executionId]? = pre.record := congrArg Slot.record hpre
  generalize y.post.slot executionId = post at hstep
  cases hstep with
  | same _ _ => exact h
  | create log requested _ hnew _ _ _ =>
      intro record hrecord _
      obtain rfl := Option.some.inj hrecord
      have hstatus : requested.execution.status = .published := by
        simp only [NewExecution.isNew, Bool.and_eq_true, beq_iff_eq] at hnew
        exact hnew.1.1
      exact ⟨fun _ => rfl, fun hs => by simp [MemoryStore.newRecord, hstatus] at hs,
        fun hs => by simp [MemoryStore.newRecord, hstatus] at hs⟩
  | claim record log fence _ _ _ =>
      intro record' hrecord' _
      obtain rfl := Option.some.inj hrecord'
      exact ⟨fun hs => by simp at hs, fun _ => by simp, fun _ => by simp⟩
  | reclaim record log fence _ _ hopen =>
      intro record' hrecord' hwrite
      obtain rfl := Option.some.inj hrecord'
      exact absurd hopen.read hwrite
  | renew record log fence leaseMs _ _ =>
      intro record' hrecord' hwrite
      obtain rfl := Option.some.inj hrecord'
      obtain ⟨hp, hd, hr⟩ := h record rfl hwrite
      exact ⟨hp, hd, hr⟩
  | refuse record log eventId event status payload fence _ _ _ =>
      intro record' hrecord' hwrite
      obtain rfl := Option.some.inj hrecord'
      obtain ⟨hp, hd, hr⟩ := h record rfl hwrite
      exact ⟨hp, hd, hr⟩
  | append record log eventId event status payload fence happ hadm hneeds =>
      intro record' hrecord' hwrite
      obtain rfl := Option.some.inj hrecord'
      rw [ExecutionRecord.appended_effect] at hwrite
      constructor
      · intro hs
        rw [ExecutionRecord.appended_status] at hs
        subst hs
        rw [ExecutionRecord.appended_fence]
        by_contra hfence
        have hzero : record.lastSequence = 0 := by
          simpa [MemoryStore.validTransition] using hadm.transition
        exact hlate ⟨record, eventId, event, payload, fence, hget, happ, hwrite, hfence, hzero⟩
      · intro hs
        rw [ExecutionRecord.appended_status] at hs
        subst hs
        exact hneeds rfl
      · intro hs
        rw [ExecutionRecord.appended_status] at hs
        subst hs
        exact hneeds rfl

/-! ## The worker -/

/-- The move is `create_execution` at its published event, for an execution that
    may write, has been claimed meanwhile and has no event yet. -/
def WorkerMove.publishesLate (x : WorkerMove) : Bool :=
  match x.input with
  | .step i _ =>
      match x.pre.tasks[i]? with
      | some (.publishing _ id) =>
          x.pre.store.executions[id]?.any (fun record =>
            record.execution.effect != .read && record.dispatchFence.isSome
              && record.lastSequence == 0)
      | _ => false
  | _ => false

theorem terminalOf_isTerminal (toVec : Payload → Option (List UInt8))
    (result : OperationResult) :
    (terminalOf toVec result).1.isTerminal = true := by
  unfold terminalOf
  cases result with
  | ok value => simp only; split <;> rfl
  | sideEffectUnknown => simp only; split <;> rfl
  | failed errorCode =>
      simp only
      split
      · rfl
      · split
        · rfl
        · split <;> rfl

theorem recoveredTerminal_isTerminal (record : ExecutionRecord) :
    (recoveredTerminal record).1.isTerminal = true := by
  unfold recoveredTerminal
  cases durableRecoveryResult record <;> rfl

theorem cancelStatus_isTerminal (current : ExecutionRecord) :
    (MemoryStore.cancelStatus current).isTerminal = true := by
  unfold MemoryStore.cancelStatus
  split <;> rfl

/-- Of the tasks only `create_execution` sends a published event. -/
theorem publishing_of_call {task : Task} {choice : Choice} {call : StoreCall}
    (hcall : task.call toVec choice = some call) {executionId eventId event : String}
    {record : ExecutionRecord} {payload : Payload} {fence : Option String}
    (happ : call.Appends executionId record eventId event .published payload fence) :
    ∃ scope, task = .publishing scope executionId := by
  generalize hstatus : CapabilityExecutionStatus.published = status at happ
  cases happ with
  | cancel eventId => cases task <;> simp [Task.call] at hcall
  | appendEvent eventId event status payload fence =>
      cases task with
      | publishing scope id =>
          simp only [Task.call, Option.some.injEq, StoreCall.appendEvent.injEq] at hcall
          exact ⟨scope, by rw [hcall.2.1]⟩
      | reportTerminal scope id f result =>
          simp only [Task.call, Option.some.injEq, StoreCall.appendEvent.injEq] at hcall
          have := terminalOf_isTerminal toVec result
          rw [hcall.2.2.2.2.1, ← hstatus] at this
          exact absurd this (by simp [CapabilityExecutionStatus.isTerminal])
      | terminalizing r rest =>
          simp only [Task.call, Option.map_eq_some_iff, StoreCall.appendEvent.injEq] at hcall
          obtain ⟨_, _, _, _, _, _, hs, _⟩ := hcall
          have := recoveredTerminal_isTerminal r
          rw [hs, ← hstatus] at this
          exact absurd this (by simp [CapabilityExecutionStatus.isTerminal])
      | cancelAppending scope id current =>
          simp only [Task.call, Option.some.injEq, StoreCall.appendEvent.injEq] at hcall
          have := cancelStatus_isTerminal current
          rw [hcall.2.2.2.2.1, ← hstatus] at this
          exact absurd this (by simp [CapabilityExecutionStatus.isTerminal])
      | reportDispatched scope id f | reportRunning scope id f =>
          simp only [Task.call, Option.some.injEq, StoreCall.appendEvent.injEq] at hcall
          rw [← hstatus] at hcall
          exact absurd hcall.2.2.2.2.1 (by simp)
      | _ => simp [Task.call] at hcall

/-- A worker move that publishes late does so by a late publish of the worker. -/
theorem publishesLate_of_store {x : WorkerMove} {y : StoreMove} {executionId : String}
    (hpre : y.pre = x.pre.store)
    (hby : (∃ approvalId arguments,
        y.input.call = .registerApprovedAuthority approvalId arguments) ∨
      ∃ i choice task, WorkerMachine.Calls toVec x y i choice task)
    (hlate : PublishesLate executionId y) : x.publishesLate = true := by
  obtain ⟨record, eventId, event, payload, fence, hat, happ, hwrite, hfence, hzero⟩ := hlate
  rcases hby with ⟨approvalId, arguments, hcall⟩ | ⟨i, choice, task, hcalls⟩
  · rw [hcall] at happ
    exact nomatch happ
  · obtain ⟨scope, rfl⟩ := publishing_of_call hcalls.call happ
    rw [hpre] at hat
    have hsome : record.dispatchFence.isSome = true := Option.isSome_iff_ne_none.mpr hfence
    simp [WorkerMove.publishesLate, hcalls.input, hcalls.found, hat, hwrite, hsome, hzero]

theorem tellsFence_worker {x : WorkerMove} (hx : (workerMachine toVec).Makes x)
    (hlate : x.publishesLate = false)
    (h : ∀ executionId, SlotTellsFence (x.pre.store.slot executionId)) (executionId : String) :
    SlotTellsFence (x.post.store.slot executionId) := by
  rcases WorkerMachine.cases_store hx with
    ⟨_, hstore, _⟩ | ⟨y, _, hy, hpre, hpost, _, _, hby⟩
  · rw [hstore]
    exact h executionId
  · rw [← hpost]
    refine tellsFence_step hy executionId ?_ (by rw [hpre]; exact h executionId)
    intro hl
    have hby' := hby.imp (fun hr => hr.2) id
    rw [publishesLate_of_store hpre hby' hl] at hlate
    exact absurd hlate (by simp)

/-! ## No execution is left behind -/

/-- Where the status tells the fence, an execution that is neither finished nor
    waiting for approval, and that no lease protects, is recoverable. -/
theorem isRecoverable_of_tells {now : Nat} {record : ExecutionRecord}
    (h : record.execution.effect ≠ .read → StatusTellsFence record)
    (hopen : record.execution.status.isTerminal = false)
    (hawaiting : record.execution.status ≠ .awaitingApproval)
    (hlease : record.leaseIsOver now = true) :
    isRecoverableExecution now record = true := by
  unfold isRecoverableExecution
  cases heffect : record.execution.effect with
  | read => cases hs : record.execution.status <;> simp_all [CapabilityExecutionStatus.isTerminal]
  | write | unknown =>
      have htells := h (by simp [heffect])
      cases hs : record.execution.status with
      | published => simp [htells.published hs]
      | dispatched =>
          simp [Option.isSome_iff_ne_none, htells.dispatched hs, hlease]
      | running => simp [Option.isSome_iff_ne_none, htells.running hs, hlease]
      | awaitingApproval => exact absurd hs hawaiting
      | succeeded | failed | cancelled | timeout | sideEffectUnknown =>
          rw [hs] at hopen
          exact absurd hopen (by simp [CapabilityExecutionStatus.isTerminal])

/-- A terminal event with the fence of an open execution goes through. -/
theorem appendEvent_terminal_ok {now : Nat} {state : MemoryState}
    {executionId eventId event fence : String} {record : ExecutionRecord}
    {status : CapabilityExecutionStatus} {payload : Payload}
    (hat : state.executions[executionId]? = some record)
    (hopen : record.execution.status.isTerminal = false)
    (hfence : record.dispatchFence = some fence)
    (hnew : MemoryStore.recordedEvent state executionId eventId = none)
    (hfits : MemoryStore.payloadFits toVec payload = true)
    (hterminal : status.isTerminal = true) :
    MemoryStore.appendEvent toVec now record.scope executionId eventId event status payload
        (some fence) state =
      (.ok (record.eventAfter now executionId event status payload),
        (state.put executionId (record.appended now status payload)).pushEvent executionId
          eventId (record.eventAfter now executionId event status payload)) := by
  refine MemoryStore.appendEvent_ok toVec hfits hnew (recordForScope_ok.mpr ⟨hat, rfl⟩)
    ⟨hopen, ?_, ?_⟩ ?_
  · cases status <;> first | rfl | exact absurd hterminal (by decide)
  · intro f hf
    rw [hfence, Option.some.inj hf]
  · intro _
    simp [hfence]

/-- No execution is out of everyone's reach. -/
structure NotStranded (toVec : Payload → Option (List UInt8)) (w : WorkerState) : Prop where
  /-- What no lease protects is returned by `recoverable()`. -/
  recoverable : ∀ (executionId : String) record,
    w.store.executions[executionId]? = some record →
    record.execution.status.isTerminal = false →
    record.execution.status ≠ .awaitingApproval →
    record.leaseIsOver w.now = true →
    record ∈ MemoryStore.recoverable w.now w.store
  /-- What is claimed can be finished by its fence. -/
  finishable : ∀ (executionId : String) record fence,
    w.store.executions[executionId]? = some record →
    record.execution.status.isTerminal = false → record.dispatchFence = some fence →
    ∀ eventId event (status : CapabilityExecutionStatus) payload,
      MemoryStore.recordedEvent w.store executionId eventId = none →
      MemoryStore.payloadFits toVec payload = true → status.isTerminal = true →
      ∃ recorded state', MemoryStore.appendEvent toVec w.now record.scope executionId eventId
          event status payload (some fence) w.store = (.ok recorded, state') ∧
        ∃ record', state'.executions[executionId]? = some record' ∧
          record'.execution.status = status

theorem notStranded_of_tells {w : WorkerState}
    (h : ∀ executionId, SlotTellsFence (w.store.slot executionId)) : NotStranded toVec w where
  recoverable := by
    intro executionId record hat hopen hawaiting hlease
    refine List.mem_filter.mpr ⟨OrdMap.mem_values.mpr ⟨executionId, hat⟩, ?_⟩
    exact isRecoverable_of_tells (h executionId record hat) hopen hawaiting hlease
  finishable := by
    intro executionId record fence hat hopen hfence eventId event status payload hnew hfits
      hterminal
    refine ⟨_, _, appendEvent_terminal_ok hat hopen hfence hnew hfits hterminal,
      record.appended w.now status payload, ?_, ExecutionRecord.appended_status⟩
    exact Std.ExtTreeMap.getElem?_insert_self

/-- In every state of a run in which no published event comes late, no execution
    is stranded. -/
theorem not_stranded {w : WorkerState} {tr : List WorkerMove}
    (h : Run (workerMachine toVec) .init tr w)
    (hlate : ∀ x ∈ tr, x.publishesLate = false) :
    (∀ x ∈ tr, NotStranded toVec x.pre ∧ NotStranded toVec x.post) ∧ NotStranded toVec w := by
  have hall := Run.invariant_when (C := fun x => WorkerMove.publishesLate x = false)
    (P := fun u => ∀ executionId, SlotTellsFence (u.store.slot executionId))
    (fun x hx hC hP => tellsFence_worker hx hC hP) h hlate ?_
  · exact ⟨fun x hx => ⟨notStranded_of_tells (hall.1 x hx).1,
      notStranded_of_tells (hall.1 x hx).2⟩, notStranded_of_tells hall.2⟩
  · intro executionId record hrecord
    exact absurd hrecord (by simp [WorkerState.init])

/-- An id as `Uuid::now_v7` writes it. -/
def sampleId : String := "0190a5c0-0000-7000-8000-000000000010"

/-- What a task takes when it takes nothing but an id. -/
def choose (uuid : String) : Choice :=
  { uuid := uuid, result := .ok .null, accept := true }

/-- A write is reserved; recovery claims it; its published event comes late; then
    every task is gone and the lease runs out. -/
def latePublish : List WorkerInput :=
  [.approve "approval-1" (.object []),
    .create (sampleRequest sampleId .write), .step 0 (choose ""),
    .recover, .step 1 (choose ""), .step 1 (choose ""), .step 1 (choose ""),
    .step 1 (choose "fence-1"),
    .step 0 (choose ""),
    .crash 0, .crash 0, .crash 0, .crash 0, .crash 0,
    .tick 40_000]

/-- The state `latePublish` leads to has a claimed, unfinished write without a
    live lease that `recoverable()` does not return. -/
theorem stranded_after_late_publish :
    ∃ tr w record, Run (workerMachine plainToVec) .init tr w ∧
      w.store.executions[sampleId]? = some record ∧ record.execution.effect = .write ∧
      record.execution.status = .published ∧ record.dispatchFence = some "fence-1" ∧
      record.leaseIsOver w.now = true ∧ w.tasks.length = 0 ∧
      record ∉ MemoryStore.recoverable w.now w.store := by
  obtain ⟨tr, w, h, _, hcheck⟩ := Machine.exists_run (workerMachine plainToVec) .init
    latePublish
    (fun _ w => w.store.executions[sampleId]?.any (fun record : ExecutionRecord =>
      decide (record.execution.effect = .write ∧ record.execution.status = .published ∧
        record.dispatchFence = some "fence-1" ∧ record.leaseIsOver w.now = true ∧
        w.tasks.length = 0 ∧ isRecoverableExecution w.now record = false)))
    (by decide)
  cases hat : w.store.executions[sampleId]? with
  | none => simp [hat] at hcheck
  | some record =>
      simp only [hat, Option.any_some, decide_eq_true_eq] at hcheck
      obtain ⟨heffect, hstatus, hfence, hlease, htasks, hnot⟩ := hcheck
      refine ⟨tr, w, record, h, hat, heffect, hstatus, hfence, hlease, htasks, ?_⟩
      intro hmem
      have := (List.mem_filter.mp hmem).2
      rw [hnot] at this
      exact absurd this Bool.false_ne_true

/-- A write is reserved and published; its worker claims it and is gone. -/
def leftBehind : List WorkerInput :=
  [.approve "approval-1" (.object []),
    .create (sampleRequest sampleId .write), .step 0 (choose ""), .step 0 (choose ""),
    .step 0 (choose ""), .step 0 (choose "fence-1"),
    .crash 0, .crash 0, .crash 0, .tick 40_000]

/-- Such an execution is recoverable. -/
theorem not_stranded_left_behind :
    ∃ tr w record, Run (workerMachine plainToVec) .init tr w ∧
      w.store.executions[sampleId]? = some record ∧ record.dispatchFence = some "fence-1" ∧
      record ∈ MemoryStore.recoverable w.now w.store := by
  obtain ⟨tr, w, h, _, hcheck⟩ := Machine.exists_run (workerMachine plainToVec) .init
    leftBehind
    (fun tr w => tr.all (fun x => !WorkerMove.publishesLate x)
      && w.store.executions[sampleId]?.any (fun record : ExecutionRecord =>
        decide (record.execution.status = .dispatched ∧
          record.dispatchFence = some "fence-1" ∧ record.leaseIsOver w.now = true)))
    (by decide)
  simp only [Bool.and_eq_true, List.all_eq_true, Bool.not_eq_true'] at hcheck
  obtain ⟨hlate, hrecord⟩ := hcheck
  cases hat : w.store.executions[sampleId]? with
  | none => simp [hat] at hrecord
  | some record =>
      simp only [hat, Option.any_some, decide_eq_true_eq] at hrecord
      obtain ⟨hstatus, hfence, hlease⟩ := hrecord
      exact ⟨tr, w, record, h, hat, hfence,
        (not_stranded h hlate).2.recoverable sampleId record hat (by rw [hstatus]; rfl)
          (by rw [hstatus]; decide) hlease⟩

end AiPlatform.Worker
