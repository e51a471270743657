/-
  AiPlatform.Worker.Tasks

  The worker process over the execution store: `create_execution`,
  `run_execution` with its heartbeat, the recovery loop and `cancel`
  (`http_service/execution.rs`, `execution_run.rs`, `recovery.rs` and
  `MemoryStore::cancel`).

  A task stands at its next store call and holds what it has read so far.  Every
  move makes at most one call, tasks interleave freely, and a crash drops a task
  at any of these points.  What a capability does between its calls is not
  modelled: the outcome of an operation is a choice.  A heartbeat goes on after
  the code has aborted it, until it is dropped or told that the lease is lost.
-/

import AiPlatform.Worker.WriteDispatch

namespace AiPlatform.Worker

open AiPlatform.Json AiPlatform.Capability Transition

/-! ## Event ids -/

/-- The value of a lower-case hexadecimal digit. -/
def hexValue (c : Char) : Nat :=
  if '0' ≤ c ∧ c ≤ '9' then c.toNat - '0'.toNat else c.toNat - 'a'.toNat + 10

def hexDigit (n : Nat) : Char :=
  if n < 10 then Char.ofNat ('0'.toNat + n) else Char.ofNat ('a'.toNat + (n - 10))

/-- `event_id_unchecked` on an id as `Uuid::to_string` writes it: the last byte,
    which is the last two digits, xor the ordinal. -/
def eventIdUnchecked (executionId : String) (ordinal : Nat) : String :=
  match executionId.toList.reverse with
  | low :: high :: rest =>
      let byte := (16 * hexValue high + hexValue low) ^^^ ordinal
      String.ofList (rest.reverse ++ [hexDigit (byte / 16), hexDigit (byte % 16)])
  | _ => executionId

/-! ## Outcomes -/

/-- What the operation of `run_execution` ends with. -/
inductive OperationResult where
  | ok (result : Value)
  | sideEffectUnknown
  | failed (errorCode : String)

def errorPayload (errorCode : String) : Payload :=
  (∅ : Payload).insert "error_code" (.string errorCode)

/-- The terminal event that `run_execution` makes of it. -/
def terminalOf (toVec : Payload → Option (List UInt8)) (result : OperationResult) :
    CapabilityExecutionStatus × Payload :=
  let terminal : CapabilityExecutionStatus × Payload :=
    match result with
    | .ok value => (.succeeded, (∅ : Payload).insert "result" value)
    | .sideEffectUnknown => (.sideEffectUnknown, errorPayload "side_effect_unknown")
    | .failed errorCode =>
        (if errorCode = "cancelled" then .cancelled
          else if errorCode = "capability_timeout" then .timeout
          else .failed, errorPayload errorCode)
  if !MemoryStore.payloadFits toVec terminal.2 then
    (.failed, errorPayload "capability_result_too_large")
  else terminal

/-- The terminal event that recovery makes of a record whose worker is gone. -/
def recoveredTerminal (record : ExecutionRecord) : CapabilityExecutionStatus × Payload :=
  let terminal : CapabilityExecutionStatus × Payload :=
    match durableRecoveryResult record with
    | some result => (.succeeded, (∅ : Payload).insert "result" result)
    | none => (.sideEffectUnknown, errorPayload "side_effect_unknown")
  (terminal.1, terminal.2.insert "recovery" (.string "worker_restart"))

/-! ## Tasks -/

/-- Where a task stands. -/
inductive Task where
  /-- `create_execution` at its reservation, and at its published event. -/
  | creating (requested : NewExecution)
  | publishing (scope : CapabilityScopeV2) (executionId : String)
  /-- `run_execution` at its first read, its claim, its events and its operation. -/
  | starting (scope : CapabilityScopeV2) (executionId : String)
  | dispatching (scope : CapabilityScopeV2) (executionId : String)
  | reportDispatched (scope : CapabilityScopeV2) (executionId fence : String)
  | reportRunning (scope : CapabilityScopeV2) (executionId fence : String)
  | operating (scope : CapabilityScopeV2) (executionId fence : String)
  | reportTerminal (scope : CapabilityScopeV2) (executionId fence : String)
      (result : OperationResult)
  | heartbeat (scope : CapabilityScopeV2) (executionId fence : String)
  /-- A pass of the recovery loop, at its query, over its records, and at the
      terminal event of one of them. -/
  | loadingRecoverable
  | recovering (records : List ExecutionRecord)
  | terminalizing (record : ExecutionRecord) (rest : List ExecutionRecord)
  /-- `cancel` at its read and at its append. -/
  | cancelling (scope : CapabilityScopeV2) (executionId : String)
  | cancelAppending (scope : CapabilityScopeV2) (executionId : String)
      (current : ExecutionRecord)
  /-- The read that a handler answers with. -/
  | responding (scope : CapabilityScopeV2) (executionId : String)

/-- What a move of a task takes from outside: a fresh `Uuid::now_v7`, the outcome
    of the operation, and whether recovery goes on with a record. -/
structure Choice where
  uuid : String
  result : OperationResult
  accept : Bool

namespace Task

/-- The store call a task is at. -/
def call (toVec : Payload → Option (List UInt8)) (choice : Choice) : Task → Option StoreCall
  | .creating requested => some (.reserve requested)
  | .publishing scope id =>
      some (.appendEvent scope id (eventIdUnchecked id 1) "published" .published ∅ none)
  | .starting scope id => some (.get scope id)
  | .dispatching scope id => some (.dispatch scope id choice.uuid)
  | .reportDispatched scope id fence =>
      some (.appendEvent scope id (eventIdUnchecked id 2) "dispatched" .dispatched ∅
        (some fence))
  | .reportRunning scope id fence =>
      some (.appendEvent scope id (eventIdUnchecked id 3) "progress" .running ∅ (some fence))
  | .operating _ _ _ => none
  | .reportTerminal scope id fence result =>
      some (.appendEvent scope id (eventIdUnchecked id 4) "terminal"
        (terminalOf toVec result).1 (terminalOf toVec result).2 (some fence))
  | .heartbeat scope id fence => some (.renew scope id fence 30_000)
  | .loadingRecoverable => some .recoverable
  | .recovering _ => none
  | .terminalizing record _ =>
      record.dispatchFence.map (fun fence =>
        .appendEvent record.scope record.execution.executionId
          (eventIdUnchecked record.execution.executionId 4) "terminal"
          (recoveredTerminal record).1 (recoveredTerminal record).2 (some fence))
  | .cancelling scope id => some (.get scope id)
  | .cancelAppending scope id current =>
      some (.appendEvent scope id choice.uuid "terminal" (MemoryStore.cancelStatus current)
        (MemoryStore.cancelPayload (MemoryStore.cancelStatus current)) current.dispatchFence)
  | .responding scope id => some (.get scope id)

/-- The tasks that take a task's place after the reply to its call. -/
def next (choice : Choice) : Task → StoreReply → List Task
  | .creating _, .reserved (.ok outcome) =>
      let scope := outcome.record.scope
      let id := outcome.record.execution.executionId
      if outcome.created then [.publishing scope id] else [.responding scope id]
  | .publishing scope id, .event (.ok _) => [.starting scope id, .responding scope id]
  | .starting scope id, .record (.ok current) =>
      if current.execution.status.isTerminal then [] else [.dispatching scope id]
  | .starting scope id, .record (.error _) => [.dispatching scope id]
  | .dispatching scope id, .dispatched (.ok outcome) =>
      if !outcome.claimed then []
      else
        let fence := outcome.record.dispatchFence.getD choice.uuid
        [.heartbeat scope id fence, .reportDispatched scope id fence]
  | .reportDispatched scope id fence, .event (.ok _) => [.reportRunning scope id fence]
  | .reportRunning scope id fence, .event (.ok _) => [.operating scope id fence]
  | .heartbeat scope id fence, .renewed (.ok true) => [.heartbeat scope id fence]
  | .loadingRecoverable, .records records => [.recovering records]
  | .terminalizing _ rest, _ => [.recovering rest]
  | .cancelling scope id, .record (.ok current) =>
      if current.execution.status.isTerminal then []
      else [.cancelAppending scope id current]
  | .cancelAppending scope id _, .event (.ok _) => [.responding scope id]
  | _, _ => []

/-- The tasks that take a task's place when it makes no call. -/
def proceed (now : Nat) (choice : Choice) : Task → List Task
  | .operating scope id fence => [.reportTerminal scope id fence choice.result]
  | .recovering [] => []
  | .recovering (record :: rest) =>
      if !isRecoverableExecution now record then [.recovering rest]
      else if needsSideEffectUnknownRecovery now record then [.terminalizing record rest]
      else if choice.accept then
        [.starting record.scope record.execution.executionId, .recovering rest]
      else [.recovering rest]
  -- Recovery leaves a record without a fence alone.
  | .terminalizing _ rest => [.recovering rest]
  | _ => []

/-- A fresh id is none of the recorded ones. -/
def fresh (choice : Choice) (store : MemoryState) : Task → Bool
  | .cancelAppending _ id _ => (MemoryStore.recordedEvent store id choice.uuid).isNone
  | _ => true

end Task

/-! ## The process -/

structure WorkerState where
  store : MemoryState
  now : Nat
  tasks : List Task

def WorkerState.init : WorkerState :=
  { store := .empty, now := 0, tasks := [] }

inductive WorkerInput where
  /-- A request comes in, or a pass of the recovery loop begins. -/
  | create (requested : NewExecution)
  | cancel (scope : CapabilityScopeV2) (executionId : String)
  | recover
  | approve (approvalId : String) (arguments : Value)
  | step (i : Nat) (choice : Choice)
  | crash (i : Nat)
  | tick (ms : Nat)

/-- Put tasks in the place of the `i`-th. -/
def replaceTask (tasks : List Task) (i : Nat) (new : List Task) : List Task :=
  tasks.take i ++ new ++ tasks.drop (i + 1)

/-- The move that a call makes of the store. -/
def WorkerState.callStore (toVec : Payload → Option (List UInt8)) (state : WorkerState)
    (call : StoreCall) : Option StoreMove :=
  if call.enabled state.store then
    let out := call.apply toVec state.now state.store
    some ⟨state.store, ⟨state.now, call⟩, out.1, out.2⟩
  else none

/-- The worker.  A move replies with the store move it has made, if it made one. -/
def workerMachine (toVec : Payload → Option (List UInt8)) :
    Machine WorkerState WorkerInput (Option StoreMove) :=
  { step := fun state input =>
      match input with
      | .create requested =>
          some (none, { state with tasks := state.tasks ++ [.creating requested] })
      | .cancel scope id =>
          some (none, { state with tasks := state.tasks ++ [.cancelling scope id] })
      | .recover => some (none, { state with tasks := state.tasks ++ [.loadingRecoverable] })
      | .approve approvalId arguments =>
          (state.callStore toVec (.registerApprovedAuthority approvalId arguments)).map
            (fun move => (some move, { state with store := move.post }))
      | .step i choice =>
          match state.tasks[i]? with
          | none => none
          | some task =>
              match task.call toVec choice with
              | none =>
                  some (none,
                    { state with
                      tasks := replaceTask state.tasks i (task.proceed state.now choice) })
              | some call =>
                  if task.fresh choice state.store then
                    (state.callStore toVec call).map (fun move =>
                      (some move,
                        { state with
                          store := move.post
                          tasks := replaceTask state.tasks i (task.next choice move.reply) }))
                  else none
      | .crash i =>
          if i < state.tasks.length then
            some (none, { state with tasks := replaceTask state.tasks i [] })
          else none
      | .tick ms => some (none, { state with now := state.now + ms }) }

abbrev WorkerMove := Move WorkerState WorkerInput (Option StoreMove)

namespace WorkerMachine

variable {toVec : Payload → Option (List UInt8)} {x : WorkerMove}

/-- The store move behind a worker move, and the task that made it. -/
structure Calls (toVec : Payload → Option (List UInt8)) (x : WorkerMove) (y : StoreMove)
    (i : Nat) (choice : Choice) (task : Task) : Prop where
  input : x.input = .step i choice
  found : x.pre.tasks[i]? = some task
  call : task.call toVec choice = some y.input.call
  fresh : task.fresh choice x.pre.store = true
  tasks : x.post.tasks = replaceTask x.pre.tasks i (task.next choice y.reply)

theorem mem_replaceTask {tasks new : List Task} {i : Nat} {task : Task}
    (h : task ∈ replaceTask tasks i new) : task ∈ tasks ∨ task ∈ new := by
  simp only [replaceTask, List.mem_append] at h
  rcases h with (h | h) | h
  · exact .inl (List.mem_of_mem_take h)
  · exact .inr h
  · exact .inl (List.mem_of_mem_drop h)

/-- How a task comes to be there after a move that leaves the store. -/
inductive Arrives (pre : WorkerState) (task : Task) : Prop
  | stays (h : task ∈ pre.tasks)
  | comes (h : (∃ requested, task = .creating requested) ∨
      (∃ scope id, task = .cancelling scope id) ∨ task = .loadingRecoverable)
  | follows (old : Task) (choice : Choice) (hold : old ∈ pre.tasks)
      (h : task ∈ old.proceed pre.now choice)

/-- A worker move leaves the store, or is a store move at the worker's clock that
    registers an approval or that a task is at. -/
theorem cases_store (hx : (workerMachine toVec).Makes x) :
    (x.reply = none ∧ x.post.store = x.pre.store ∧
        ∀ task ∈ x.post.tasks, Arrives x.pre task) ∨
      ∃ y : StoreMove, x.reply = some y ∧ (storeMachine toVec).Makes y ∧
        y.pre = x.pre.store ∧ y.post = x.post.store ∧ y.input.now = x.pre.now ∧
        x.post.now = x.pre.now ∧
        ((x.post.tasks = x.pre.tasks ∧
            ∃ approvalId arguments,
              y.input.call = .registerApprovedAuthority approvalId arguments) ∨
          ∃ i choice task, Calls toVec x y i choice task) := by
  obtain ⟨pre, input, reply, post⟩ := x
  unfold Machine.Makes at hx
  simp only [workerMachine] at hx
  have hcall : ∀ (call : StoreCall) (move : StoreMove),
      pre.callStore toVec call = some move →
      (storeMachine toVec).Makes move ∧ move.pre = pre.store ∧
        move.input = ⟨pre.now, call⟩ := by
    intro call move hmove
    unfold WorkerState.callStore at hmove
    split at hmove
    · rename_i henabled
      obtain rfl := Option.some.inj hmove
      exact ⟨StoreMachine.makes_mk.mpr ⟨henabled, rfl⟩, rfl, rfl⟩
    · exact absurd hmove (by simp)
  have harrives : ∀ new : Task, (∃ requested, new = .creating requested) ∨
      (∃ scope id, new = .cancelling scope id) ∨ new = .loadingRecoverable →
      ∀ task ∈ pre.tasks ++ [new], Arrives pre task := by
    intro new hnew task htask
    rcases List.mem_append.mp htask with hold | htask
    · exact .stays hold
    · obtain rfl := List.mem_singleton.mp htask
      exact .comes hnew
  cases input with
  | create requested =>
      obtain ⟨rfl, rfl⟩ := Prod.mk.inj (Option.some.inj hx)
      exact .inl ⟨rfl, rfl, harrives _ (.inl ⟨requested, rfl⟩)⟩
  | cancel scope id =>
      obtain ⟨rfl, rfl⟩ := Prod.mk.inj (Option.some.inj hx)
      exact .inl ⟨rfl, rfl, harrives _ (.inr (.inl ⟨scope, id, rfl⟩))⟩
  | recover =>
      obtain ⟨rfl, rfl⟩ := Prod.mk.inj (Option.some.inj hx)
      exact .inl ⟨rfl, rfl, harrives _ (.inr (.inr rfl))⟩
  | tick ms =>
      obtain ⟨rfl, rfl⟩ := Prod.mk.inj (Option.some.inj hx)
      exact .inl ⟨rfl, rfl, fun task htask => .stays htask⟩
  | crash i =>
      simp only at hx
      split at hx
      · obtain ⟨rfl, rfl⟩ := Prod.mk.inj (Option.some.inj hx)
        refine .inl ⟨rfl, rfl, fun task htask => ?_⟩
        rcases mem_replaceTask htask with hold | hnew
        · exact .stays hold
        · exact absurd hnew (List.not_mem_nil)
      · exact absurd hx (by simp)
  | approve approvalId arguments =>
      simp only [Option.map_eq_some_iff, Prod.mk.injEq] at hx
      obtain ⟨move, hmove, rfl, rfl⟩ := hx
      obtain ⟨hmakes, hpre, hinput⟩ := hcall _ _ hmove
      exact .inr ⟨move, rfl, hmakes, hpre, rfl, by rw [hinput], rfl,
        .inl ⟨rfl, approvalId, arguments, by rw [hinput]⟩⟩
  | step i choice =>
      simp only at hx
      split at hx
      · exact absurd hx (by simp)
      · rename_i task htask
        split at hx
        · obtain ⟨rfl, rfl⟩ := Prod.mk.inj (Option.some.inj hx)
          refine .inl ⟨rfl, rfl, fun new hnew => ?_⟩
          rcases mem_replaceTask hnew with hold | hnew
          · exact .stays hold
          · exact .follows task choice (List.mem_of_getElem? htask) hnew
        · rename_i call hc
          split at hx
          · rename_i hfresh
            simp only [Option.map_eq_some_iff, Prod.mk.injEq] at hx
            obtain ⟨move, hmove, rfl, rfl⟩ := hx
            obtain ⟨hmakes, hpre, hinput⟩ := hcall _ _ hmove
            exact .inr ⟨move, rfl, hmakes, hpre, rfl, by rw [hinput], rfl,
              .inr ⟨i, choice, task, rfl, htask, by rw [hinput]; exact hc, hfresh, rfl⟩⟩
          · exact absurd hx (by simp)

/-- A move of a task that is at a call makes it. -/
theorem step_calls (hx : (workerMachine toVec).Makes x) {i : Nat} {choice : Choice}
    {task : Task} {call : StoreCall} (hinput : x.input = .step i choice)
    (hfound : x.pre.tasks[i]? = some task) (hcall : task.call toVec choice = some call) :
    task.fresh choice x.pre.store = true ∧
      x.post.store = (call.apply toVec x.pre.now x.pre.store).2 := by
  unfold Machine.Makes at hx
  simp only [workerMachine, hinput, hfound, hcall] at hx
  split at hx
  · rename_i hfresh
    simp only [Option.map_eq_some_iff, Prod.mk.injEq] at hx
    obtain ⟨move, hmove, _, hpost⟩ := hx
    refine ⟨hfresh, ?_⟩
    unfold WorkerState.callStore at hmove
    split at hmove
    · obtain rfl := Option.some.inj hmove
      rw [← hpost]
    · exact absurd hmove (by simp)
  · exact absurd hx (by simp)

/-- The worker over the store: its runs are runs of the store. -/
def overStore (toVec : Payload → Option (List UInt8)) :
    Projection (workerMachine toVec) (storeMachine toVec) where
  proj := WorkerState.store
  moves := fun x => x.reply.toList
  run_moves := by
    intro x hx
    rcases cases_store hx with ⟨hreply, hstore, _⟩ | ⟨y, hreply, hmakes, hpre, hpost, _⟩
    · rw [hreply, hstore]
      exact .nil _
    · rw [hreply, ← hpre, ← hpost]
      exact .cons hmakes (.nil _)

/-- However many tasks run an execution that may write, one of them is let in. -/
theorem claimed_once {w : WorkerState} {tr : List WorkerMove}
    (h : Run (workerMachine toVec) .init tr w) (executionId : String) :
    (tr.flatMap (fun x => x.reply.toList)).countP (StoreMove.claimsWrite executionId) ≤ 1 :=
  claimsWrite_countP_le_one ((overStore toVec).run h) executionId

end WorkerMachine

end AiPlatform.Worker
