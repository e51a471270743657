/-
  AiPlatform.Worker.StoreMachine

  The execution store as a machine: one move is one critical section under the
  lock, at any clock reading.

  Any number of workers, cancel requests and recovery passes interleave as a
  list of such moves, and a crash is a caller that makes no further call.  A
  `cancel` that others run between is its `get`, its `append_event` and its
  second `get`; the call `cancel` is the three in a row.

  `StoreMachine.slotStep` says once what a move does to one execution.  The
  invariants of the other modules are proved by cases on it.
-/

import AiPlatform.Lib.Machine
import AiPlatform.Worker.StoreSpec

namespace AiPlatform.Worker

open AiPlatform.Json AiPlatform.Capability Transition

/-! ## Calls -/

inductive StoreCall where
  | reserve (requested : NewExecution)
  | get (scope : CapabilityScopeV2) (executionId : String)
  | dispatch (scope : CapabilityScopeV2) (executionId dispatchFence : String)
  | recoverable
  | renew (scope : CapabilityScopeV2) (executionId dispatchFence : String) (leaseMs : Nat)
  | appendEvent (scope : CapabilityScopeV2) (executionId eventId event : String)
      (status : CapabilityExecutionStatus) (payload : Payload)
      (dispatchFence : Option String)
  | events (scope : CapabilityScopeV2) (executionId : String) (afterSequence : Nat)
  | cancel (scope : CapabilityScopeV2) (executionId eventId : String)
  | registerApprovedAuthority (approvalId : String) (arguments : Value)

inductive StoreReply where
  | reserved (result : Except StoreError ReserveOutcome)
  | record (result : Except StoreError ExecutionRecord)
  | dispatched (result : Except StoreError DispatchOutcome)
  | records (result : List ExecutionRecord)
  | renewed (result : Except StoreError Bool)
  | event (result : Except StoreError CapabilityEventV2)
  | page (result : Except StoreError CapabilityEventPageV2)
  | registered

/-- Make a call on the store. -/
def StoreCall.apply (toVec : Payload → Option (List UInt8)) (now : Nat)
    (state : MemoryState) : StoreCall → StoreReply × MemoryState
  | .reserve requested =>
      let out := MemoryStore.reserve requested state
      (.reserved out.1, out.2)
  | .get scope executionId => (.record (MemoryStore.get scope executionId state), state)
  | .dispatch scope executionId dispatchFence =>
      let out := MemoryStore.dispatch now scope executionId dispatchFence state
      (.dispatched out.1, out.2)
  | .recoverable => (.records (MemoryStore.recoverable now state), state)
  | .renew scope executionId dispatchFence leaseMs =>
      let out := MemoryStore.renew now scope executionId dispatchFence leaseMs state
      (.renewed out.1, out.2)
  | .appendEvent scope executionId eventId event status payload dispatchFence =>
      let out := MemoryStore.appendEvent toVec now scope executionId eventId event status
        payload dispatchFence state
      (.event out.1, out.2)
  | .events scope executionId afterSequence =>
      (.page (MemoryStore.events scope executionId afterSequence state), state)
  | .cancel scope executionId eventId =>
      let out := MemoryStore.cancel toVec now scope executionId eventId state
      (.record out.1, out.2)
  | .registerApprovedAuthority approvalId arguments =>
      (.registered, MemoryStore.registerApprovedAuthority approvalId arguments state)

/-- A call and what the clock reads in its critical section. -/
structure CallAt where
  now : Nat
  call : StoreCall

/-- What `create_execution` reserves: nothing has happened to it yet. -/
def NewExecution.isNew (requested : NewExecution) : Bool :=
  requested.execution.status == .published
    && requested.execution.result.isNone
    && requested.execution.error.isNone

/-- A reservation is made for a fresh `Uuid::now_v7`. -/
def StoreCall.enabled (state : MemoryState) : StoreCall → Bool
  | .reserve requested =>
      requested.isNew && (state.executions[requested.execution.executionId]?).isNone
  | _ => true

/-- The store under any interleaving of calls. -/
def storeMachine (toVec : Payload → Option (List UInt8)) :
    Machine MemoryState CallAt StoreReply :=
  { step := fun state input =>
      if input.call.enabled state then some (input.call.apply toVec input.now state)
      else none }

/-- A move of the store. -/
abbrev StoreMove := Move MemoryState CallAt StoreReply

/-- The move answers a dispatch of `executionId` with `claimed = true`. -/
def StoreMove.claims (executionId : String) (x : StoreMove) : Bool :=
  match x.input.call, x.reply with
  | .dispatch _ id _, .dispatched (.ok outcome) => id == executionId && outcome.claimed
  | _, _ => false

/-! ## What the store holds of one execution -/

structure Slot where
  record : Option ExecutionRecord
  log : EventLog

def MemoryState.slot (state : MemoryState) (executionId : String) : Slot :=
  { record := state.executions[executionId]?, log := state.log executionId }

namespace MemoryState

variable {state : MemoryState} {executionId id eventId : String}
  {record : ExecutionRecord} {event : CapabilityEventV2}

@[simp] theorem slot_empty : MemoryState.empty.slot executionId = ⟨none, []⟩ := by
  simp [slot, empty, log]

theorem slot_put_self : (state.put executionId record).slot executionId =
    ⟨some record, state.log executionId⟩ := by
  simp [slot, put, log]

theorem slot_put_ne (h : executionId ≠ id) :
    (state.put executionId record).slot id = state.slot id := by
  simp only [slot, put, log, OrdMap.getElem?_insert_ne _ h]

theorem slot_pushEvent_self : (state.pushEvent executionId eventId event).slot executionId =
    ⟨state.executions[executionId]?, state.log executionId ++ [(eventId, event)]⟩ := by
  simp [slot, pushEvent, log]

theorem slot_pushEvent_ne (h : executionId ≠ id) :
    (state.pushEvent executionId eventId event).slot id = state.slot id := by
  simp only [slot, pushEvent, log, OrdMap.getElem?_insert_ne _ h]

/-- The approvals are no part of a slot. -/
theorem slot_approvals (authorities : Std.ExtTreeMap String Value) :
    ({ state with approvedAuthorities := authorities } : MemoryState).slot id =
      state.slot id := rfl

theorem slot_of_record (h : state.executions[executionId]? = some record) :
    state.slot executionId = ⟨some record, state.log executionId⟩ := by
  simp only [slot, h]

theorem log_empty : MemoryState.empty.log executionId = [] := by
  simp [log, empty]

end MemoryState

/-- The event that a call asks to append to `executionId`, given its record. -/
inductive StoreCall.Appends (executionId : String) (record : ExecutionRecord) :
    StoreCall → String → String → CapabilityExecutionStatus → Payload → Option String → Prop
  | appendEvent (eventId event : String) (status : CapabilityExecutionStatus)
      (payload : Payload) (fence : Option String) :
      Appends executionId record
        (.appendEvent record.scope executionId eventId event status payload fence)
        eventId event status payload fence
  | cancel (eventId : String) :
      Appends executionId record (.cancel record.scope executionId eventId) eventId
        "terminal" (MemoryStore.cancelStatus record)
        (MemoryStore.cancelPayload (MemoryStore.cancelStatus record)) record.dispatchFence

theorem StoreCall.Appends.ne_dispatch {executionId eventId event : String}
    {record : ExecutionRecord} {call : StoreCall} {status : CapabilityExecutionStatus}
    {payload : Payload} {fence : Option String}
    (h : call.Appends executionId record eventId event status payload fence)
    (scope : CapabilityScopeV2) (id dispatchFence : String) :
    call ≠ .dispatch scope id dispatchFence := by
  cases h <;> simp

/-- A move that claims is a dispatch. -/
theorem StoreMove.dispatch_of_claims {executionId : String} {x : StoreMove}
    (h : x.claims executionId = true) :
    ∃ scope fence, x.input.call = .dispatch scope executionId fence := by
  simp only [StoreMove.claims] at h
  split at h
  · rename_i scope id fence outcome hcall _
    simp only [Bool.and_eq_true, beq_iff_eq] at h
    exact ⟨scope, fence, h.1 ▸ hcall⟩
  · exact absurd h Bool.false_ne_true

/-- What one move may do to the slot of one execution. -/
inductive SlotStep (executionId : String) (x : StoreMove) : Slot → Slot → Prop
  | same (slot : Slot) (hclaims : x.claims executionId = false) :
      SlotStep executionId x slot slot
  | create (log : EventLog) (requested : NewExecution)
      (hcall : x.input.call = .reserve requested) (hnew : requested.isNew = true)
      (hid : requested.execution.executionId = executionId)
      (hfree : ∀ (id : String) record, x.pre.executions[id]? = some record →
        MemoryStore.reservationMatches requested record = false)
      (hreply : x.reply =
        .reserved (.ok { record := MemoryStore.newRecord requested, created := true })) :
      SlotStep executionId x ⟨none, log⟩ ⟨some (MemoryStore.newRecord requested), log⟩
  | claim (record : ExecutionRecord) (log : EventLog) (fence : String)
      (hcall : x.input.call = .dispatch record.scope executionId fence)
      (hreply : x.reply = .dispatched
        (.ok { record := record.claimed x.input.now fence, claimed := true }))
      (h : record.Unclaimed) :
      SlotStep executionId x ⟨some record, log⟩ ⟨some (record.claimed x.input.now fence), log⟩
  | reclaim (record : ExecutionRecord) (log : EventLog) (fence : String)
      (hcall : x.input.call = .dispatch record.scope executionId fence)
      (hreply : x.reply = .dispatched
        (.ok { record := record.reclaimed x.input.now fence, claimed := true }))
      (h : record.Reclaimable x.input.now) :
      SlotStep executionId x ⟨some record, log⟩
        ⟨some (record.reclaimed x.input.now fence), log⟩
  | renew (record : ExecutionRecord) (log : EventLog) (fence : String) (leaseMs : Nat)
      (hcall : x.input.call = .renew record.scope executionId fence leaseMs)
      (h : record.Renewable x.input.now fence) :
      SlotStep executionId x ⟨some record, log⟩
        ⟨some (record.renewed x.input.now leaseMs), log⟩
  | refuse (record : ExecutionRecord) (log : EventLog) (eventId event : String)
      (status : CapabilityExecutionStatus) (payload : Payload) (fence : Option String)
      (hcall : x.input.call.Appends executionId record eventId event status payload fence)
      (h : record.Admits status fence) (hunclaimed : record.dispatchFence = none) :
      SlotStep executionId x ⟨some record, log⟩
        ⟨some (record.touched x.input.now status), log⟩
  | append (record : ExecutionRecord) (log : EventLog) (eventId event : String)
      (status : CapabilityExecutionStatus) (payload : Payload) (fence : Option String)
      (hcall : x.input.call.Appends executionId record eventId event status payload fence)
      (h : record.Admits status fence)
      (hfence : MemoryStore.needsFence status = true → record.dispatchFence ≠ none) :
      SlotStep executionId x ⟨some record, log⟩
        ⟨some (record.appended x.input.now status payload),
          log ++ [(eventId, record.eventAfter x.input.now executionId event status payload)]⟩

namespace StoreMachine

variable {toVec : Payload → Option (List UInt8)} {x : StoreMove}

/-- A move is an enabled call applied at its clock reading. -/
theorem makes_iff : (storeMachine toVec).Makes x ↔
    x.input.call.enabled x.pre = true ∧
      x.input.call.apply toVec x.input.now x.pre = (x.reply, x.post) := by
  unfold Machine.Makes storeMachine
  by_cases h : x.input.call.enabled x.pre = true <;> simp [h]

/-- The same, for a move that has been taken apart. -/
theorem makes_mk {pre post : MemoryState} {now : Nat} {call : StoreCall}
    {reply : StoreReply} :
    (storeMachine toVec).Makes ⟨pre, ⟨now, call⟩, reply, post⟩ ↔
      call.enabled pre = true ∧ call.apply toVec now pre = (reply, post) :=
  makes_iff

/-- The slot of `id` after an append to `executionId`. -/
theorem slotStep_append {id executionId eventId event : String}
    (scope : CapabilityScopeV2) {status : CapabilityExecutionStatus} {payload : Payload} {fence : Option String}
    (hclaims : x.claims id = false)
    (hcall : ∀ record : ExecutionRecord, recordForScope x.pre scope executionId = .ok record →
      x.input.call.Appends executionId record eventId event status payload fence)
    (hpost : x.post = (MemoryStore.appendEvent toVec x.input.now scope executionId eventId
      event status payload fence x.pre).2) :
    SlotStep id x (x.pre.slot id) (x.post.slot id) := by
  rcases MemoryStore.appendEvent_cases toVec x.input.now scope executionId eventId event
      status payload fence x.pre with hsame | ⟨record, hr, hadm, _, hf, heq⟩ |
      ⟨record, hr, _, hadm, hneeds, heq⟩
  · rw [hpost, hsame]
    exact .same _ hclaims
  · have hat := (recordForScope_ok.mp hr).1
    rw [hpost, heq]
    by_cases hid : executionId = id
    · subst hid
      rw [MemoryState.slot_of_record hat, MemoryState.slot_put_self]
      exact .refuse record _ _ _ _ _ _ (hcall record hr) hadm hf
    · rw [MemoryState.slot_put_ne hid]
      exact .same _ hclaims
  · have hat := (recordForScope_ok.mp hr).1
    rw [hpost, heq]
    by_cases hid : executionId = id
    · subst hid
      rw [MemoryState.slot_of_record hat, MemoryState.slot_pushEvent_self]
      have hlog : ∀ r, (x.pre.put executionId r).log executionId = x.pre.log executionId :=
        fun _ => rfl
      have hget : ∀ r, (x.pre.put executionId r).executions[executionId]? = some r :=
        fun _ => Std.ExtTreeMap.getElem?_insert_self
      rw [hlog, hget]
      exact .append record _ _ _ _ _ _ (hcall record hr) hadm hneeds
    · rw [MemoryState.slot_pushEvent_ne hid, MemoryState.slot_put_ne hid]
      exact .same _ hclaims

/-- What a move does to the slot of any execution. -/
theorem slotStep (hx : (storeMachine toVec).Makes x) (id : String) :
    SlotStep id x (x.pre.slot id) (x.post.slot id) := by
  obtain ⟨pre, ⟨now, call⟩, reply, post⟩ := x
  obtain ⟨henabled, happly⟩ := makes_mk.mp hx
  cases call with
  | get scope executionId | recoverable | events scope executionId afterSequence =>
      obtain ⟨rfl, rfl⟩ := Prod.mk.inj happly
      exact .same _ rfl
  | registerApprovedAuthority approvalId arguments =>
      obtain ⟨rfl, rfl⟩ := Prod.mk.inj happly
      exact .same _ rfl
  | reserve requested =>
      obtain ⟨rfl, rfl⟩ := Prod.mk.inj happly
      simp only [StoreCall.enabled, Bool.and_eq_true, Option.isNone_iff_eq_none] at henabled
      rcases MemoryStore.reserve_cases requested pre with ⟨hsame, _⟩ | ⟨hfree, heq⟩
      · rw [hsame]
        exact .same _ rfl
      · rw [heq]
        by_cases hid : requested.execution.executionId = id
        · subst hid
          rw [MemoryState.slot_put_self, MemoryState.slot, henabled.2]
          exact .create _ requested rfl henabled.1 rfl hfree rfl
        · rw [MemoryState.slot_put_ne hid]
          exact .same _ rfl
  | dispatch scope executionId fence =>
      obtain ⟨rfl, rfl⟩ := Prod.mk.inj happly
      rcases MemoryStore.dispatch_cases now scope executionId fence pre with
        ⟨hsame, hno⟩ | ⟨record, mid, hr, hopen, hconsume, heq⟩ | ⟨record, hr, hopen, heq⟩
      · rw [hsame]
        refine .same _ ?_
        simp only [StoreMove.claims]
        split
        · rename_i hcall hreply
          simp only [StoreReply.dispatched.injEq] at hreply
          simp [hno _ hreply]
        · rfl
      · obtain ⟨hat, hscope⟩ := recordForScope_ok.mp hr
        have hmid : mid.slot = pre.slot := by
          rcases MemoryStore.consumeApproval_ok hconsume with ⟨_, rfl⟩ | ⟨_, _, _, rfl⟩
          · rfl
          · rfl
        rw [heq]
        by_cases hid : executionId = id
        · subst hid
          subst hscope
          have hlog : mid.log executionId = pre.log executionId :=
            congrArg Slot.log (congrFun hmid executionId)
          rw [MemoryState.slot_put_self, hlog, MemoryState.slot_of_record hat]
          exact .claim record _ fence rfl rfl hopen
        · rw [MemoryState.slot_put_ne hid, hmid]
          exact .same _ (by simp [StoreMove.claims, hid])
      · obtain ⟨hat, hscope⟩ := recordForScope_ok.mp hr
        rw [heq]
        by_cases hid : executionId = id
        · subst hid
          subst hscope
          rw [MemoryState.slot_put_self, MemoryState.slot_of_record hat]
          exact .reclaim record _ fence rfl rfl hopen
        · rw [MemoryState.slot_put_ne hid]
          exact .same _ (by simp [StoreMove.claims, hid])
  | renew scope executionId fence leaseMs =>
      obtain ⟨rfl, rfl⟩ := Prod.mk.inj happly
      rcases MemoryStore.renew_cases now scope executionId fence leaseMs pre with
        ⟨hsame, _⟩ | ⟨record, hr, hopen, heq⟩
      · rw [hsame]
        exact .same _ rfl
      · obtain ⟨hat, hscope⟩ := recordForScope_ok.mp hr
        rw [heq]
        by_cases hid : executionId = id
        · subst hid
          subst hscope
          rw [MemoryState.slot_put_self, MemoryState.slot_of_record hat]
          exact .renew record _ fence leaseMs rfl hopen
        · rw [MemoryState.slot_put_ne hid]
          exact .same _ rfl
  | appendEvent scope executionId eventId event status payload fence =>
      obtain ⟨rfl, rfl⟩ := Prod.mk.inj happly
      refine slotStep_append scope rfl ?_ rfl
      intro record hr
      obtain ⟨_, rfl⟩ := recordForScope_ok.mp hr
      exact .appendEvent eventId event status payload fence
  | cancel scope executionId eventId =>
      obtain ⟨rfl, rfl⟩ := Prod.mk.inj happly
      rcases MemoryStore.cancel_cases toVec now scope executionId eventId pre with
        hsame | ⟨record, hr, heq⟩
      · rw [hsame]
        exact .same _ rfl
      · refine slotStep_append scope rfl ?_ heq
        intro record' hr'
        obtain rfl : record = record' := Except.ok.inj (hr.symm.trans hr')
        obtain ⟨_, rfl⟩ := recordForScope_ok.mp hr
        exact .cancel eventId

end StoreMachine

/-! ## Concrete calls -/

/-- An ASCII string that needs no escape, as JSON. -/
def quoted (s : String) : List UInt8 :=
  34 :: (s.toList.map (fun c => c.toNat.toUInt8)) ++ [34]

/-- `serde_json::to_vec` on payloads of such strings; it turns others down. -/
def plainToVec (payload : Payload) : Option (List UInt8) :=
  let member : String × Value → Option (List UInt8)
    | (key, .string text) => some (quoted key ++ 58 :: quoted text)
    | _ => none
  (payload.toList.mapM member).map (fun members =>
    123 :: List.intercalate [44] members ++ [125])

def sampleScope : CapabilityScopeV2 :=
  { tenantId := "tenant-a", userId := "user-a", sessionId := "session-a" }

/-- The first attempt of one call, as `create_execution` reserves it. -/
def sampleRequest (executionId : String) (effect : CapabilityEffect) : NewExecution :=
  { execution :=
      { schemaVersion := "capability-execution/v2"
        executionId := executionId
        leaseId := "lease-1"
        tenantId := sampleScope.tenantId
        userId := sampleScope.userId
        sessionId := sampleScope.sessionId
        runId := "run-1"
        toolCallId := "call-1"
        attemptId := "attempt-1"
        capabilityId := "platform.echo"
        capabilityRevision := 1
        argumentsHash := "sha256:0"
        idempotencyKey := "key-1"
        effect := effect
        status := .published
        eventsUrl := "/internal/v2/capabilities/executions/" ++ executionId ++ "/events"
        result := none
        error := none }
    arguments := .object []
    resourceBinding := .null
    approvalPolicy := if effect = .read then .never else .always
    approvalId := if effect = .read then none else some "approval-1"
    approvalStatus := if effect = .read then "not_required" else "approved" }

end AiPlatform.Worker
