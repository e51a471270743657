/-
  AiPlatform.Worker.StoreSpec

  What each critical section of the execution store can do, one lemma a
  function.  Proofs about runs cite these and do not unfold the functions.

  The record changes of a claim, a second claim, a renewal and an event have
  names of their own here (`claimed`, `reclaimed`, `renewed`, `appended`); each
  comes with the condition under which the store makes it.
-/

import AiPlatform.Worker.MemoryStore

namespace AiPlatform.Worker

open AiPlatform.Json AiPlatform.Capability

/-! ## Record changes and their conditions -/

namespace ExecutionRecord

/-- The identity of a record: what no later call rewrites. -/
def identity (record : ExecutionRecord) : NewExecution :=
  { execution :=
      { record.execution with status := .published, result := none, error := none }
    arguments := record.arguments
    resourceBinding := record.resourceBinding
    approvalPolicy := record.approvalPolicy
    approvalId := record.approvalId
    approvalStatus := "" }

def scope (record : ExecutionRecord) : CapabilityScopeV2 := record.execution.scope

/-- Neither finished nor claimed. -/
structure Unclaimed (record : ExecutionRecord) : Prop where
  open_ : record.execution.status.isTerminal = false
  fence : record.dispatchFence = none

/-- A read whose claim has run out. -/
structure Reclaimable (now : Nat) (record : ExecutionRecord) : Prop where
  open_ : record.execution.status.isTerminal = false
  read : record.execution.effect = .read
  fence : record.dispatchFence.isSome = true
  lease : record.leaseIsLive now = false

/-- A claim the holder of `fence` may extend. -/
structure Renewable (now : Nat) (fence : String) (record : ExecutionRecord) : Prop where
  open_ : record.execution.status.isTerminal = false
  fence : record.dispatchFence = some fence
  lease : record.leaseIsLive now = true

/-- A record that an event gets as far as moving the lease of. -/
structure Admits (status : CapabilityExecutionStatus) (fence : Option String)
    (record : ExecutionRecord) : Prop where
  open_ : record.execution.status.isTerminal = false
  transition : MemoryStore.validTransition record status = true
  fence : ∀ f, fence = some f → record.dispatchFence = some f

def claimed (now : Nat) (fence : String) (record : ExecutionRecord) : ExecutionRecord :=
  { record with
    approvalStatus :=
      if record.execution.effect ≠ .read then "consumed" else record.approvalStatus
    dispatchFence := some fence
    workerLeaseUntilEpochMs := some (now + 30_000)
    execution := { record.execution with status := .dispatched } }

def reclaimed (now : Nat) (fence : String) (record : ExecutionRecord) : ExecutionRecord :=
  { record with
    dispatchFence := some fence
    workerLeaseUntilEpochMs := some (now + 30_000) }

def renewed (now leaseMs : Nat) (record : ExecutionRecord) : ExecutionRecord :=
  { record with workerLeaseUntilEpochMs := some (now + MemoryStore.clampLease leaseMs) }

/-- The lease has moved and nothing else. -/
def touched (now : Nat) (status : CapabilityExecutionStatus) (record : ExecutionRecord) :
    ExecutionRecord :=
  { record with workerLeaseUntilEpochMs := MemoryStore.leaseAfter now record status }

def appended (now : Nat) (status : CapabilityExecutionStatus) (payload : Payload)
    (record : ExecutionRecord) : ExecutionRecord :=
  MemoryStore.recordAfter (record.touched now status) status payload

/-- The event that goes with `appended`. -/
def eventAfter (now : Nat) (executionId event : String)
    (status : CapabilityExecutionStatus) (payload : Payload) (record : ExecutionRecord) :
    CapabilityEventV2 :=
  { schemaVersion := CAPABILITY_EVENT_SCHEMA_VERSION
    executionId := executionId
    toolCallId := record.execution.toolCallId
    sequence := record.lastSequence + 1
    event := event
    status := status
    payload := payload
    createdAtEpochMs := now }

variable {record : ExecutionRecord} {now leaseMs : Nat} {fence : String}
  {status : CapabilityExecutionStatus} {payload : Payload}

-- ---- what a change leaves and what it sets ----

@[simp] theorem identity_claimed : (record.claimed now fence).identity = record.identity := rfl

@[simp] theorem identity_reclaimed :
    (record.reclaimed now fence).identity = record.identity := rfl

@[simp] theorem identity_renewed : (record.renewed now leaseMs).identity = record.identity := rfl

@[simp] theorem identity_touched : (record.touched now status).identity = record.identity := rfl

@[simp] theorem claimed_fence : (record.claimed now fence).dispatchFence = some fence := rfl

@[simp] theorem claimed_lease :
    (record.claimed now fence).workerLeaseUntilEpochMs = some (now + 30_000) := rfl

@[simp] theorem claimed_status :
    (record.claimed now fence).execution.status = .dispatched := rfl

@[simp] theorem claimed_lastSequence :
    (record.claimed now fence).lastSequence = record.lastSequence := rfl

@[simp] theorem reclaimed_fence : (record.reclaimed now fence).dispatchFence = some fence := rfl

@[simp] theorem reclaimed_lease :
    (record.reclaimed now fence).workerLeaseUntilEpochMs = some (now + 30_000) := rfl

@[simp] theorem reclaimed_execution :
    (record.reclaimed now fence).execution = record.execution := rfl

@[simp] theorem reclaimed_lastSequence :
    (record.reclaimed now fence).lastSequence = record.lastSequence := rfl

@[simp] theorem renewed_fence :
    (record.renewed now leaseMs).dispatchFence = record.dispatchFence := rfl

@[simp] theorem renewed_execution :
    (record.renewed now leaseMs).execution = record.execution := rfl

@[simp] theorem renewed_lastSequence :
    (record.renewed now leaseMs).lastSequence = record.lastSequence := rfl

@[simp] theorem touched_fence :
    (record.touched now status).dispatchFence = record.dispatchFence := rfl

@[simp] theorem touched_execution :
    (record.touched now status).execution = record.execution := rfl

@[simp] theorem touched_lastSequence :
    (record.touched now status).lastSequence = record.lastSequence := rfl

@[simp] theorem appended_fence :
    (record.appended now status payload).dispatchFence = record.dispatchFence := rfl

@[simp] theorem appended_lease :
    (record.appended now status payload).workerLeaseUntilEpochMs =
      MemoryStore.leaseAfter now record status := rfl

@[simp] theorem appended_lastSequence :
    (record.appended now status payload).lastSequence = record.lastSequence + 1 := rfl

@[simp] theorem appended_approvalStatus :
    (record.appended now status payload).approvalStatus = record.approvalStatus := rfl

@[simp] theorem appended_status :
    (record.appended now status payload).execution.status = status := by
  simp only [appended, MemoryStore.recordAfter, terminalPayload]
  split <;> rfl

@[simp] theorem identity_appended :
    (record.appended now status payload).identity = record.identity := by
  simp only [identity, appended, MemoryStore.recordAfter, terminalPayload]
  split <;> rfl

@[simp] theorem appended_effect :
    (record.appended now status payload).execution.effect = record.execution.effect :=
  congrArg (fun i : NewExecution => i.execution.effect) identity_appended

/-- A terminal event leaves its payload's result and error on the record. -/
theorem appended_terminal (h : status.isTerminal = true) :
    (record.appended now status payload).execution.result = payload["result"]? ∧
      (record.appended now status payload).execution.error =
        payload["error_code"]?.bind Value.asStr := by
  simp [appended, MemoryStore.recordAfter, terminalPayload, h]

/-- Any other event leaves them as they were. -/
theorem appended_open (h : status.isTerminal = false) :
    (record.appended now status payload).execution.result = record.execution.result ∧
      (record.appended now status payload).execution.error = record.execution.error := by
  simp [appended, MemoryStore.recordAfter, terminalPayload, h]

theorem leaseIsLive_some {lease : Nat} (h : record.workerLeaseUntilEpochMs = some lease) :
    record.leaseIsLive now = true ↔ now < lease := by
  simp [leaseIsLive, h]

end ExecutionRecord

/-! ## Scopes -/

/-- A scope is the record's when the record was reserved under it. -/
theorem sameScope_iff {record : ExecutionRecord} {scope : CapabilityScopeV2} :
    sameScope record scope = true ↔ record.scope = scope := by
  cases scope
  simp [sameScope, ExecutionRecord.scope, CapabilityExecutionV2.scope, and_assoc]

theorem recordForScope_ok {state : MemoryState} {scope : CapabilityScopeV2}
    {executionId : String} {record : ExecutionRecord} :
    recordForScope state scope executionId = .ok record ↔
      state.executions[executionId]? = some record ∧ record.scope = scope := by
  unfold recordForScope
  cases state.executions[executionId]? with
  | none => simp
  | some found =>
      by_cases hs : sameScope found scope = true
      · simp only [hs, Bool.not_true, Bool.false_eq_true, if_false, Except.ok.injEq,
          Option.some.injEq]
        constructor
        · rintro rfl
          exact ⟨rfl, sameScope_iff.mp hs⟩
        · exact fun h => h.1
      · have hne : found.scope ≠ scope := fun h => hs (sameScope_iff.mpr h)
        simp only [Bool.not_eq_true] at hs
        simp only [hs, Bool.not_false, if_true, reduceCtorEq, Option.some.injEq, false_iff]
        rintro ⟨rfl, h⟩
        exact hne h

/-- Under another scope than the record's the answer is `ScopeMismatch`. -/
theorem recordForScope_foreign {state : MemoryState} {scope : CapabilityScopeV2}
    {executionId : String} {record : ExecutionRecord}
    (h : state.executions[executionId]? = some record) (hs : record.scope ≠ scope) :
    recordForScope state scope executionId = .error .scopeMismatch := by
  have hf : sameScope record scope = false := by
    rw [← Bool.not_eq_true]
    exact fun hc => hs (sameScope_iff.mp hc)
  simp [recordForScope, h, hf]

/-! ## The critical sections -/

namespace MemoryStore

variable {now : Nat} {scope : CapabilityScopeV2} {executionId : String}
  {state state' : MemoryState}

/-- `reserve` returns a record that is there or writes a new one. -/
theorem reserve_cases (requested : NewExecution) (state : MemoryState) :
    ((reserve requested state).2 = state ∧
        ∀ o, (reserve requested state).1 = .ok o → o.created = false) ∨
      ((∀ (id : String) record, state.executions[id]? = some record →
          reservationMatches requested record = false) ∧
        reserve requested state =
          (.ok { record := newRecord requested, created := true },
            state.put requested.execution.executionId (newRecord requested))) := by
  unfold reserve
  cases hf : (OrdMap.values state.executions).find? (reservationMatches requested) with
  | some existing =>
      left
      by_cases hsame : sameReservation existing requested = true
      · simp [hsame]
      · simp only [Bool.not_eq_true] at hsame
        simp [hsame]
  | none =>
      right
      refine ⟨?_, rfl⟩
      intro id record h
      have := List.find?_eq_none.mp hf record (OrdMap.mem_values.mpr ⟨id, h⟩)
      simpa using this

/-- The approval a claim goes through with. -/
structure Approved (record : ExecutionRecord) (state : MemoryState)
    (approvalId : String) : Prop where
  id : record.approvalId = some approvalId
  approved : record.approvalStatus = "approved"
  arguments : ∃ arguments : Value, state.approvedAuthorities[approvalId]? = some arguments ∧
    arguments.beq record.arguments = true

/-- A write claim takes its approval out of the store, a read claim takes none. -/
theorem consumeApproval_ok {record : ExecutionRecord}
    (h : consumeApproval record state = .ok state') :
    (record.execution.effect = .read ∧ state' = state) ∨
      (record.execution.effect ≠ .read ∧ ∃ approvalId, Approved record state approvalId ∧
        state' =
          { state with
            approvedAuthorities := state.approvedAuthorities.erase approvalId }) := by
  unfold consumeApproval at h
  split at h
  · rename_i hread
    exact .inl ⟨hread, (Except.ok.inj h).symm⟩
  · rename_i hwrite
    right
    refine ⟨hwrite, ?_⟩
    cases ha : record.approvalId with
    | none => simp [ha] at h
    | some approvalId =>
        simp only [ha] at h
        split at h
        · exact absurd h (by simp)
        · rename_i hno
          simp only [not_or, not_not, Bool.not_eq_true, Bool.not_eq_false'] at hno
          refine ⟨approvalId, ⟨ha, hno.1, ?_⟩, (Except.ok.inj h).symm⟩
          cases hget : state.approvedAuthorities[approvalId]? with
          | none => simp [hget, optBeq] at hno
          | some arguments =>
              simp only [hget, optBeq] at hno
              exact ⟨arguments, rfl, hno.2⟩

/-- `dispatch` returns no claim and leaves the store, or makes a first claim, or
    claims a read whose lease is over. -/
theorem dispatch_cases (now : Nat) (scope : CapabilityScopeV2)
    (executionId fence : String) (state : MemoryState) :
    ((dispatch now scope executionId fence state).2 = state ∧
        ∀ o, (dispatch now scope executionId fence state).1 = .ok o → o.claimed = false) ∨
      (∃ record state', recordForScope state scope executionId = .ok record ∧
        record.Unclaimed ∧ consumeApproval record state = .ok state' ∧
        dispatch now scope executionId fence state =
          (.ok { record := record.claimed now fence, claimed := true },
            state'.put executionId (record.claimed now fence))) ∨
      (∃ record, recordForScope state scope executionId = .ok record ∧
        record.Reclaimable now ∧
        dispatch now scope executionId fence state =
          (.ok { record := record.reclaimed now fence, claimed := true },
            state.put executionId (record.reclaimed now fence))) := by
  unfold dispatch
  cases hr : recordForScope state scope executionId with
  | error e => left; simp
  | ok record =>
      by_cases ht : record.execution.status.isTerminal = true
      · left; simp [ht]
      have ho : record.execution.status.isTerminal = false := by simpa using ht
      simp only [ho, Bool.false_eq_true, if_false]
      cases hf : record.dispatchFence with
      | none =>
          simp only
          cases hc : consumeApproval record state with
          | error e => left; simp
          | ok state' =>
              right; left
              exact ⟨record, state', rfl, ⟨ho, hf⟩, hc, rfl⟩
      | some existing =>
          simp only
          by_cases he : record.execution.effect = .read
          · by_cases hl : record.leaseIsLive now = true
            · left; simp [he, hl]
            have hl' : record.leaseIsLive now = false := by simpa using hl
            right; right
            refine ⟨record, rfl, ⟨ho, he, by simp [hf], hl'⟩, ?_⟩
            by_cases heq : existing = fence
            · subst heq
              simp [he, hl', ExecutionRecord.reclaimed, ← hf]
            · simp [he, hl', heq, ExecutionRecord.reclaimed]
          · left
            by_cases heq : existing = fence <;> simp [he, heq]

/-- `renew` leaves the store and does not return true, or extends the lease of
    the fence it was given. -/
theorem renew_cases (now : Nat) (scope : CapabilityScopeV2)
    (executionId fence : String) (leaseMs : Nat) (state : MemoryState) :
    ((renew now scope executionId fence leaseMs state).2 = state ∧
        (renew now scope executionId fence leaseMs state).1 ≠ .ok true) ∨
      (∃ record, recordForScope state scope executionId = .ok record ∧
        record.Renewable now fence ∧
        renew now scope executionId fence leaseMs state =
          (.ok true, state.put executionId (record.renewed now leaseMs))) := by
  unfold renew
  cases hr : recordForScope state scope executionId with
  | error e => left; simp
  | ok record =>
      by_cases h : record.execution.status.isTerminal = true
          ∨ record.dispatchFence ≠ some fence ∨ (!record.leaseIsLive now) = true
      · left
        simp only [if_pos h]
        exact ⟨trivial, by simp⟩
      · right
        refine ⟨record, rfl, ?_, by simp only [if_neg h]; rfl⟩
        simp only [not_or, Bool.not_eq_true, not_not, Bool.not_eq_false'] at h
        exact ⟨h.1, h.2.1, h.2.2⟩

theorem fenceMismatch_eq_false {record : ExecutionRecord} {fence : Option String} :
    fenceMismatch record fence = false ↔
      ∀ f, fence = some f → record.dispatchFence = some f := by
  cases fence <;> simp [fenceMismatch]

variable (toVec : Payload → Option (List UInt8))

/-- `append_event` past all its checks. -/
theorem appendEvent_ok {eventId event : String} {status : CapabilityExecutionStatus}
    {payload : Payload} {fence : Option String} {record : ExecutionRecord}
    (hfits : payloadFits toVec payload = true)
    (hnew : recordedEvent state executionId eventId = none)
    (hr : recordForScope state scope executionId = .ok record)
    (h : record.Admits status fence)
    (hneeds : needsFence status = true → record.dispatchFence ≠ none) :
    appendEvent toVec now scope executionId eventId event status payload fence state =
      (.ok (record.eventAfter now executionId event status payload),
        (state.put executionId (record.appended now status payload)).pushEvent
          executionId eventId (record.eventAfter now executionId event status payload)) := by
  have hn : ¬ (needsFence status = true ∧ record.dispatchFence = none) :=
    fun hc => hneeds hc.1 hc.2
  simp only [appendEvent, hfits, hnew, hr, h.open_, h.transition,
    fenceMismatch_eq_false.mpr h.fence, Bool.not_true, Bool.false_eq_true, if_false,
    if_neg hn]
  simp only [ExecutionRecord.eventAfter, ExecutionRecord.appended, ExecutionRecord.touched,
    recordAfter, terminalPayload]
  split <;> rfl

/-- `append_event` leaves the store, or moves the lease of an unclaimed record
    whose event it then refuses, or records the event. -/
theorem appendEvent_cases (now : Nat) (scope : CapabilityScopeV2)
    (executionId eventId event : String) (status : CapabilityExecutionStatus)
    (payload : Payload) (fence : Option String) (state : MemoryState) :
    (appendEvent toVec now scope executionId eventId event status payload fence state).2 =
        state ∨
      (∃ record, recordForScope state scope executionId = .ok record ∧
        record.Admits status fence ∧ needsFence status = true ∧
        record.dispatchFence = none ∧
        appendEvent toVec now scope executionId eventId event status payload fence state =
          (.error .invalidEvent, state.put executionId (record.touched now status))) ∨
      (∃ record, recordForScope state scope executionId = .ok record ∧
        recordedEvent state executionId eventId = none ∧
        record.Admits status fence ∧
        (needsFence status = true → record.dispatchFence ≠ none) ∧
        appendEvent toVec now scope executionId eventId event status payload fence state =
          (.ok (record.eventAfter now executionId event status payload),
            (state.put executionId (record.appended now status payload)).pushEvent
              executionId eventId
              (record.eventAfter now executionId event status payload))) := by
  by_cases hp : payloadFits toVec payload = true
  swap
  · left
    simp [appendEvent, hp]
  cases he : recordedEvent state executionId eventId with
  | some existing =>
      left
      simp [appendEvent, hp, he]
  | none =>
      cases hr : recordForScope state scope executionId with
      | error e =>
          left
          simp [appendEvent, hp, he, hr]
      | ok record =>
          by_cases ht : record.execution.status.isTerminal = true
          · left
            simp [appendEvent, hp, he, hr, ht]
          have ho : record.execution.status.isTerminal = false := by simpa using ht
          by_cases hv : validTransition record status = true
          swap
          · left
            simp [appendEvent, hp, he, hr, ho, hv]
          by_cases hm : fenceMismatch record fence = true
          · left
            simp [appendEvent, hp, he, hr, ho, hv, hm]
          have hm' : fenceMismatch record fence = false := by simpa using hm
          have hadm : record.Admits status fence :=
            ⟨ho, hv, fenceMismatch_eq_false.mp hm'⟩
          right
          by_cases hn : needsFence status = true ∧ record.dispatchFence = none
          · left
            refine ⟨record, rfl, hadm, hn.1, hn.2, ?_⟩
            simp only [appendEvent, hp, he, hr, ho, hv, hm', Bool.not_true,
              Bool.false_eq_true, if_false, if_pos hn]
            rfl
          · right
            have hneeds : needsFence status = true → record.dispatchFence ≠ none :=
              fun h1 h2 => hn ⟨h1, h2⟩
            exact ⟨record, rfl, rfl, hadm, hneeds,
              appendEvent_ok toVec hp he hr hadm hneeds⟩

/-- No event touches an approval. -/
theorem appendEvent_approvals (now : Nat) (scope : CapabilityScopeV2)
    (executionId eventId event : String) (status : CapabilityExecutionStatus)
    (payload : Payload) (fence : Option String) (state : MemoryState) :
    (appendEvent toVec now scope executionId eventId event status payload fence
      state).2.approvedAuthorities = state.approvedAuthorities := by
  rcases appendEvent_cases toVec now scope executionId eventId event status payload fence
      state with hsame | ⟨_, _, _, _, _, heq⟩ | ⟨_, _, _, _, _, heq⟩
  · rw [hsame]
  · rw [heq]
    rfl
  · rw [heq]
    rfl

/-- `cancel` leaves the store or has done what its append did. -/
theorem cancel_cases (now : Nat) (scope : CapabilityScopeV2)
    (executionId eventId : String) (state : MemoryState) :
    (cancel toVec now scope executionId eventId state).2 = state ∨
      ∃ record, recordForScope state scope executionId = .ok record ∧
        (cancel toVec now scope executionId eventId state).2 =
          (cancelAppend toVec now scope executionId eventId record state).2 := by
  unfold cancel get
  cases hr : recordForScope state scope executionId with
  | error e => left; rfl
  | ok record =>
      simp only
      split
      · left; rfl
      · right
        refine ⟨record, rfl, ?_⟩
        split <;> rename_i heq <;> rw [heq]

end MemoryStore

end AiPlatform.Worker
