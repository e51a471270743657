/-
  AiPlatform.Worker.FailedCalls

  Calls of the execution store that answer with an error.

  All methods but one check everything before they write.  `append_event` moves the
  lease of the record it has found and only then refuses a status that a claim has
  to come before.  An execution without a claim has no lease, and no work on it has
  begun, so what is written there is what was there.
-/

import AiPlatform.Worker.Isolation

namespace AiPlatform.Worker

open AiPlatform.Json AiPlatform.Capability Transition

variable {toVec : Payload → Option (List UInt8)}

/-! ## Executions without a claim -/

/-- Without a fence there is no lease and no work under way. -/
def ExecutionRecord.UnclaimedIdle (record : ExecutionRecord) : Prop :=
  record.dispatchFence = none →
    record.workerLeaseUntilEpochMs = none ∧ record.execution.status ≠ .running

def SlotUnclaimedIdle (slot : Slot) : Prop :=
  ∀ record, slot.record = some record → record.UnclaimedIdle

/-- The lease that an event leaves on an unclaimed execution is the one it had. -/
theorem ExecutionRecord.UnclaimedIdle.leaseAfter_eq {record : ExecutionRecord}
    (h : record.UnclaimedIdle) (hfence : record.dispatchFence = none) (now : Nat)
    (status : CapabilityExecutionStatus) :
    MemoryStore.leaseAfter now record status = record.workerLeaseUntilEpochMs := by
  obtain ⟨hlease, hrunning⟩ := h hfence
  unfold MemoryStore.leaseAfter
  rw [if_neg hrunning, hlease, ite_self]

theorem ExecutionRecord.UnclaimedIdle.touched_eq {record : ExecutionRecord}
    (h : record.UnclaimedIdle) (hfence : record.dispatchFence = none) (now : Nat)
    (status : CapabilityExecutionStatus) : record.touched now status = record := by
  unfold ExecutionRecord.touched
  rw [h.leaseAfter_eq hfence]

theorem unclaimedIdle_step {executionId : String} {x : StoreMove} {a b : Slot}
    (h : SlotStep executionId x a b) (ha : SlotUnclaimedIdle a) : SlotUnclaimedIdle b := by
  cases h with
  | same _ _ => exact ha
  | create log requested _ hnew _ _ _ =>
      intro record hrecord _
      obtain rfl := Option.some.inj hrecord
      simp only [NewExecution.isNew, Bool.and_eq_true, beq_iff_eq] at hnew
      refine ⟨rfl, ?_⟩
      show requested.execution.status ≠ .running
      rw [hnew.1.1]
      exact nofun
  | claim record log fence _ _ _ | reclaim record log fence _ _ _ =>
      intro record' hrecord' hfence
      obtain rfl := Option.some.inj hrecord'
      cases hfence
  | renew record log fence leaseMs _ hopen =>
      intro record' hrecord' hfence
      obtain rfl := Option.some.inj hrecord'
      rw [ExecutionRecord.renewed_fence, hopen.fence] at hfence
      cases hfence
  | refuse record log eventId event status payload fence _ _ hunclaimed =>
      intro record' hrecord'
      obtain rfl := Option.some.inj hrecord'
      have hidle := ha record rfl
      rw [hidle.touched_eq hunclaimed]
      exact hidle
  | append record log eventId event status payload fence _ _ hneeds =>
      intro record' hrecord' hfence
      obtain rfl := Option.some.inj hrecord'
      rw [ExecutionRecord.appended_fence] at hfence
      have hidle := ha record rfl
      rw [ExecutionRecord.appended_lease, ExecutionRecord.appended_status,
        hidle.leaseAfter_eq hfence]
      refine ⟨(hidle hfence).1, ?_⟩
      rintro rfl
      exact hneeds rfl hfence

theorem unclaimedIdle_run {t : MemoryState} {tr : List StoreMove}
    (h : Run (storeMachine toVec) .empty tr t) (executionId : String) :
    SlotUnclaimedIdle (t.slot executionId) := by
  refine Run.invariant (P := fun u => SlotUnclaimedIdle (u.slot executionId)) ?_ h ?_
  · intro x hx hpre
    exact unclaimedIdle_step (StoreMachine.slotStep hx executionId) hpre
  · intro record hrecord
    exact absurd hrecord (by simp)

/-! ## The calls -/

/-- Writing back the record that is there changes nothing. -/
theorem MemoryState.put_self {state : MemoryState} {executionId : String}
    {record : ExecutionRecord} (h : state.executions[executionId]? = some record) :
    state.put executionId record = state := by
  have hsame : state.executions.insert executionId record = state.executions := by
    apply Std.ExtTreeMap.ext_getElem?
    intro id
    by_cases hid : executionId = id
    · subst hid
      rw [Std.ExtTreeMap.getElem?_insert_self, h]
    · rw [OrdMap.getElem?_insert_ne _ hid]
  rw [MemoryState.put, hsame]

section

variable {state : MemoryState} {now : Nat} {scope : CapabilityScopeV2}
  {executionId eventId event : String} {status : CapabilityExecutionStatus}
  {payload : Payload} {fence : Option String} {error : StoreError}

theorem reserve_error {requested : NewExecution}
    (h : (MemoryStore.reserve requested state).1 = .error error) :
    (MemoryStore.reserve requested state).2 = state := by
  rcases MemoryStore.reserve_cases requested state with ⟨hsame, _⟩ | ⟨_, heq⟩
  · exact hsame
  · rw [heq] at h
    cases h

theorem dispatch_error {dispatchFence : String}
    (h : (MemoryStore.dispatch now scope executionId dispatchFence state).1 = .error error) :
    (MemoryStore.dispatch now scope executionId dispatchFence state).2 = state := by
  rcases MemoryStore.dispatch_cases now scope executionId dispatchFence state with
    ⟨hsame, _⟩ | ⟨_, _, _, _, _, heq⟩ | ⟨_, _, _, heq⟩
  · exact hsame
  · rw [heq] at h
    cases h
  · rw [heq] at h
    cases h

theorem renew_error {dispatchFence : String} {leaseMs : Nat}
    (h : (MemoryStore.renew now scope executionId dispatchFence leaseMs state).1 =
      .error error) :
    (MemoryStore.renew now scope executionId dispatchFence leaseMs state).2 = state := by
  rcases MemoryStore.renew_cases now scope executionId dispatchFence leaseMs state with
    ⟨hsame, _⟩ | ⟨_, _, _, heq⟩
  · exact hsame
  · rw [heq] at h
    cases h

theorem appendEvent_error (hidle : ∀ id, SlotUnclaimedIdle (state.slot id))
    (h : (MemoryStore.appendEvent toVec now scope executionId eventId event status payload
      fence state).1 = .error error) :
    (MemoryStore.appendEvent toVec now scope executionId eventId event status payload fence
      state).2 = state := by
  rcases MemoryStore.appendEvent_cases toVec now scope executionId eventId event status
      payload fence state with hsame | ⟨record, hr, _, _, hunclaimed, heq⟩ |
      ⟨_, _, _, _, _, heq⟩
  · exact hsame
  · -- The lease has been moved when the event is refused.
    have hat := (recordForScope_ok.mp hr).1
    have hrecord := hidle executionId record (by rw [MemoryState.slot_of_record hat])
    rw [heq]
    show state.put executionId (record.touched now status) = state
    rw [hrecord.touched_eq hunclaimed, MemoryState.put_self hat]
  · rw [heq] at h
    cases h

/-- A recorded event leaves its execution readable under the scope it was. -/
theorem get_after_appendEvent {current : ExecutionRecord}
    (hget : MemoryStore.get scope executionId state = .ok current) :
    ∃ record, MemoryStore.get scope executionId
      (MemoryStore.appendEvent toVec now scope executionId eventId event status payload fence
        state).2 = .ok record := by
  rcases MemoryStore.appendEvent_cases toVec now scope executionId eventId event status
      payload fence state with hsame | ⟨record, hr, _, _, _, heq⟩ |
      ⟨record, hr, _, _, _, heq⟩
  · exact ⟨current, by rw [hsame, hget]⟩
  · refine ⟨record.touched now status, recordForScope_ok.mpr ⟨?_, (recordForScope_ok.mp hr).2⟩⟩
    rw [heq]
    exact Std.ExtTreeMap.getElem?_insert_self
  · refine ⟨record.appended now status payload, recordForScope_ok.mpr ⟨?_, ?_⟩⟩
    · rw [heq]
      exact Std.ExtTreeMap.getElem?_insert_self
    · rw [← (recordForScope_ok.mp hr).2]
      exact congrArg (fun i : NewExecution => i.execution.scope) ExecutionRecord.identity_appended

theorem cancel_error (hidle : ∀ id, SlotUnclaimedIdle (state.slot id))
    (h : (MemoryStore.cancel toVec now scope executionId eventId state).1 = .error error) :
    (MemoryStore.cancel toVec now scope executionId eventId state).2 = state := by
  unfold MemoryStore.cancel at h ⊢
  cases hget : MemoryStore.get scope executionId state with
  | error e => rfl
  | ok current =>
      simp only [hget] at h ⊢
      by_cases hterminal : current.execution.status.isTerminal = true
      · rw [if_pos hterminal]
      · rw [if_neg hterminal] at h ⊢
        have hlast : ∃ record, MemoryStore.get scope executionId (MemoryStore.cancelAppend toVec
            now scope executionId eventId current state).2 = .ok record :=
          get_after_appendEvent hget
        have hsame : ∀ e, (MemoryStore.cancelAppend toVec now scope executionId eventId current
            state).1 = .error e → (MemoryStore.cancelAppend toVec now scope executionId eventId
              current state).2 = state := fun _ => appendEvent_error hidle
        generalize MemoryStore.cancelAppend toVec now scope executionId eventId current state =
          out at h hlast hsame ⊢
        obtain ⟨_ | recorded, after⟩ := out
        · exact hsame _ rfl
        · -- The last read finds the record that the first one has found.
          obtain ⟨record, hread⟩ := hlast
          simp only [hread] at h
          cases h

end

/-- In a state the store can reach, a call that answers with an error leaves the store as it
    was. -/
theorem apply_error {state : MemoryState} (hidle : ∀ id, SlotUnclaimedIdle (state.slot id))
    (call : StoreCall) (now : Nat) (h : (call.apply toVec now state).1.isError = true) :
    (call.apply toVec now state).2 = state := by
  cases call with
  | get _ _ | recoverable | events _ _ _ => rfl
  | registerApprovedAuthority _ _ => cases h
  | reserve requested =>
      cases hreply : (MemoryStore.reserve requested state).1 with
      | ok outcome => simp [StoreCall.apply, StoreReply.isError, hreply] at h
      | error e => exact reserve_error hreply
  | dispatch scope executionId fence =>
      cases hreply : (MemoryStore.dispatch now scope executionId fence state).1 with
      | ok outcome => simp [StoreCall.apply, StoreReply.isError, hreply] at h
      | error e => exact dispatch_error hreply
  | renew scope executionId fence leaseMs =>
      cases hreply : (MemoryStore.renew now scope executionId fence leaseMs state).1 with
      | ok extended => simp [StoreCall.apply, StoreReply.isError, hreply] at h
      | error e => exact renew_error hreply
  | appendEvent scope executionId eventId event status payload fence =>
      cases hreply : (MemoryStore.appendEvent toVec now scope executionId eventId event status
          payload fence state).1 with
      | ok recorded => simp [StoreCall.apply, StoreReply.isError, hreply] at h
      | error e => exact appendEvent_error hidle hreply
  | cancel scope executionId eventId =>
      cases hreply : (MemoryStore.cancel toVec now scope executionId eventId state).1 with
      | ok record => simp [StoreCall.apply, StoreReply.isError, hreply] at h
      | error e => exact cancel_error hidle hreply

/-! ## A cancel that others run between -/

/-- What `cancel` answers when its first read, its append and its last read find these
    stores. -/
def MemoryStore.cancelSections (toVec : Payload → Option (List UInt8)) (now : Nat)
    (scope : CapabilityScopeV2) (executionId eventId : String)
    (first second third : MemoryState) : Except StoreError ExecutionRecord :=
  match get scope executionId first with
  | .error e => .error e
  | .ok current =>
      if current.execution.status.isTerminal then .ok current
      else
        match (cancelAppend toVec now scope executionId eventId current second).1 with
        | .error e => .error e
        | .ok _ => get scope executionId third

/-- An execution that has been read can be read again, whatever has run in between. -/
theorem get_run {s t : MemoryState} {tr : List StoreMove} (h : Run (storeMachine toVec) s tr t)
    {scope : CapabilityScopeV2} {executionId : String} {record : ExecutionRecord}
    (hget : MemoryStore.get scope executionId s = .ok record) :
    ∃ later, MemoryStore.get scope executionId t = .ok later := by
  obtain ⟨hat, hscope⟩ := recordForScope_ok.mp hget
  obtain ⟨later, hlater, hid⟩ := identity_run h hat
  refine ⟨later, recordForScope_ok.mpr ⟨hlater, ?_⟩⟩
  rw [← hscope]
  exact congrArg (fun i : NewExecution => i.execution.scope) hid

/-- In every state the store can reach, a call that answers with an error leaves the whole
    store as it was.  The same holds of a `cancel` between whose sections others have run: when
    it answers with an error, its append has left the store as it found it. -/
theorem error_leaves_store {s : MemoryState} {tr : List StoreMove}
    (h : Run (storeMachine toVec) .empty tr s) :
    (∀ (call : StoreCall) (now : Nat), (call.apply toVec now s).1.isError = true →
      (call.apply toVec now s).2 = s) ∧
    ∀ (now : Nat) (scope : CapabilityScopeV2) (executionId eventId : String)
      (current : ExecutionRecord), MemoryStore.get scope executionId s = .ok current →
      ∀ before second, Run (storeMachine toVec) s before second →
        ∀ after third, Run (storeMachine toVec)
            (MemoryStore.cancelAppend toVec now scope executionId eventId current second).2
            after third →
          ∀ error, MemoryStore.cancelSections toVec now scope executionId eventId s second
              third = .error error →
            (MemoryStore.cancelAppend toVec now scope executionId eventId current second).2 =
              second := by
  refine ⟨apply_error (unclaimedIdle_run h), ?_⟩
  intro now scope executionId eventId current hget before second hbefore after third hafter
    error herror
  simp only [MemoryStore.cancelSections, hget] at herror
  by_cases hterminal : current.execution.status.isTerminal = true
  · rw [if_pos hterminal] at herror
    cases herror
  · rw [if_neg hterminal] at herror
    cases hreply : (MemoryStore.cancelAppend toVec now scope executionId eventId current
        second).1 with
    | error e => exact appendEvent_error (unclaimedIdle_run (h.append hbefore)) hreply
    | ok recorded =>
        obtain ⟨found, hfound⟩ := get_run hbefore hget
        obtain ⟨noted, hnoted⟩ : ∃ noted, MemoryStore.get scope executionId
            (MemoryStore.cancelAppend toVec now scope executionId eventId current second).2 =
              .ok noted := get_after_appendEvent hfound
        obtain ⟨last, hlast⟩ := get_run hafter hnoted
        simp only [hreply, hlast] at herror
        cases herror

/-- A success reported for an execution that no one has claimed. -/
theorem error_leaves_store_unclaimed :
    ∃ tr s, Run (storeMachine plainToVec) .empty tr s ∧
      (MemoryStore.appendEvent plainToVec 5 sampleScope "execution-1" "event-1" "terminal"
        .succeeded ∅ none s).1 = .error .invalidEvent ∧
      (MemoryStore.appendEvent plainToVec 5 sampleScope "execution-1" "event-1" "terminal"
        .succeeded ∅ none s).2 = s := by
  obtain ⟨tr, s, hrun, _, hcheck⟩ := Machine.exists_run (storeMachine plainToVec) .empty
    [⟨0, .reserve (sampleRequest "execution-1" .write)⟩]
    (fun _ s =>
      match (MemoryStore.appendEvent plainToVec 5 sampleScope "execution-1" "event-1" "terminal"
        .succeeded ∅ none s).1 with
      | .error e => decide (e = .invalidEvent)
      | .ok _ => false) (by decide)
  refine ⟨tr, s, hrun, ?_⟩
  cases hreply : (MemoryStore.appendEvent plainToVec 5 sampleScope "execution-1" "event-1"
      "terminal" .succeeded ∅ none s).1 with
  | ok recorded => simp [hreply] at hcheck
  | error e =>
      simp only [hreply, decide_eq_true_eq] at hcheck
      refine ⟨by rw [hcheck], (error_leaves_store hrun).1
        (.appendEvent sampleScope "execution-1" "event-1" "terminal" .succeeded ∅ none) 5 ?_⟩
      simp only [StoreCall.apply, StoreReply.isError, hreply]

end AiPlatform.Worker
