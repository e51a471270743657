/-
  AiPlatform.Worker.ReadFencing

  Successive claims of a read.

  A second claim is made only when the lease under the first one's fence is
  over.  From then on the store turns away what still carries the old fence, for
  as long as no dispatch brings that fence back.
-/

import AiPlatform.Worker.StoreMachine

namespace AiPlatform.Worker

open AiPlatform.Json AiPlatform.Capability Transition

variable {toVec : Payload → Option (List UInt8)}

/-- The move is a dispatch that claims `executionId` with `fence`. -/
structure StoreMove.ClaimsAs (executionId fence : String) (x : StoreMove) : Prop where
  claims : x.claims executionId = true
  call : ∃ scope, x.input.call = .dispatch scope executionId fence

/-- The execution is there, under this fence. -/
def MemoryState.Fenced (state : MemoryState) (executionId : String) (fence : String) : Prop :=
  ∃ record, state.executions[executionId]? = some record ∧
    record.dispatchFence = some fence

/-- A claimed execution that is not finished has a lease. -/
def Leased (slot : Slot) : Prop :=
  ∀ record, slot.record = some record → record.execution.status.isTerminal = false →
    record.dispatchFence.isSome = true → record.workerLeaseUntilEpochMs.isSome = true

/-! ## One move -/

theorem leased_step {executionId : String} {x : StoreMove} {a b : Slot}
    (h : SlotStep executionId x a b) (ha : Leased a) : Leased b := by
  cases h with
  | same _ _ => exact ha
  | create log requested _ _ _ _ _ =>
      intro record hrecord _ hfence
      obtain rfl := Option.some.inj hrecord
      exact absurd hfence (by simp [MemoryStore.newRecord])
  | claim record log fence _ _ _ | reclaim record log fence _ _ _
  | renew record log fence leaseMs _ _ =>
      intro record' hrecord' _ _
      obtain rfl := Option.some.inj hrecord'
      rfl
  | refuse record log eventId event status payload fence _ _ hunclaimed =>
      intro record' hrecord' _ hfence
      obtain rfl := Option.some.inj hrecord'
      simp [hunclaimed] at hfence
  | append record log eventId event status payload fence _ h _ =>
      intro record' hrecord' hopen hfence
      obtain rfl := Option.some.inj hrecord'
      rw [ExecutionRecord.appended_status] at hopen
      rw [ExecutionRecord.appended_fence] at hfence
      rw [ExecutionRecord.appended_lease]
      simp only [MemoryStore.leaseAfter, hopen, Bool.false_eq_true, if_false]
      split
      · rfl
      · exact ha record rfl h.open_ hfence

theorem leased_run {t : MemoryState} {tr : List StoreMove}
    (h : Run (storeMachine toVec) .empty tr t) (executionId : String) :
    Leased (t.slot executionId) := by
  refine Run.invariant (P := fun u => Leased (u.slot executionId)) ?_ h ?_
  · intro x hx hpre
    exact leased_step (StoreMachine.slotStep hx executionId) hpre
  · intro record hrecord
    exact absurd hrecord (by simp)

/-- A claim leaves the execution under its fence, leased for thirty seconds. -/
theorem claimsAs_post {x : StoreMove} (hx : (storeMachine toVec).Makes x)
    {executionId fence : String} (h : x.ClaimsAs executionId fence) :
    ∃ record, x.post.executions[executionId]? = some record ∧
      record.dispatchFence = some fence ∧
      record.workerLeaseUntilEpochMs = some (x.input.now + 30_000) := by
  obtain ⟨hclaims, scope, hcall⟩ := h
  have hstep := StoreMachine.slotStep hx executionId
  generalize hpost : x.post.slot executionId = post at hstep
  have hget : x.post.executions[executionId]? = post.record := congrArg Slot.record hpost
  rw [hget]
  generalize x.pre.slot executionId = pre at hstep
  cases hstep with
  | same _ hno =>
      rw [hno] at hclaims
      exact absurd hclaims Bool.false_ne_true
  | create _ _ hcall' | renew _ _ _ _ hcall' =>
      rw [hcall] at hcall'
      exact absurd hcall' (by simp)
  | claim record log f hcall' _ _ | reclaim record log f hcall' _ _ =>
      have hf : f = fence := by
        rw [hcall] at hcall'
        simp only [StoreCall.dispatch.injEq] at hcall'
        exact hcall'.2.2.symm
      subst hf
      exact ⟨_, rfl, rfl, rfl⟩
  | refuse _ _ _ _ _ _ _ happ | append _ _ _ _ _ _ _ happ =>
      exact absurd hcall (happ.ne_dispatch _ _ _)

/-- A claim of an execution under a fence is made when that fence's lease is
    over. -/
theorem claims_pre {x : StoreMove} (hx : (storeMachine toVec).Makes x)
    {executionId : String} (hleased : Leased (x.pre.slot executionId))
    (h : x.claims executionId = true) {record : ExecutionRecord} {fence : String}
    (hat : x.pre.executions[executionId]? = some record)
    (hfence : record.dispatchFence = some fence) :
    ∃ lease, record.workerLeaseUntilEpochMs = some lease ∧ lease ≤ x.input.now := by
  have hstep := StoreMachine.slotStep hx executionId
  rw [MemoryState.slot_of_record hat] at hstep hleased
  generalize x.post.slot executionId = post at hstep
  cases hstep with
  | same _ hno =>
      rw [hno] at h
      exact absurd h Bool.false_ne_true
  | claim _ _ _ _ _ hopen =>
      rw [hopen.fence] at hfence
      exact absurd hfence (by simp)
  | reclaim _ _ _ _ _ hopen =>
      have hsome := hleased record rfl hopen.open_ hopen.fence
      obtain ⟨lease, hlease⟩ := Option.isSome_iff_exists.mp hsome
      have hnot := hopen.lease
      refine ⟨lease, hlease, ?_⟩
      by_contra hlt
      rw [(ExecutionRecord.leaseIsLive_some hlease).mpr (by omega)] at hnot
      exact absurd hnot (by simp)
  | renew _ _ _ _ hcall _ =>
      obtain ⟨scope, f, hdispatch⟩ := StoreMove.dispatch_of_claims h
      rw [hcall] at hdispatch
      exact absurd hdispatch (by simp)
  | refuse _ _ _ _ _ _ _ happ | append _ _ _ _ _ _ _ happ =>
      obtain ⟨scope, f, hdispatch⟩ := StoreMove.dispatch_of_claims h
      exact absurd hdispatch (happ.ne_dispatch _ _ _)

/-- Only a claim changes the fence of an execution. -/
theorem fenced_step {x : StoreMove} (hx : (storeMachine toVec).Makes x)
    {executionId fence : String} (h : x.pre.Fenced executionId fence)
    (hno : x.claims executionId = false) : x.post.Fenced executionId fence := by
  obtain ⟨record, hat, hfence⟩ := h
  have hstep := StoreMachine.slotStep hx executionId
  rw [MemoryState.slot_of_record hat] at hstep
  generalize hpost : x.post.slot executionId = post at hstep
  have hget : x.post.executions[executionId]? = post.record := congrArg Slot.record hpost
  unfold MemoryState.Fenced
  rw [hget]
  cases hstep with
  | same _ _ => exact ⟨record, rfl, hfence⟩
  | claim _ _ _ hcall hreply _ | reclaim _ _ _ hcall hreply _ =>
      simp [StoreMove.claims, hcall, hreply] at hno
  | renew _ _ _ _ _ _ => exact ⟨_, rfl, hfence⟩
  | refuse _ _ _ _ _ _ _ _ _ hunclaimed =>
      rw [hunclaimed] at hfence
      exact absurd hfence (by simp)
  | append _ _ _ _ _ _ _ _ _ _ => exact ⟨_, rfl, hfence⟩

/-- A move that is no dispatch with `fence` leaves an execution under another
    fence under another fence. -/
theorem other_fence_step {x : StoreMove} (hx : (storeMachine toVec).Makes x)
    {executionId fence : String}
    (h : ∃ other, x.pre.Fenced executionId other ∧ other ≠ fence)
    (hno : ∀ scope, x.input.call ≠ .dispatch scope executionId fence) :
    ∃ other, x.post.Fenced executionId other ∧ other ≠ fence := by
  obtain ⟨other, hother, hne⟩ := h
  cases hclaims : x.claims executionId with
  | false => exact ⟨other, fenced_step hx hother hclaims, hne⟩
  | true =>
      obtain ⟨scope, f, hcall⟩ := StoreMove.dispatch_of_claims hclaims
      obtain ⟨record, hat, hfence, _⟩ := claimsAs_post hx ⟨hclaims, scope, hcall⟩
      refine ⟨f, ⟨record, hat, hfence⟩, ?_⟩
      rintro rfl
      exact hno scope hcall

/-! ## What the store answers to an old fence -/

/-- The first check of `append_event` that an event under an old fence fails. -/
def staleAppendError (toVec : Payload → Option (List UInt8)) (record : ExecutionRecord)
    (scope : CapabilityScopeV2) (status : CapabilityExecutionStatus) (payload : Payload) :
    StoreError :=
  if MemoryStore.payloadFits toVec payload = false then .invalidEvent
  else if record.scope ≠ scope then .scopeMismatch
  else if record.execution.status.isTerminal = true then .terminalImmutable
  else if MemoryStore.validTransition record status = false then .invalidEvent
  else .dispatchFenceMismatch

/-- The move, if it carries `fence` for the execution, is turned away and leaves
    the store. -/
structure StaleRejected (toVec : Payload → Option (List UInt8)) (executionId fence : String)
    (record : ExecutionRecord) (x : StoreMove) : Prop where
  before : x.pre.executions[executionId]? = some record
  renew : ∀ scope leaseMs, x.input.call = .renew scope executionId fence leaseMs →
    x.reply = .renewed (if record.scope = scope then .ok false else .error .scopeMismatch) ∧
      x.post = x.pre
  append : ∀ scope eventId event status payload,
    x.input.call = .appendEvent scope executionId eventId event status payload (some fence) →
    MemoryStore.recordedEvent x.pre executionId eventId = none →
    x.reply = .event (.error (staleAppendError toVec record scope status payload)) ∧
      x.post = x.pre

theorem renew_stale {now leaseMs : Nat} {scope : CapabilityScopeV2}
    {executionId fence : String} {state : MemoryState} {record : ExecutionRecord}
    (hat : state.executions[executionId]? = some record)
    (hfence : record.dispatchFence ≠ some fence) :
    MemoryStore.renew now scope executionId fence leaseMs state =
      (if record.scope = scope then .ok false else .error .scopeMismatch, state) := by
  unfold MemoryStore.renew
  by_cases hs : record.scope = scope
  · rw [recordForScope_ok.mpr ⟨hat, hs⟩, if_pos hs]
    exact if_pos (.inr (.inl hfence))
  · rw [recordForScope_foreign hat hs, if_neg hs]

theorem appendEvent_stale {now : Nat} {scope : CapabilityScopeV2}
    {executionId eventId event fence : String} {status : CapabilityExecutionStatus}
    {payload : Payload} {state : MemoryState} {record : ExecutionRecord}
    (hat : state.executions[executionId]? = some record)
    (hnew : MemoryStore.recordedEvent state executionId eventId = none)
    (hfence : record.dispatchFence ≠ some fence) :
    MemoryStore.appendEvent toVec now scope executionId eventId event status payload
        (some fence) state =
      (.error (staleAppendError toVec record scope status payload), state) := by
  unfold MemoryStore.appendEvent staleAppendError
  by_cases hp : MemoryStore.payloadFits toVec payload = true
  swap
  · simp [hp]
  simp only [hp, hnew, Bool.not_true, Bool.false_eq_true, Bool.true_eq_false, if_false]
  by_cases hs : record.scope = scope
  swap
  · rw [recordForScope_foreign hat hs, if_pos hs]
  rw [recordForScope_ok.mpr ⟨hat, hs⟩, if_neg (not_not.mpr hs)]
  by_cases ht : record.execution.status.isTerminal = true
  · simp [ht]
  by_cases hv : MemoryStore.validTransition record status = true
  swap
  · simp [ht, hv]
  have hm : MemoryStore.fenceMismatch record (some fence) = true := by
    simpa [MemoryStore.fenceMismatch] using hfence
  simp [ht, hv, hm]

theorem staleRejected {x : StoreMove} (hx : (storeMachine toVec).Makes x)
    {executionId fence : String}
    (h : ∃ other, x.pre.Fenced executionId other ∧ other ≠ fence) :
    ∃ record, StaleRejected toVec executionId fence record x := by
  obtain ⟨other, ⟨record, hat, hother⟩, hne⟩ := h
  have hfence : record.dispatchFence ≠ some fence := by
    rw [hother]
    simpa using hne
  have happly := (StoreMachine.makes_iff.mp hx).2
  refine ⟨record, hat, ?_, ?_⟩
  · intro scope leaseMs hcall
    rw [hcall] at happly
    simp only [StoreCall.apply, renew_stale hat hfence, Prod.mk.injEq] at happly
    exact ⟨happly.1.symm, happly.2.symm⟩
  · intro scope eventId event status payload hcall hnew
    rw [hcall] at happly
    simp only [StoreCall.apply, appendEvent_stale hat hnew hfence, Prod.mk.injEq] at happly
    exact ⟨happly.1.symm, happly.2.symm⟩

/-! ## Runs -/

/-- `z` is the next claim after a claim with `fence`: the execution was under
    `fence` all along, and the lease it had under it is over at `z`. -/
structure ClaimsAfterLease (executionId fence : String) (z : StoreMove) : Prop where
  claims : z.claims executionId = true
  expired : ∃ record lease, z.pre.executions[executionId]? = some record ∧
    record.dispatchFence = some fence ∧ record.workerLeaseUntilEpochMs = some lease ∧
    lease ≤ z.input.now

/-- Among moves from a fenced state of which one claims, the first to claim does
    so after the lease. -/
theorem next_claim {s t : MemoryState} {tr : List StoreMove}
    (h : Run (storeMachine toVec) s tr t) {executionId fence : String}
    (hfenced : s.Fenced executionId fence) (hleased : Leased (s.slot executionId))
    (hclaim : ∃ y ∈ tr, StoreMove.claims executionId y = true) :
    ∃ quiet z rest, tr = quiet ++ z :: rest ∧
      (∀ m ∈ quiet, m.claims executionId = false) ∧
      ClaimsAfterLease executionId fence z := by
  induction h with
  | nil s =>
      obtain ⟨y, hy, _⟩ := hclaim
      exact absurd hy (List.not_mem_nil)
  | @cons x tr t hx _ ih =>
      cases hm : StoreMove.claims executionId x with
      | true =>
          obtain ⟨record, hat, hfence⟩ := hfenced
          obtain ⟨lease, hlease, hle⟩ := claims_pre hx hleased hm hat hfence
          exact ⟨[], x, tr, rfl, fun m hm => absurd hm (List.not_mem_nil),
            hm, record, lease, hat, hfence, hlease, hle⟩
      | false =>
          have hclaim' : ∃ y ∈ tr, StoreMove.claims executionId y = true := by
            obtain ⟨y, hy, hyc⟩ := hclaim
            rcases List.mem_cons.mp hy with rfl | hy
            · rw [hm] at hyc
              exact absurd hyc Bool.false_ne_true
            · exact ⟨y, hy, hyc⟩
          obtain ⟨quiet, z, rest, rfl, hquiet, hz⟩ := ih (fenced_step hx hfenced hm)
            (leased_step (StoreMachine.slotStep hx executionId) hleased) hclaim'
          refine ⟨x :: quiet, z, rest, rfl, ?_, hz⟩
          intro m hmem
          rcases List.mem_cons.mp hmem with rfl | hmem
          · exact hm
          · exact hquiet m hmem

/-- Once an execution is under another fence, every move that carries the old one
    is turned away, in a run that dispatches it no more. -/
theorem stale_run {s t : MemoryState} {tr : List StoreMove}
    (h : Run (storeMachine toVec) s tr t) {executionId fence : String}
    (hother : ∃ other, s.Fenced executionId other ∧ other ≠ fence)
    (hno : ∀ m ∈ tr, ∀ scope, m.input.call ≠ .dispatch scope executionId fence) :
    ∀ z ∈ tr, ∃ record, StaleRejected toVec executionId fence record z := by
  have hall := Run.invariant_when
    (C := fun m => ∀ scope, m.input.call ≠ .dispatch scope executionId fence)
    (P := fun u => ∃ other, u.Fenced executionId other ∧ other ≠ fence)
    (fun x hx hC hP => other_fence_step hx hP hC) h hno hother
  intro z hz
  obtain ⟨_, _, hmakes⟩ := Run.of_mem h hz
  exact staleRejected hmakes (hall.1 z hz).1

/-- Fencing of claims, over every run of the store.  Of two claims of one
    execution, the next claim after the earlier one is made when the lease held
    under the earlier fence is over.  After a claim with another fence, what
    carries the earlier one is turned away as `StaleRejected` says, while no
    dispatch brings it back. -/
theorem claims_fenced (before between later : List StoreMove) {t : MemoryState}
    {x y : StoreMove}
    (h : Run (storeMachine toVec) .empty (before ++ x :: (between ++ y :: later)) t)
    {executionId fence₁ fence₂ : String} (hx : StoreMove.ClaimsAs executionId fence₁ x)
    (hy : StoreMove.ClaimsAs executionId fence₂ y) :
    (∃ quiet z rest, between ++ [y] = quiet ++ z :: rest ∧
      (∀ m ∈ quiet, m.claims executionId = false) ∧
      ClaimsAfterLease executionId fence₁ z) ∧
    (fence₁ ≠ fence₂ →
      (∀ m ∈ later, ∀ scope, m.input.call ≠ .dispatch scope executionId fence₁) →
      ∀ z ∈ later, ∃ record, StaleRejected toVec executionId fence₁ record z) := by
  obtain ⟨hbefore, hxm, hrest⟩ := Run.of_split h
  have hleased : Leased (x.post.slot executionId) :=
    leased_step (StoreMachine.slotStep hxm executionId) (leased_run hbefore executionId)
  obtain ⟨record, hat, hfence, _⟩ := claimsAs_post hxm hx
  obtain ⟨_, hym, hlater⟩ := Run.of_split hrest
  constructor
  · have hsplit : between ++ y :: later = (between ++ [y]) ++ later := by simp
    rw [hsplit] at hrest
    obtain ⟨_, hupto, _⟩ := Run.of_append hrest
    exact next_claim hupto ⟨record, hat, hfence⟩ hleased
      ⟨y, List.mem_append_right _ (List.mem_cons_self ..), hy.claims⟩
  · intro hne hno
    obtain ⟨record', hat', hfence', _⟩ := claimsAs_post hym hy
    exact stale_run hlater ⟨fence₂, ⟨record', hat', hfence'⟩, hne.symm⟩ hno

/-- A read is claimed, left, and claimed again after its lease; the first worker
    renews and reports. -/
def takeoverCalls : List CallAt :=
  [⟨0, .reserve (sampleRequest "execution-1" .read)⟩,
    ⟨1, .dispatch sampleScope "execution-1" "fence-1"⟩,
    ⟨40_000, .dispatch sampleScope "execution-1" "fence-2"⟩,
    ⟨40_001, .renew sampleScope "execution-1" "fence-1" 30_000⟩,
    ⟨40_002, .appendEvent sampleScope "execution-1" "event-2" "dispatched" .dispatched ∅
      (some "fence-1")⟩]

def StoreMove.toldFalse (x : StoreMove) : Bool :=
  match x.reply with
  | .renewed (.ok renewed) => !renewed
  | _ => false

theorem StoreMove.reply_of_toldFalse {x : StoreMove} (h : x.toldFalse = true) :
    x.reply = .renewed (.ok false) := by
  simp only [StoreMove.toldFalse] at h
  split at h
  · rename_i renewed hreply
    rw [hreply, Bool.not_eq_true' .. |>.mp h]
  · exact absurd h Bool.false_ne_true

/-- The moves of `takeoverCalls`, with what the first worker is told. -/
theorem takeover_run :
    ∃ start x y renewal report t, Run (storeMachine plainToVec) .empty
        [start, x, y, renewal, report] t ∧
      StoreMove.ClaimsAs "execution-1" "fence-1" x ∧
      StoreMove.ClaimsAs "execution-1" "fence-2" y ∧
      renewal.input.call = .renew sampleScope "execution-1" "fence-1" 30_000 ∧
      renewal.reply = .renewed (.ok false) ∧
      ∀ m ∈ [renewal, report], ∀ scope,
        m.input.call ≠ .dispatch scope "execution-1" "fence-1" := by
  obtain ⟨tr, t, h, hinputs, hcheck⟩ := Machine.exists_run (storeMachine plainToVec) .empty
    takeoverCalls
    (fun tr _ => tr.map (StoreMove.claims "execution-1") == [false, true, true, false, false]
      && tr.map StoreMove.toldFalse == [false, false, false, true, false])
    (by decide)
  simp only [takeoverCalls, List.map_eq_cons_iff, List.map_eq_nil_iff] at hinputs
  obtain ⟨start, _, rfl, hstart, x, _, rfl, hx, y, _, rfl, hy, renewal, _, rfl, hrenewal,
    report, _, rfl, hreport, rfl⟩ := hinputs
  simp only [List.map_cons, List.map_nil, Bool.and_eq_true, beq_iff_eq,
    List.cons.injEq] at hcheck
  obtain ⟨⟨_, hxc, hyc, _⟩, _, _, _, hreply, _⟩ := hcheck
  refine ⟨start, x, y, renewal, report, t, h, ⟨hxc, sampleScope, by rw [hx]⟩,
    ⟨hyc, sampleScope, by rw [hy]⟩, by rw [hrenewal],
    StoreMove.reply_of_toldFalse hreply, ?_⟩
  intro m hm scope
  simp only [List.mem_cons, List.not_mem_nil, or_false] at hm
  rcases hm with rfl | rfl
  · rw [hrenewal]
    simp
  · rw [hreport]
    simp

/-- The first worker of `takeoverCalls` is fenced off. -/
theorem claims_fenced_takeover :
    ∃ start x y renewal report t, Run (storeMachine plainToVec) .empty
        [start, x, y, renewal, report] t ∧
      ClaimsAfterLease "execution-1" "fence-1" y ∧
      ∃ record, StaleRejected plainToVec "execution-1" "fence-1" record report := by
  obtain ⟨start, x, y, renewal, report, t, h, hx, hy, _, _, hno⟩ := takeover_run
  obtain ⟨⟨quiet, z, rest, hsplit, _, hz⟩, hstale⟩ :=
    claims_fenced [start] [] [renewal, report] h hx hy
  have hzy : z = y := by
    cases quiet with
    | nil => simpa using (List.cons.inj hsplit).1.symm
    | cons m quiet => simp at hsplit
  exact ⟨start, x, y, renewal, report, t, h, hzy ▸ hz,
    hstale (by decide) hno report (by simp)⟩

/-- A renewal under the old fence is told false and not an error. -/
theorem renew_stale_takeover :
    ∃ start x y renewal report t, Run (storeMachine plainToVec) .empty
        [start, x, y, renewal, report] t ∧
      StoreMove.ClaimsAs "execution-1" "fence-1" x ∧
      StoreMove.ClaimsAs "execution-1" "fence-2" y ∧
      renewal.input.call = .renew sampleScope "execution-1" "fence-1" 30_000 ∧
      renewal.reply ≠ .renewed (.error .dispatchFenceMismatch) := by
  obtain ⟨start, x, y, renewal, report, t, h, hx, hy, hcall, hreply, _⟩ := takeover_run
  refine ⟨start, x, y, renewal, report, t, h, hx, hy, hcall, ?_⟩
  rw [hreply]
  simp

end AiPlatform.Worker
