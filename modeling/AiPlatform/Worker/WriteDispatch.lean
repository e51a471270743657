/-
  AiPlatform.Worker.WriteDispatch

  Dispatch of executions that may have a side effect.

  A first claim takes the approval of the execution out of the store and sets a
  fence; from then on no dispatch claims it and the fence stays.
-/

import AiPlatform.Worker.Reservation

namespace AiPlatform.Worker

open AiPlatform.Json AiPlatform.Capability Transition

variable {toVec : Payload → Option (List UInt8)}

namespace StoreMove

/-- The move answers a dispatch with a claim of an execution that may write. -/
def claimsWrite (executionId : String) (x : StoreMove) : Bool :=
  match x.input.call, x.reply with
  | .dispatch _ id _, .dispatched (.ok outcome) =>
      id == executionId && outcome.claimed && outcome.record.execution.effect != .read
  | _, _ => false

/-- The move is a write claim that goes through with this approval. -/
def takes (approvalId : String) (x : StoreMove) : Bool :=
  match x.input.call, x.reply with
  | .dispatch _ _ _, .dispatched (.ok outcome) =>
      outcome.claimed && outcome.record.execution.effect != .read
        && outcome.record.approvalId == some approvalId
  | _, _ => false

def registers (approvalId : String) (x : StoreMove) : Bool :=
  match x.input.call with
  | .registerApprovedAuthority id _ => id == approvalId
  | _ => false

end StoreMove

/-- A write claim at work: made under the record's scope, with an approval for
    the record's arguments, which it takes. -/
structure TakesApproval (executionId approvalId : String) (record : ExecutionRecord)
    (x : StoreMove) : Prop where
  call : ∃ fence, x.input.call = .dispatch record.scope executionId fence
  before : x.pre.executions[executionId]? = some record
  unclaimed : record.Unclaimed
  write : record.execution.effect ≠ .read
  approved : MemoryStore.Approved record x.pre approvalId
  taken : x.post.approvedAuthorities = x.pre.approvedAuthorities.erase approvalId
  consumed : ∃ record', x.post.executions[executionId]? = some record' ∧
    record'.approvalStatus = "consumed" ∧ record'.dispatchFence.isSome = true

/-! ## One move -/

/-- What a dispatch that claims a write has done. -/
theorem dispatch_takes {now : Nat} {scope : CapabilityScopeV2} {executionId fence : String}
    {state : MemoryState} {outcome : DispatchOutcome}
    (hout : (MemoryStore.dispatch now scope executionId fence state).1 = .ok outcome)
    (hclaimed : outcome.claimed = true) (hwrite : outcome.record.execution.effect ≠ .read) :
    ∃ record approvalId, recordForScope state scope executionId = .ok record ∧
      record.Unclaimed ∧ MemoryStore.Approved record state approvalId ∧
      outcome.record = record.claimed now fence ∧
      (MemoryStore.dispatch now scope executionId fence state).2 =
        ({ state with approvedAuthorities := state.approvedAuthorities.erase approvalId } :
          MemoryState).put executionId (record.claimed now fence) := by
  rcases MemoryStore.dispatch_cases now scope executionId fence state with
    ⟨_, hno⟩ | ⟨record, mid, hr, hopen, hconsume, heq⟩ | ⟨record, hr, hopen, heq⟩
  · rw [hno outcome hout] at hclaimed
    exact absurd hclaimed Bool.false_ne_true
  · rw [heq] at hout
    obtain rfl := Except.ok.inj hout
    have hne : record.execution.effect ≠ .read := hwrite
    rcases MemoryStore.consumeApproval_ok hconsume with
      ⟨hread, _⟩ | ⟨_, approvalId, happroved, rfl⟩
    · exact absurd hread hne
    · exact ⟨record, approvalId, hr, hopen, happroved, rfl, by rw [heq]⟩
  · rw [heq] at hout
    obtain rfl := Except.ok.inj hout
    exact absurd hopen.read hwrite

/-- The dispatch behind a move whose answer is a write claim. -/
theorem takesApproval {x : StoreMove} (hx : (storeMachine toVec).Makes x)
    {executionId : String} (h : x.claimsWrite executionId = true) :
    ∃ record approvalId, TakesApproval executionId approvalId record x ∧
      x.takes approvalId = true := by
  obtain ⟨pre, ⟨now, call⟩, reply, post⟩ := x
  simp only [StoreMove.claimsWrite] at h
  split at h
  · rename_i scope id fence outcome
    simp only [Bool.and_eq_true, beq_iff_eq, bne_iff_ne] at h
    obtain ⟨⟨rfl, hclaimed⟩, hwrite⟩ := h
    obtain ⟨hreply, rfl⟩ := Prod.mk.inj (StoreMachine.makes_mk.mp hx).2
    obtain ⟨record, approvalId, hr, hopen, happroved, hrec, hpost⟩ :=
      dispatch_takes (StoreReply.dispatched.inj hreply) hclaimed hwrite
    obtain ⟨hat, rfl⟩ := recordForScope_ok.mp hr
    have hne : record.execution.effect ≠ .read := by
      rw [hrec] at hwrite
      exact hwrite
    refine ⟨record, approvalId, ⟨⟨fence, rfl⟩, hat, hopen, hne, happroved, ?_, ?_⟩, ?_⟩
    · simp only [hpost]
      rfl
    · refine ⟨record.claimed now fence, ?_, by simp [ExecutionRecord.claimed, hne], rfl⟩
      simp only [hpost]
      exact Std.ExtTreeMap.getElem?_insert_self
    · have hid : outcome.record.approvalId = some approvalId := by
        rw [hrec]
        exact happroved.id
      simp [StoreMove.takes, hclaimed, hwrite, hid]
  · exact absurd h Bool.false_ne_true

/-- A move that takes an approval is a write claim of some execution. -/
theorem takes_claims {x : StoreMove} {approvalId : String} (h : x.takes approvalId = true) :
    ∃ executionId, x.claimsWrite executionId = true ∧
      ∃ outcome, x.reply = .dispatched (.ok outcome) ∧
        outcome.record.approvalId = some approvalId := by
  simp only [StoreMove.takes] at h
  split at h
  · rename_i scope id fence outcome hcall hreply
    simp only [Bool.and_eq_true, beq_iff_eq, bne_iff_ne] at h
    refine ⟨id, ?_, outcome, hreply, h.2⟩
    simp [StoreMove.claimsWrite, hcall, hreply, h.1.1, h.1.2]
  · exact absurd h Bool.false_ne_true

theorem takesApproval_of_takes {x : StoreMove} (hx : (storeMachine toVec).Makes x)
    {approvalId : String} (h : x.takes approvalId = true) :
    ∃ executionId record, x.claimsWrite executionId = true ∧
      TakesApproval executionId approvalId record x := by
  obtain ⟨executionId, hclaims, outcome, hreply, hid⟩ := takes_claims h
  obtain ⟨record, approvalId', htakes, htakes'⟩ := takesApproval hx hclaims
  obtain ⟨_, _, outcome', hreply', hid'⟩ := takes_claims htakes'
  obtain rfl : outcome = outcome' := by
    simpa using hreply.symm.trans hreply'
  obtain rfl : approvalId' = approvalId := Option.some.inj (hid'.symm.trans hid)
  exact ⟨executionId, record, hclaims, htakes⟩

theorem registers_post {x : StoreMove} (hx : (storeMachine toVec).Makes x)
    {approvalId : String} (h : x.registers approvalId = true) :
    (x.post.approvedAuthorities[approvalId]?).isSome = true := by
  obtain ⟨pre, ⟨now, call⟩, reply, post⟩ := x
  simp only [StoreMove.registers] at h
  split at h
  · rename_i id arguments
    obtain rfl : id = approvalId := by simpa using h
    obtain ⟨_, rfl⟩ := Prod.mk.inj (StoreMachine.makes_mk.mp hx).2
    simp [MemoryStore.registerApprovedAuthority]
  · exact absurd h Bool.false_ne_true

/-- A move takes an approval that is there, or registers one, or leaves the
    approvals. -/
theorem approvals_step {x : StoreMove} (hx : (storeMachine toVec).Makes x)
    (approvalId : String) :
    (x.takes approvalId = true ∧
        (∃ arguments, x.pre.approvedAuthorities[approvalId]? = some arguments) ∧
        x.post.approvedAuthorities[approvalId]? = none) ∨
      (x.registers approvalId = true ∧ x.takes approvalId = false) ∨
      (x.takes approvalId = false ∧
        x.post.approvedAuthorities[approvalId]? = x.pre.approvedAuthorities[approvalId]?) := by
  by_cases htakes : x.takes approvalId = true
  · left
    obtain ⟨executionId, record, _, h⟩ := takesApproval_of_takes hx htakes
    obtain ⟨arguments, hget, _⟩ := h.approved.arguments
    exact ⟨htakes, ⟨arguments, hget⟩, by rw [h.taken]; simp⟩
  right
  have hno : x.takes approvalId = false := by simpa using htakes
  obtain ⟨pre, ⟨now, call⟩, reply, post⟩ := x
  obtain ⟨hreply, rfl⟩ := Prod.mk.inj (StoreMachine.makes_mk.mp hx).2
  cases call with
  | get sc id | recoverable | events sc id after => exact .inr ⟨hno, rfl⟩
  | reserve requested =>
      right
      refine ⟨hno, ?_⟩
      rcases MemoryStore.reserve_cases requested pre with ⟨hsame, _⟩ | ⟨_, heq⟩
      · simp only [hsame]
      · simp only [heq]
        rfl
  | renew sc id fence ms =>
      right
      refine ⟨hno, ?_⟩
      rcases MemoryStore.renew_cases now sc id fence ms pre with ⟨hsame, _⟩ | ⟨_, _, _, heq⟩
      · simp only [hsame]
      · simp only [heq]
        rfl
  | appendEvent sc id eventId event status payload fence =>
      right
      exact ⟨hno, by rw [MemoryStore.appendEvent_approvals]⟩
  | cancel sc id eventId =>
      right
      refine ⟨hno, ?_⟩
      rcases MemoryStore.cancel_cases toVec now sc id eventId pre with hsame | ⟨_, _, heq⟩
      · simp only [hsame]
      · simp only [heq]
        rw [MemoryStore.cancelAppend, MemoryStore.appendEvent_approvals]
  | registerApprovedAuthority id arguments =>
      by_cases hid : id = approvalId
      · exact .inl ⟨by simp [StoreMove.registers, hid], hno⟩
      · right
        exact ⟨hno, OrdMap.getElem?_insert_ne arguments hid⟩
  | dispatch sc id fence =>
      right
      refine ⟨hno, ?_⟩
      rcases MemoryStore.dispatch_cases now sc id fence pre with
        ⟨hsame, _⟩ | ⟨record, mid, hr, hopen, hconsume, heq⟩ | ⟨record, hr, hopen, heq⟩
      · simp only [hsame]
      · simp only [heq]
        rcases MemoryStore.consumeApproval_ok hconsume with
          ⟨_, rfl⟩ | ⟨hne, other, happroved, rfl⟩
        · rfl
        · refine OrdMap.getElem?_erase_ne ?_
          rintro rfl
          simp only at hreply
          have hclaimed : (record.claimed now fence).execution.effect ≠ .read := hne
          have hid : (record.claimed now fence).approvalId = some other := happroved.id
          rw [heq] at hreply
          subst hreply
          simp [StoreMove.takes, hclaimed, hid] at hno
      · simp only [heq]
        rfl

/-- A non-read execution that no dispatch has claimed, or that is not there. -/
def MemoryState.writeUnclaimed (state : MemoryState) (executionId : String) : Bool :=
  match state.executions[executionId]? with
  | some record => record.execution.effect == .read || record.dispatchFence.isNone
  | none => true

/-- A move keeps the fence of a claimed write, and its claim mark is down. -/
theorem claimed_step {x : StoreMove} (hx : (storeMachine toVec).Makes x)
    {executionId fence : String} {record : ExecutionRecord}
    (hat : x.pre.executions[executionId]? = some record)
    (hwrite : record.execution.effect ≠ .read) (hfence : record.dispatchFence = some fence) :
    ∃ record', x.post.executions[executionId]? = some record' ∧
      record'.execution.effect ≠ .read ∧ record'.dispatchFence = some fence := by
  have hstep := StoreMachine.slotStep hx executionId
  rw [MemoryState.slot_of_record hat] at hstep
  generalize hpost : x.post.slot executionId = post at hstep
  have hget : x.post.executions[executionId]? = post.record := congrArg Slot.record hpost
  rw [hget]
  cases hstep with
  | same _ _ => exact ⟨record, rfl, hwrite, hfence⟩
  | claim _ _ _ _ _ h =>
      rw [h.fence] at hfence
      exact absurd hfence (by simp)
  | reclaim _ _ _ _ _ h => exact absurd h.read hwrite
  | renew _ _ _ _ _ _ => exact ⟨_, rfl, hwrite, hfence⟩
  | refuse _ _ _ _ _ _ _ _ _ hunclaimed =>
      rw [hunclaimed] at hfence
      exact absurd hfence (by simp)
  | append _ _ eventId event status payload _ _ _ _ =>
      refine ⟨_, rfl, ?_, hfence⟩
      rw [ExecutionRecord.appended_effect]
      exact hwrite

theorem writeUnclaimed_eq_false {state : MemoryState} {executionId : String} :
    state.writeUnclaimed executionId = false ↔
      ∃ record fence, state.executions[executionId]? = some record ∧
        record.execution.effect ≠ .read ∧ record.dispatchFence = some fence := by
  unfold MemoryState.writeUnclaimed
  cases state.executions[executionId]? with
  | none => simp
  | some record => cases hf : record.dispatchFence <;> simp [hf]

/-- A claimed write stays claimed. -/
theorem writeUnclaimed_back {x : StoreMove} (hx : (storeMachine toVec).Makes x)
    {executionId : String} (h : x.post.writeUnclaimed executionId = true) :
    x.pre.writeUnclaimed executionId = true := by
  by_contra hpre
  obtain ⟨record, fence, hat, hwrite, hfence⟩ :=
    writeUnclaimed_eq_false.mp (by simpa using hpre)
  obtain ⟨record', hat', hwrite', hfence'⟩ := claimed_step hx hat hwrite hfence
  rw [writeUnclaimed_eq_false.mpr ⟨record', fence, hat', hwrite', hfence'⟩] at h
  exact absurd h Bool.false_ne_true

/-- A write claim finds the execution unclaimed and leaves it claimed. -/
theorem claimsWrite_step {x : StoreMove} (hx : (storeMachine toVec).Makes x)
    {executionId : String} (h : x.claimsWrite executionId = true) :
    x.pre.writeUnclaimed executionId = true ∧
      x.post.writeUnclaimed executionId = false := by
  obtain ⟨record, approvalId, htakes, _⟩ := takesApproval hx h
  constructor
  · simp [MemoryState.writeUnclaimed, htakes.before, htakes.unclaimed.fence]
  · obtain ⟨record', hat', _, hfence'⟩ := htakes.consumed
    obtain ⟨fence, hfence⟩ := Option.isSome_iff_exists.mp hfence'
    obtain ⟨record'', hat'', hid⟩ :=
      (StoreMachine.slotStep hx executionId).persists htakes.before
    obtain rfl : record'' = record' := Option.some.inj (hat''.symm.trans hat')
    have heffect : record''.execution.effect = record.execution.effect :=
      congrArg (fun i : NewExecution => i.execution.effect) hid
    refine writeUnclaimed_eq_false.mpr ⟨record'', fence, hat', ?_, hfence⟩
    rw [heffect]
    exact htakes.write

/-! ## Runs -/

/-- At most one dispatch claims an execution that may write. -/
theorem claimsWrite_countP_le_one {s t : MemoryState} {tr : List StoreMove}
    (h : Run (storeMachine toVec) s tr t) (executionId : String) :
    tr.countP (StoreMove.claimsWrite executionId) ≤ 1 :=
  Run.countP_le_one (F := fun u => u.writeUnclaimed executionId)
    (fun _ hx hm => claimsWrite_step hx hm)
    (fun _ hx hpost => writeUnclaimed_back hx hpost) h

/-- The fence of a claimed write is the same at every later time. -/
theorem fence_run {s t : MemoryState} {tr : List StoreMove}
    (h : Run (storeMachine toVec) s tr t) {executionId fence : String}
    {record : ExecutionRecord} (hat : s.executions[executionId]? = some record)
    (hwrite : record.execution.effect ≠ .read) (hfence : record.dispatchFence = some fence) :
    ∃ record', t.executions[executionId]? = some record' ∧
      record'.execution.effect ≠ .read ∧ record'.dispatchFence = some fence := by
  refine Run.invariant
    (P := fun u => ∃ record', u.executions[executionId]? = some record' ∧
      record'.execution.effect ≠ .read ∧ record'.dispatchFence = some fence)
    ?_ h ⟨record, hat, hwrite, hfence⟩
  rintro x hx ⟨r, hr, hw, hf⟩
  exact claimed_step hx hr hw hf

/-- An approval is taken at most as often as it was there or was registered. -/
theorem takes_countP_le {s t : MemoryState} {tr : List StoreMove}
    (h : Run (storeMachine toVec) s tr t) (approvalId : String) :
    tr.countP (StoreMove.takes approvalId) ≤
      (s.approvedAuthorities[approvalId]?).isSome.toNat
        + tr.countP (StoreMove.registers approvalId) := by
  have hle := Run.countP_add_le
    (φ := fun u => (u.approvedAuthorities[approvalId]?).isSome.toNat)
    (p := StoreMove.takes approvalId) (q := StoreMove.registers approvalId) ?_ h
  · omega
  · intro x hx
    rcases approvals_step hx approvalId with
      ⟨htakes, ⟨arguments, hpre⟩, hpost⟩ | ⟨hreg, htakes⟩ | ⟨htakes, hsame⟩
    · simp [htakes, hpre, hpost]
    · have := Bool.toNat_le (x.post.approvedAuthorities[approvalId]?).isSome
      simp only [hreg, htakes, Bool.toNat_false, Bool.toNat_true]
      omega
    · simp [htakes, hsame]

/-- A reservation before the claim fixed the scope and the arguments it is made
    with. -/
structure ReservedBefore (executionId : String) (record : ExecutionRecord)
    (earlier : List StoreMove) : Prop where
  reserved : ∃ y ∈ earlier, ∃ requested, Reserves executionId requested y ∧
    requested.execution.scope = record.scope ∧ requested.arguments = record.arguments

/-- Single dispatch of writes, over every run of the store: at most one claim of
    an execution; each claim is made under the reserved scope and takes an
    approval for the reserved arguments; an approval goes away only so, and once
    for each registration; a fence that is set stays. -/
theorem write_dispatched_once {s t : MemoryState} {tr₁ tr₂ : List StoreMove}
    (h₁ : Run (storeMachine toVec) .empty tr₁ s) (h₂ : Run (storeMachine toVec) s tr₂ t)
    (executionId : String) :
    (tr₁ ++ tr₂).countP (StoreMove.claimsWrite executionId) ≤ 1 ∧
    (∀ earlier x later, tr₁ ++ tr₂ = earlier ++ x :: later →
      x.claimsWrite executionId = true →
      ∃ record approvalId, TakesApproval executionId approvalId record x ∧
        ReservedBefore executionId record earlier) ∧
    (∀ x ∈ tr₁ ++ tr₂, ∀ (approvalId : String) arguments,
      x.pre.approvedAuthorities[approvalId]? = some arguments →
      x.post.approvedAuthorities[approvalId]? = none →
      ∃ id record, x.claimsWrite id = true ∧ TakesApproval id approvalId record x) ∧
    (∀ approvalId, (tr₁ ++ tr₂).countP (StoreMove.takes approvalId) ≤
      (tr₁ ++ tr₂).countP (StoreMove.registers approvalId)) ∧
    (∀ (record : ExecutionRecord) fence, s.executions[executionId]? = some record →
      record.execution.effect ≠ .read → record.dispatchFence = some fence →
      ∃ record', t.executions[executionId]? = some record' ∧
        record'.dispatchFence = some fence) := by
  have h := h₁.append h₂
  refine ⟨claimsWrite_countP_le_one h executionId, ?_, ?_, ?_, ?_⟩
  · intro earlier x later heq hclaims
    rw [heq] at h
    obtain ⟨hbefore, hx, _⟩ := Run.of_split h
    obtain ⟨record, approvalId, htakes, _⟩ := takesApproval hx hclaims
    refine ⟨record, approvalId, htakes, ?_⟩
    obtain ⟨y, hy, requested, hres, hid⟩ := reserved_of_run hbefore htakes.before
    exact ⟨⟨y, hy, requested, hres,
      congrArg (fun i : NewExecution => i.execution.scope) hid,
      congrArg NewExecution.arguments hid⟩⟩
  · intro x hmem approvalId arguments hpre hpost
    obtain ⟨_, _, hx⟩ := Run.of_mem h hmem
    rcases approvals_step hx approvalId with ⟨htakes, _, _⟩ | ⟨hreg, _⟩ | ⟨_, hsame⟩
    · exact takesApproval_of_takes hx htakes
    · have := registers_post hx hreg
      rw [hpost] at this
      exact absurd this (by simp)
    · rw [hsame, hpre] at hpost
      exact absurd hpost (by simp)
  · intro approvalId
    have := takes_countP_le h approvalId
    simpa [MemoryState.empty] using this
  · intro record fence hat hwrite hfence
    obtain ⟨record', hat', _, hfence'⟩ := fence_run h₂ hat hwrite hfence
    exact ⟨record', hat', hfence'⟩

/-- One write is reserved, approved and dispatched twice: the first dispatch claims
    it, with the approval of its reservation. -/
theorem write_dispatched_once_claimed :
    ∃ tr t, Run (storeMachine plainToVec) .empty tr t ∧
      tr.countP (StoreMove.claimsWrite "execution-1") = 1 ∧
      ∃ earlier x later record approvalId, tr = earlier ++ x :: later ∧
        TakesApproval "execution-1" approvalId record x ∧
        ReservedBefore "execution-1" record earlier := by
  obtain ⟨tr, t, h, _, hcheck⟩ := Machine.exists_run (storeMachine plainToVec) .empty
    [⟨0, .reserve (sampleRequest "execution-1" .write)⟩,
      ⟨1, .registerApprovedAuthority "approval-1" (.object [])⟩,
      ⟨2, .dispatch sampleScope "execution-1" "fence-1"⟩,
      ⟨90_000, .dispatch sampleScope "execution-1" "fence-2"⟩]
    (fun tr _ => tr.countP (StoreMove.claimsWrite "execution-1") == 1) (by decide)
  have hcount : tr.countP (StoreMove.claimsWrite "execution-1") = 1 := by
    simpa using hcheck
  obtain ⟨x, hx, hclaims⟩ := List.countP_pos_iff.mp (by omega :
    0 < tr.countP (StoreMove.claimsWrite "execution-1"))
  obtain ⟨earlier, later, rfl⟩ := List.append_of_mem hx
  obtain ⟨record, approvalId, htakes, hreserved⟩ :=
    (write_dispatched_once h (.nil t) "execution-1").2.1 earlier x later (by simp) hclaims
  exact ⟨_, t, h, hcount, earlier, x, later, record, approvalId, rfl, htakes, hreserved⟩

end AiPlatform.Worker
