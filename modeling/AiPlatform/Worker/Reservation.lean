/-
  AiPlatform.Worker.Reservation

  Reservations of executions: an execution keeps the identity it was reserved
  with, no two executions share a call key or a request key, and a repeated
  reservation finds the one it repeats.
-/

import AiPlatform.Worker.StoreMachine

namespace AiPlatform.Worker

open AiPlatform.Json AiPlatform.Capability Transition

variable {toVec : Payload → Option (List UInt8)}

/-! ## Identity -/

/-- The move creates `executionId` for `requested`. -/
structure Reserves (executionId : String) (requested : NewExecution) (x : StoreMove) :
    Prop where
  call : x.input.call = .reserve requested
  isNew : requested.isNew = true
  id : requested.execution.executionId = executionId
  reply : x.reply =
    .reserved (.ok { record := MemoryStore.newRecord requested, created := true })

namespace SlotStep

variable {executionId : String} {x : StoreMove} {a b : Slot}

/-- A record stays, with its identity. -/
theorem persists (h : SlotStep executionId x a b) {record : ExecutionRecord}
    (ha : a.record = some record) :
    ∃ record', b.record = some record' ∧ record'.identity = record.identity := by
  cases h with
  | same slot _ => exact ⟨record, ha, rfl⟩
  | create log requested _ _ _ _ _ => exact absurd ha (by simp)
  | claim r log fence _ _ _ | reclaim r log fence _ _ _ | renew r log fence leaseMs _ _
  | refuse r log eventId event status payload fence _ _ _
  | append r log eventId event status payload fence _ _ _ =>
      obtain rfl : r = record := Option.some.inj ha
      exact ⟨_, rfl, by simp⟩

/-- A record was there before, with its identity, or the move has created it. -/
theorem origin (h : SlotStep executionId x a b) {record : ExecutionRecord}
    (hb : b.record = some record) :
    (∃ record', a.record = some record' ∧ record'.identity = record.identity) ∨
      ∃ requested, Reserves executionId requested x ∧
        record = MemoryStore.newRecord requested ∧
        ∀ (id : String) other, x.pre.executions[id]? = some other →
          MemoryStore.reservationMatches requested other = false := by
  cases h with
  | same slot _ => exact .inl ⟨record, hb, rfl⟩
  | create log requested hcall hnew hid hfree hreply =>
      right
      exact ⟨requested, ⟨hcall, hnew, hid, hreply⟩, (Option.some.inj hb).symm, hfree⟩
  | claim r log fence _ _ _ | reclaim r log fence _ _ _ | renew r log fence leaseMs _ _
  | refuse r log eventId event status payload fence _ _ _
  | append r log eventId event status payload fence _ _ _ =>
      obtain rfl := Option.some.inj hb
      exact .inl ⟨r, rfl, by simp⟩

end SlotStep

/-- No run loses a record or changes its identity. -/
theorem identity_run {s t : MemoryState} {tr : List StoreMove} {executionId : String}
    {record : ExecutionRecord} (h : Run (storeMachine toVec) s tr t)
    (hs : s.executions[executionId]? = some record) :
    ∃ record', t.executions[executionId]? = some record' ∧
      record'.identity = record.identity := by
  refine Run.invariant
    (P := fun u => ∃ record', u.executions[executionId]? = some record' ∧
      record'.identity = record.identity) ?_ h ⟨record, hs, rfl⟩
  rintro x hx ⟨r, hr, hid⟩
  obtain ⟨r', hr', hid'⟩ := (StoreMachine.slotStep hx executionId).persists hr
  exact ⟨r', hr', hid'.trans hid⟩

/-- Every record of a run from the empty store was reserved in it. -/
theorem reserved_of_run {t : MemoryState} {tr : List StoreMove} {executionId : String}
    {record : ExecutionRecord} (h : Run (storeMachine toVec) .empty tr t)
    (ht : t.executions[executionId]? = some record) :
    ∃ x ∈ tr, ∃ requested, Reserves executionId requested x ∧
      (MemoryStore.newRecord requested).identity = record.identity := by
  have key := Run.origin
    (Q := fun u => ∃ r, u.executions[executionId]? = some r ∧ r.identity = record.identity)
    (C := fun x => ∃ requested, Reserves executionId requested x ∧
      (MemoryStore.newRecord requested).identity = record.identity)
    ?_ h ⟨record, ht, rfl⟩
  · rcases key with ⟨r, hr, _⟩ | hcause
    · exact absurd hr (by simp [MemoryState.empty])
    · exact hcause
  · rintro x hx ⟨r, hr, hid⟩
    rcases (StoreMachine.slotStep hx executionId).origin hr with
      ⟨r', hr', hid'⟩ | ⟨requested, hres, rfl, _⟩
    · exact .inl ⟨r', hr', hid'.trans hid⟩
    · exact .inr ⟨requested, hres, hid⟩

/-- The move that reserves an execution leaves its new record. -/
theorem Reserves.record_post {executionId : String} {requested : NewExecution}
    {x : StoreMove} (hx : (storeMachine toVec).Makes x)
    (h : Reserves executionId requested x) :
    x.post.executions[executionId]? = some (MemoryStore.newRecord requested) := by
  have happly := (StoreMachine.makes_iff.mp hx).2
  rw [h.call] at happly
  obtain ⟨hreply, hpost⟩ := Prod.mk.inj happly
  rw [h.reply] at hreply
  rcases MemoryStore.reserve_cases requested x.pre with ⟨_, hno⟩ | ⟨_, heq⟩
  · have := hno _ (StoreReply.reserved.inj hreply)
    exact absurd this (by simp)
  · rw [← hpost, heq, ← h.id]
    simp [MemoryState.put]

/-- The record a reservation made has, at every later time, the identity it was
    reserved with. -/
theorem identity_of_reserves {s t : MemoryState} {tr : List StoreMove} {executionId : String}
    {requested : NewExecution} {x : StoreMove} (h : Run (storeMachine toVec) s tr t)
    (hx : x ∈ tr) (hres : Reserves executionId requested x) :
    ∃ record, t.executions[executionId]? = some record ∧
      record.identity = (MemoryStore.newRecord requested).identity := by
  obtain ⟨tr₁, tr₂, rfl⟩ := List.append_of_mem hx
  obtain ⟨_, hmakes, hrest⟩ := Run.of_split h
  exact identity_run hrest (hres.record_post hmakes)

/-! ## Keys -/

/-- Which call of which run, at which attempt. -/
def callKey (execution : CapabilityExecutionV2) : String × String × String :=
  (execution.runId, execution.toolCallId, execution.attemptId)

/-- Which request of which scope. -/
def requestKey (execution : CapabilityExecutionV2) : CapabilityScopeV2 × String :=
  (execution.scope, execution.idempotencyKey)

theorem reservationMatches_iff {requested : NewExecution} {record : ExecutionRecord} :
    MemoryStore.reservationMatches requested record = true ↔
      callKey record.execution = callKey requested.execution ∨
        requestKey record.execution = requestKey requested.execution := by
  simp [MemoryStore.reservationMatches, callKey, requestKey, CapabilityExecutionV2.scope,
    and_assoc]

/-- No two executions have one call key, and no two have one request key. -/
structure UniqueKeys (state : MemoryState) : Prop where
  call : ∀ (id₁ id₂ : String) (r₁ r₂ : ExecutionRecord),
    state.executions[id₁]? = some r₁ → state.executions[id₂]? = some r₂ →
    callKey r₁.execution = callKey r₂.execution → id₁ = id₂
  request : ∀ (id₁ id₂ : String) (r₁ r₂ : ExecutionRecord),
    state.executions[id₁]? = some r₁ → state.executions[id₂]? = some r₂ →
    requestKey r₁.execution = requestKey r₂.execution → id₁ = id₂

theorem uniqueKeys_empty : UniqueKeys .empty := by
  constructor <;> intro id₁ id₂ r₁ r₂ h₁ <;> exact absurd h₁ (by simp [MemoryState.empty])

/-- A move keeps any key unique that a reservation looks for and that belongs to
    the identity of a record. -/
theorem unique_step {κ : Type} {key : CapabilityExecutionV2 → κ} {x : StoreMove}
    (hx : (storeMachine toVec).Makes x)
    (hidentity : ∀ r r' : ExecutionRecord, r.identity = r'.identity →
      key r.execution = key r'.execution)
    (hmatch : ∀ requested (r : ExecutionRecord),
      key r.execution = key requested.execution →
        MemoryStore.reservationMatches requested r = true)
    (h : ∀ (id₁ id₂ : String) (r₁ r₂ : ExecutionRecord),
      x.pre.executions[id₁]? = some r₁ → x.pre.executions[id₂]? = some r₂ →
      key r₁.execution = key r₂.execution → id₁ = id₂)
    (id₁ id₂ : String) (r₁ r₂ : ExecutionRecord)
    (h₁ : x.post.executions[id₁]? = some r₁) (h₂ : x.post.executions[id₂]? = some r₂)
    (hkey : key r₁.execution = key r₂.execution) : id₁ = id₂ := by
  rcases (StoreMachine.slotStep hx id₁).origin h₁ with
    ⟨o₁, ho₁, hi₁⟩ | ⟨q₁, hq₁, rfl, hfree₁⟩ <;>
  rcases (StoreMachine.slotStep hx id₂).origin h₂ with
    ⟨o₂, ho₂, hi₂⟩ | ⟨q₂, hq₂, rfl, hfree₂⟩
  · refine h id₁ id₂ o₁ o₂ ho₁ ho₂ ?_
    rw [hidentity _ _ hi₁, hidentity _ _ hi₂]
    exact hkey
  · have := hmatch q₂ o₁ ((hidentity _ _ hi₁).trans hkey)
    rw [hfree₂ id₁ o₁ ho₁] at this
    exact absurd this Bool.false_ne_true
  · have := hmatch q₁ o₂ ((hidentity _ _ hi₂).trans hkey.symm)
    rw [hfree₁ id₂ o₂ ho₂] at this
    exact absurd this Bool.false_ne_true
  · have : q₁ = q₂ := by
      have := hq₁.call.symm.trans hq₂.call
      simpa using this
    rw [← hq₁.id, ← hq₂.id, this]

theorem uniqueKeys_step {x : StoreMove} (hx : (storeMachine toVec).Makes x)
    (h : UniqueKeys x.pre) : UniqueKeys x.post where
  call := unique_step hx
    (fun _ _ hid => congrArg (fun i : NewExecution => callKey i.execution) hid)
    (fun _ _ hk => reservationMatches_iff.mpr (.inl hk)) h.call
  request := unique_step hx
    (fun _ _ hid => congrArg (fun i : NewExecution => requestKey i.execution) hid)
    (fun _ _ hk => reservationMatches_iff.mpr (.inr hk)) h.request

theorem uniqueKeys_run {t : MemoryState} {tr : List StoreMove}
    (h : Run (storeMachine toVec) .empty tr t) : UniqueKeys t :=
  Run.invariant (fun _ hx => uniqueKeys_step hx) h uniqueKeys_empty

/-! ## Repeated reservations -/

/-- What a repeated reservation has to agree on. -/
structure SameBinding (record : ExecutionRecord) (requested : NewExecution) : Prop where
  scope : record.execution.scope = requested.execution.scope
  run : record.execution.runId = requested.execution.runId
  call : record.execution.toolCallId = requested.execution.toolCallId
  attempt : record.execution.attemptId = requested.execution.attemptId
  capability : record.execution.capabilityId = requested.execution.capabilityId
  revision : record.execution.capabilityRevision = requested.execution.capabilityRevision
  argumentsHash : record.execution.argumentsHash = requested.execution.argumentsHash
  idempotencyKey : record.execution.idempotencyKey = requested.execution.idempotencyKey
  effect : record.execution.effect = requested.execution.effect
  resource : record.resourceBinding.beq requested.resourceBinding = true
  arguments : record.arguments.beq requested.arguments = true

theorem sameReservation_iff {record : ExecutionRecord} {requested : NewExecution} :
    sameReservation record requested = true ↔ SameBinding record requested := by
  constructor
  · intro h
    simp only [sameReservation, Bool.and_eq_true, beq_iff_eq] at h
    obtain ⟨⟨⟨⟨⟨⟨⟨⟨⟨⟨⟨⟨ht, hu⟩, hs⟩, hr⟩, hc⟩, ha⟩, hcap⟩, hrev⟩, hhash⟩, hkey⟩, heff⟩, hres⟩,
      hargs⟩ := h
    exact ⟨by simp [CapabilityExecutionV2.scope, ht, hu, hs], hr, hc, ha, hcap, hrev, hhash,
      hkey, heff, hres, hargs⟩
  · rintro ⟨hscope, hr, hc, ha, hcap, hrev, hhash, hkey, heff, hres, hargs⟩
    simp only [CapabilityExecutionV2.scope, CapabilityScopeV2.mk.injEq] at hscope
    simp [sameReservation, hscope, hr, hc, ha, hcap, hrev, hhash, hkey, heff, hres, hargs]

theorem SameBinding.callKey_eq {record : ExecutionRecord} {requested : NewExecution}
    (h : SameBinding record requested) :
    callKey record.execution = callKey requested.execution := by
  simp [callKey, h.run, h.call, h.attempt]

theorem SameBinding.requestKey_eq {record : ExecutionRecord} {requested : NewExecution}
    (h : SameBinding record requested) :
    requestKey record.execution = requestKey requested.execution := by
  simp [requestKey, h.scope, h.idempotencyKey]

/-- Two records that share a key are one, in a store with unique keys. -/
theorem UniqueKeys.eq_of_key {state : MemoryState} (h : UniqueKeys state) {id₁ id₂ : String}
    {r₁ r₂ : ExecutionRecord} (h₁ : state.executions[id₁]? = some r₁)
    (h₂ : state.executions[id₂]? = some r₂)
    (hkey : callKey r₁.execution = callKey r₂.execution ∨
      requestKey r₁.execution = requestKey r₂.execution) : r₁ = r₂ := by
  have hid : id₁ = id₂ := by
    rcases hkey with hk | hk
    · exact h.call _ _ _ _ h₁ h₂ hk
    · exact h.request _ _ _ _ h₁ h₂ hk
  subst hid
  exact Option.some.inj (h₁.symm.trans h₂)

/-- `reserve` over a store with unique keys: a record that shares a key is
    returned when the bindings agree, and is a conflict when they do not. -/
theorem UniqueKeys.reserve_eq {state : MemoryState} (h : UniqueKeys state) {id : String}
    {record : ExecutionRecord} {requested : NewExecution}
    (hat : state.executions[id]? = some record)
    (hkey : callKey record.execution = callKey requested.execution ∨
      requestKey record.execution = requestKey requested.execution) :
    MemoryStore.reserve requested state =
      if sameReservation record requested then
        (.ok { record := record, created := false }, state)
      else (.error .idempotencyConflict, state) := by
  have hmem := OrdMap.mem_values.mpr ⟨id, hat⟩
  have hmatch := reservationMatches_iff.mpr hkey
  unfold MemoryStore.reserve
  cases hf : (OrdMap.values state.executions).find? (MemoryStore.reservationMatches requested) with
  | none =>
      have := List.find?_eq_none.mp hf record hmem
      exact absurd hmatch this
  | some found =>
      obtain ⟨id', hat'⟩ := OrdMap.mem_values.mp (List.mem_of_find?_eq_some hf)
      have hfound := reservationMatches_iff.mp (List.find?_some hf)
      -- Whichever of the two agrees with the request in full shares both keys
      -- with it, hence one with the other.
      by_cases hsame : sameReservation found requested = true
      · have hb := sameReservation_iff.mp hsame
        obtain rfl : found = record := by
          refine h.eq_of_key hat' hat ?_
          rcases hkey with hk | hk
          · exact .inl (hb.callKey_eq.trans hk.symm)
          · exact .inr (hb.requestKey_eq.trans hk.symm)
        simp [hsame]
      · by_cases hsame' : sameReservation record requested = true
        · have hb := sameReservation_iff.mp hsame'
          obtain rfl : record = found := by
            refine h.eq_of_key hat hat' ?_
            rcases hfound with hk | hk
            · exact .inl (hb.callKey_eq.trans hk.symm)
            · exact .inr (hb.requestKey_eq.trans hk.symm)
          exact absurd hsame' hsame
        · simp only [Bool.not_eq_true] at hsame hsame'
          simp [hsame, hsame']

/-- Reservation is idempotent at every point of every run: keys are unique, and
    a reservation that shares a key with an execution returns it when their
    bindings agree and otherwise fails and leaves the store. -/
theorem reserve_idempotent {t : MemoryState} {tr : List StoreMove}
    (h : Run (storeMachine toVec) .empty tr t) :
    UniqueKeys t ∧
      ∀ (id : String) (record : ExecutionRecord) (requested : NewExecution),
        t.executions[id]? = some record →
        (callKey record.execution = callKey requested.execution ∨
          requestKey record.execution = requestKey requested.execution) →
        (SameBinding record requested →
          MemoryStore.reserve requested t =
            (.ok { record := record, created := false }, t)) ∧
        (¬ SameBinding record requested →
          MemoryStore.reserve requested t = (.error .idempotencyConflict, t)) := by
  have hu := uniqueKeys_run h
  refine ⟨hu, ?_⟩
  intro id record requested hat hkey
  have heq := hu.reserve_eq hat hkey
  constructor
  · intro hb
    rw [heq, if_pos (sameReservation_iff.mpr hb)]
  · intro hb
    rw [heq, if_neg (fun hc => hb (sameReservation_iff.mp hc))]

/-- A repeat of a reservation that has been dispatched since. -/
theorem reserve_idempotent_dispatched :
    ∃ tr t record, Run (storeMachine plainToVec) .empty tr t ∧
      record.execution.status = .dispatched ∧
      MemoryStore.reserve (sampleRequest "execution-2" .read) t =
        (.ok { record := record, created := false }, t) := by
  obtain ⟨tr, t, h, _, hcheck⟩ := Machine.exists_run (storeMachine plainToVec) .empty
    [⟨0, .reserve (sampleRequest "execution-1" .read)⟩,
      ⟨1, .dispatch sampleScope "execution-1" "fence-1"⟩]
    (fun _ t => t.executions["execution-1"]?.any (fun record =>
      record.execution.status == .dispatched
        && sameReservation record (sampleRequest "execution-2" .read)))
    (by decide)
  cases hat : t.executions["execution-1"]? with
  | none => simp [hat] at hcheck
  | some record =>
      simp only [hat, Option.any_some, Bool.and_eq_true, beq_iff_eq] at hcheck
      have hb := sameReservation_iff.mp hcheck.2
      exact ⟨tr, t, record, h, hcheck.1,
        ((reserve_idempotent h).2 "execution-1" record _ hat (.inl hb.callKey_eq)).1 hb⟩

/-- Scope, capability, arguments, effect and attempt alone do not make a repeat:
    under another idempotency key the same call of the same run is a conflict. -/
theorem reserve_conflict_other_key :
    ∃ tr t record requested, Run (storeMachine plainToVec) .empty tr t ∧
      t.executions["execution-1"]? = some record ∧
      (callKey record.execution = callKey requested.execution ∧
        record.execution.scope = requested.execution.scope ∧
        record.execution.capabilityId = requested.execution.capabilityId ∧
        record.execution.argumentsHash = requested.execution.argumentsHash ∧
        record.execution.effect = requested.execution.effect) ∧
      record.arguments.beq requested.arguments = true ∧
      MemoryStore.reserve requested t = (.error .idempotencyConflict, t) := by
  let second : NewExecution :=
    { sampleRequest "execution-2" .read with
      execution :=
        { (sampleRequest "execution-2" .read).execution with idempotencyKey := "key-2" } }
  obtain ⟨tr, t, h, _, hcheck⟩ := Machine.exists_run (storeMachine plainToVec) .empty
    [⟨0, .reserve (sampleRequest "execution-1" .read)⟩]
    (fun _ t => t.executions["execution-1"]?.any (fun record =>
      decide (callKey record.execution = callKey second.execution ∧
          record.execution.scope = second.execution.scope ∧
          record.execution.capabilityId = second.execution.capabilityId ∧
          record.execution.argumentsHash = second.execution.argumentsHash ∧
          record.execution.effect = second.execution.effect)
        && record.arguments.beq second.arguments && !sameReservation record second))
    (by decide)
  cases hat : t.executions["execution-1"]? with
  | none => simp [hat] at hcheck
  | some record =>
      simp only [hat, Option.any_some, Bool.and_eq_true, decide_eq_true_eq,
        Bool.not_eq_eq_eq_not, Bool.not_true] at hcheck
      obtain ⟨⟨hfields, harguments⟩, hsame⟩ := hcheck
      refine ⟨tr, t, record, second, h, hat, hfields, harguments, ?_⟩
      rw [(uniqueKeys_run h).reserve_eq hat (.inl hfields.1), hsame]
      rfl

end AiPlatform.Worker
