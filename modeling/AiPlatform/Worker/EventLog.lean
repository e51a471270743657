/-
  AiPlatform.Worker.EventLog

  The event log of an execution: numbered without a gap, closed by its first
  terminal event, and read in full by following the pages.
-/

import AiPlatform.Lib.SeqLog
import AiPlatform.Worker.StoreMachine

namespace AiPlatform.Worker

open AiPlatform.Json AiPlatform.Capability Transition

variable {toVec : Payload → Option (List UInt8)}

/-- The record and the log of an execution agree. -/
structure LogOk (record : ExecutionRecord) (log : EventLog) : Prop where
  /-- The sequences are `1..last_sequence`. -/
  sequences : log.map (·.2.sequence) = List.range' 1 record.lastSequence
  /-- A terminal event is the last one. -/
  last : ∀ before entry rest, log = before ++ entry :: rest →
    entry.2.status.isTerminal = true → rest = []
  /-- The record is terminal when there is a terminal event. -/
  closed : record.execution.status.isTerminal = true ↔
    ∃ entry ∈ log, entry.2.status.isTerminal = true
  /-- A terminal event has left its result and error on the record. -/
  outcome : ∀ entry ∈ log, entry.2.status.isTerminal = true →
    record.execution.result = entry.2.payload["result"]? ∧
      record.execution.error = entry.2.payload["error_code"]?.bind Value.asStr
  /-- Until then the record has neither. -/
  pending : record.execution.status.isTerminal = false →
    record.execution.result = none ∧ record.execution.error = none

/-- An execution that is not there has no events; one that is agrees with them. -/
def SlotOk (slot : Slot) : Prop :=
  match slot.record with
  | none => slot.log = []
  | some record => LogOk record slot.log

/-! ## One move -/

theorem NewExecution.isNew_iff {requested : NewExecution} :
    requested.isNew = true ↔ requested.execution.status = .published ∧
      requested.execution.result = none ∧ requested.execution.error = none := by
  simp [NewExecution.isNew, and_assoc]

/-- A new record and no events. -/
theorem logOk_new {requested : NewExecution} (h : requested.isNew = true) :
    LogOk (MemoryStore.newRecord requested) [] := by
  obtain ⟨hstatus, hresult, herror⟩ := NewExecution.isNew_iff.mp h
  constructor
  · rfl
  · intro before entry rest heq _
    exact absurd heq (by simp)
  · simp [MemoryStore.newRecord, hstatus, CapabilityExecutionStatus.isTerminal]
  · intro entry hentry _
    exact absurd hentry (List.not_mem_nil)
  · intro _
    exact ⟨hresult, herror⟩

/-- A change of an open record that leaves it open, and leaves its counter,
    result and error. -/
theorem LogOk.of_open {record record' : ExecutionRecord} {log : EventLog}
    (h : LogOk record log) (hopen : record.execution.status.isTerminal = false)
    (hopen' : record'.execution.status.isTerminal = false)
    (hlast : record'.lastSequence = record.lastSequence)
    (hresult : record'.execution.result = record.execution.result)
    (herror : record'.execution.error = record.execution.error) : LogOk record' log where
  sequences := by rw [hlast]; exact h.sequences
  last := h.last
  closed := by
    rw [← h.closed, hopen, hopen']
  outcome := by
    intro entry hentry hterminal
    rw [hresult, herror]
    exact h.outcome entry hentry hterminal
  pending := by
    intro _
    rw [hresult, herror]
    exact h.pending hopen

/-- An open record has no terminal event yet. -/
theorem LogOk.open_mem {record : ExecutionRecord} {log : EventLog} (h : LogOk record log)
    (hopen : record.execution.status.isTerminal = false) :
    ∀ entry ∈ log, entry.2.status.isTerminal = false := by
  intro entry hentry
  cases hs : entry.2.status.isTerminal with
  | false => rfl
  | true =>
      have := h.closed.mpr ⟨entry, hentry, hs⟩
      rw [hopen] at this
      exact absurd this Bool.false_ne_true

/-- An event appended to an open record. -/
theorem LogOk.append {record : ExecutionRecord} {log : EventLog} (h : LogOk record log)
    (hopen : record.execution.status.isTerminal = false) (now : Nat)
    (executionId eventId event : String) (status : CapabilityExecutionStatus)
    (payload : Payload) :
    LogOk (record.appended now status payload)
      (log ++ [(eventId, record.eventAfter now executionId event status payload)]) := by
  have hno := h.open_mem hopen
  constructor
  · rw [List.map_append, h.sequences, ExecutionRecord.appended_lastSequence,
      List.range'_concat]
    simp [ExecutionRecord.eventAfter, Nat.add_comm]
  · intro before entry rest heq hterminal
    rcases List.eq_nil_or_concat rest with hrest | ⟨init, final, rfl⟩
    · exact hrest
    · -- Then the entry is in the log as it was, where nothing is terminal.
      have hcut : log ++ [(eventId, record.eventAfter now executionId event status payload)] =
          (before ++ entry :: init) ++ [final] := by
        rw [heq]
        simp
      have hlog : log = before ++ entry :: init := (List.append_inj' hcut rfl).1
      have := hno entry (by rw [hlog]; simp)
      rw [hterminal] at this
      exact absurd this.symm Bool.false_ne_true
  · rw [ExecutionRecord.appended_status]
    constructor
    · intro hterminal
      exact ⟨_, List.mem_append_right _ (List.mem_cons_self ..), hterminal⟩
    · rintro ⟨entry, hentry, hterminal⟩
      rcases List.mem_append.mp hentry with hold | hnew
      · rw [hno entry hold] at hterminal
        exact absurd hterminal Bool.false_ne_true
      · obtain rfl := List.mem_singleton.mp hnew
        exact hterminal
  · intro entry hentry hterminal
    rcases List.mem_append.mp hentry with hold | hnew
    · rw [hno entry hold] at hterminal
      exact absurd hterminal Bool.false_ne_true
    · obtain rfl := List.mem_singleton.mp hnew
      exact ExecutionRecord.appended_terminal hterminal
  · rw [ExecutionRecord.appended_status]
    intro hstatus
    have houtcome : (record.appended now status payload).execution.result =
          record.execution.result ∧
        (record.appended now status payload).execution.error = record.execution.error :=
      ExecutionRecord.appended_open hstatus
    obtain ⟨hresult, herror⟩ := houtcome
    rw [hresult, herror]
    exact h.pending hopen

/-- Every move keeps the record and the log of an execution in agreement. -/
theorem slotOk_step {executionId : String} {x : StoreMove} {a b : Slot}
    (h : SlotStep executionId x a b) (ha : SlotOk a) : SlotOk b := by
  cases h with
  | same _ _ => exact ha
  | create log requested hcall hnew hid hfree hreply =>
      obtain rfl : log = [] := ha
      exact logOk_new hnew
  | claim record log fence hcall hreply h => exact LogOk.of_open ha h.open_ rfl rfl rfl rfl
  | reclaim record log fence hcall hreply h =>
      exact LogOk.of_open ha h.open_ h.open_ rfl rfl rfl
  | renew record log fence leaseMs hcall h =>
      exact LogOk.of_open ha h.open_ h.open_ rfl rfl rfl
  | refuse record log eventId event status payload fence hcall h hunclaimed =>
      exact LogOk.of_open ha h.open_ h.open_ rfl rfl rfl
  | append record log eventId event status payload fence hcall h hfence =>
      exact LogOk.append ha h.open_ _ _ _ _ _ _

/-- No move touches the record or the log of a finished execution. -/
theorem terminal_step {executionId : String} {x : StoreMove} {a b : Slot}
    (h : SlotStep executionId x a b) {record : ExecutionRecord} (hrecord : a.record = some record)
    (hterminal : record.execution.status.isTerminal = true) : b = a := by
  have no : ∀ r : ExecutionRecord, some r = some record →
      r.execution.status.isTerminal = false → False := by
    intro r hr hopen
    obtain rfl := Option.some.inj hr
    rw [hterminal] at hopen
    exact absurd hopen.symm Bool.false_ne_true
  cases h with
  | same _ _ => rfl
  | create log requested _ _ _ _ _ => exact absurd hrecord (by simp)
  | claim r log fence _ _ h => exact (no r hrecord h.open_).elim
  | reclaim r log fence _ _ h => exact (no r hrecord h.open_).elim
  | renew r log fence leaseMs _ h => exact (no r hrecord h.open_).elim
  | refuse r log eventId event status payload fence _ h _ => exact (no r hrecord h.open_).elim
  | append r log eventId event status payload fence _ h _ => exact (no r hrecord h.open_).elim

theorem slotOk_run {t : MemoryState} {tr : List StoreMove}
    (h : Run (storeMachine toVec) .empty tr t) (executionId : String) :
    SlotOk (t.slot executionId) := by
  refine Run.invariant (P := fun u => SlotOk (u.slot executionId)) ?_ h ?_
  · intro x hx hpre
    exact slotOk_step (StoreMachine.slotStep hx executionId) hpre
  · rw [MemoryState.slot_empty]
    rfl

theorem logOk_run {t : MemoryState} {tr : List StoreMove}
    (h : Run (storeMachine toVec) .empty tr t) {executionId : String}
    {record : ExecutionRecord} (hat : t.executions[executionId]? = some record) :
    LogOk record (t.log executionId) := by
  have := slotOk_run h executionId
  rw [MemoryState.slot_of_record hat] at this
  exact this

/-! ## Reading the pages -/

/-- The events of an execution, in order. -/
def MemoryState.eventsOf (state : MemoryState) (executionId : String) :
    List CapabilityEventV2 :=
  (state.log executionId).map Prod.snd

/-- Follow `next_sequence` from page to page while `has_more`; the `k`-th page is
    asked for with `limits k`.  `none` when the fuel runs out. -/
def readPages (limits : Nat → Nat) (scope : CapabilityScopeV2) (executionId : String)
    (state : MemoryState) :
    Nat → Nat → Nat → Option (Except StoreError (List CapabilityEventV2))
  | 0, _, _ => none
  | fuel + 1, k, afterSequence =>
      match MemoryStore.eventsPage (limits k) scope executionId afterSequence state with
      | .error e => some (.error e)
      | .ok page =>
          if page.hasMore then
            (readPages limits scope executionId state fuel (k + 1) page.nextSequence).map
              (Except.map (page.events ++ ·))
          else some (.ok page.events)

/-- A page holds the first events after its cursor and says whether there are
    more. -/
theorem eventsPage_ok {state : MemoryState} {scope : CapabilityScopeV2}
    {executionId : String} {record : ExecutionRecord}
    (hr : recordForScope state scope executionId = .ok record) (limit cursor : Nat) :
    ∃ page, MemoryStore.eventsPage limit scope executionId cursor state = .ok page ∧
      page.events =
        (SeqLog.after (·.sequence) cursor (state.eventsOf executionId)).take limit ∧
      page.nextSequence = SeqLog.cursor (·.sequence) cursor page.events ∧
      page.hasMore = decide (page.events.length <
        (SeqLog.after (·.sequence) cursor (state.eventsOf executionId)).length) := by
  simp only [MemoryStore.eventsPage, hr]
  exact ⟨_, rfl, rfl, rfl, rfl⟩

/-- Reading on from a cursor returns every event after it, once and in order. -/
theorem readPages_after {limits : Nat → Nat} (hlimits : ∀ k, 0 < limits k)
    {state : MemoryState} {scope : CapabilityScopeV2} {executionId : String}
    {record : ExecutionRecord} (hr : recordForScope state scope executionId = .ok record)
    (hordered : SeqLog.Ordered (·.sequence) (state.eventsOf executionId))
    (fuel k cursor : Nat)
    (hfuel : (SeqLog.after (·.sequence) cursor (state.eventsOf executionId)).length < fuel) :
    readPages limits scope executionId state fuel k cursor =
      some (.ok (SeqLog.after (·.sequence) cursor (state.eventsOf executionId))) := by
  induction fuel generalizing k cursor with
  | zero => omega
  | succ fuel ih =>
      obtain ⟨page, hpage, hevents, hnext, hmore⟩ := eventsPage_ok hr (limits k) cursor
      have hsplit := hordered.page_append cursor (limits k)
      rw [← hevents, ← hnext] at hsplit
      have hlen := congrArg List.length hsplit
      rw [List.length_append] at hlen
      simp only [readPages, hpage]
      by_cases hm : page.hasMore = true
      · -- A page with more behind it is full, so what is left has become shorter.
        have hpos := hlimits k
        have hlt : page.events.length <
            (SeqLog.after (·.sequence) cursor (state.eventsOf executionId)).length := by
          rw [hmore] at hm
          exact of_decide_eq_true hm
        have hfull : 0 < page.events.length := by
          rw [hevents, List.length_take] at hlt ⊢
          omega
        rw [if_pos hm, ih (k + 1) page.nextSequence (by omega)]
        simp only [Option.map_some, Except.map, hsplit]
      · have hnil : SeqLog.after (·.sequence) page.nextSequence (state.eventsOf executionId) =
            [] := by
          rw [hmore, decide_eq_true_eq] at hm
          exact List.eq_nil_of_length_eq_zero (by omega)
        rw [if_neg hm, ← hsplit, hnil, List.append_nil]

/-- The event log at every point of every run: the record and the log agree, no
    call touches a finished execution, and the pages give every event. -/
theorem event_log {t : MemoryState} {tr : List StoreMove}
    (h : Run (storeMachine toVec) .empty tr t) {executionId : String}
    {record : ExecutionRecord} (hat : t.executions[executionId]? = some record) :
    LogOk record (t.log executionId) ∧
    (record.execution.status.isTerminal = true →
      ∀ x, (storeMachine toVec).Makes x → x.pre = t →
        x.post.executions[executionId]? = some record ∧
          x.post.log executionId = t.log executionId) ∧
    ∀ limits : Nat → Nat, (∀ k, 0 < limits k) →
      ∀ fuel, (t.eventsOf executionId).length < fuel →
        readPages limits record.scope executionId t fuel 0 0 =
          some (.ok (t.eventsOf executionId)) := by
  have hok := logOk_run h hat
  refine ⟨hok, ?_, ?_⟩
  · rintro hterminal x hx rfl
    have hsame := terminal_step (StoreMachine.slotStep hx executionId)
      (by rw [MemoryState.slot_of_record hat]) hterminal
    rw [MemoryState.slot_of_record hat] at hsame
    exact ⟨congrArg Slot.record hsame, congrArg Slot.log hsame⟩
  · intro limits hlimits fuel hfuel
    have hnumbers : (t.eventsOf executionId).map (·.sequence) =
        List.range' 1 record.lastSequence := by
      rw [MemoryState.eventsOf, List.map_map]
      exact hok.sequences
    have hall : SeqLog.after (·.sequence) 0 (t.eventsOf executionId) =
        t.eventsOf executionId := by
      refine List.filter_eq_self.mpr ?_
      intro event hevent
      have hmem := List.mem_map_of_mem (f := CapabilityEventV2.sequence) hevent
      rw [hnumbers] at hmem
      have := (List.mem_range'_1.mp hmem).1
      show decide (0 < event.sequence) = true
      rw [decide_eq_true_eq]
      omega
    have hr := recordForScope_ok.mpr ⟨hat, rfl⟩
    have hread := readPages_after hlimits hr (SeqLog.ordered_of_range hnumbers) fuel 0 0
      (by rw [hall]; exact hfuel)
    rw [hread, hall]

/-- A read from its reservation to its terminal event, and its four events read one
    page each. -/
theorem event_log_succeeded :
    ∃ tr t record, Run (storeMachine plainToVec) .empty tr t ∧
      t.executions["execution-1"]? = some record ∧
      record.execution.status = .succeeded ∧ LogOk record (t.log "execution-1") ∧
      (t.eventsOf "execution-1").length = 4 ∧
      readPages (fun _ => EVENT_PAGE_SIZE) record.scope "execution-1" t 5 0 0 =
        some (.ok (t.eventsOf "execution-1")) := by
  obtain ⟨tr, t, h, _, hcheck⟩ := Machine.exists_run (storeMachine plainToVec) .empty
    [⟨0, .reserve (sampleRequest "execution-1" .read)⟩,
      ⟨1, .appendEvent sampleScope "execution-1" "event-1" "published" .published ∅ none⟩,
      ⟨2, .dispatch sampleScope "execution-1" "fence-1"⟩,
      ⟨3, .appendEvent sampleScope "execution-1" "event-2" "dispatched" .dispatched ∅
        (some "fence-1")⟩,
      ⟨4, .appendEvent sampleScope "execution-1" "event-3" "progress" .running ∅
        (some "fence-1")⟩,
      ⟨5, .appendEvent sampleScope "execution-1" "event-4" "terminal" .succeeded
        ((∅ : Payload).insert "result" (.string "done")) (some "fence-1")⟩]
    (fun _ t => t.executions["execution-1"]?.any (fun record =>
        record.execution.status == .succeeded)
      && (t.eventsOf "execution-1").length == 4) (by decide)
  simp only [Bool.and_eq_true, beq_iff_eq] at hcheck
  obtain ⟨hstatus, hlength⟩ := hcheck
  cases hat : t.executions["execution-1"]? with
  | none => simp [hat] at hstatus
  | some record =>
      simp only [hat, Option.any_some, beq_iff_eq] at hstatus
      obtain ⟨hok, _, hread⟩ := event_log h hat
      exact ⟨tr, t, record, h, hat, hstatus, hok, hlength,
        hread (fun _ => EVENT_PAGE_SIZE) (fun _ => by decide) 5 (by omega)⟩

end AiPlatform.Worker
