/-
  AiPlatform.Runtime.TurnClosing

  Closing a turn: `recover_all` over a ledger that any operations led to, and the
  operations after it (`tool_lifecycle.rs`).

  A recovery replaces the record of its call by `recoveredRecord`, which no
  operation changes any more.
-/

import AiPlatform.Runtime.PlatformLifecycle

namespace AiPlatform.Runtime.ToolLifecycle

open Transition ToolLifecycleLedger PlatformLifecycle

/-- A call after its recovery: closed, with the result it had or the one recovery
    gives it. -/
def recoveredRecord (callId : String) (call : ToolCallRecord) : ToolCallRecord :=
  if call.result.isSome then call else call.closed (recovered callId call)

structure TurnClosing (moves : List LedgerMove) (ledger : ToolLifecycleLedger) : Prop where
  oneEach : (recoverAll ledger).1.map ToolResult.callId = ledger.calls.keys
  sorted : ((recoverAll ledger).1.map ToolResult.callId).Pairwise fun a b => compare a b = .lt
  sameCalls : (recoverAll ledger).2.calls.keys = ledger.calls.keys
  recorded : ∀ result ∈ (recoverAll ledger).1,
    (recoverAll ledger).2.result result.callId = some result
  turnClosed : ensureTurnClosed (recoverAll ledger).2 = .ok ()
  idempotent : recoverAll (recoverAll ledger).2 = recoverAll ledger
  kept : ∀ (callId : String) (result : ToolResult), ledger.result callId = some result →
    (recoverAll ledger).2.calls[callId]? = ledger.calls[callId]?
  uncertain : ∀ x ∈ moves, ∀ (callId fence : String) (call : ToolCallRecord),
    x.input = .dispatch callId fence → x.reply = .done →
      ledger.calls[callId]? = some call → call.effect ≠ .readOnly → call.result = none →
        (∃ result ∈ (recoverAll ledger).1,
            result.callId = callId ∧ result.status = .sideEffectUnknown) ∧
          ∀ (later : List LedgerMove) (ledger' : ToolLifecycleLedger),
            Run ledgerMachine (recoverAll ledger).2 later ledger' →
              ledger'.calls[callId]? = (recoverAll ledger).2.calls[callId]? ∧
                ∀ y ∈ later, y.dispatches callId = false ∧
                  ∀ fence', y.input = .dispatch callId fence' → y.reply.isRefused = true

/-! ## One recovery -/

section

variable {ledger : ToolLifecycleLedger} {callId : String} {call : ToolCallRecord}

theorem CallCoherent.hasResult (h : CallCoherent callId call) :
    call.hasResult = call.result.isSome := by
  unfold ToolCallRecord.hasResult
  cases hresult : call.result with
  | none => cases call.state <;> rfl
  | some result =>
    rw [(h.closed result hresult).2]

theorem hasResult_recoveredRecord (h : CallCoherent callId call) :
    (recoveredRecord callId call).hasResult = true := by
  unfold recoveredRecord
  split
  · rename_i hresult
    rw [h.hasResult, hresult]
  · rfl

theorem result_recoveredRecord : (recoveredRecord callId call).result =
    some (call.result.getD (recovered callId call)) := by
  unfold recoveredRecord
  cases hresult : call.result with
  | none => rfl
  | some result => rw [Option.isSome_some, if_pos rfl, hresult, Option.getD_some]

/-- The recovery of a call puts its recovered record in the ledger. -/
theorem getElem?_recoverCall (hs : Coherent ledger) (id : String) :
    (recoverCall callId ledger).2.calls[id]? =
      if callId = id then ledger.calls[id]?.map (recoveredRecord id) else ledger.calls[id]? := by
  by_cases hid : callId = id
  · subst hid
    rw [if_pos rfl]
    cases hcall : ledger.calls[callId]? with
    | none => simp [recoverCall, hcall]
    | some call =>
      have hcoherent := hs callId call hcall
      have hok := recoverCall_ok hcoherent hcall
      rcases recoverCall_cases ledger callId with
        ⟨error, hout⟩ | ⟨call', hcall', ⟨result, hresult, hout⟩ | ⟨hopen, hout⟩⟩
      · rw [hout] at hok
        cases hok
      · obtain rfl := Option.some.inj (hcall.symm.trans hcall')
        rw [hout, hcall, Option.map_some, recoveredRecord, hresult, Option.isSome_some, if_pos rfl]
      · obtain rfl := Option.some.inj (hcall.symm.trans hcall')
        have hnone : call.result.isSome = false := by
          cases hresult : call.result with
          | none => rfl
          | some result => exact absurd (hcoherent.closed result hresult).2 (hopen _)
        rw [hout, calls_putCall, if_pos rfl, Option.map_some, recoveredRecord, hnone,
          if_neg Bool.false_ne_true]
  · rw [if_neg hid, recoverCall_frame hid]

/-- A call that has its result is not touched. -/
theorem recoverCall_of_result {result : ToolResult} (hs : CallCoherent callId call)
    (hcall : ledger.calls[callId]? = some call) (hresult : call.result = some result) :
    recoverCall callId ledger = (.ok result, ledger) := by
  rw [recoverCall, hcall]
  dsimp only
  rw [(hs.closed result hresult).2]
  dsimp only
  rw [hresult]

/-! ## All recoveries -/

theorem recoverEach_snd_cons (callId : String) (rest : List String) :
    (recoverEach (callId :: rest) ledger).2 =
      (recoverEach rest (recoverCall callId ledger).2).2 := by
  rw [recoverEach]
  split
  · rename_i hrun
    rw [hrun]
  · rename_i hrun
    rw [hrun]

/-- Recovering one call after another is a run of the ledger. -/
theorem exists_run_recoverEach (ids : List String) (ledger : ToolLifecycleLedger) :
    ∃ moves, Run ledgerMachine ledger moves (recoverEach ids ledger).2 := by
  induction ids generalizing ledger with
  | nil => exact ⟨[], .nil ledger⟩
  | cons callId rest ih =>
    obtain ⟨moves, hrun⟩ := ih (recoverCall callId ledger).2
    rw [recoverEach_snd_cons]
    exact ⟨_, .cons (x := ⟨ledger, .recoverCall callId, (perform ledger (.recoverCall callId)).1, _⟩)
      (ledgerMachine_makes.mpr rfl) hrun⟩

theorem getElem?_recoverEach {ids : List String} (hnodup : ids.Nodup) (hs : Coherent ledger)
    (id : String) : (recoverEach ids ledger).2.calls[id]? =
      if id ∈ ids then ledger.calls[id]?.map (recoveredRecord id) else ledger.calls[id]? := by
  induction ids generalizing ledger with
  | nil => rw [if_neg List.not_mem_nil, recoverEach]
  | cons callId rest ih =>
    obtain ⟨hnew, hrest⟩ := List.nodup_cons.mp hnodup
    rw [recoverEach_snd_cons, ih hrest (coherent_recoverCall callId hs), getElem?_recoverCall hs]
    by_cases hid : callId = id
    · subst hid
      rw [if_neg hnew, if_pos rfl, if_pos List.mem_cons_self]
    · have hmem : id ∈ callId :: rest ↔ id ∈ rest := by
        rw [List.mem_cons, or_iff_right (Ne.symm hid)]
      simp only [if_neg hid, hmem]

/-- Over a ledger whose calls all have their results nothing is left to recover. -/
theorem recoverEach_of_results {ids : List String} (hs : Coherent ledger)
    (hmem : ∀ id ∈ ids, ∃ result, ledger.result id = some result) :
    recoverEach ids ledger = (ids.filterMap ledger.result, ledger) := by
  induction ids with
  | nil => rfl
  | cons callId rest ih =>
    obtain ⟨result, hresult⟩ := hmem callId List.mem_cons_self
    obtain ⟨call, hcall, hcallResult⟩ := Option.bind_eq_some_iff.mp hresult
    rw [recoverEach, recoverCall_of_result (hs callId call hcall) hcall hcallResult]
    dsimp only
    rw [ih fun id hid => hmem id (List.mem_cons_of_mem _ hid), List.filterMap_cons_some hresult]

/-- Each call of the ledger has its recovered record afterwards. -/
theorem getElem?_recoverAll (hs : Coherent ledger) (callId : String) :
    (recoverAll ledger).2.calls[callId]? = ledger.calls[callId]?.map (recoveredRecord callId) := by
  rw [recoverAll, getElem?_recoverEach ledger.calls.nodup_keys hs]
  split
  · rfl
  · rename_i hmem
    have hnone : ledger.calls[callId]? = none := by
      cases hcall : ledger.calls[callId]? with
      | none => rfl
      | some call => exact absurd (OrdMap.mem_keys.mpr ⟨call, hcall⟩) hmem
    rw [hnone, Option.map_none]

theorem coherent_recoverAll (hs : Coherent ledger) : Coherent (recoverAll ledger).2 := by
  obtain ⟨moves, hrun⟩ := exists_run_recoverEach ledger.calls.keys ledger
  exact coherent_run hrun hs

theorem keys_recoverAll (hs : Coherent ledger) :
    (recoverAll ledger).2.calls.keys = ledger.calls.keys := by
  refine OrdMap.keys_eq_of_mem_iff fun callId => ?_
  rw [OrdMap.mem_keys, OrdMap.mem_keys, getElem?_recoverAll hs]
  cases ledger.calls[callId]? with
  | none => simp
  | some call => simp

theorem recoverAll_fst (hs : Coherent ledger) : (recoverAll ledger).1 =
    ledger.calls.keys.filterMap fun id => ledger.calls[id]?.map fun call =>
      call.result.getD (recovered id call) :=
  recoverEach_eq ledger.calls.nodup_keys hs fun _ hid => OrdMap.mem_keys.mp hid

/-- The results that are returned are the ones the ledger holds afterwards. -/
theorem recoverAll_fst_eq_results (hs : Coherent ledger) : (recoverAll ledger).1 =
    ledger.calls.keys.filterMap (recoverAll ledger).2.result := by
  rw [recoverAll_fst hs]
  refine List.filterMap_congr fun callId _ => ?_
  rw [ToolLifecycleLedger.result, getElem?_recoverAll hs]
  cases ledger.calls[callId]? with
  | none => rfl
  | some call => exact result_recoveredRecord.symm

theorem exists_result_recoverAll (hs : Coherent ledger) (callId : String)
    (hmem : callId ∈ ledger.calls.keys) :
    ∃ result, (recoverAll ledger).2.result callId = some result := by
  obtain ⟨call, hcall⟩ := OrdMap.mem_keys.mp hmem
  rw [ToolLifecycleLedger.result, getElem?_recoverAll hs, hcall]
  exact ⟨_, result_recoveredRecord⟩

/-- The result a ledger holds for a call is one of that call. -/
theorem callId_of_result (hs : Coherent ledger) {result : ToolResult}
    (h : ledger.result callId = some result) : result.callId = callId := by
  obtain ⟨call, hcall, hresult⟩ := Option.bind_eq_some_iff.mp h
  exact ((hs callId call hcall).closed result hresult).1

theorem mem_recoverAll (hs : Coherent ledger) {result : ToolResult} :
    result ∈ (recoverAll ledger).1 ↔ (recoverAll ledger).2.result result.callId = some result := by
  rw [recoverAll_fst_eq_results hs, List.mem_filterMap]
  constructor
  · rintro ⟨callId, -, hresult⟩
    rwa [callId_of_result (coherent_recoverAll hs) hresult]
  · intro hresult
    refine ⟨result.callId, ?_, hresult⟩
    rw [← keys_recoverAll hs]
    obtain ⟨call, hcall, -⟩ := Option.bind_eq_some_iff.mp hresult
    exact OrdMap.mem_keys.mpr ⟨call, hcall⟩

theorem map_callId_recoverAll (hs : Coherent ledger) :
    (recoverAll ledger).1.map ToolResult.callId = ledger.calls.keys := by
  rw [recoverAll_fst_eq_results hs, List.map_filterMap]
  have hsome : ∀ callId ∈ ledger.calls.keys,
      ((recoverAll ledger).2.result callId).map ToolResult.callId = some callId := by
    intro callId hmem
    obtain ⟨result, hresult⟩ := exists_result_recoverAll hs callId hmem
    rw [hresult, Option.map_some, callId_of_result (coherent_recoverAll hs) hresult]
  rw [List.filterMap_congr hsome, List.filterMap_some]

theorem recoverAll_idempotent (hs : Coherent ledger) :
    recoverAll (recoverAll ledger).2 = recoverAll ledger := by
  rw [recoverAll, keys_recoverAll hs,
    recoverEach_of_results (coherent_recoverAll hs) (exists_result_recoverAll hs),
    ← recoverAll_fst_eq_results hs]

theorem ensureTurnClosed_recoverAll (hs : Coherent ledger) :
    ensureTurnClosed (recoverAll ledger).2 = .ok () := by
  rw [ensureTurnClosed, if_pos]
  rw [List.all_eq_true]
  intro record hrecord
  obtain ⟨callId, hcall⟩ := OrdMap.mem_values.mp hrecord
  rw [getElem?_recoverAll hs] at hcall
  obtain ⟨call, hbefore, rfl⟩ := Option.map_eq_some_iff.mp hcall
  exact hasResult_recoveredRecord (hs callId call hbefore)

theorem recoverAll_kept (hs : Coherent ledger) {result : ToolResult}
    (h : ledger.result callId = some result) :
    (recoverAll ledger).2.calls[callId]? = ledger.calls[callId]? := by
  obtain ⟨call, hcall, hresult⟩ := Option.bind_eq_some_iff.mp h
  rw [getElem?_recoverAll hs, hcall, Option.map_some, recoveredRecord, hresult, Option.isSome_some,
    if_pos rfl]

/-! ## Operations after a result -/

/-- A call that has its result keeps its record. -/
theorem getElem?_of_result {later : List LedgerMove} {ledger' : ToolLifecycleLedger}
    (h : Run ledgerMachine ledger later ledger') (hs : Coherent ledger) {result : ToolResult}
    (hcall : ledger.calls[callId]? = some call) (hresult : call.result = some result) :
    ledger'.calls[callId]? = some call := by
  obtain ⟨call', hcall', hcont⟩ := (continued_run h hs).calls callId call hcall
  rw [hcall', hcont.kept (by rw [hresult]; rfl)]

/-- A call that has its result is not dispatched. -/
theorem dispatch_refused_of_result (hs : CallCoherent callId call) {result : ToolResult}
    (hcall : ledger.calls[callId]? = some call) (hresult : call.result = some result)
    (fence : String) : Refused ledger (dispatch callId fence ledger) := by
  have hstate := (hs.closed result hresult).2
  rcases dispatch_cases ledger callId fence with
    hrefused | ⟨call', hcall', ⟨hdispatched, -⟩ | ⟨hpublished, -⟩⟩
  · exact hrefused
  · obtain rfl := Option.some.inj (hcall.symm.trans hcall')
    rw [hstate] at hdispatched
    cases hdispatched
  · obtain rfl := Option.some.inj (hcall.symm.trans hcall')
    rw [hstate] at hpublished
    cases hpublished

theorem never_dispatched_of_result {later : List LedgerMove} {ledger' : ToolLifecycleLedger}
    (h : Run ledgerMachine ledger later ledger') (hs : Coherent ledger) {result : ToolResult}
    (hcall : ledger.calls[callId]? = some call) (hresult : call.result = some result) :
    ∀ y ∈ later, y.dispatches callId = false ∧
      ∀ fence, y.input = .dispatch callId fence → y.reply.isRefused = true := by
  intro y hy
  obtain ⟨before, after, rfl⟩ := List.append_of_mem hy
  obtain ⟨hbefore, hmakes, -⟩ := h.of_split
  have hpre := getElem?_of_result hbefore hs hcall hresult
  have hcoherent := coherent_run hbefore hs
  have hpost : y.post.calls[callId]? = some call :=
    getElem?_of_result (.cons hmakes (.nil y.post)) hcoherent hpre hresult
  constructor
  · simp [LedgerMove.dispatches, ToolLifecycleLedger.state, hpre, hpost]
  · intro fence hinput
    obtain ⟨error, hout⟩ :=
      dispatch_refused_of_result (hcoherent callId call hpre) hpre hresult fence
    have hreply := ledgerMachine_makes.mp hmakes
    rw [hinput, perform, hout, answer_refused] at hreply
    rw [← (Prod.mk.inj hreply).1]
    rfl

/-- A call with a fence and no result is dispatched. -/
theorem CallCoherent.dispatched (h : CallCoherent callId call) {fence : String}
    (hfence : call.dispatchFence = some fence) (hresult : call.result = none) :
    call.state = .dispatched := by
  cases hstate : call.state with
  | published => exact absurd (hfence.symm.trans (h.unfenced (.inl hstate))) nofun
  | awaitingApproval => exact absurd (hfence.symm.trans (h.unfenced (.inr hstate))) nofun
  | dispatched => rfl
  | terminal status => exact absurd hstate (h.opened hresult status)

end

section

variable {moves : List LedgerMove} {ledger : ToolLifecycleLedger}

theorem turn_closing (h : Run ledgerMachine .new moves ledger) : TurnClosing moves ledger := by
  have hs : Coherent ledger := coherent_run h coherent_new
  constructor
  · exact map_callId_recoverAll hs
  · rw [map_callId_recoverAll hs]
    exact ledger.calls.ordered_keys
  · exact keys_recoverAll hs
  · exact fun result hresult => (mem_recoverAll hs).mp hresult
  · exact ensureTurnClosed_recoverAll hs
  · exact recoverAll_idempotent hs
  · exact fun callId result hresult => recoverAll_kept hs hresult
  · intro x hx callId fence call hinput hreply hcall heffect hnone
    obtain ⟨call', hcall', hfence⟩ := fence_at_end h hx hinput hreply
    obtain rfl := Option.some.inj (hcall.symm.trans hcall')
    have hstate := (hs callId call hcall).dispatched hfence hnone
    have hrecord := getElem?_recoverAll hs callId
    rw [hcall, Option.map_some] at hrecord
    have hresult : (recoveredRecord callId call).result = some (recovered callId call) := by
      rw [result_recoveredRecord, hnone, Option.getD_none]
    constructor
    · refine ⟨recovered callId call, ?_, recovered_callId callId call, ?_⟩
      · rw [mem_recoverAll hs, ToolLifecycleLedger.result, recovered_callId, hrecord]
        exact hresult
      · rw [recovered, if_pos hstate]
        cases hcase : call.effect with
        | readOnly => exact absurd hcase heffect
        | write | unknown => rfl
    · intro later ledger' hlater
      have hlaterCoherent := coherent_recoverAll hs
      rw [hrecord]
      exact ⟨getElem?_of_result hlater hlaterCoherent hrecord hresult,
        never_dispatched_of_result hlater hlaterCoherent hrecord hresult⟩

end

/-- A dispatched write and a published read, neither with a result. -/
theorem turn_closing_of_interrupted :
    ∃ moves ledger, moves.map Move.input =
        [.publish "write" .write "hash" (some
            { approvalId := "approval", tenantId := "tenant", userId := "user"
              sessionId := "session", runId := "run", argumentsHash := "hash"
              expiresAtMs := 100 }),
          .approve "approval"
            { tenantId := "tenant", userId := "user", sessionId := "session", runId := "run"
              argumentsHash := "hash" } 99,
          .dispatch "write" "fence", .publish "read" .readOnly "hash" none] ∧
      moves.map Move.reply =
        [.disposition (.awaitingApproval "approval"), .done, .done, .disposition .published] ∧
      TurnClosing moves ledger := by
  obtain ⟨moves, ledger, hrun, hinputs, hreplies⟩ := ledgerMachine.exists_run .new
    [.publish "write" .write "hash" (some
        { approvalId := "approval", tenantId := "tenant", userId := "user"
          sessionId := "session", runId := "run", argumentsHash := "hash", expiresAtMs := 100 }),
      .approve "approval"
        { tenantId := "tenant", userId := "user", sessionId := "session", runId := "run"
          argumentsHash := "hash" } 99,
      .dispatch "write" "fence", .publish "read" .readOnly "hash" none]
    (fun moves _ => decide (moves.map Move.reply =
      [.disposition (.awaitingApproval "approval"), .done, .done, .disposition .published]))
    (by decide)
  exact ⟨moves, ledger, hinputs, of_decide_eq_true hreplies, turn_closing hrun⟩

end AiPlatform.Runtime.ToolLifecycle
