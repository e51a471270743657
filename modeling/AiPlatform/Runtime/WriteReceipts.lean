/-
  AiPlatform.Runtime.WriteReceipts

  What is written down of a write that has succeeded: the terminal event of the
  worker's `run_execution` (`execution_run.rs`) and the receipt of the runtime's
  `handle_dynamic_tool_call_inner` (`capability_dispatch.rs`).

  After the side effect each of the two has one more step that can fail: the
  worker checks the size of the result, the runtime persists an event projected
  from it.  Both write `failed` when it does.
-/

import AiPlatform.Runtime.BridgeHonesty
import AiPlatform.Worker.Tasks

namespace AiPlatform.Worker

open AiPlatform.Json AiPlatform.Capability Transition

/-! ## The terminal event of the worker -/

/-- What ends the `select!` of `run_execution` other than the operation. -/
inductive Interruption where
  | cancelled
  | leaseLost
  | timedOut
  deriving DecidableEq, Repr

def Interruption.errorCode : Interruption → String
  | .cancelled => "cancelled"
  | .leaseLost => "capability_lease_lost"
  | .timedOut => "capability_timeout"

/-- What the `select!` makes of an operation that ends with `own`, now or after the
    interruption. -/
def selectResult (effect : CapabilityEffect) (interruption : Option Interruption)
    (own : OperationResult) : OperationResult :=
  match interruption with
  | none => own
  | some interruption =>
      if effect = .read then .failed interruption.errorCode else .sideEffectUnknown

/-- The status does not say that a write did not happen. -/
def AdmitsWrite (status : CapabilityExecutionStatus) : Prop :=
  status = .succeeded ∨ status = .sideEffectUnknown

/-- The move of `run_execution` that records its terminal event. -/
def RecordsTerminal (toVec : Payload → Option (List UInt8)) (x : WorkerMove)
    (result : OperationResult) (event : CapabilityEventV2) : Prop :=
  ∃ y i choice scope id fence, x.reply = some y ∧
    WorkerMachine.Calls toVec x y i choice (.reportTerminal scope id fence result) ∧
    y.reply = .event (.ok event) ∧
    MemoryStore.recordedEvent y.pre id (eventIdUnchecked id 4) = none

section

variable {toVec : Payload → Option (List UInt8)} {x : WorkerMove} {result : OperationResult}
  {event : CapabilityEventV2}

/-- What is recorded is the status that was made of the result. -/
theorem RecordsTerminal.status (hx : (workerMachine toVec).Makes x)
    (h : RecordsTerminal toVec x result event) : event.status = (terminalOf toVec result).1 := by
  obtain ⟨y, i, choice, scope, id, fence, hreply, hcalls, hevent, hnew⟩ := h
  rcases WorkerMachine.cases_store hx with ⟨hnone, -⟩ | ⟨y', hy', hmakes, -⟩
  · rw [hreply] at hnone
    cases hnone
  · obtain rfl : y = y' := Option.some.inj (hreply.symm.trans hy')
    have happly := (StoreMachine.makes_iff.mp hmakes).2
    have hcall := Option.some.inj hcalls.call
    rw [← hcall] at happly
    have hout : StoreReply.event (MemoryStore.appendEvent toVec y.input.now scope id
        (eventIdUnchecked id 4) "terminal" (terminalOf toVec result).1 (terminalOf toVec result).2
        (some fence) y.pre).1 = .event (.ok event) := (Prod.mk.inj happly).1.trans hevent
    have hok := StoreReply.event.inj hout
    unfold MemoryStore.appendEvent at hok
    rw [hnew] at hok
    dsimp only at hok
    repeat' split at hok
    all_goals first
      | (obtain rfl := Except.ok.inj hok; rfl)
      | cases hok

/-- An interrupted write ends with an unknown side effect; one that was not is
    reported as it went when its result fits in an event. -/
theorem terminalOf_write
    (hsmall : MemoryStore.payloadFits toVec (errorPayload "side_effect_unknown") = true)
    (interruption : Option Interruption) (value : Value) :
    AdmitsWrite (terminalOf toVec (selectResult .write interruption (.ok value))).1 ↔
      interruption ≠ none ∨
        MemoryStore.payloadFits toVec ((∅ : Payload).insert "result" value) = true := by
  cases interruption with
  | some interruption =>
    refine iff_of_true (.inr ?_) (.inl nofun)
    simp only [selectResult, reduceCtorEq, if_false, terminalOf, hsmall, Bool.not_true,
      Bool.false_eq_true]
  | none =>
    cases hfits : MemoryStore.payloadFits toVec ((∅ : Payload).insert "result" value) with
    | true => simp [AdmitsWrite, selectResult, terminalOf, hfits]
    | false => simp [AdmitsWrite, selectResult, terminalOf, hfits]

end

end AiPlatform.Worker

namespace AiPlatform.Runtime.CapabilityExecution

open AiPlatform.Json AiPlatform.Capability AiPlatform.Checks AiPlatform.Looping
open AiPlatform.Runtime.CapabilityWorker

/-! ## The projection -/

/-- The type and the data of an `AssistantTurnEventV1`. -/
structure ProjectionEvent where
  eventType : String
  data : Value

variable (crates : Crates)

def orNull (value : Option Value) : Value := value.getD .null

/-- A chunk of a knowledge base that was found. -/
def projectedChunk (fallbackDataset : Option String) (item : Value) : Option Value := do
  let _ ← item.asObject
  let metadata := (item.get "metadata").filter Value.isObject
  let datasetId ← ((metadata.bind (·.get "dataset_id")).bind Value.asStr).or fallbackDataset
  let content ← (item.get "text").bind Value.asStr
  return .object (crates.collect
    [("dataset_id", .string datasetId),
     ("document_id", orNull (item.get "document_id")),
     ("segment_id", orNull (item.get "segment_id")),
     ("content", .string content),
     ("score", orNull (item.get "score")),
     ("metadata", orNull (item.get "metadata")),
     ("source_type", orNull (item.get "source_type")),
     ("citation_text", orNull (item.get "citation_text")),
     ("source_reference", orNull (item.get "source_reference"))])

/-- `rsplit_once('.')` -/
def fileFormat (filename : String) : String :=
  if '.' ∈ filename.toList then
    String.ofList ((filename.toList.reverse.takeWhile (· != '.')).reverse)
  else "file"

def capabilityProjectionEvent (params : DynamicToolCallParams) (identity : PlatformThreadIdentity)
    (rawResult : Option Value) : Option ProjectionEvent := do
  let result ← rawResult
  let _ ← result.asObject
  let heading : List (String × Value) :=
    [("run_id", .string params.turnId),
     ("session_id", .string identity.sessionId),
     ("thread_id", .string identity.runtimeThreadId),
     ("tool_call_id", .string params.callId)]
  if params.tool = "search_knowledge_base" then
    let fallbackDataset :=
      ((result.get "dataset_ids").bind Value.asArray).bind fun
        | [only] => only.asStr
        | _ => none
    let results ← (result.get "results").bind Value.asArray
    let chunks := results.filterMap (projectedChunk crates fallbackDataset)
    if chunks.isEmpty then none
    else
      return {
        eventType := "context_retrieved"
        data := .object (crates.collect (heading ++ [("chunks", .array chunks)])) }
  else if params.tool = "execute_python_code" then
    let status := ((result.get "status").bind Value.asStr).getD "failed"
    let stdout := ((result.get "stdout").bind Value.asStr).getD ""
    let stderr := ((result.get "stderr").bind Value.asStr).getD ""
    return {
      eventType := "code_execution_result"
      data := .object (crates.collect (heading ++
        [("success", .bool (status == "succeeded")),
         ("status", .string status),
         ("exit_code", orNull (result.get "exit_code")),
         ("duration_ms", orNull (result.get "duration_ms")),
         ("output", .string stdout),
         ("result", .string stdout),
         ("stderr", .string stderr),
         ("error", orNull (result.get "error_message")),
         ("output_files", (result.get "artifacts").getD (.array []))])) }
  else
    let artifactId ← (result.get "artifact_id").bind Value.asStr
    let filename := ((result.get "filename").bind Value.asStr).getD artifactId
    return {
      eventType := "artifact_created"
      data := .object (crates.collect (heading ++
        [("artifact_id", .string artifactId),
         ("type", .string "file"),
         ("format", .string (fileFormat filename)),
         ("title", .string filename),
         ("filename", .string filename),
         ("mime_type", orNull (result.get "mime_type")),
         ("size_bytes", orNull (result.get "size_bytes")),
         ("download_url", orNull (result.get "download_url")),
         ("source", .string params.tool)])) }

/-! ## The receipt of the runtime -/

def capabilityStatusName : CapabilityExecutionStatus → String
  | .succeeded => "succeeded"
  | .failed => "failed"
  | .cancelled => "cancelled"
  | .timeout => "timeout"
  | .sideEffectUnknown => "side_effect_unknown"
  | _ => "failed"

def capabilityResultDetail : CapabilityExecutionStatus → String
  | .succeeded => "completed"
  | .failed => "capability_execution_failed"
  | .cancelled => "capability_execution_cancelled"
  | .timeout => "capability_execution_timeout"
  | .sideEffectUnknown => "capability_execution_side_effect_unknown"
  | _ => "capability_execution_failed"

/-- The `tool_result` item of a call. -/
structure Receipt where
  eventKey : String
  status : String
  detail : String
  deriving DecidableEq, Repr

/-- The receipt does not say that a write did not happen. -/
def Receipt.AdmitsWrite (receipt : Receipt) : Prop :=
  receipt.status = "succeeded" ∨ receipt.status = "side_effect_unknown"

/-- Which of the two appends after a call succeed, by key: the projected event's
    and the receipt's. -/
structure Journal where
  persists : String → ProjectionEvent → Bool
  appends : Receipt → Bool

/-- `persist_capability_projection` returns `Ok`. -/
def persistCapabilityProjection (journal : Journal) (params : DynamicToolCallParams)
    (event : ProjectionEvent) : Bool :=
  journal.persists
    ("compat/capability/" ++ params.turnId ++ "/" ++ params.callId ++ "/" ++ event.eventType) event

/-- The result once its projection is persisted, or is not. -/
def projected (journal : Journal) (params : DynamicToolCallParams) (call : CapabilityCall)
    (result : Except String CapabilityExecutionOutcome) :
    Except String CapabilityExecutionOutcome :=
  match result with
  | .error error => .error error
  | .ok outcome =>
      if outcome.status = .succeeded then
        match capabilityProjectionEvent crates call.params call.identity outcome.rawResult with
        | none => .ok outcome
        | some event =>
            if persistCapabilityProjection journal params event then .ok outcome
            else .error "capability_projection_failed"
      else .ok outcome

def receiptOf (params : DynamicToolCallParams)
    (result : Except String CapabilityExecutionOutcome) : Receipt :=
  { eventKey := "tool-result/" ++ params.turnId ++ "/" ++ params.callId
    status :=
      match result with
      | .ok outcome => capabilityStatusName outcome.status
      | .error _ => "failed"
    detail :=
      match result with
      | .ok outcome => capabilityResultDetail outcome.status
      | .error error => error }

/-- The end of `handle_dynamic_tool_call_inner`: the receipt it has recorded, and
    what it returns.  `params` are the tool call's own, `call` has those of the
    execution. -/
def finishCall (journal : Journal) (params : DynamicToolCallParams) (call : CapabilityCall)
    (result : Except String CapabilityExecutionOutcome) : Option Receipt × Except String Value :=
  let result := projected crates journal params call result
  if journal.appends (receiptOf params result) then
    (some (receiptOf params result), result.map (·.response))
  else (none, .error "dynamic_tool_result_receipt_failed")

/-- The call to the worker and what follows it. -/
def handleCall (env : Surroundings) (journal : Journal) (params : DynamicToolCallParams)
    (call : CapabilityCall) (fuel : Nat) :
    Option ((Option Receipt × Except String Value) × World) :=
  (executeCapabilityWithExisting crates env call fuel).map fun r =>
    (finishCall crates journal params call (r.1.mapError (·.code)), r.2)

variable {crates}

/-! ## What an event that was received makes of the call -/

/-- A page that was accepted brought this terminal event of the call. -/
def Received (sent : List Exchange) (toolCallId : String) (event : CapabilityEventV2) : Prop :=
  ∃ executionId afterSequence reply page,
    Exchange.events executionId afterSequence reply ∈ sent ∧
      readEvents reply executionId afterSequence = .ok page ∧ event ∈ page.events ∧
      event.toolCallId = toolCallId ∧ event.status.isTerminal = true

def Unheard (sent : List Exchange) (toolCallId : String) : Prop :=
  ∀ event, ¬ Received sent toolCallId event

/-- A terminal event that was received is the result. -/
def Concluded (crates : Crates) (toolCallId : String) (r : CallResult × World) : Prop :=
  ∀ event, Received r.2.sent toolCallId event → r.1 = projectTerminal crates event

variable {env : Surroundings} {toolCallId executionId : String} {scope : CapabilityScopeV2}

theorem Unheard.concluded {w : World} {result : CallResult} (h : Unheard w.sent toolCallId) :
    Concluded crates toolCallId (result, w) :=
  fun event hevent => absurd hevent (h event)

theorem Unheard.push {sent : List Exchange} (h : Unheard sent toolCallId) {exchange : Exchange}
    (hother : ∀ id afterSequence reply, exchange ≠ .events id afterSequence reply) :
    Unheard (sent ++ [exchange]) toolCallId := by
  rintro event ⟨id, afterSequence, reply, page, hmem, hrest⟩
  rcases List.mem_append.mp hmem with hold | hnew
  · exact h event ⟨id, afterSequence, reply, page, hold, hrest⟩
  · exact hother id afterSequence reply (List.mem_singleton.mp hnew).symm

/-- After one more page, what was received was on it. -/
theorem Unheard.received {sent : List Exchange} (h : Unheard sent toolCallId)
    {afterSequence : Nat} {reply : Reply CapabilityEventPageV2} {event : CapabilityEventV2}
    (hevent : Received (sent ++ [.events executionId afterSequence reply]) toolCallId event) :
    ∃ page, readEvents reply executionId afterSequence = .ok page ∧ event ∈ page.events ∧
      event.toolCallId = toolCallId ∧ event.status.isTerminal = true := by
  obtain ⟨id, sequence, reply', page, hmem, hrest⟩ := hevent
  rcases List.mem_append.mp hmem with hold | hnew
  · exact absurd ⟨id, sequence, reply', page, hold, hrest⟩ (h event)
  · cases List.mem_singleton.mp hnew
    exact ⟨page, hrest⟩

/-- A page that is turned away brings nothing. -/
theorem askEvents_error {afterSequence n : Nat} {w w' : World} {error : CapabilityWorkerError}
    (hw : Unheard w.sent toolCallId)
    (h : askEvents crates env scope executionId afterSequence n w = (.error error, w')) :
    Unheard w'.sent toolCallId := by
  unfold askEvents at h
  split at h
  · obtain ⟨-, rfl⟩ := Prod.mk.inj h
    exact hw
  · obtain ⟨hread, rfl⟩ := Prod.mk.inj h
    intro event hevent
    obtain ⟨page, hpage, -⟩ := hw.received hevent
    rw [hpage] at hread
    cases hread

/-- A page that ends nothing brings no terminal event of the call. -/
theorem observe_unheard {afterSequence n : Nat} {w : World} {page : CapabilityEventPageV2}
    (hw : Unheard w.sent toolCallId)
    (hread : readEvents (env.events n) executionId afterSequence = .ok page)
    (h : ∀ result, observe crates toolCallId page ≠ .ended result) :
    Unheard (w.log (.events executionId afterSequence (env.events n))).sent toolCallId := by
  intro event hevent
  obtain ⟨other, hother, hmem, hcall, hterminal⟩ := hw.received hevent
  rw [hread] at hother
  cases hother
  refine h (projectTerminal crates event) ?_
  simp only [observe, readEvents_mem hread hmem, hcall, bne_self_eq_false, hterminal, if_true,
    Bool.false_eq_true, if_false]

theorem observe_concluded {afterSequence n : Nat} {w : World} {page : CapabilityEventPageV2}
    {result : CallResult} (hw : Unheard w.sent toolCallId)
    (hread : readEvents (env.events n) executionId afterSequence = .ok page)
    (h : observe crates toolCallId page = .ended result) :
    Concluded crates toolCallId
      (result, w.log (.events executionId afterSequence (env.events n))) := by
  intro event hevent
  obtain ⟨other, hother, hmem, hcall, hterminal⟩ := hw.received hevent
  rw [hread] at hother
  cases hother
  simp only [observe, readEvents_mem hread hmem, hcall, bne_self_eq_false, hterminal, if_true,
    Bool.false_eq_true, if_false, Seen.ended.injEq] at h
  exact h.symm

theorem graceTurn_unheard {deadline : Nat} {c c' : Cursor} (hc : Unheard c.world.sent toolCallId)
    (h : graceTurn crates env scope executionId toolCallId deadline c = .again c') :
    Unheard c'.world.sent toolCallId := by
  unfold graceTurn at h
  dsimp only at h
  split at h
  · cases h
  · split at h
    · cases h
    · rename_i page w hpage
      obtain ⟨rfl, hread⟩ := askEvents_ok hpage
      split at h
      · cases h
      · rename_i sequence hprogress
        obtain rfl := Turn.again.inj h
        exact observe_unheard (w := c.world.pass env) hc hread (by rw [hprogress]; nofun)
      · rename_i hidle
        split at h
        · cases h
        · obtain rfl := Turn.again.inj h
          exact observe_unheard (w := c.world.pass env) hc hread (by rw [hidle]; nofun)

theorem graceTurn_concluded {deadline : Nat} {c : Cursor} {r : CallResult × World}
    (hc : Unheard c.world.sent toolCallId)
    (h : graceTurn crates env scope executionId toolCallId deadline c = .exit r) :
    Concluded crates toolCallId r := by
  unfold graceTurn at h
  dsimp only at h
  split at h
  · obtain rfl := Turn.exit.inj h
    exact Unheard.concluded (w := c.world.pass env) hc
  · split at h
    · rename_i error w herror
      obtain rfl := Turn.exit.inj h
      exact (askEvents_error (w := c.world.pass env) hc herror).concluded
    · rename_i page w hpage
      obtain ⟨rfl, hread⟩ := askEvents_ok hpage
      split at h
      · rename_i result hended
        obtain rfl := Turn.exit.inj h
        exact observe_concluded (w := c.world.pass env) hc hread hended
      · cases h
      · rename_i hidle
        split at h
        · obtain rfl := Turn.exit.inj h
          exact (observe_unheard (w := c.world.pass env) hc hread (by rw [hidle]; nofun)).concluded
        · cases h

theorem pollTurn_unheard {deadline : Nat} {c c' : Cursor} (hc : Unheard c.world.sent toolCallId)
    (h : pollTurn crates env scope executionId toolCallId deadline c = .again c') :
    Unheard c'.world.sent toolCallId := by
  unfold pollTurn at h
  dsimp only at h
  split at h
  · cases h
  · split at h
    · cases h
    · split at h
      · cases h
      · split at h
        · cases h
        · rename_i page w hpage
          obtain ⟨rfl, hread⟩ := askEvents_ok hpage
          split at h
          · cases h
          · rename_i sequence hprogress
            obtain rfl := Turn.again.inj h
            exact observe_unheard (w := ((c.world.pass env).pass env).pass env) hc hread
              (by rw [hprogress]; nofun)
          · rename_i hidle
            obtain rfl := Turn.again.inj h
            exact observe_unheard (w := ((c.world.pass env).pass env).pass env) hc hread
              (by rw [hidle]; nofun)

/-- What the polling loop leaves behind: its result, or nothing heard yet. -/
def PollExit.Concluded (crates : Crates) (toolCallId : String) : PollExit → Prop
  | .ended result w => CapabilityExecution.Concluded crates toolCallId (result, w)
  | .confirm c => Unheard c.world.sent toolCallId

theorem pollTurn_concluded {deadline : Nat} {c : Cursor} {r : PollExit}
    (hc : Unheard c.world.sent toolCallId)
    (h : pollTurn crates env scope executionId toolCallId deadline c = .exit r) :
    r.Concluded crates toolCallId := by
  unfold pollTurn at h
  dsimp only at h
  split at h
  · obtain rfl := Turn.exit.inj h
    exact hc
  · split at h
    · obtain rfl := Turn.exit.inj h
      exact hc
    · split at h
      · obtain rfl := Turn.exit.inj h
        exact hc
      · split at h
        · rename_i error w herror
          obtain rfl := Turn.exit.inj h
          exact (askEvents_error (w := ((c.world.pass env).pass env).pass env) hc
            herror).concluded
        · rename_i page w hpage
          obtain ⟨rfl, hread⟩ := askEvents_ok hpage
          split at h
          · rename_i result hended
            obtain rfl := Turn.exit.inj h
            exact observe_concluded (w := ((c.world.pass env).pass env).pass env) hc hread hended
          · cases h
          · cases h

theorem cancelAndConfirmTerminal_concluded {fuel : Nat} {c : Cursor} {r : CallResult × World}
    (hc : Unheard c.world.sent toolCallId)
    (h : cancelAndConfirmTerminal crates env scope executionId toolCallId fuel c = some r) :
    Concluded crates toolCallId r := by
  have hcancel : Unheard ((c.world.pass env).log (.cancel executionId env.cancel)).sent
      toolCallId := Unheard.push hc nofun
  unfold cancelAndConfirmTerminal at h
  dsimp only at h
  split at h
  · obtain rfl := Option.some.inj h
    exact Unheard.concluded hc
  · split at h
    · obtain rfl := Option.some.inj h
      exact hcancel.concluded
    · split at h
      · obtain rfl := Option.some.inj h
        exact hcancel.concluded
      · split at h
        · obtain rfl := Option.some.inj h
          exact hcancel.concluded
        · exact Returns.induct (I := fun c => Unheard c.world.sent toolCallId)
            (fun _ _ hc hturn => graceTurn_unheard hc hturn)
            (fun _ _ hc hturn => graceTurn_concluded hc hturn) hcancel ⟨fuel, h⟩

theorem followExecution_concluded {fuel : Nat} {w : World} {r : CallResult × World}
    (hw : Unheard w.sent toolCallId)
    (h : followExecution crates env scope executionId toolCallId fuel w = some r) :
    Concluded crates toolCallId r := by
  obtain ⟨exit, hexit, hrest⟩ := Option.bind_eq_some_iff.mp h
  have hended : exit.Concluded crates toolCallId :=
    Returns.induct (I := fun c => Unheard c.world.sent toolCallId)
      (fun _ _ hc hturn => pollTurn_unheard hc hturn)
      (fun _ _ hc hturn => pollTurn_concluded hc hturn) hw ⟨fuel, hexit⟩
  cases exit with
  | ended result w' =>
    obtain rfl := Option.some.inj hrest
    exact hended
  | confirm c => exact cancelAndConfirmTerminal_concluded hended hrest

variable {call : CapabilityCall}

theorem OnlyCatalog.unheard {sent : List Exchange} (h : OnlyCatalog sent) :
    Unheard sent toolCallId := by
  rintro event ⟨_, _, _, _, hmem, -⟩
  obtain ⟨_, hcatalog⟩ := h _ hmem
  cases hcatalog

theorem orCancelled_unheard {checks : Except CapabilityWorkerError Unit}
    {exchange : Option (Reply CapabilityExecutionV2) → Exchange}
    {reply : Reply CapabilityExecutionV2} {w : World} (hw : Unheard w.sent toolCallId)
    (hother : ∀ answer id afterSequence reply, exchange answer ≠ .events id afterSequence reply) :
    Unheard (orCancelled env checks exchange reply w).2.sent toolCallId := by
  unfold orCancelled
  dsimp only
  split
  · exact hw
  · split
    · exact hw
    · split
      · exact Unheard.push hw (hother _)
      · exact Unheard.push hw (hother _)

theorem awaitCreation_unheard {request : CreateCapabilityExecutionRequestV2} {w : World}
    (hw : Unheard w.sent toolCallId) :
    Unheard (awaitCreation crates env call request w).2.sent toolCallId := by
  unfold awaitCreation
  split
  · exact orCancelled_unheard hw fun _ _ _ _ h => by cases h
  · exact orCancelled_unheard hw fun _ _ _ _ h => by cases h

/-- The outcome of a call with an effect once a terminal event is there. -/
def settled (crates : Crates) (event : CapabilityEventV2) : CapabilityExecutionOutcome :=
  match projectTerminal crates event with
  | .ok outcome => outcome
  | .error _ => sideEffectUnknown crates

theorem execute_settled (heffect : call.expectedEffect ≠ .read) {fuel : Nat}
    {result : CallResult} {w : World}
    (h : executeCapabilityWithExisting crates env call fuel = some (result, w))
    {event : CapabilityEventV2} (hevent : Received w.sent call.params.callId event) :
    result = .ok (settled crates event) := by
  have hwrite : (call.expectedEffect != .read) = true := by simpa using heffect
  unfold executeCapabilityWithExisting at h
  rcases prepare_cases crates env call with
    ⟨request, w₀, hprepare, hcatalog, -⟩ | ⟨stopped, w₀, hprepare, hcatalog, -⟩
  · rw [hprepare] at h
    dsimp only at h
    have hunheard : Unheard (awaitCreation crates env call request w₀).2.sent
        call.params.callId := awaitCreation_unheard hcatalog.unheard
    rcases hcreation : awaitCreation crates env call request w₀ with ⟨creation, w₁⟩
    rw [hcreation] at h hunheard
    dsimp only at h hunheard
    cases creation with
    | cancelled =>
      dsimp only at h
      split at h <;>
        · obtain ⟨-, rfl⟩ := Prod.mk.inj (Option.some.inj h)
          exact absurd hevent (hunheard event)
    | ended created =>
      cases created with
      | error error =>
        dsimp only at h
        split at h <;>
          · obtain ⟨-, rfl⟩ := Prod.mk.inj (Option.some.inj h)
            exact absurd hevent (hunheard event)
      | ok execution =>
        obtain ⟨⟨followed, w₂⟩, hfollow, hrest⟩ := Option.bind_eq_some_iff.mp h
        have hconcluded := followExecution_concluded hunheard hfollow
        rw [settled]
        cases followed with
        | error error =>
          dsimp only at hrest
          rw [if_pos hwrite] at hrest
          obtain ⟨rfl, rfl⟩ := Prod.mk.inj (Option.some.inj hrest)
          rw [← hconcluded event hevent]
        | ok outcome =>
          obtain ⟨rfl, rfl⟩ := Prod.mk.inj (Option.some.inj hrest)
          rw [← hconcluded event hevent]
  · rw [hprepare] at h
    obtain ⟨-, rfl⟩ := Prod.mk.inj (Option.some.inj h)
    exact absurd hevent (hcatalog.unheard event)

/-- Every call with an effect returns. -/
theorem exists_executed (heffect : call.expectedEffect ≠ .read) :
    ∃ r, Eventually (executeCapabilityWithExisting crates env call) r := by
  rcases prepare_cases crates env call with
    ⟨request, w, hprepare, -, hinstant, hstep, -⟩ | ⟨stopped, w, hprepare, -⟩
  · obtain ⟨result, w', hresult, -⟩ := exists_result heffect hprepare hinstant hstep
    exact ⟨(result, w'), hresult⟩
  · refine ⟨(stopped, w), .of_forall fun fuel => ?_⟩
    unfold executeCapabilityWithExisting
    rw [hprepare]

/-! ## The receipt of a write that has succeeded -/

/-- Nothing is projected from the result of the event, or what is projected can be
    persisted; or there is no result that can be shown. -/
def ProjectionPersists (crates : Crates) (journal : Journal) (params : DynamicToolCallParams)
    (call : CapabilityCall) (event : CapabilityEventV2) : Prop :=
  ∀ outcome projection, projectTerminal crates event = .ok outcome →
    capabilityProjectionEvent crates call.params call.identity (event.payload.get? "result") =
      some projection →
    persistCapabilityProjection journal params projection = true

theorem projectTerminal_rawResult {event : CapabilityEventV2}
    {outcome : CapabilityExecutionOutcome} (h : projectTerminal crates event = .ok outcome) :
    outcome.rawResult = event.payload.get? "result" := by
  simp only [projectTerminal, bind_eq_ok, pure_eq_ok] at h
  obtain ⟨_, -, _, -, rfl⟩ := h
  rfl

/-- The receipt of a succeeded event says so, or that the side effect is unknown,
    exactly when its projection persists. -/
theorem receiptOf_settled {journal : Journal} {params : DynamicToolCallParams}
    {event : CapabilityEventV2} (hstatus : event.status = .succeeded) :
    (receiptOf params
        (projected crates journal params call (.ok (settled crates event)))).AdmitsWrite ↔
      ProjectionPersists crates journal params call event := by
  cases hproject : projectTerminal crates event with
  | error error =>
    refine iff_of_true (.inr ?_) fun outcome projection houtcome => ?_
    · rw [settled, hproject]
      rfl
    · rw [hproject] at houtcome
      cases houtcome
  | ok outcome =>
    have hsucceeded : outcome.status = .succeeded :=
      (projectTerminal_status hproject).2.trans hstatus
    have hraw := projectTerminal_rawResult hproject
    have hsettled : settled crates event = outcome := by rw [settled, hproject]
    have hok : (receiptOf params (.ok outcome)).status = "succeeded" := by
      rw [receiptOf, hsucceeded]
      rfl
    rw [hsettled, projected, if_pos hsucceeded, hraw]
    cases hprojection : capabilityProjectionEvent crates call.params call.identity
        (event.payload.get? "result") with
    | none =>
      refine iff_of_true (.inl hok) fun _ projection _ hsome => ?_
      rw [hprojection] at hsome
      cases hsome
    | some projection =>
      dsimp only
      cases hpersist : persistCapabilityProjection journal params projection with
      | true =>
        refine iff_of_true (.inl hok) fun _ other _ hsome => ?_
        rw [hprojection] at hsome
        cases hsome
        exact hpersist
      | false =>
        refine iff_of_false ?_ fun h => ?_
        · change ¬ ("failed" = "succeeded" ∨ "failed" = "side_effect_unknown")
          decide
        · rw [h outcome projection hproject hprojection] at hpersist
          cases hpersist

theorem finishCall_receipt {journal : Journal} {params : DynamicToolCallParams}
    {result : Except String CapabilityExecutionOutcome} {receipt : Receipt}
    (h : (finishCall crates journal params call result).1 = some receipt) :
    receipt = receiptOf params (projected crates journal params call result) := by
  unfold finishCall at h
  dsimp only at h
  by_cases happends : journal.appends
      (receiptOf params (projected crates journal params call result)) = true
  · rw [if_pos happends] at h
    exact (Option.some.inj h).symm
  · rw [if_neg happends] at h
    cases h

open AiPlatform.Worker Transition

/-- Of a write that has succeeded, the worker records a status that admits it exactly
    when it was interrupted or its result fits in an event; and the runtime, once it
    has received that event, a receipt that admits it exactly when the projection of
    the result persists. -/
theorem write_success_admitted_iff {toVec : Payload → Option (List UInt8)}
    (hsmall : MemoryStore.payloadFits toVec (errorPayload "side_effect_unknown") = true)
    (journal : Journal) (params : DynamicToolCallParams)
    (heffect : call.expectedEffect ≠ .read) :
    (∀ tr state, Run (workerMachine toVec) .init tr state →
      ∀ x ∈ tr, ∀ interruption value event,
        RecordsTerminal toVec x (selectResult .write interruption (.ok value)) event →
        (AdmitsWrite event.status ↔ interruption ≠ none ∨
          MemoryStore.payloadFits toVec ((∅ : Payload).insert "result" value) = true)) ∧
    ∃ out w, Eventually (handleCall crates env journal params call) (out, w) ∧
      ∀ event, Received w.sent call.params.callId event → event.status = .succeeded →
        ∀ receipt, out.1 = some receipt →
          (receipt.AdmitsWrite ↔ ProjectionPersists crates journal params call event) := by
  constructor
  · intro tr state hrun x hx interruption value event hrecords
    obtain ⟨_, -, hmakes⟩ := hrun.of_mem hx
    rw [hrecords.status hmakes]
    exact terminalOf_write hsmall interruption value
  · obtain ⟨⟨result, w⟩, hexecuted⟩ := @exists_executed crates env call heffect
    refine ⟨_, w, hexecuted.map _, fun event hevent hstatus receipt hreceipt => ?_⟩
    obtain ⟨n, hn⟩ := hexecuted
    obtain rfl := execute_settled heffect (hn n (Nat.le_refl n)) hevent
    obtain rfl := finishCall_receipt hreceipt
    exact receiptOf_settled hstatus

/-! ## A document that was generated -/

def documentEvent : CapabilityEventV2 :=
  { schemaVersion := CAPABILITY_EVENT_SCHEMA_VERSION
    executionId := sampleId
    toolCallId := "call-a"
    sequence := 1
    event := "terminal"
    status := .succeeded
    payload := (∅ : Payload).insert "result"
      (.object
        [("contentItems", .array []), ("success", .bool true),
         ("artifact_id", .string "artifact-a"), ("filename", .string "report.docx")])
    createdAtEpochMs := 1 }

def documentPage : CapabilityEventPageV2 :=
  { samplePage with events := [documentEvent] }

def documentSurroundings : Surroundings :=
  { sampleSurroundings none with events := fun _ => .response 200 (.value documentPage) }

/-- A journal whose appends of projected events all succeed, or all fail. -/
def documentJournal (persists : Bool) : Journal :=
  ⟨fun _ _ => persists, fun _ => true⟩

theorem documentCall_accepts : Accepts sampleCrates documentSurroundings sampleCall :=
  ⟨sampleArgumentsHash, 1000, sampleDescriptor, sampleLease,
    { sampleCall_accepted with clock := rfl, chosen := rfl, signed := rfl }⟩

theorem readExecution_sample :
    readExecution (.response 200 (.value sampleExecution)) = .ok sampleExecution := by
  rfl

/-- The worker's first page ends the call. -/
theorem execute_document :
    ∃ w, (∀ fuel, executeCapabilityWithExisting sampleCrates documentSurroundings sampleCall
        (fuel + 1) = some (projectTerminal sampleCrates documentEvent, w)) ∧
      Received w.sent sampleCall.params.callId documentEvent := by
  rcases prepare_cases sampleCrates documentSurroundings sampleCall with
    ⟨request, ⟨instant, step, sent⟩, hprepare, -, hinstant, hstep, -⟩ |
      ⟨_, _, -, -, -, hrefused⟩
  · subst hinstant hstep
    refine ⟨⟨9, 9, sent ++ [.get sampleId (some (.response 200 (.value sampleExecution)))] ++
      [.events sampleId 0 (.response 200 (.value documentPage))]⟩, fun fuel => ?_, ?_⟩
    · have hcreation : awaitCreation sampleCrates documentSurroundings sampleCall request
          ⟨documentSurroundings.after 3, 3, sent⟩ = (.ended (.ok sampleExecution),
            ⟨5, 5, sent ++ [.get sampleId (some (.response 200 (.value sampleExecution)))]⟩) := by
        rw [← readExecution_sample]
        rfl
      unfold executeCapabilityWithExisting
      rw [hprepare]
      dsimp only
      rw [hcreation]
      rfl
    · exact ⟨sampleId, 0, .response 200 (.value documentPage), documentPage,
        List.mem_append_right _ List.mem_cons_self, rfl, List.mem_cons_self, rfl, rfl⟩
  · exact absurd ⟨documentCall_accepts, rfl⟩ hrefused

/-- The call returns with a receipt, after the succeeded event of its execution. -/
theorem handleCall_document (persists : Bool) :
    ∃ out w, Eventually (handleCall sampleCrates documentSurroundings
        (documentJournal persists) sampleCall.params sampleCall) (out, w) ∧
      Received w.sent sampleCall.params.callId documentEvent ∧
      ∃ receipt, out.1 = some receipt ∧
        receipt.status = if persists then "succeeded" else "failed" := by
  obtain ⟨w, hrun, hreceived⟩ := execute_document
  have hexecuted : Eventually
      (executeCapabilityWithExisting sampleCrates documentSurroundings sampleCall)
      (projectTerminal sampleCrates documentEvent, w) := by
    refine ⟨1, fun fuel hfuel => ?_⟩
    obtain ⟨k, rfl⟩ : ∃ k, fuel = k + 1 := ⟨fuel - 1, by omega⟩
    exact hrun k
  refine ⟨_, w, hexecuted.map _, hreceived, ?_⟩
  cases persists with
  | true => exact ⟨_, rfl, rfl⟩
  | false => exact ⟨_, rfl, rfl⟩

/-- A document whose event is persisted. -/
theorem write_success_admitted_iff_document :
    ∃ out w receipt, Eventually (handleCall sampleCrates documentSurroundings
        (documentJournal true) sampleCall.params sampleCall) (out, w) ∧
      Received w.sent sampleCall.params.callId documentEvent ∧ out.1 = some receipt ∧
      receipt.AdmitsWrite ∧
      ProjectionPersists sampleCrates (documentJournal true) sampleCall.params sampleCall
        documentEvent := by
  obtain ⟨out, w, hreturns, hreceived, receipt, hreceipt, hstatus⟩ := handleCall_document true
  have hsmall :
      MemoryStore.payloadFits plainToVec (errorPayload "side_effect_unknown") = true := by
    decide
  have hwrite : sampleCall.expectedEffect ≠ .read := by decide
  obtain ⟨-, out', w', hreturns', hadmits⟩ := @write_success_admitted_iff sampleCrates
    documentSurroundings sampleCall plainToVec hsmall (documentJournal true)
    sampleCall.params hwrite
  obtain ⟨rfl, rfl⟩ := Prod.mk.inj (hreturns.unique hreturns')
  have hadmitted : receipt.AdmitsWrite := .inl hstatus
  exact ⟨out, w, receipt, hreturns, hreceived, hreceipt, hadmitted,
    (hadmits documentEvent hreceived rfl receipt hreceipt).mp hadmitted⟩

/-- A document whose event is not persisted: the receipt says that the call failed. -/
theorem receipt_denies_write :
    ∃ out w receipt, Eventually (handleCall sampleCrates documentSurroundings
        (documentJournal false) sampleCall.params sampleCall) (out, w) ∧
      Received w.sent sampleCall.params.callId documentEvent ∧
      documentEvent.status = .succeeded ∧ out.1 = some receipt ∧ receipt.status = "failed" ∧
      ¬ receipt.AdmitsWrite := by
  obtain ⟨out, w, hreturns, hreceived, receipt, hreceipt, hstatus⟩ := handleCall_document false
  refine ⟨out, w, receipt, hreturns, hreceived, rfl, hreceipt, hstatus, ?_⟩
  rw [Receipt.AdmitsWrite, hstatus]
  decide

end AiPlatform.Runtime.CapabilityExecution
