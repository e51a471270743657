/-
  AiPlatform.Runtime.PlatformLifecycle

  Rebuilding the open tool calls of a turn from its lifecycle events
  (`platform_lifecycle.rs`).

  The events are JSON values with string-typed fields.  `persistedCalls` folds
  them into one entry for each call; the second half relates the entry of a call
  to its record in the ledger that emitted the events.
-/

import AiPlatform.Json.Value
import AiPlatform.Runtime.LedgerSafety

namespace AiPlatform.Runtime.PlatformLifecycle

open AiPlatform.Json Transition ToolLifecycle ToolLifecycleLedger

structure RecoveredToolCall where
  callId : String
  resultStatus : String
  detail : String
  deriving DecidableEq, Repr

inductive PersistedPhase where
  | published
  | awaitingApproval
  | dispatched
  | terminal
  deriving DecidableEq, Repr

inductive PersistedEffect where
  | read
  | write
  | unknown
  deriving DecidableEq, Repr

structure PersistedCall where
  phase : PersistedPhase
  effect : PersistedEffect
  deriving DecidableEq, Repr

/-- `str::to_ascii_lowercase` -/
def toAsciiLowercase (text : String) : String :=
  String.ofList (text.toList.map Char.toLower)

def persistedEffect (event : Value) : Option PersistedEffect :=
  match ((event.get "effect").bind Value.asStr).map toAsciiLowercase with
  | some "read" | some "readonly" | some "read_only" => some .read
  | some "write" => some .write
  | some "unknown" => some .unknown
  | _ => none

/-- The phase an event names, under either of the two keys. -/
def persistedPhase (event : Value) : Option PersistedPhase :=
  match ((event.get "lifecycle").bind Value.asStr).or
      ((event.get "dispatch_state").bind Value.asStr) with
  | some "published" => some .published
  | some "awaiting_approval" => some .awaitingApproval
  | some "dispatched" => some .dispatched
  | some "terminal" => some .terminal
  | _ => none

def persistedCallId (event : Value) : Option String :=
  (event.get "tool_call_id").bind Value.asStr

/-- A later event moves a call that is not terminal, and keeps an effect it does
    not name. -/
def PersistedCall.advance (current : PersistedCall) (phase : PersistedPhase)
    (effect : Option PersistedEffect) : PersistedCall :=
  if current.phase = .terminal then current
  else { phase := phase, effect := effect.getD current.effect }

/-- The body of the loop of `persisted_calls`. -/
def persistEvent (calls : Std.ExtTreeMap String PersistedCall) (event : Value) :
    Std.ExtTreeMap String PersistedCall :=
  match persistedCallId event, persistedPhase event with
  | some callId, some phase =>
      let effect := (persistedEffect event).getD .unknown
      let current := calls[callId]?.getD { phase, effect }
      calls.insert callId (current.advance phase (persistedEffect event))
  | _, _ => calls

def persistedCalls (events : List Value) : Std.ExtTreeMap String PersistedCall :=
  events.foldl persistEvent ∅

/-- What recovery reports for an entry; nothing for a terminal one. -/
def PersistedCall.recovery (callId : String) (call : PersistedCall) : Option RecoveredToolCall :=
  match call.phase, call.effect with
  | .terminal, _ => none
  | .published, _ | .awaitingApproval, _ =>
      some { callId, resultStatus := "cancelled", detail := "not_dispatched" }
  | .dispatched, .read =>
      some { callId, resultStatus := "timeout", detail := "dispatch_interrupted" }
  | .dispatched, .write | .dispatched, .unknown =>
      some { callId, resultStatus := "side_effect_unknown", detail := "dispatch_effect_unknown" }

/-- A tree map lists its entries by increasing key. -/
def unclosedToolCalls (events : List Value) : List RecoveredToolCall :=
  (persistedCalls events).toList.filterMap fun entry => entry.2.recovery entry.1

/-- The payload that closes a recovered call; `recovery` names the occasion. -/
def recoveryPayload (turnId recovery : String) (call : RecoveredToolCall) : Value :=
  .object
    [("schema_version", .string "agent-runtime-tool-lifecycle/v1"),
      ("turn_id", .string turnId),
      ("tool_call_id", .string call.callId),
      ("lifecycle", .string "terminal"),
      ("result_status", .string call.resultStatus),
      ("detail", .string call.detail),
      ("recovery", .string recovery)]

inductive ToolCallOutcome where
  | completed (success : Bool)
  | blocked
  | failed (handlerExecuted : Bool)
  | aborted
  deriving DecidableEq, Repr

def terminalOutcome (outcome : ToolCallOutcome) (persisted : Option PersistedCall) :
    String × String :=
  match outcome with
  | .completed true => ("succeeded", "completed")
  | .completed false => ("failed", "completed_failed")
  | .blocked => ("cancelled", "blocked_before_handler")
  | .failed true =>
      if persisted.any fun call => call.effect = .read then ("failed", "read_handler_failed")
      else ("side_effect_unknown", "handler_failed_after_dispatch")
  | .failed false => ("failed", "handler_not_executed")
  | .aborted =>
      if persisted.any fun call => call.phase = .dispatched ∧ call.effect ≠ .read then
        ("side_effect_unknown", "dispatch_interrupted")
      else ("cancelled", "aborted")

/-- A finish that was aborted and a restart agree on whether the call may have had
    an effect. -/
theorem terminalOutcome_aborted (callId : String) (call : PersistedCall) :
    (terminalOutcome .aborted (some call)).1 = "side_effect_unknown" ↔
      ∃ closed, call.recovery callId = some closed ∧
        closed.resultStatus = "side_effect_unknown" := by
  obtain ⟨phase, effect⟩ := call
  cases phase <;> cases effect <;>
    simp [terminalOutcome, PersistedCall.recovery]

/-! ## Folding an event -/

section

variable {calls : Std.ExtTreeMap String PersistedCall} {event : Value} {callId : String}
  {phase : PersistedPhase}

/-- An event that names no call or no phase changes nothing. -/
theorem persistEvent_silent (h : persistedCallId event = none ∨ persistedPhase event = none) :
    persistEvent calls event = calls := by
  unfold persistEvent
  split
  · rename_i hcall hphase
    simp [hcall, hphase] at h
  · rfl

/-- An event changes the entry of its call, and no other. -/
theorem getElem?_persistEvent (hcall : persistedCallId event = some callId)
    (hphase : persistedPhase event = some phase) (id : String) :
    (persistEvent calls event)[id]? =
      if callId = id then
        some ((calls[callId]?.getD
          { phase, effect := (persistedEffect event).getD .unknown }).advance phase
            (persistedEffect event))
      else calls[id]? := by
  simp only [persistEvent, hcall, hphase]
  exact OrdMap.getElem?_insert calls callId id _

/-- What is reported for the entry of a call. -/
def reported (calls : Std.ExtTreeMap String PersistedCall) (callId : String) :
    Option RecoveredToolCall :=
  calls[callId]?.bind (PersistedCall.recovery callId)

theorem unclosedToolCalls_eq (events : List Value) :
    unclosedToolCalls events = (persistedCalls events).keys.filterMap
      (reported (persistedCalls events)) :=
  OrdMap.filterMap_toList (persistedCalls events) PersistedCall.recovery

theorem callId_of_recovery {call : PersistedCall} {closed : RecoveredToolCall}
    (h : call.recovery callId = some closed) : closed.callId = callId := by
  unfold PersistedCall.recovery at h
  split at h <;> cases h <;> rfl

theorem callId_of_reported {closed : RecoveredToolCall} (h : reported calls callId = some closed) :
    closed.callId = callId := by
  obtain ⟨call, -, hclosed⟩ := Option.bind_eq_some_iff.mp h
  exact callId_of_recovery hclosed

/-- An entry that nothing is reported for stays so. -/
theorem recovery_advance {call : PersistedCall} {effect : Option PersistedEffect}
    (h : call.recovery callId = none) : (call.advance phase effect).recovery callId = none := by
  have hterminal : call.phase = .terminal := by
    unfold PersistedCall.recovery at h
    split at h
    · assumption
    all_goals cases h
  rwa [PersistedCall.advance, if_pos hterminal]

end

/-! ## Closing what recovery reports -/

section

variable {calls : Std.ExtTreeMap String PersistedCall} {turnId occasion : String}

/-- The payload that closes a call leaves it terminal and touches no other. -/
theorem reported_close (closed : RecoveredToolCall) (callId : String) :
    reported (persistEvent calls (recoveryPayload turnId occasion closed)) callId =
      if closed.callId = callId then none else reported calls callId := by
  have hcallId : persistedCallId (recoveryPayload turnId occasion closed) = some closed.callId := rfl
  have hphase : persistedPhase (recoveryPayload turnId occasion closed) = some .terminal := rfl
  rw [reported, getElem?_persistEvent hcallId hphase]
  by_cases hid : closed.callId = callId
  · subst hid
    rw [if_pos rfl, if_pos rfl, Option.bind_some]
    cases hcall : calls[closed.callId]? with
    | none => rfl
    | some call =>
      rw [Option.getD_some, PersistedCall.advance]
      split
      · rename_i hterminal
        simp [PersistedCall.recovery, hterminal]
      · rfl
  · rw [if_neg hid, if_neg hid, reported]

/-- Calls that are closed in turn or were not reported are not reported after. -/
theorem reported_closeAll {closed : List RecoveredToolCall}
    (h : ∀ callId, (∃ call ∈ closed, call.callId = callId) ∨ reported calls callId = none)
    (callId : String) :
    reported ((closed.map (recoveryPayload turnId occasion)).foldl persistEvent calls) callId =
      none := by
  induction closed generalizing calls with
  | nil =>
    rcases h callId with ⟨call, hcall, -⟩ | hnone
    · exact absurd hcall List.not_mem_nil
    · exact hnone
  | cons first rest ih =>
    rw [List.map_cons, List.foldl_cons]
    refine ih fun id => ?_
    rw [reported_close]
    by_cases hid : first.callId = id
    · exact .inr (if_pos hid)
    · rw [if_neg hid]
      rcases h id with ⟨call, hcall, hcallId⟩ | hnone
      · rcases List.mem_cons.mp hcall with rfl | hrest
        · exact absurd hcallId hid
        · exact .inl ⟨call, hrest, hcallId⟩
      · exact .inr hnone

/-- After the terminal events of a recovery nothing is left to recover. -/
theorem unclosedToolCalls_close (events : List Value) :
    unclosedToolCalls
      (events ++ (unclosedToolCalls events).map (recoveryPayload turnId occasion)) = [] := by
  rw [unclosedToolCalls_eq, List.filterMap_eq_nil_iff]
  intro callId _
  rw [persistedCalls, List.foldl_append]
  refine reported_closeAll (fun id => ?_) callId
  cases hclosed : reported (persistedCalls events) id with
  | none => exact .inr hclosed
  | some closed =>
    refine .inl ⟨closed, ?_, callId_of_reported hclosed⟩
    rw [unclosedToolCalls_eq, List.mem_filterMap]
    obtain ⟨call, hcall, -⟩ := Option.bind_eq_some_iff.mp hclosed
    exact ⟨id, OrdMap.mem_keys.mpr ⟨call, hcall⟩, hclosed⟩

end

/-! ## What the ledger emits -/

/-- The phase that tells of a state. -/
def phaseOf : ToolCallState → PersistedPhase
  | .published => .published
  | .awaitingApproval => .awaitingApproval
  | .dispatched => .dispatched
  | .terminal _ => .terminal

/-- The effects agree on whether the call only reads. -/
def SameEffect (named : PersistedEffect) (effect : ToolEffect) : Prop :=
  named = .read ↔ effect = .readOnly

/-- The event tells of a call in this state; the first one of a call also names its
    effect, a later one need not. -/
structure Announces (event : Value) (callId : String) (record : ToolCallRecord) (first : Bool) :
    Prop where
  callId : persistedCallId event = some callId
  phase : persistedPhase event = some (phaseOf record.state)
  effect : ∀ named, persistedEffect event = some named → SameEffect named record.effect
  named : first = true → SameEffect ((persistedEffect event).getD .unknown) record.effect

/-- The lifecycle events of one move: one for a changed call and none for a replay
    or a refusal.  An approval may pass without an event of its own.  The log also
    holds items that name no call or no phase. -/
inductive Emits (x : LedgerMove) : List Value → Prop
  | quiet (hcalls : x.post.calls = x.pre.calls) : Emits x []
  | approved (callId : String) (call : ToolCallRecord) (hcall : x.pre.calls[callId]? = some call)
      (hstate : call.state = .awaitingApproval)
      (hpost : x.post.calls = (x.pre.putCall callId { call with state := .published }).calls) :
      Emits x []
  | changed (callId : String) (record : ToolCallRecord) (event : Value)
      (hchange : CallChange x callId x.pre.calls[callId]? record)
      (hevent : Announces event callId record x.pre.calls[callId]?.isNone) : Emits x [event]
  | other (event : Value) (events : List Value)
      (hother : persistedCallId event = none ∨ persistedPhase event = none)
      (hrest : Emits x events) : Emits x (event :: events)

/-- A move after which a call has another record emits the event that tells of it. -/
theorem Emits.of_records {x : LedgerMove} (hx : ledgerMachine.Makes x) {callId : String}
    {before : Option ToolCallRecord} {record : ToolCallRecord} {event : Value}
    (hpre : x.pre.calls[callId]? = before) (hpost : x.post.calls[callId]? = some record)
    (hne : before ≠ some record) (hevent : Announces event callId record before.isNone) :
    Emits x [event] := by
  subst hpre
  rcases callStep hx callId with hsame | ⟨record', hrecord, hchange⟩
  · exact absurd (hsame.symm.trans hpost) hne
  · obtain rfl := Option.some.inj (hpost.symm.trans hrecord)
    exact .changed callId record event hchange hevent

/-- The record of a call and its entry say the same. -/
inductive Matches : Option ToolCallRecord → Option PersistedCall → Prop
  | absent : Matches none none
  | running (call : ToolCallRecord) (entry : PersistedCall)
      (hopen : ∀ status, call.state ≠ .terminal status) (hlive : entry.phase ≠ .terminal)
      (hphase : entry.phase = .dispatched ↔ call.state = .dispatched)
      (heffect : SameEffect entry.effect call.effect) : Matches (some call) (some entry)
  | ended (call : ToolCallRecord) (entry : PersistedCall) (status : ToolTerminalStatus)
      (hstate : call.state = .terminal status) (hphase : entry.phase = .terminal) :
      Matches (some call) (some entry)

def Agrees (ledger : ToolLifecycleLedger) (calls : Std.ExtTreeMap String PersistedCall) : Prop :=
  ∀ callId : String, Matches ledger.calls[callId]? calls[callId]?

theorem agrees_new : Agrees .new ∅ := by
  intro callId
  simpa [new] using Matches.absent

section

variable {x : LedgerMove} {callId : String} {before : Option ToolCallRecord}
  {record : ToolCallRecord} {entry : Option PersistedCall} {event : Value}

/-- An entry that is not terminal takes the phase of the event. -/
theorem Matches.running_advance {current : PersistedCall}
    (hopen : ∀ status, record.state ≠ .terminal status) (hlive : current.phase ≠ .terminal)
    (heffect : SameEffect ((persistedEffect event).getD current.effect) record.effect) :
    Matches (some record)
      (some (current.advance (phaseOf record.state) (persistedEffect event))) := by
  rw [PersistedCall.advance, if_neg hlive]
  refine .running _ _ hopen ?_ ?_ heffect
  · cases hstate : record.state with
    | terminal status => exact absurd hstate (hopen status)
    | published | awaitingApproval | dispatched => simp [phaseOf]
  · cases hstate : record.state <;> simp [phaseOf]

/-- An effect that an event leaves out is the one that is kept. -/
theorem sameEffect_getD {kept : PersistedEffect} {effect : ToolEffect}
    (hnamed : ∀ named, persistedEffect event = some named → SameEffect named effect)
    (hkept : SameEffect kept effect) : SameEffect ((persistedEffect event).getD kept) effect := by
  cases h : persistedEffect event with
  | none => exact hkept
  | some named => exact hnamed named h

/-- A change and the event that tells of it keep record and entry together. -/
theorem Matches.step (h : Matches before entry) (hchange : CallChange x callId before record)
    (hevent : Announces event callId record before.isNone) :
    Matches (some record)
      (some ((entry.getD
        { phase := phaseOf record.state, effect := (persistedEffect event).getD .unknown }).advance
          (phaseOf record.state) (persistedEffect event))) := by
  cases hchange with
  | publishedRead =>
    cases h
    exact running_advance nofun nofun (sameEffect_getD hevent.effect (hevent.named rfl))
  | publishedHeld =>
    cases h
    exact running_advance nofun nofun (sameEffect_getD hevent.effect (hevent.named rfl))
  | approved _ _ _ _ call _ _ _ _ _ _ _ hstate =>
    cases h with
    | running _ current hopen hlive hphase heffect =>
      exact running_advance nofun hlive (sameEffect_getD hevent.effect heffect)
    | ended _ current status hterminal hphase => simp [hstate] at hterminal
  | dispatched fence call _ hstate =>
    cases h with
    | running _ current hopen hlive hphase heffect =>
      exact running_advance nofun hlive (sameEffect_getD hevent.effect heffect)
    | ended _ current status hterminal hphase => simp [hstate] at hterminal
  | closed call result _ _ hopen =>
    cases h with
    | running _ current _ hlive hphase heffect =>
      refine .ended _ _ result.status rfl ?_
      rw [Option.getD_some, PersistedCall.advance, if_neg hlive]
      rfl
    | ended _ current status hterminal hphase => exact absurd hterminal (hopen status)

/-- An approval leaves an entry that says the call is not dispatched. -/
theorem Matches.approved {call : ToolCallRecord} (h : Matches (some call) entry)
    (hstate : call.state = .awaitingApproval) :
    Matches (some { call with state := .published }) entry := by
  cases h with
  | running _ current hopen hlive hphase heffect =>
    refine .running _ current nofun hlive ?_ heffect
    rw [hphase, hstate]
    exact ⟨nofun, nofun⟩
  | ended _ current status hterminal hphase => simp [hstate] at hterminal

/-- The fold of what a move emits follows the move. -/
theorem agrees_step {events : List Value} {calls : Std.ExtTreeMap String PersistedCall}
    (hemits : Emits x events) (h : Agrees x.pre calls) :
    Agrees x.post (events.foldl persistEvent calls) := by
  induction hemits generalizing calls with
  | quiet hcalls =>
    intro id
    rw [hcalls]
    exact h id
  | approved callId call hcall hstate hpost =>
    intro id
    rw [hpost, calls_putCall]
    by_cases hid : callId = id
    · subst hid
      rw [if_pos rfl]
      exact (hcall ▸ h callId).approved hstate
    · rw [if_neg hid]
      exact h id
  | changed callId record event hchange hevent =>
    intro id
    rw [List.foldl_cons, List.foldl_nil, hchange.calls, calls_putCall,
      getElem?_persistEvent hevent.callId hevent.phase]
    by_cases hid : callId = id
    · subst hid
      rw [if_pos rfl, if_pos rfl]
      exact (h callId).step hchange hevent
    · rw [if_neg hid, if_neg hid]
      exact h id
  | other event events hother hrest ih =>
    rw [List.foldl_cons, persistEvent_silent hother]
    exact ih h

end

section

variable {ledger : ToolLifecycleLedger} {moves : List LedgerMove} {logs : List (List Value)}

/-- Folding the log of a run gives entries that match the ledger. -/
theorem agrees_run (h : Run ledgerMachine .new moves ledger) (hlogs : List.Forall₂ Emits moves logs) :
    Agrees ledger (persistedCalls logs.flatten) :=
  h.fold (fun _ _ _ _ hemits hpre => agrees_step hemits hpre) hlogs agrees_new

/-! ## What the ledger recovers -/

/-- The name of a status in the events. -/
def statusName : ToolTerminalStatus → String
  | .succeeded => "succeeded"
  | .failed => "failed"
  | .cancelled => "cancelled"
  | .timedOut => "timeout"
  | .sideEffectUnknown => "side_effect_unknown"

def RecoveredToolCall.ofResult (result : ToolResult) : RecoveredToolCall :=
  { callId := result.callId
    resultStatus := statusName result.status
    detail := result.detail }

/-- A call of the ledger that has no terminal result. -/
def isOpen (ledger : ToolLifecycleLedger) (callId : String) : Bool :=
  (ledger.result callId).isNone

/-- Both recoveries classify a running call alike. -/
theorem recovery_eq_recovered {callId : String} {call : ToolCallRecord} {current : PersistedCall}
    (hlive : current.phase ≠ .terminal)
    (hphase : current.phase = .dispatched ↔ call.state = .dispatched)
    (heffect : SameEffect current.effect call.effect) :
    current.recovery callId = some (.ofResult (recovered callId call)) := by
  rw [recovered]
  by_cases hdispatched : call.state = .dispatched
  · rw [if_pos hdispatched]
    cases hcall : call.effect <;> cases hcurrent : current.effect <;>
      simp_all [SameEffect, PersistedCall.recovery, RecoveredToolCall.ofResult, interruptedStatus,
        interruptedDetail, statusName]
  · rw [if_neg hdispatched]
    cases hcurrent : current.phase with
    | published | awaitingApproval => simp [PersistedCall.recovery, hcurrent,
        RecoveredToolCall.ofResult, statusName]
    | dispatched => exact absurd (hphase.mp hcurrent) hdispatched
    | terminal => exact absurd hcurrent hlive

/-- What is reported for an entry is what recovery records for an open call. -/
theorem reported_eq_recovered {calls : Std.ExtTreeMap String PersistedCall} {callId : String}
    {call : ToolCallRecord} (hagrees : Agrees ledger calls) (hs : Coherent ledger)
    (hcall : ledger.calls[callId]? = some call) :
    reported calls callId =
      if call.result.isNone then some (.ofResult (recovered callId call)) else none := by
  have hmatch := hagrees callId
  have hcoherent := hs callId call hcall
  rw [hcall] at hmatch
  rw [reported]
  generalize calls[callId]? = entry at hmatch
  cases hmatch with
  | running _ current hopen hlive hphase heffect =>
    have hresult : call.result = none := by
      cases hresult : call.result with
      | none => rfl
      | some result => exact absurd (hcoherent.closed result hresult).2 (hopen _)
    rw [Option.bind_some, hresult, Option.isNone_none, if_pos rfl]
    exact recovery_eq_recovered hlive hphase heffect
  | ended _ current status hterminal hphase =>
    have hresult : call.result.isNone = false := by
      cases hresult : call.result with
      | none => exact absurd hterminal (hcoherent.opened hresult status)
      | some result => rfl
    rw [Option.bind_some, hresult, if_neg Bool.false_ne_true]
    simp [PersistedCall.recovery, hphase]

/-- The recovery of a call in the ledger succeeds, with the result it has or the one
    recovery gives it. -/
theorem recoverCall_ok {callId : String} {call : ToolCallRecord} (hs : CallCoherent callId call)
    (hcall : ledger.calls[callId]? = some call) :
    (recoverCall callId ledger).1 = .ok (call.result.getD (recovered callId call)) := by
  have hopen : (∀ status, call.state ≠ .terminal status) → call.result = none := by
    intro hstate
    cases hresult : call.result with
    | none => rfl
    | some result => exact absurd (hs.closed result hresult).2 (hstate _)
  rw [recoverCall, hcall]
  cases hstate : call.state with
  | published | awaitingApproval => simp [hopen (by simp [hstate]), recovered, hstate]
  | dispatched =>
    obtain ⟨fence, hfence⟩ := Option.isSome_iff_exists.mp (hs.fenced hstate)
    have hnone := hopen (by simp [hstate])
    simp [hfence, terminal, hcall, hnone, hstate, recovered]
  | terminal status =>
    cases hresult : call.result with
    | none => exact absurd hstate (hs.opened hresult status)
    | some result => simp [hstate, hresult]

/-- A recovery leaves the other calls alone. -/
theorem recoverCall_frame {callId id : String} (hid : callId ≠ id) :
    (recoverCall callId ledger).2.calls[id]? = ledger.calls[id]? := by
  rcases recoverCall_cases ledger callId with
    ⟨error, hout⟩ | ⟨call, -, ⟨result, -, hout⟩ | ⟨-, hout⟩⟩
  · rw [hout]
  · rw [hout]
  · rw [hout, calls_putCall, if_neg hid]

theorem coherent_recoverCall (callId : String) (hs : Coherent ledger) :
    Coherent (recoverCall callId ledger).2 :=
  coherent_step (x := ⟨ledger, .recoverCall callId, (perform ledger (.recoverCall callId)).1, _⟩)
    (ledgerMachine_makes.mpr rfl) hs

theorem recoverEach_cons {callId : String} {rest : List String} {result : ToolResult}
    (hok : (recoverCall callId ledger).1 = .ok result) :
    (recoverEach (callId :: rest) ledger).1 =
      result :: (recoverEach rest (recoverCall callId ledger).2).1 := by
  rw [recoverEach]
  cases hrun : recoverCall callId ledger with
  | mk out later =>
    obtain rfl : out = .ok result := by
      rw [hrun] at hok
      exact hok
    rfl

theorem recoverEach_eq {ids : List String} (hnodup : ids.Nodup) (hs : Coherent ledger)
    (hmem : ∀ id ∈ ids, ∃ call, ledger.calls[id]? = some call) :
    (recoverEach ids ledger).1 =
      ids.filterMap fun id => ledger.calls[id]?.map fun call =>
        call.result.getD (recovered id call) := by
  induction ids generalizing ledger with
  | nil => rfl
  | cons callId rest ih =>
    obtain ⟨hnew, hrest⟩ := List.nodup_cons.mp hnodup
    obtain ⟨call, hcall⟩ := hmem callId List.mem_cons_self
    -- the later ids are not touched by the recovery of the first
    have hframe : ∀ id ∈ rest, (recoverCall callId ledger).2.calls[id]? = ledger.calls[id]? :=
      fun id hid => recoverCall_frame (fun heq => hnew (heq ▸ hid))
    have htail := ih hrest (coherent_recoverCall callId hs) fun id hid => by
      rw [hframe id hid]
      exact hmem id (List.mem_cons_of_mem _ hid)
    rw [recoverEach_cons (recoverCall_ok (hs callId call hcall) hcall), htail,
      List.filterMap_cons, hcall]
    refine congrArg _ (List.filterMap_congr fun id hid => ?_)
    rw [hframe id hid]

/-- What recovery of the whole ledger records for the open calls. -/
theorem recoverAll_open (hs : Coherent ledger) :
    ((recoverAll ledger).1.filter fun result => isOpen ledger result.callId).map .ofResult =
      ledger.calls.keys.filterMap fun id => ledger.calls[id]?.bind fun call =>
        if call.result.isNone then some (RecoveredToolCall.ofResult (recovered id call))
        else none := by
  rw [recoverAll, recoverEach_eq ledger.calls.nodup_keys hs fun id hid => OrdMap.mem_keys.mp hid,
    List.filter_filterMap, List.map_filterMap]
  refine List.filterMap_congr fun id hid => ?_
  obtain ⟨call, hcall⟩ := OrdMap.mem_keys.mp hid
  have hopen : isOpen ledger id = call.result.isNone := by
    rw [isOpen, ToolLifecycleLedger.result, hcall, Option.bind_some]
  rw [hcall, Option.map_some, Option.bind_some]
  cases hresult : call.result with
  | none =>
    simp [hopen, hresult]
  | some result =>
    obtain rfl := ((hs id call hcall).closed result hresult).1
    simp [hopen, hresult]

/-! ## Agreement -/

/-- The terminal status an interrupted call gets. -/
def interruption (call : ToolCallRecord) : String :=
  match call.state, call.effect with
  | .dispatched, .readOnly => "timeout"
  | .dispatched, .write | .dispatched, .unknown => "side_effect_unknown"
  | _, _ => "cancelled"

structure RecoveryAgrees (ledger : ToolLifecycleLedger) (events : List Value) : Prop where
  sameResults : unclosedToolCalls events =
    ((recoverAll ledger).1.filter fun result => isOpen ledger result.callId).map .ofResult
  openCalls : ∀ callId : String, (∃ closed ∈ unclosedToolCalls events, closed.callId = callId) ↔
    ∃ call, ledger.calls[callId]? = some call ∧ call.result = none
  once : ((unclosedToolCalls events).map RecoveredToolCall.callId).Nodup
  classified : ∀ closed ∈ unclosedToolCalls events, ∀ call,
    ledger.calls[closed.callId]? = some call → closed.resultStatus = interruption call
  closes : ∀ turnId occasion, unclosedToolCalls
    (events ++ (unclosedToolCalls events).map (recoveryPayload turnId occasion)) = []

/-- Entries that match a ledger list its calls. -/
theorem keys_eq_of_agrees {calls : Std.ExtTreeMap String PersistedCall}
    (hagrees : Agrees ledger calls) : calls.keys = ledger.calls.keys := by
  refine OrdMap.keys_eq_of_mem_iff fun callId => ?_
  rw [OrdMap.mem_keys, OrdMap.mem_keys]
  have hmatch := hagrees callId
  generalize calls[callId]? = entry, ledger.calls[callId]? = record at hmatch
  cases hmatch with
  | absent => exact ⟨fun ⟨_, h⟩ => (nomatch h), fun ⟨_, h⟩ => (nomatch h)⟩
  | running call entry => exact ⟨fun _ => ⟨call, rfl⟩, fun _ => ⟨entry, rfl⟩⟩
  | ended call entry => exact ⟨fun _ => ⟨call, rfl⟩, fun _ => ⟨entry, rfl⟩⟩

theorem unclosedToolCalls_of_agrees {events : List Value}
    (hagrees : Agrees ledger (persistedCalls events)) (hs : Coherent ledger) :
    unclosedToolCalls events =
      ledger.calls.keys.filterMap fun id => ledger.calls[id]?.bind fun call =>
        if call.result.isNone then some (RecoveredToolCall.ofResult (recovered id call))
        else none := by
  rw [unclosedToolCalls_eq, keys_eq_of_agrees hagrees]
  refine List.filterMap_congr fun id hid => ?_
  obtain ⟨call, hcall⟩ := OrdMap.mem_keys.mp hid
  rw [reported_eq_recovered hagrees hs hcall, hcall, Option.bind_some]

/-- What is reported is reported for an open call, under its id. -/
theorem mem_unclosedToolCalls {events : List Value} {closed : RecoveredToolCall}
    (hagrees : Agrees ledger (persistedCalls events)) (hs : Coherent ledger) :
    closed ∈ unclosedToolCalls events ↔ ∃ id call, ledger.calls[id]? = some call ∧
      call.result = none ∧ closed = .ofResult (recovered id call) := by
  rw [unclosedToolCalls_of_agrees hagrees hs, List.mem_filterMap]
  constructor
  · rintro ⟨id, hid, hclosed⟩
    obtain ⟨call, hcall, hclosed⟩ := Option.bind_eq_some_iff.mp hclosed
    split at hclosed
    · rename_i hnone
      exact ⟨id, call, hcall, Option.isNone_iff_eq_none.mp hnone, (Option.some.inj hclosed).symm⟩
    · cases hclosed
  · rintro ⟨id, call, hcall, hnone, rfl⟩
    exact ⟨id, OrdMap.mem_keys.mpr ⟨call, hcall⟩, by simp [hcall, hnone]⟩

theorem resultStatus_recovered (callId : String) (call : ToolCallRecord) :
    (RecoveredToolCall.ofResult (recovered callId call)).resultStatus = interruption call := by
  unfold recovered interruption
  cases hstate : call.state <;> cases heffect : call.effect <;> rfl

theorem nodup_unclosedToolCalls (events : List Value) :
    ((unclosedToolCalls events).map RecoveredToolCall.callId).Nodup := by
  have hsub : ∀ ids : List String, List.Sublist
      ((ids.filterMap (reported (persistedCalls events))).map RecoveredToolCall.callId) ids := by
    intro ids
    induction ids with
    | nil => exact .slnil
    | cons id rest ih =>
      cases hclosed : reported (persistedCalls events) id with
      | none =>
        rw [List.filterMap_cons_none hclosed]
        exact ih.cons id
      | some closed =>
        rw [List.filterMap_cons_some hclosed, List.map_cons, callId_of_reported hclosed]
        exact ih.cons_cons id
  rw [unclosedToolCalls_eq]
  exact (hsub _).nodup (persistedCalls events).nodup_keys

theorem recovery_agrees (h : Run ledgerMachine .new moves ledger)
    (hlogs : List.Forall₂ Emits moves logs) : RecoveryAgrees ledger logs.flatten := by
  have hs : Coherent ledger := coherent_run h coherent_new
  have hagrees : Agrees ledger (persistedCalls logs.flatten) := agrees_run h hlogs
  constructor
  · rw [recoverAll_open hs]
    exact unclosedToolCalls_of_agrees hagrees hs
  · intro callId
    constructor
    · rintro ⟨closed, hclosed, rfl⟩
      obtain ⟨id, call, hcall, hnone, rfl⟩ := (mem_unclosedToolCalls hagrees hs).mp hclosed
      refine ⟨call, ?_, hnone⟩
      rw [RecoveredToolCall.ofResult, recovered_callId]
      exact hcall
    · rintro ⟨call, hcall, hnone⟩
      exact ⟨_, (mem_unclosedToolCalls hagrees hs).mpr ⟨callId, call, hcall, hnone, rfl⟩,
        recovered_callId callId call⟩
  · exact nodup_unclosedToolCalls _
  · intro closed hclosed call hcall
    obtain ⟨id, call', hcall', -, rfl⟩ := (mem_unclosedToolCalls hagrees hs).mp hclosed
    rw [RecoveredToolCall.ofResult, recovered_callId] at hcall
    obtain rfl := Option.some.inj (hcall'.symm.trans hcall)
    exact resultStatus_recovered id call'
  · exact fun turnId occasion => unclosedToolCalls_close _

end

/-- A read that was interrupted after its dispatch. -/
theorem recovery_agrees_of_read :
    ∃ (moves : List LedgerMove) (ledger : ToolLifecycleLedger), moves.map Move.input =
        [.publish "call" .readOnly "hash" none, .dispatch "call" "fence"] ∧
      RecoveryAgrees ledger
        [.object [("tool_call_id", .string "call"), ("lifecycle", .string "published"),
            ("effect", .string "ReadOnly")],
          .object [("tool_call_id", .string "call"), ("dispatch_state", .string "dispatched")]] := by
  obtain ⟨moves, ledger, hrun, hinputs, hrecords⟩ := ledgerMachine.exists_run .new
    [.publish "call" .readOnly "hash" none, .dispatch "call" "fence"]
    (fun moves _ => decide (moves.map (fun x => (x.pre.calls["call"]?, x.post.calls["call"]?)) =
      [(none, some (newCall .readOnly "hash" .published)),
        (some (newCall .readOnly "hash" .published),
          some { newCall .readOnly "hash" .dispatched with dispatchFence := some "fence" })]))
    (by decide)
  obtain ⟨published, rest, rfl, hpublished, hrest⟩ :=
    List.map_eq_cons_iff.mp (of_decide_eq_true hrecords)
  obtain ⟨dispatched, rest, rfl, hdispatched, hnil⟩ := List.map_eq_cons_iff.mp hrest
  obtain rfl := List.map_eq_nil_iff.mp hnil
  obtain ⟨hpre, hpost⟩ := Prod.mk.inj hpublished
  obtain ⟨hpre', hpost'⟩ := Prod.mk.inj hdispatched
  obtain ⟨-, -, hmakes⟩ := hrun.of_mem (x := published) (by simp)
  obtain ⟨-, -, hmakes'⟩ := hrun.of_mem (x := dispatched) (by simp)
  have hlogs : List.Forall₂ Emits [published, dispatched]
      [[.object [("tool_call_id", .string "call"), ("lifecycle", .string "published"),
          ("effect", .string "ReadOnly")]],
        [.object [("tool_call_id", .string "call"), ("dispatch_state", .string "dispatched")]]] := by
    refine .cons ?_ (.cons ?_ .nil)
    · refine .of_records hmakes hpre hpost nofun
        ⟨by decide, by decide, fun named hnamed => ?_, fun _ => ⟨fun _ => rfl, fun _ => by decide⟩⟩
      obtain rfl : PersistedEffect.read = named := by
        rw [show persistedEffect _ = some .read by decide] at hnamed
        exact Option.some.inj hnamed
      exact ⟨fun _ => rfl, fun _ => rfl⟩
    · exact .of_records hmakes' hpre' hpost' (by decide) ⟨by decide, by decide, nofun, nofun⟩
  exact ⟨_, ledger, hinputs, recovery_agrees hrun hlogs⟩

end AiPlatform.Runtime.PlatformLifecycle
