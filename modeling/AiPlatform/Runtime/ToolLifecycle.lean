/-
  AiPlatform.Runtime.ToolLifecycle

  The ledger of a turn's tool calls (`tool_lifecycle.rs`): publish, approve,
  dispatch, terminal and recovery.

  Every operation returns its reply and the ledger it leaves behind, also on the
  paths that fail.  The second half has one lemma for each operation that lists
  everything it can do.
-/

import AiPlatform.Lib.OrdMap
import Std.Data.ExtTreeSet
import Std.Data.ExtTreeSet.Lemmas

namespace AiPlatform.Runtime.ToolLifecycle

inductive ToolEffect where
  | readOnly
  | write
  | unknown
  deriving DecidableEq, Repr

inductive ToolTerminalStatus where
  | succeeded
  | failed
  | cancelled
  | timedOut
  | sideEffectUnknown
  deriving DecidableEq, Repr

inductive ToolCallState where
  | published
  | awaitingApproval
  | dispatched
  | terminal (status : ToolTerminalStatus)
  deriving DecidableEq, Repr

structure ToolResult where
  callId : String
  status : ToolTerminalStatus
  detail : String
  deriving DecidableEq, Repr

structure ApprovalBinding where
  approvalId : String
  tenantId : String
  userId : String
  sessionId : String
  runId : String
  argumentsHash : String
  expiresAtMs : Nat
  deriving DecidableEq, Repr

structure ApprovalScope where
  tenantId : String
  userId : String
  sessionId : String
  runId : String
  argumentsHash : String
  deriving DecidableEq, Repr

/-- The scope a binding was made for. -/
def ApprovalBinding.scope (binding : ApprovalBinding) : ApprovalScope :=
  { tenantId := binding.tenantId
    userId := binding.userId
    sessionId := binding.sessionId
    runId := binding.runId
    argumentsHash := binding.argumentsHash }

inductive PublishDisposition where
  | published
  | awaitingApproval (approvalId : String)
  | alreadyPublished (state : ToolCallState)
  deriving DecidableEq, Repr

inductive LifecycleError where
  | invalidCallId
  | invalidApproval
  | idempotencyConflict
  | approvalNotFound
  | approvalScopeMismatch
  | approvalExpired
  | approvalReplay
  | dispatchFence
  | notDispatchable
  | terminal
  | resultFence
  | turnNotClosed
  deriving DecidableEq, Repr

structure ToolCallRecord where
  effect : ToolEffect
  argumentsHash : String
  state : ToolCallState
  dispatchFence : Option String
  result : Option ToolResult
  deriving DecidableEq, Repr

structure ToolLifecycleLedger where
  calls : Std.ExtTreeMap String ToolCallRecord
  approvals : Std.ExtTreeMap String String
  approvalBindings : Std.ExtTreeMap String ApprovalBinding
  consumedApprovals : Std.ExtTreeSet String

namespace ToolLifecycleLedger

def new : ToolLifecycleLedger :=
  { calls := ∅
    approvals := ∅
    approvalBindings := ∅
    consumedApprovals := ∅ }

/-- `calls.insert`, and an update through `calls.get_mut`. -/
def putCall (callId : String) (record : ToolCallRecord) (ledger : ToolLifecycleLedger) :
    ToolLifecycleLedger :=
  { ledger with calls := ledger.calls.insert callId record }

def putApproval (callId : String) (binding : ApprovalBinding) (ledger : ToolLifecycleLedger) :
    ToolLifecycleLedger :=
  { ledger with
    approvals := ledger.approvals.insert binding.approvalId callId
    approvalBindings := ledger.approvalBindings.insert binding.approvalId binding }

def consumeApproval (approvalId : String) (ledger : ToolLifecycleLedger) :
    ToolLifecycleLedger :=
  { ledger with
    approvalBindings := ledger.approvalBindings.erase approvalId
    consumedApprovals := ledger.consumedApprovals.insert approvalId }

end ToolLifecycleLedger

open ToolLifecycleLedger

/-! ## Operations -/

/-- A call as it is first recorded. -/
def newCall (effect : ToolEffect) (argumentsHash : String) (state : ToolCallState) :
    ToolCallRecord :=
  { effect := effect
    argumentsHash := argumentsHash
    state := state
    dispatchFence := none
    result := none }

/-- The branch of `publish` for a new write or unknown effect. -/
def publishHeld (callId : String) (effect : ToolEffect) (argumentsHash : String)
    (approval : Option ApprovalBinding) (ledger : ToolLifecycleLedger) :
    Except LifecycleError PublishDisposition × ToolLifecycleLedger :=
  match approval with
  | none => (.error .invalidApproval, ledger)
  | some binding =>
      if binding.approvalId = "" ∨ binding.argumentsHash ≠ argumentsHash
          ∨ binding.runId = "" then
        (.error .invalidApproval, ledger)
      else if ledger.approvals.contains binding.approvalId
          || ledger.approvalBindings.contains binding.approvalId
          || ledger.consumedApprovals.contains binding.approvalId then
        (.error .idempotencyConflict, ledger)
      else
        (.ok (.awaitingApproval binding.approvalId),
          (ledger.putApproval callId binding).putCall callId
            (newCall effect argumentsHash .awaitingApproval))

def publish (callId : String) (effect : ToolEffect) (argumentsHash : String)
    (approval : Option ApprovalBinding) (ledger : ToolLifecycleLedger) :
    Except LifecycleError PublishDisposition × ToolLifecycleLedger :=
  if callId = "" ∨ argumentsHash = "" then (.error .invalidCallId, ledger)
  else
    match ledger.calls[callId]? with
    | some existing =>
        if existing.effect ≠ effect ∨ existing.argumentsHash ≠ argumentsHash then
          (.error .idempotencyConflict, ledger)
        else (.ok (.alreadyPublished existing.state), ledger)
    | none =>
        if effect = .readOnly then
          (.ok .published, ledger.putCall callId (newCall effect argumentsHash .published))
        else publishHeld callId effect argumentsHash approval ledger

def approve (approvalId : String) (scope : ApprovalScope) (nowMs : Nat)
    (ledger : ToolLifecycleLedger) : Except LifecycleError Unit × ToolLifecycleLedger :=
  if ledger.consumedApprovals.contains approvalId then (.error .approvalReplay, ledger)
  else
    match ledger.approvals[approvalId]? with
    | none => (.error .approvalNotFound, ledger)
    | some callId =>
        match ledger.approvalBindings[approvalId]? with
        | none => (.error .approvalNotFound, ledger)
        | some binding =>
            if binding.expiresAtMs ≤ nowMs then (.error .approvalExpired, ledger)
            else if binding.scope ≠ scope then (.error .approvalScopeMismatch, ledger)
            else if binding.approvalId = "" then (.error .approvalNotFound, ledger)
            else
              match ledger.calls[callId]? with
              | none => (.error .approvalNotFound, ledger)
              | some call =>
                  if call.state ≠ .awaitingApproval then (.error .approvalReplay, ledger)
                  else
                    (.ok (), (ledger.putCall callId { call with state := .published }).consumeApproval
                      approvalId)

def dispatch (callId dispatchFence : String) (ledger : ToolLifecycleLedger) :
    Except LifecycleError Unit × ToolLifecycleLedger :=
  if dispatchFence = "" then (.error .dispatchFence, ledger)
  else
    match ledger.calls[callId]? with
    | none => (.error .notDispatchable, ledger)
    | some call =>
        match call.state with
        | .published =>
            (.ok (), ledger.putCall callId
              { call with state := .dispatched, dispatchFence := some dispatchFence })
        | .dispatched =>
            if call.dispatchFence = some dispatchFence then (.ok (), ledger)
            else (.error .dispatchFence, ledger)
        | .awaitingApproval | .terminal _ => (.error .notDispatchable, ledger)

/-- The call with its one terminal result. -/
def ToolCallRecord.closed (call : ToolCallRecord) (result : ToolResult) : ToolCallRecord :=
  { call with state := .terminal result.status, result := some result }

def terminal (callId dispatchFence : String) (status : ToolTerminalStatus) (detail : String)
    (ledger : ToolLifecycleLedger) : Except LifecycleError ToolResult × ToolLifecycleLedger :=
  match ledger.calls[callId]? with
  | none => (.error .resultFence, ledger)
  | some call =>
      if call.dispatchFence ≠ some dispatchFence then (.error .resultFence, ledger)
      else
        match call.result with
        | some result =>
            if result.status = status ∧ result.detail = detail then (.ok result, ledger)
            else (.error .resultFence, ledger)
        | none =>
            if call.state ≠ .dispatched then (.error .resultFence, ledger)
            else
              let result : ToolResult := { callId, status, detail }
              (.ok result, ledger.putCall callId (call.closed result))

/-- What recovery makes of a dispatched call. -/
def interruptedStatus : ToolEffect → ToolTerminalStatus
  | .readOnly => .timedOut
  | .write | .unknown => .sideEffectUnknown

def interruptedDetail : ToolEffect → String
  | .readOnly => "dispatch_interrupted"
  | .write | .unknown => "dispatch_effect_unknown"

def recoverCall (callId : String) (ledger : ToolLifecycleLedger) :
    Except LifecycleError ToolResult × ToolLifecycleLedger :=
  match ledger.calls[callId]? with
  | none => (.error .resultFence, ledger)
  | some call =>
      match call.state with
      | .published | .awaitingApproval =>
          let result : ToolResult :=
            { callId, status := .cancelled, detail := "not_dispatched" }
          (.ok result, ledger.putCall callId (call.closed result))
      | .dispatched =>
          match call.dispatchFence with
          | none => (.error .resultFence, ledger)
          | some fence =>
              terminal callId fence (interruptedStatus call.effect)
                (interruptedDetail call.effect) ledger
      | .terminal _ =>
          match call.result with
          | some result => (.ok result, ledger)
          | none => (.error .resultFence, ledger)

/-- The ids in order, one recovery after another; failures are left out. -/
def recoverEach : List String → ToolLifecycleLedger → List ToolResult × ToolLifecycleLedger
  | [], ledger => ([], ledger)
  | callId :: rest, ledger =>
      match recoverCall callId ledger with
      | (.ok result, ledger) => (result :: (recoverEach rest ledger).1, (recoverEach rest ledger).2)
      | (.error _, ledger) => recoverEach rest ledger

/-- A tree map lists its keys sorted. -/
def recoverAll (ledger : ToolLifecycleLedger) : List ToolResult × ToolLifecycleLedger :=
  recoverEach ledger.calls.keys ledger

def ToolLifecycleLedger.result (ledger : ToolLifecycleLedger) (callId : String) :
    Option ToolResult :=
  ledger.calls[callId]?.bind ToolCallRecord.result

def ToolCallRecord.hasResult (call : ToolCallRecord) : Bool :=
  match call.state with
  | .terminal _ => call.result.isSome
  | .published | .awaitingApproval | .dispatched => false

def ensureTurnClosed (ledger : ToolLifecycleLedger) : Except LifecycleError Unit :=
  if (OrdMap.values ledger.calls).all ToolCallRecord.hasResult then .ok ()
  else .error .turnNotClosed

/-! ## What an update leaves -/

namespace ToolLifecycleLedger

variable {ledger : ToolLifecycleLedger} {callId : String} {record : ToolCallRecord}
  {binding : ApprovalBinding} {approvalId : String}

@[simp] theorem approvals_putCall :
    (ledger.putCall callId record).approvals = ledger.approvals := rfl

@[simp] theorem approvalBindings_putCall :
    (ledger.putCall callId record).approvalBindings = ledger.approvalBindings := rfl

@[simp] theorem consumedApprovals_putCall :
    (ledger.putCall callId record).consumedApprovals = ledger.consumedApprovals := rfl

@[simp] theorem calls_putApproval :
    (ledger.putApproval callId binding).calls = ledger.calls := rfl

@[simp] theorem consumedApprovals_putApproval :
    (ledger.putApproval callId binding).consumedApprovals = ledger.consumedApprovals := rfl

@[simp] theorem calls_consumeApproval :
    (ledger.consumeApproval approvalId).calls = ledger.calls := rfl

@[simp] theorem approvals_consumeApproval :
    (ledger.consumeApproval approvalId).approvals = ledger.approvals := rfl

theorem calls_putCall (id : String) :
    (ledger.putCall callId record).calls[id]? =
      if callId = id then some record else ledger.calls[id]? :=
  OrdMap.getElem?_insert _ _ _ _

theorem approvals_putApproval (id : String) :
    (ledger.putApproval callId binding).approvals[id]? =
      if binding.approvalId = id then some callId else ledger.approvals[id]? :=
  OrdMap.getElem?_insert _ _ _ _

theorem approvalBindings_putApproval (id : String) :
    (ledger.putApproval callId binding).approvalBindings[id]? =
      if binding.approvalId = id then some binding else ledger.approvalBindings[id]? :=
  OrdMap.getElem?_insert _ _ _ _

theorem mem_consumeApproval (id : String) :
    id ∈ (ledger.consumeApproval approvalId).consumedApprovals ↔
      approvalId = id ∨ id ∈ ledger.consumedApprovals := by
  simp [consumeApproval, Std.ExtTreeSet.mem_insert]

/-- A binding that is left was there before. -/
theorem approvalBindings_consumeApproval {id : String}
    (h : (ledger.consumeApproval approvalId).approvalBindings[id]? = some binding) :
    ledger.approvalBindings[id]? = some binding := by
  have herased : (ledger.approvalBindings.erase approvalId)[id]? = some binding := h
  rw [Std.ExtTreeMap.getElem?_erase] at herased
  split at herased
  · cases herased
  · exact herased

end ToolLifecycleLedger

/-! ## What an operation can do -/

/-- The operation was refused and the ledger is as it was. -/
def Refused {α : Type} (ledger : ToolLifecycleLedger)
    (out : Except LifecycleError α × ToolLifecycleLedger) : Prop :=
  ∃ error, out = (.error error, ledger)

section

variable (ledger : ToolLifecycleLedger) (callId : String)

/-- A write is recorded with a binding for the same arguments, under an approval
    id that was not used before. -/
theorem publishHeld_cases (effect : ToolEffect) (argumentsHash : String)
    (approval : Option ApprovalBinding) :
    Refused ledger (publishHeld callId effect argumentsHash approval ledger) ∨
      ∃ binding, approval = some binding ∧ binding.argumentsHash = argumentsHash ∧
        ledger.approvals[binding.approvalId]? = none ∧
        binding.approvalId ∉ ledger.consumedApprovals ∧
        publishHeld callId effect argumentsHash approval ledger =
          (.ok (.awaitingApproval binding.approvalId),
            (ledger.putApproval callId binding).putCall callId
              (newCall effect argumentsHash .awaitingApproval)) := by
  unfold publishHeld
  split
  · exact .inl ⟨_, rfl⟩
  · rename_i binding
    split
    · exact .inl ⟨_, rfl⟩
    · rename_i hvalid
      split
      · exact .inl ⟨_, rfl⟩
      · rename_i hfresh
        simp only [not_or, ne_eq, not_not] at hvalid
        simp only [Bool.or_eq_true, not_or, Bool.not_eq_true] at hfresh
        refine .inr ⟨binding, rfl, hvalid.2.1, ?_, ?_, rfl⟩
        · exact Std.ExtTreeMap.getElem?_eq_none_of_contains_eq_false hfresh.1.1
        · rw [← Std.ExtTreeSet.contains_iff_mem, hfresh.2]
          exact Bool.false_ne_true

/-- A publish records a read, records a write with its approval, or finds the
    call recorded. -/
theorem publish_cases (effect : ToolEffect) (argumentsHash : String)
    (approval : Option ApprovalBinding) :
    Refused ledger (publish callId effect argumentsHash approval ledger) ∨
      (∃ call, ledger.calls[callId]? = some call ∧
        publish callId effect argumentsHash approval ledger =
          (.ok (.alreadyPublished call.state), ledger)) ∨
      (effect = .readOnly ∧ ledger.calls[callId]? = none ∧
        publish callId effect argumentsHash approval ledger =
          (.ok .published, ledger.putCall callId (newCall effect argumentsHash .published))) ∨
      (∃ binding, effect ≠ .readOnly ∧ approval = some binding ∧
        binding.argumentsHash = argumentsHash ∧ ledger.calls[callId]? = none ∧
        ledger.approvals[binding.approvalId]? = none ∧
        binding.approvalId ∉ ledger.consumedApprovals ∧
        publish callId effect argumentsHash approval ledger =
          (.ok (.awaitingApproval binding.approvalId),
            (ledger.putApproval callId binding).putCall callId
              (newCall effect argumentsHash .awaitingApproval))) := by
  unfold publish
  split
  · exact .inl ⟨_, rfl⟩
  · cases hcall : ledger.calls[callId]? with
    | some call =>
      dsimp only
      split
      · exact .inl ⟨_, rfl⟩
      · exact .inr (.inl ⟨call, rfl, rfl⟩)
    | none =>
      dsimp only
      split
      · rename_i heffect
        exact .inr (.inr (.inl ⟨heffect, rfl, rfl⟩))
      · rename_i heffect
        rcases publishHeld_cases ledger callId effect argumentsHash approval with
          hrefused | ⟨binding, happroval, hhash, hunused, hunconsumed, hout⟩
        · exact .inl hrefused
        · exact .inr (.inr (.inr ⟨binding, heffect, happroval, hhash, rfl, hunused, hunconsumed,
            hout⟩))

/-- An approval is consumed for the call it was published with. -/
theorem approve_cases (approvalId : String) (scope : ApprovalScope) (nowMs : Nat) :
    Refused ledger (approve approvalId scope nowMs ledger) ∨
      ∃ callId binding call, approvalId ∉ ledger.consumedApprovals ∧
        ledger.approvals[approvalId]? = some callId ∧
        ledger.approvalBindings[approvalId]? = some binding ∧
        nowMs < binding.expiresAtMs ∧ binding.scope = scope ∧
        ledger.calls[callId]? = some call ∧ call.state = .awaitingApproval ∧
        approve approvalId scope nowMs ledger =
          (.ok (), (ledger.putCall callId { call with state := .published }).consumeApproval
            approvalId) := by
  unfold approve
  split
  · exact .inl ⟨_, rfl⟩
  · rename_i hunconsumed
    split
    · exact .inl ⟨_, rfl⟩
    · rename_i callId hcallId
      split
      · exact .inl ⟨_, rfl⟩
      · rename_i binding hbinding
        split
        · exact .inl ⟨_, rfl⟩
        · rename_i hlive
          split
          · exact .inl ⟨_, rfl⟩
          · rename_i hscope
            split
            · exact .inl ⟨_, rfl⟩
            · split
              · exact .inl ⟨_, rfl⟩
              · rename_i call hcall
                split
                · exact .inl ⟨_, rfl⟩
                · rename_i hwaiting
                  refine .inr ⟨callId, binding, call, ?_, hcallId, hbinding, ?_, ?_, hcall, ?_,
                    rfl⟩
                  · rwa [← Std.ExtTreeSet.contains_iff_mem]
                  · exact Nat.not_le.mp hlive
                  · exact not_not.mp hscope
                  · exact not_not.mp hwaiting

/-- A dispatch sets the fence of a published call, or repeats the one set. -/
theorem dispatch_cases (dispatchFence : String) :
    Refused ledger (dispatch callId dispatchFence ledger) ∨
      ∃ call, ledger.calls[callId]? = some call ∧
        (call.state = .dispatched ∧ call.dispatchFence = some dispatchFence ∧
            dispatch callId dispatchFence ledger = (.ok (), ledger) ∨
          call.state = .published ∧
            dispatch callId dispatchFence ledger =
              (.ok (), ledger.putCall callId
                { call with state := .dispatched, dispatchFence := some dispatchFence })) := by
  unfold dispatch
  split
  · exact .inl ⟨_, rfl⟩
  · split
    · exact .inl ⟨_, rfl⟩
    · rename_i call hcall
      split
      · rename_i hpublished
        exact .inr ⟨call, hcall, .inr ⟨hpublished, rfl⟩⟩
      · rename_i hdispatched
        split
        · rename_i hfence
          exact .inr ⟨call, hcall, .inl ⟨hdispatched, hfence, rfl⟩⟩
        · exact .inl ⟨_, rfl⟩
      · exact .inl ⟨_, rfl⟩
      · exact .inl ⟨_, rfl⟩

/-- A terminal closes a dispatched call under its fence, or repeats its result. -/
theorem terminal_cases (dispatchFence : String) (status : ToolTerminalStatus)
    (detail : String) :
    Refused ledger (terminal callId dispatchFence status detail ledger) ∨
      ∃ call, ledger.calls[callId]? = some call ∧ call.dispatchFence = some dispatchFence ∧
        ((∃ result, call.result = some result ∧
            terminal callId dispatchFence status detail ledger = (.ok result, ledger)) ∨
          call.result = none ∧ call.state = .dispatched ∧
            terminal callId dispatchFence status detail ledger =
              (.ok { callId, status, detail },
                ledger.putCall callId (call.closed { callId, status, detail }))) := by
  unfold terminal
  split
  · exact .inl ⟨_, rfl⟩
  · rename_i call hcall
    split
    · exact .inl ⟨_, rfl⟩
    · rename_i hfence
      have hfence' : call.dispatchFence = some dispatchFence := not_not.mp hfence
      split
      · rename_i result hresult
        split
        · exact .inr ⟨call, hcall, hfence', .inl ⟨result, hresult, rfl⟩⟩
        · exact .inl ⟨_, rfl⟩
      · rename_i hopen
        split
        · exact .inl ⟨_, rfl⟩
        · rename_i hdispatched
          exact .inr ⟨call, hcall, hfence', .inr ⟨hopen, not_not.mp hdispatched, rfl⟩⟩

/-- What recovery records for an open call. -/
def recovered (callId : String) (call : ToolCallRecord) : ToolResult :=
  if call.state = .dispatched then
    { callId, status := interruptedStatus call.effect, detail := interruptedDetail call.effect }
  else { callId, status := .cancelled, detail := "not_dispatched" }

@[simp] theorem recovered_callId (call : ToolCallRecord) :
    (recovered callId call).callId = callId := by
  unfold recovered
  split <;> rfl

/-- A recovery closes an open call, or repeats the result of a closed one. -/
theorem recoverCall_cases :
    Refused ledger (recoverCall callId ledger) ∨
      ∃ call, ledger.calls[callId]? = some call ∧
        ((∃ result, call.result = some result ∧ recoverCall callId ledger = (.ok result, ledger)) ∨
          (∀ status, call.state ≠ .terminal status) ∧
            recoverCall callId ledger =
              (.ok (recovered callId call),
                ledger.putCall callId (call.closed (recovered callId call)))) := by
  unfold recoverCall
  split
  · exact .inl ⟨_, rfl⟩
  · rename_i call hcall
    split
    · rename_i hstate
      exact .inr ⟨call, hcall, .inr ⟨by simp [hstate], by simp [recovered, hstate]⟩⟩
    · rename_i hstate
      exact .inr ⟨call, hcall, .inr ⟨by simp [hstate], by simp [recovered, hstate]⟩⟩
    · rename_i hstate
      split
      · exact .inl ⟨_, rfl⟩
      · rename_i fence hfence
        rcases terminal_cases ledger callId fence (interruptedStatus call.effect)
          (interruptedDetail call.effect) with hrefused | ⟨call', hcall', -, hout⟩
        · exact .inl hrefused
        · obtain rfl : call = call' := Option.some.inj (hcall.symm.trans hcall')
          refine .inr ⟨call, hcall, ?_⟩
          rcases hout with ⟨result, hresult, hsame⟩ | ⟨-, -, hclosed⟩
          · exact .inl ⟨result, hresult, hsame⟩
          · exact .inr ⟨by simp [hstate], by rw [hclosed]; simp [recovered, hstate]⟩
    · split
      · rename_i result hresult
        exact .inr ⟨call, hcall, .inl ⟨result, hresult, rfl⟩⟩
      · exact .inl ⟨_, rfl⟩

end

end AiPlatform.Runtime.ToolLifecycle
