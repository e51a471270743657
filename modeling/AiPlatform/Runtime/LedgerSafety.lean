/-
  AiPlatform.Runtime.LedgerSafety

  Histories of a tool ledger: any operations, in any order, with any arguments.

  `ledgerStep` says once what an operation can do; the guarantees of
  `LedgerSafety` follow from it along the run.
-/

import AiPlatform.Lib.Machine
import AiPlatform.Runtime.ToolLifecycle

namespace AiPlatform.Runtime.ToolLifecycle

open Transition ToolLifecycleLedger

/-! ## The machine -/

inductive LedgerCall where
  | publish (callId : String) (effect : ToolEffect) (argumentsHash : String)
      (approval : Option ApprovalBinding)
  | approve (approvalId : String) (scope : ApprovalScope) (nowMs : Nat)
  | dispatch (callId dispatchFence : String)
  | terminal (callId dispatchFence : String) (status : ToolTerminalStatus) (detail : String)
  | recoverCall (callId : String)
  deriving DecidableEq, Repr

inductive LedgerReply where
  | disposition (disposition : PublishDisposition)
  | done
  | result (result : ToolResult)
  | refused (error : LifecycleError)
  deriving DecidableEq, Repr

def LedgerReply.ofExcept {α : Type} (ok : α → LedgerReply) : Except LifecycleError α → LedgerReply
  | .ok a => ok a
  | .error e => .refused e

def LedgerReply.isRefused : LedgerReply → Bool
  | .refused _ => true
  | .disposition _ | .done | .result _ => false

/-- The reply to a call, and the ledger after it. -/
def answer {α : Type} (ok : α → LedgerReply)
    (out : Except LifecycleError α × ToolLifecycleLedger) : LedgerReply × ToolLifecycleLedger :=
  (.ofExcept ok out.1, out.2)

def perform (ledger : ToolLifecycleLedger) : LedgerCall → LedgerReply × ToolLifecycleLedger
  | .publish callId effect argumentsHash approval =>
      answer .disposition (publish callId effect argumentsHash approval ledger)
  | .approve approvalId scope nowMs => answer (fun _ => .done) (approve approvalId scope nowMs ledger)
  | .dispatch callId dispatchFence => answer (fun _ => .done) (dispatch callId dispatchFence ledger)
  | .terminal callId dispatchFence status detail =>
      answer .result (terminal callId dispatchFence status detail ledger)
  | .recoverCall callId => answer .result (recoverCall callId ledger)

/-- Every operation may be called in every state. -/
def ledgerMachine : Machine ToolLifecycleLedger LedgerCall LedgerReply where
  step ledger call := some (perform ledger call)

abbrev LedgerMove := Move ToolLifecycleLedger LedgerCall LedgerReply

theorem ledgerMachine_makes {x : LedgerMove} :
    ledgerMachine.Makes x ↔ perform x.pre x.input = (x.reply, x.post) := by
  simp [Machine.Makes, ledgerMachine]

@[simp] theorem answer_refused {α : Type} {ok : α → LedgerReply} {error : LifecycleError}
    {ledger : ToolLifecycleLedger} :
    answer ok (.error error, ledger) = (.refused error, ledger) := rfl

@[simp] theorem answer_ok {α : Type} {ok : α → LedgerReply} {a : α}
    {ledger : ToolLifecycleLedger} : answer ok (.ok a, ledger) = (ok a, ledger) := rfl

/-! ## What a move can do -/

/-- A move that changes the record of a call: what it was, and what it becomes. -/
inductive CallChange (x : LedgerMove) (callId : String) :
    Option ToolCallRecord → ToolCallRecord → Prop
  | publishedRead (argumentsHash : String) (approval : Option ApprovalBinding)
      (hinput : x.input = .publish callId .readOnly argumentsHash approval)
      (hpost : x.post = x.pre.putCall callId (newCall .readOnly argumentsHash .published)) :
      CallChange x callId none (newCall .readOnly argumentsHash .published)
  | publishedHeld (effect : ToolEffect) (argumentsHash : String) (binding : ApprovalBinding)
      (hinput : x.input = .publish callId effect argumentsHash (some binding))
      (heffect : effect ≠ .readOnly) (hhash : binding.argumentsHash = argumentsHash)
      (hunused : x.pre.approvals[binding.approvalId]? = none)
      (hpost : x.post = (x.pre.putApproval callId binding).putCall callId
        (newCall effect argumentsHash .awaitingApproval)) :
      CallChange x callId none (newCall effect argumentsHash .awaitingApproval)
  | approved (approvalId : String) (scope : ApprovalScope) (nowMs : Nat) (binding : ApprovalBinding)
      (call : ToolCallRecord)
      (hinput : x.input = .approve approvalId scope nowMs) (hreply : x.reply = .done)
      (hfresh : approvalId ∉ x.pre.consumedApprovals)
      (happroval : x.pre.approvals[approvalId]? = some callId)
      (hbinding : x.pre.approvalBindings[approvalId]? = some binding)
      (hlive : nowMs < binding.expiresAtMs) (hscope : binding.scope = scope)
      (hstate : call.state = .awaitingApproval)
      (hpost : x.post = (x.pre.putCall callId { call with state := .published }).consumeApproval
        approvalId) :
      CallChange x callId (some call) { call with state := .published }
  | dispatched (fence : String) (call : ToolCallRecord)
      (hinput : x.input = .dispatch callId fence) (hstate : call.state = .published)
      (hpost : x.post = x.pre.putCall callId
        { call with state := .dispatched, dispatchFence := some fence }) :
      CallChange x callId (some call)
        { call with state := .dispatched, dispatchFence := some fence }
  | closed (call : ToolCallRecord) (result : ToolResult)
      (hid : result.callId = callId) (hreply : x.reply = .result result)
      (hopen : ∀ status, call.state ≠ .terminal status)
      (hpost : x.post = x.pre.putCall callId (call.closed result)) :
      CallChange x callId (some call) (call.closed result)

section

variable {x : LedgerMove} {callId : String}

theorem CallChange.calls {before : Option ToolCallRecord} {record : ToolCallRecord}
    (h : CallChange x callId before record) :
    x.post.calls = (x.pre.putCall callId record).calls := by
  cases h with
  | publishedRead _ _ _ hpost => rw [hpost]
  | publishedHeld _ _ _ _ _ _ _ hpost => rw [hpost]; rfl
  | approved _ _ _ _ _ _ _ _ _ _ _ _ _ hpost => rw [hpost]; rfl
  | dispatched _ _ _ _ hpost => rw [hpost]
  | closed _ _ _ _ _ hpost => rw [hpost]

theorem CallChange.exists_change {before : Option ToolCallRecord} {record : ToolCallRecord}
    (hbefore : x.pre.calls[callId]? = before) (h : CallChange x callId before record) :
    ∃ callId record, CallChange x callId x.pre.calls[callId]? record :=
  ⟨callId, record, hbefore ▸ h⟩

/-- A move leaves the ledger alone, or it was not refused and changes one call. -/
theorem ledgerStep (hx : ledgerMachine.Makes x) :
    x.post = x.pre ∨ x.reply.isRefused = false ∧
      ∃ callId record, CallChange x callId x.pre.calls[callId]? record := by
  obtain ⟨pre, input, reply, post⟩ := x
  rw [ledgerMachine_makes] at hx
  dsimp only at hx ⊢
  cases input with
  | publish callId effect argumentsHash approval =>
    simp only [perform] at hx
    rcases publish_cases pre callId effect argumentsHash approval with
      ⟨error, hout⟩ | ⟨call, -, hout⟩ | ⟨rfl, hnew, hout⟩ |
        ⟨binding, heffect, rfl, hhash, hnew, hunused, -, hout⟩
    all_goals obtain ⟨rfl, rfl⟩ := Prod.mk.inj (hout ▸ hx)
    · exact .inl rfl
    · exact .inl rfl
    · exact .inr ⟨rfl, CallChange.exists_change hnew
        (.publishedRead argumentsHash approval rfl rfl)⟩
    · exact .inr ⟨rfl, CallChange.exists_change hnew
        (.publishedHeld effect argumentsHash binding rfl heffect hhash hunused rfl)⟩
  | approve approvalId scope nowMs =>
    simp only [perform] at hx
    rcases approve_cases pre approvalId scope nowMs with
      ⟨error, hout⟩ | ⟨callId, binding, call, hfresh, happroval, hbinding, hlive, hscope, hcall,
        hstate, hout⟩
    all_goals obtain ⟨rfl, rfl⟩ := Prod.mk.inj (hout ▸ hx)
    · exact .inl rfl
    · exact .inr ⟨rfl, CallChange.exists_change hcall
        (.approved approvalId scope nowMs binding call rfl rfl hfresh happroval hbinding hlive hscope
          hstate rfl)⟩
  | dispatch callId fence =>
    simp only [perform] at hx
    rcases dispatch_cases pre callId fence with
      ⟨error, hout⟩ | ⟨call, hcall, ⟨-, -, hout⟩ | ⟨hstate, hout⟩⟩
    all_goals obtain ⟨rfl, rfl⟩ := Prod.mk.inj (hout ▸ hx)
    · exact .inl rfl
    · exact .inl rfl
    · exact .inr ⟨rfl, CallChange.exists_change hcall
        (.dispatched fence call rfl hstate rfl)⟩
  | terminal callId fence status detail =>
    simp only [perform] at hx
    rcases terminal_cases pre callId fence status detail with
      ⟨error, hout⟩ | ⟨call, hcall, -, ⟨result, -, hout⟩ | ⟨-, hstate, hout⟩⟩
    all_goals obtain ⟨rfl, rfl⟩ := Prod.mk.inj (hout ▸ hx)
    · exact .inl rfl
    · exact .inl rfl
    · exact .inr ⟨rfl, CallChange.exists_change hcall
        (.closed call _ rfl rfl (by simp [hstate]) rfl)⟩
  | recoverCall callId =>
    simp only [perform] at hx
    rcases recoverCall_cases pre callId with
      ⟨error, hout⟩ | ⟨call, hcall, ⟨result, -, hout⟩ | ⟨hopen, hout⟩⟩
    all_goals obtain ⟨rfl, rfl⟩ := Prod.mk.inj (hout ▸ hx)
    · exact .inl rfl
    · exact .inl rfl
    · exact .inr ⟨rfl, CallChange.exists_change hcall
        (.closed call _ (recovered_callId ..) rfl hopen rfl)⟩

/-- What a move can do to the record of one call. -/
theorem callStep (hx : ledgerMachine.Makes x) (callId : String) :
    x.post.calls[callId]? = x.pre.calls[callId]? ∨
      ∃ record, x.post.calls[callId]? = some record ∧
        CallChange x callId x.pre.calls[callId]? record := by
  rcases ledgerStep hx with hsame | ⟨-, other, record, hchange⟩
  · exact .inl (by rw [hsame])
  · rw [hchange.calls, calls_putCall]
    by_cases hid : other = callId
    · subst hid
      rw [if_pos rfl]
      exact .inr ⟨record, rfl, hchange⟩
    · rw [if_neg hid]
      exact .inl rfl

/-- A refused operation leaves the ledger as it was. -/
theorem post_eq_pre_of_refused (hx : ledgerMachine.Makes x) (h : x.reply.isRefused = true) :
    x.post = x.pre := by
  rcases ledgerStep hx with hsame | ⟨haccepted, -⟩
  · exact hsame
  · exact absurd (haccepted.symm.trans h) Bool.false_ne_true

end

/-! ## The guarantees -/

def ToolLifecycleLedger.state (ledger : ToolLifecycleLedger) (callId : String) :
    Option ToolCallState :=
  ledger.calls[callId]?.map ToolCallRecord.state

namespace LedgerMove

/-- The move consumes the approval. -/
def approves (approvalId : String) (x : LedgerMove) : Bool :=
  match x.input, x.reply with
  | .approve id _ _, .done => id == approvalId
  | _, _ => false

/-- The move takes the call to the dispatched state. -/
def dispatches (callId : String) (x : LedgerMove) : Bool :=
  x.pre.state callId != some .dispatched && x.post.state callId == some .dispatched

/-- The move gives the call its terminal result. -/
def finishes (callId : String) (x : LedgerMove) : Bool :=
  (x.pre.result callId).isNone && (x.post.result callId).isSome

end LedgerMove

/-- Among the moves the call was published with this binding, and its approval was
    consumed for the call, in the bound scope and before it expired. -/
structure ApprovedWith (moves : List LedgerMove) (callId : String) (call : ToolCallRecord)
    (binding : ApprovalBinding) : Prop where
  published : ∃ z ∈ moves,
    z.input = .publish callId call.effect call.argumentsHash (some binding) ∧
      z.reply.isRefused = false
  argumentsHash : binding.argumentsHash = call.argumentsHash
  approved : ∃ y ∈ moves, ∃ scope nowMs,
    y.input = .approve binding.approvalId scope nowMs ∧ y.reply = .done ∧
      y.pre.approvals[binding.approvalId]? = some callId ∧
      binding.scope = scope ∧ nowMs < binding.expiresAtMs

structure LedgerSafety (moves : List LedgerMove) (ledger : ToolLifecycleLedger) : Prop where
  approvedFirst : ∀ before x after, moves = before ++ x :: after →
    ∀ (callId : String) (call : ToolCallRecord), x.dispatches callId = true → x.pre.calls[callId]? = some call →
      call.effect ≠ .readOnly → ∃ binding, ApprovedWith before callId call binding
  consumedOnce : ∀ approvalId, moves.countP (LedgerMove.approves approvalId) ≤ 1
  oneCall : ∀ callId call binding callId' call' binding',
    ApprovedWith moves callId call binding → ApprovedWith moves callId' call' binding' →
      binding.approvalId = binding'.approvalId → callId = callId'
  dispatchedOnce : ∀ callId, moves.countP (LedgerMove.dispatches callId) ≤ 1
  oneFence : ∀ x ∈ moves, ∀ y ∈ moves, ∀ callId fence fence',
    x.input = .dispatch callId fence → x.reply = .done →
      y.input = .dispatch callId fence' → y.reply = .done → fence = fence'
  finishedOnce : ∀ callId, moves.countP (LedgerMove.finishes callId) ≤ 1
  resultKept : ∀ x ∈ moves, ∀ (callId : String) (call : ToolCallRecord), x.post.calls[callId]? = some call →
    call.result.isSome = true → ledger.calls[callId]? = some call
  oneResult : ∀ x ∈ moves, ∀ y ∈ moves, ∀ result result', x.reply = .result result →
    y.reply = .result result' → result.callId = result'.callId → result = result'
  refusedUnchanged : ∀ x ∈ moves, x.reply.isRefused = true → x.post = x.pre

/-! ## The record of a call along a run -/

/-- State, fence and result of a record fit together. -/
structure CallCoherent (callId : String) (call : ToolCallRecord) : Prop where
  closed : ∀ result, call.result = some result →
    result.callId = callId ∧ call.state = .terminal result.status
  opened : call.result = none → ∀ status, call.state ≠ .terminal status
  unfenced : call.state = .published ∨ call.state = .awaitingApproval → call.dispatchFence = none
  fenced : call.state = .dispatched → call.dispatchFence.isSome = true

def Coherent (ledger : ToolLifecycleLedger) : Prop :=
  ∀ (callId : String) (call : ToolCallRecord), ledger.calls[callId]? = some call → CallCoherent callId call

theorem coherent_new : Coherent .new := by
  intro callId call hcall
  simp [new] at hcall

/-- What a record becomes later: the same call, under the same fence once it has
    one, and unchanged once it has a result. -/
structure ToolCallRecord.Continues (call later : ToolCallRecord) : Prop where
  effect : later.effect = call.effect
  argumentsHash : later.argumentsHash = call.argumentsHash
  fence : ∀ fence, call.dispatchFence = some fence → later.dispatchFence = some fence
  kept : call.result.isSome = true → later = call

theorem ToolCallRecord.Continues.refl (call : ToolCallRecord) : call.Continues call :=
  ⟨rfl, rfl, fun _ h => h, fun _ => rfl⟩

theorem ToolCallRecord.Continues.trans {a b c : ToolCallRecord} (hab : a.Continues b)
    (hbc : b.Continues c) : a.Continues c where
  effect := hbc.effect.trans hab.effect
  argumentsHash := hbc.argumentsHash.trans hab.argumentsHash
  fence := fun fence h => hbc.fence fence (hab.fence fence h)
  kept := by
    intro h
    obtain rfl := hab.kept h
    exact hbc.kept h

/-- The calls of a ledger are continued by a later one, and its approvals kept. -/
structure Continued (ledger later : ToolLifecycleLedger) : Prop where
  calls : ∀ (callId : String) (call : ToolCallRecord), ledger.calls[callId]? = some call →
    ∃ call', later.calls[callId]? = some call' ∧ call.Continues call'
  approvals : ∀ approvalId callId : String, ledger.approvals[approvalId]? = some callId →
    later.approvals[approvalId]? = some callId

theorem Continued.refl (ledger : ToolLifecycleLedger) : Continued ledger ledger :=
  ⟨fun _ call h => ⟨call, h, .refl call⟩, fun _ _ h => h⟩

theorem Continued.trans {a b c : ToolLifecycleLedger} (hab : Continued a b)
    (hbc : Continued b c) : Continued a c where
  calls := by
    intro callId call hcall
    obtain ⟨call', hcall', hcont⟩ := hab.calls callId call hcall
    obtain ⟨call'', hcall'', hcont'⟩ := hbc.calls callId call' hcall'
    exact ⟨call'', hcall'', hcont.trans hcont'⟩
  approvals := fun approvalId callId h => hbc.approvals _ _ (hab.approvals approvalId callId h)

section

variable {x : LedgerMove} {callId : String} {before : Option ToolCallRecord}
  {record : ToolCallRecord}

theorem CallChange.coherent (h : CallChange x callId before record)
    (hbefore : ∀ call, before = some call → CallCoherent callId call) :
    CallCoherent callId record := by
  cases h with
  | publishedRead =>
    exact ⟨fun _ h => (nomatch h), fun _ _ h => (nomatch h), fun _ => rfl, fun h => (nomatch h)⟩
  | publishedHeld =>
    exact ⟨fun _ h => (nomatch h), fun _ _ h => (nomatch h), fun _ => rfl, fun h => (nomatch h)⟩
  | approved _ _ _ _ call _ _ _ _ _ _ _ hstate =>
    have hcall := hbefore call rfl
    refine ⟨?_, fun _ _ h => (nomatch h), fun _ => hcall.unfenced (.inr hstate),
      fun h => (nomatch h)⟩
    intro result hresult
    have hterminal := (hcall.closed result hresult).2
    rw [hstate] at hterminal
    cases hterminal
  | dispatched fence call _ hstate =>
    have hcall := hbefore call rfl
    refine ⟨?_, fun _ _ h => (nomatch h), fun h => (h.elim nofun nofun), fun _ => rfl⟩
    intro result hresult
    have hterminal := (hcall.closed result hresult).2
    rw [hstate] at hterminal
    cases hterminal
  | closed call result hid =>
    refine ⟨?_, fun h => (nomatch h), fun h => (h.elim nofun nofun), fun h => (nomatch h)⟩
    intro result' hresult
    obtain rfl := Option.some.inj hresult
    exact ⟨hid, rfl⟩

theorem CallChange.continues {call : ToolCallRecord} (h : CallChange x callId (some call) record)
    (hcall : CallCoherent callId call) : call.Continues record := by
  have hopen : (∀ status, call.state ≠ .terminal status) → call.result.isSome = false := by
    intro hstate
    cases hresult : call.result with
    | none => rfl
    | some result => exact absurd (hcall.closed result hresult).2 (hstate _)
  generalize hbefore : some call = before at h
  cases h with
  | publishedRead => cases hbefore
  | publishedHeld => cases hbefore
  | approved _ _ _ _ call' _ _ _ _ _ _ _ hstate =>
    obtain rfl := Option.some.inj hbefore
    refine ⟨rfl, rfl, fun _ h => h, fun h => ?_⟩
    rw [hopen (by simp [hstate])] at h
    cases h
  | dispatched fence call' _ hstate =>
    obtain rfl := Option.some.inj hbefore
    refine ⟨rfl, rfl, fun _ h => ?_, fun h => ?_⟩
    · rw [hcall.unfenced (.inl hstate)] at h
      cases h
    · rw [hopen (by simp [hstate])] at h
      cases h
  | closed call' result _ _ hstate =>
    obtain rfl := Option.some.inj hbefore
    refine ⟨rfl, rfl, fun _ h => h, fun h => ?_⟩
    rw [hopen hstate] at h
    cases h

theorem coherent_step (hx : ledgerMachine.Makes x) (h : Coherent x.pre) : Coherent x.post := by
  intro callId call hcall
  rcases callStep hx callId with hsame | ⟨record, hrecord, hchange⟩
  · exact h callId call (hsame ▸ hcall)
  · obtain rfl := Option.some.inj (hcall.symm.trans hrecord)
    exact hchange.coherent (h callId)

theorem approvals_step (hx : ledgerMachine.Makes x) {approvalId callId : String}
    (h : x.pre.approvals[approvalId]? = some callId) :
    x.post.approvals[approvalId]? = some callId := by
  rcases ledgerStep hx with hsame | ⟨-, other, record, hchange⟩
  · rwa [hsame]
  · generalize x.pre.calls[other]? = before at hchange
    cases hchange with
    | publishedRead _ _ _ hpost => rwa [hpost]
    | publishedHeld _ _ binding _ _ _ hunused hpost =>
      rw [hpost, approvals_putCall, approvals_putApproval, if_neg]
      · exact h
      · rintro rfl
        rw [hunused] at h
        cases h
    | approved _ _ _ _ _ _ _ _ _ _ _ _ _ hpost => rwa [hpost]
    | dispatched _ _ _ _ hpost => rwa [hpost]
    | closed _ _ _ _ _ hpost => rwa [hpost]

theorem continued_step (hx : ledgerMachine.Makes x) (h : Coherent x.pre) :
    Continued x.pre x.post where
  calls := by
    intro callId call hcall
    rcases callStep hx callId with hsame | ⟨record, hrecord, hchange⟩
    · exact ⟨call, hsame.trans hcall, .refl call⟩
    · rw [hcall] at hchange
      exact ⟨record, hrecord, hchange.continues (h callId call hcall)⟩
  approvals := fun _ _ h => approvals_step hx h

end

section

variable {ledger later : ToolLifecycleLedger} {moves : List LedgerMove}

theorem coherent_run (h : Run ledgerMachine ledger moves later) (hs : Coherent ledger) :
    Coherent later :=
  h.invariant (fun _ hx => coherent_step hx) hs

theorem continued_run (h : Run ledgerMachine ledger moves later) (hs : Coherent ledger) :
    Continued ledger later :=
  h.rel Continued.refl Continued.trans (fun _ hx => coherent_step hx)
    (fun _ hx => continued_step hx) hs

/-- What holds after a move is continued at the end of the run. -/
theorem continued_of_mem (h : Run ledgerMachine ledger moves later) (hs : Coherent ledger)
    {x : LedgerMove} (hx : x ∈ moves) :
    Coherent x.pre ∧ Coherent x.post ∧ Continued x.pre later ∧ Continued x.post later := by
  obtain ⟨before, after, rfl⟩ := List.append_of_mem hx
  obtain ⟨hbefore, hmakes, hafter⟩ := h.of_split
  have hpre : Coherent x.pre := coherent_run hbefore hs
  have hpost : Coherent x.post := coherent_step hmakes hpre
  have hlater : Continued x.post later := continued_run hafter hpost
  exact ⟨hpre, hpost, (continued_step hmakes hpre).trans hlater, hlater⟩

end

/-! ## Approvals -/

section

variable {x : LedgerMove} {callId approvalId : String}

/-- A successful approval uses up an approval that was not used before. -/
theorem approves_consumes (hx : ledgerMachine.Makes x) (h : x.approves approvalId = true) :
    approvalId ∉ x.pre.consumedApprovals ∧ approvalId ∈ x.post.consumedApprovals := by
  obtain ⟨pre, input, reply, post⟩ := x
  rw [ledgerMachine_makes] at hx
  simp only [LedgerMove.approves] at h
  split at h
  · rename_i id scope nowMs
    obtain rfl := beq_iff_eq.mp h
    simp only [perform] at hx
    rcases approve_cases pre id scope nowMs with
      ⟨error, hout⟩ | ⟨callId, binding, call, hfresh, -, -, -, -, -, -, hout⟩
    · cases (Prod.mk.inj (hout ▸ hx)).1
    · obtain ⟨-, rfl⟩ := Prod.mk.inj (hout ▸ hx)
      exact ⟨hfresh, (mem_consumeApproval _).mpr (.inl rfl)⟩
  · exact absurd h Bool.false_ne_true

theorem consumedApprovals_step (hx : ledgerMachine.Makes x)
    (h : approvalId ∈ x.pre.consumedApprovals) : approvalId ∈ x.post.consumedApprovals := by
  rcases ledgerStep hx with hsame | ⟨-, other, record, hchange⟩
  · rwa [hsame]
  · generalize x.pre.calls[other]? = before at hchange
    cases hchange with
    | publishedRead _ _ _ hpost => rwa [hpost]
    | publishedHeld _ _ _ _ _ _ _ hpost => rwa [hpost]
    | approved _ _ _ _ _ _ _ _ _ _ _ _ _ hpost =>
      rw [hpost]
      exact (mem_consumeApproval _).mpr (.inr h)
    | dispatched _ _ _ _ hpost => rwa [hpost]
    | closed _ _ _ _ _ hpost => rwa [hpost]

/-- The move registers the binding with a new call. -/
def Registers (callId : String) (binding : ApprovalBinding) (x : LedgerMove) : Prop :=
  ∃ effect, x.input = .publish callId effect binding.argumentsHash (some binding) ∧
    x.reply.isRefused = false ∧
      x.post.calls[callId]? = some (newCall effect binding.argumentsHash .awaitingApproval)

/-- A binding in the ledger is the one its call was published with. -/
theorem binding_origin {binding : ApprovalBinding} (hx : ledgerMachine.Makes x)
    (h : x.post.approvals[approvalId]? = some callId ∧
      x.post.approvalBindings[approvalId]? = some binding) :
    (x.pre.approvals[approvalId]? = some callId ∧
        x.pre.approvalBindings[approvalId]? = some binding) ∨
      Registers callId binding x ∧ binding.approvalId = approvalId := by
  obtain ⟨hcall, hbinding⟩ := h
  rcases ledgerStep hx with hsame | ⟨haccepted, other, record, hchange⟩
  · rw [hsame] at hcall hbinding
    exact .inl ⟨hcall, hbinding⟩
  · have hrecord := hchange.calls
    generalize x.pre.calls[other]? = before at hchange
    cases hchange with
    | publishedRead _ _ _ hpost =>
      rw [hpost] at hcall hbinding
      exact .inl ⟨hcall, hbinding⟩
    | publishedHeld effect argumentsHash binding' hinput heffect hhash hunused hpost =>
      rw [hpost, approvals_putCall, approvals_putApproval] at hcall
      rw [hpost, approvalBindings_putCall, approvalBindings_putApproval] at hbinding
      by_cases hid : binding'.approvalId = approvalId
      · rw [if_pos hid] at hcall hbinding
        obtain rfl := Option.some.inj hcall
        obtain rfl := Option.some.inj hbinding
        refine .inr ⟨⟨effect, hhash ▸ hinput, haccepted, ?_⟩, hid⟩
        rw [hrecord, calls_putCall, if_pos rfl, hhash]
      · rw [if_neg hid] at hcall hbinding
        exact .inl ⟨hcall, hbinding⟩
    | approved _ _ _ _ _ _ _ _ _ _ _ _ _ hpost =>
      rw [hpost] at hcall hbinding
      exact .inl ⟨hcall, approvalBindings_consumeApproval hbinding⟩
    | dispatched _ _ _ _ hpost =>
      rw [hpost] at hcall hbinding
      exact .inl ⟨hcall, hbinding⟩
    | closed _ _ _ _ _ hpost =>
      rw [hpost] at hcall hbinding
      exact .inl ⟨hcall, hbinding⟩

/-- The move takes a held call to the published state. -/
structure Approves (callId : String) (x : LedgerMove) (approvalId : String)
    (binding : ApprovalBinding) : Prop where
  input : ∃ scope nowMs, x.input = .approve approvalId scope nowMs ∧ x.reply = .done ∧
    binding.scope = scope ∧ nowMs < binding.expiresAtMs
  approval : x.pre.approvals[approvalId]? = some callId
  binding : x.pre.approvalBindings[approvalId]? = some binding

/-- A call that needs an approval and is ready to go. -/
def Cleared (callId : String) (ledger : ToolLifecycleLedger) : Prop :=
  ∃ call, ledger.calls[callId]? = some call ∧ call.effect ≠ .readOnly ∧ call.state = .published

theorem cleared_origin (hx : ledgerMachine.Makes x) (h : Cleared callId x.post) :
    Cleared callId x.pre ∨ ∃ approvalId binding, Approves callId x approvalId binding := by
  obtain ⟨call, hcall, heffect, hstate⟩ := h
  rcases callStep hx callId with hsame | ⟨record, hrecord, hchange⟩
  · exact .inl ⟨call, hsame ▸ hcall, heffect, hstate⟩
  · obtain rfl := Option.some.inj (hcall.symm.trans hrecord)
    generalize x.pre.calls[callId]? = before at hchange
    cases hchange with
    | publishedRead => exact absurd rfl heffect
    | publishedHeld => cases hstate
    | approved approvalId scope nowMs binding call hinput hreply _ happroval hbinding hlive hscope =>
      exact .inr ⟨approvalId, binding, ⟨scope, nowMs, hinput, hreply, hscope, hlive⟩, happroval,
        hbinding⟩
    | dispatched => cases hstate
    | closed => cases hstate

end

section

variable {ledger : ToolLifecycleLedger} {moves : List LedgerMove} {callId : String}

/-- A cleared call was published and approved. -/
theorem approvedWith_of_cleared (h : Run ledgerMachine .new moves ledger) {call : ToolCallRecord}
    (hcall : ledger.calls[callId]? = some call) (heffect : call.effect ≠ .readOnly)
    (hstate : call.state = .published) : ∃ binding, ApprovedWith moves callId call binding := by
  rcases h.origin (Q := Cleared callId) (fun _ hx => cleared_origin hx)
    ⟨call, hcall, heffect, hstate⟩ with ⟨call', hnew, -, -⟩ | ⟨y, hy, approvalId, binding, happroves⟩
  · simp [new] at hnew
  · obtain ⟨before, after, rfl⟩ := List.append_of_mem hy
    obtain ⟨hbefore, hmakes, hafter⟩ := h.of_split
    -- the binding in force at the approval is the published one
    rcases hbefore.origin
      (Q := fun s => s.approvals[approvalId]? = some callId ∧
        s.approvalBindings[approvalId]? = some binding)
      (C := fun z => Registers callId binding z ∧ binding.approvalId = approvalId)
      (fun _ hz => binding_origin hz) ⟨happroves.approval, happroves.binding⟩ with
      ⟨hnew, -⟩ | ⟨z, hz, ⟨effect, hinput, haccepted, hrecorded⟩, hid⟩
    · simp [new] at hnew
    · have hmem : z ∈ before ++ y :: after := List.mem_append_left _ hz
      obtain ⟨-, -, -, hlater⟩ := continued_of_mem h coherent_new hmem
      obtain ⟨call', hcall', hcont⟩ := hlater.calls callId _ hrecorded
      obtain rfl := Option.some.inj (hcall.symm.trans hcall')
      have heff : call.effect = effect := hcont.effect
      have hhash : call.argumentsHash = binding.argumentsHash := hcont.argumentsHash
      obtain ⟨scope, nowMs, hin, hreply, hscope, hlive⟩ := happroves.input
      subst hid
      refine ⟨binding, ⟨z, hmem, ?_, haccepted⟩, hhash.symm,
        ⟨y, hy, scope, nowMs, hin, hreply, happroves.approval, hscope, hlive⟩⟩
      rw [heff, hhash]
      exact hinput

/-! ## Dispatches and results -/

variable {x : LedgerMove}

/-- A call is not dispatched yet. -/
def Undispatched (callId : String) (ledger : ToolLifecycleLedger) : Bool :=
  match ledger.state callId with
  | none | some .published | some .awaitingApproval => true
  | some .dispatched | some (.terminal _) => false

theorem state_eq {record : Option ToolCallRecord} (h : ledger.calls[callId]? = record) :
    ledger.state callId = record.map ToolCallRecord.state := by
  rw [ToolLifecycleLedger.state, h]

/-- A dispatch is a change from published. -/
theorem dispatches_cases (hx : ledgerMachine.Makes x) (h : x.dispatches callId = true) :
    ∃ call, x.pre.calls[callId]? = some call ∧ call.state = .published ∧
      x.post.state callId = some .dispatched := by
  simp only [LedgerMove.dispatches, Bool.and_eq_true, bne_iff_ne, beq_iff_eq] at h
  obtain ⟨hpre, hpost⟩ := h
  rcases callStep hx callId with hsame | ⟨record, hrecord, hchange⟩
  · exact absurd ((state_eq hsame).symm.trans hpost) hpre
  · rw [state_eq hrecord] at hpost
    have hstate : record.state = .dispatched := Option.some.inj hpost
    cases hcall : x.pre.calls[callId]? with
    | none =>
      rw [hcall] at hchange
      cases hchange <;> cases hstate
    | some call =>
      rw [hcall] at hchange
      refine ⟨call, rfl, ?_, by rw [state_eq hrecord, Option.map_some, hstate]⟩
      cases hchange with
      | approved => cases hstate
      | dispatched _ _ _ hpublished => exact hpublished
      | closed => cases hstate

theorem undispatched_back (hx : ledgerMachine.Makes x)
    (h : Undispatched callId x.post = true) : Undispatched callId x.pre = true := by
  rcases callStep hx callId with hsame | ⟨record, hrecord, hchange⟩
  · rwa [Undispatched, state_eq hsame] at h
  · rw [Undispatched, state_eq hrecord] at h
    generalize hcall : x.pre.calls[callId]? = before at hchange
    rw [Undispatched, state_eq hcall]
    cases hchange with
    | publishedRead => rfl
    | publishedHeld => rfl
    | approved _ _ _ _ call _ _ _ _ _ _ _ hstate => simp [hstate]
    | dispatched => cases h
    | closed => cases h

theorem dispatchedOnce (h : Run ledgerMachine .new moves ledger) :
    moves.countP (LedgerMove.dispatches callId) ≤ 1 := by
  refine h.countP_le_one (F := Undispatched callId) ?_ (fun _ hx => undispatched_back hx)
  intro x hx hdisp
  obtain ⟨call, hcall, hstate, hpost⟩ := dispatches_cases hx hdisp
  constructor
  · rw [Undispatched, state_eq hcall, Option.map_some, hstate]
  · rw [Undispatched, hpost]

/-- An accepted dispatch leaves its fence on the call. -/
theorem dispatch_fence (hx : ledgerMachine.Makes x) {fence : String}
    (hinput : x.input = .dispatch callId fence) (hreply : x.reply = .done) :
    ∃ call, x.post.calls[callId]? = some call ∧ call.dispatchFence = some fence := by
  obtain ⟨pre, input, reply, post⟩ := x
  rw [ledgerMachine_makes] at hx
  dsimp only at hx hinput hreply ⊢
  subst hinput hreply
  simp only [perform] at hx
  rcases dispatch_cases pre callId fence with
    ⟨error, hout⟩ | ⟨call, hcall, ⟨-, hfence, hout⟩ | ⟨-, hout⟩⟩
  · cases (Prod.mk.inj (hout ▸ hx)).1
  · obtain ⟨-, rfl⟩ := Prod.mk.inj (hout ▸ hx)
    exact ⟨call, hcall, hfence⟩
  · obtain ⟨-, rfl⟩ := Prod.mk.inj (hout ▸ hx)
    exact ⟨_, by rw [calls_putCall, if_pos rfl], rfl⟩

theorem result_back (hx : ledgerMachine.Makes x)
    (h : (x.post.result callId).isNone = true) : (x.pre.result callId).isNone = true := by
  rcases callStep hx callId with hsame | ⟨record, hrecord, hchange⟩
  · rwa [ToolLifecycleLedger.result, hsame] at h
  · rw [ToolLifecycleLedger.result, hrecord] at h
    rw [ToolLifecycleLedger.result]
    generalize x.pre.calls[callId]? = before at hchange ⊢
    cases hchange with
    | publishedRead => rfl
    | publishedHeld => rfl
    | approved => exact h
    | dispatched => exact h
    | closed => cases h

theorem finishedOnce (h : Run ledgerMachine .new moves ledger) :
    moves.countP (LedgerMove.finishes callId) ≤ 1 := by
  refine h.countP_le_one (F := fun s => (s.result callId).isNone) ?_ (fun _ hx => result_back hx)
  intro x _ hfinish
  simp only [LedgerMove.finishes, Bool.and_eq_true] at hfinish
  refine ⟨hfinish.1, ?_⟩
  cases hresult : x.post.result callId with
  | none => simp [hresult] at hfinish
  | some result => rfl

/-- A result that is returned is the one the ledger holds for its call. -/
theorem result_of_reply (hx : ledgerMachine.Makes x) (hs : Coherent x.pre) {result : ToolResult}
    (hreply : x.reply = .result result) :
    ∃ call, x.post.calls[result.callId]? = some call ∧ call.result = some result := by
  obtain ⟨pre, input, reply, post⟩ := x
  rw [ledgerMachine_makes] at hx
  dsimp only at hx hs hreply ⊢
  subst hreply
  cases input with
  | publish callId effect argumentsHash approval =>
    cases hout : (publish callId effect argumentsHash approval pre).1 <;>
      simp [perform, answer, hout, LedgerReply.ofExcept] at hx
  | approve approvalId scope nowMs =>
    cases hout : (approve approvalId scope nowMs pre).1 <;>
      simp [perform, answer, hout, LedgerReply.ofExcept] at hx
  | dispatch callId fence =>
    cases hout : (dispatch callId fence pre).1 <;>
      simp [perform, answer, hout, LedgerReply.ofExcept] at hx
  | terminal callId fence status detail =>
    simp only [perform] at hx
    rcases terminal_cases pre callId fence status detail with
      ⟨error, hout⟩ | ⟨call, hcall, -, ⟨result', hresult, hout⟩ | ⟨-, -, hout⟩⟩
    · cases (Prod.mk.inj (hout ▸ hx)).1
    · obtain ⟨hsame, rfl⟩ := Prod.mk.inj (hout ▸ hx)
      obtain rfl := LedgerReply.result.inj hsame
      obtain rfl := ((hs callId call hcall).closed result' hresult).1
      exact ⟨call, hcall, hresult⟩
    · obtain ⟨hsame, rfl⟩ := Prod.mk.inj (hout ▸ hx)
      obtain rfl := LedgerReply.result.inj hsame
      exact ⟨_, by rw [calls_putCall, if_pos rfl], rfl⟩
  | recoverCall callId =>
    simp only [perform] at hx
    rcases recoverCall_cases pre callId with
      ⟨error, hout⟩ | ⟨call, hcall, ⟨result', hresult, hout⟩ | ⟨-, hout⟩⟩
    · cases (Prod.mk.inj (hout ▸ hx)).1
    · obtain ⟨hsame, rfl⟩ := Prod.mk.inj (hout ▸ hx)
      obtain rfl := LedgerReply.result.inj hsame
      obtain rfl := ((hs callId call hcall).closed result' hresult).1
      exact ⟨call, hcall, hresult⟩
    · obtain ⟨hsame, rfl⟩ := Prod.mk.inj (hout ▸ hx)
      obtain rfl := LedgerReply.result.inj hsame
      exact ⟨_, by rw [calls_putCall, recovered_callId, if_pos rfl], rfl⟩

/-! ## The law -/

theorem consumedOnce {approvalId : String} (h : Run ledgerMachine .new moves ledger) :
    moves.countP (LedgerMove.approves approvalId) ≤ 1 := by
  refine h.countP_le_one (F := fun s => decide (approvalId ∉ s.consumedApprovals)) ?_ ?_
  · intro x hx happroves
    obtain ⟨hpre, hpost⟩ := approves_consumes hx happroves
    exact ⟨decide_eq_true hpre, decide_eq_false (not_not.mpr hpost)⟩
  · intro x hx hpost
    refine decide_eq_true fun hpre => ?_
    exact of_decide_eq_true hpost (consumedApprovals_step hx hpre)

theorem approvedFirst (h : Run ledgerMachine .new moves ledger) {before after : List LedgerMove}
    (hsplit : moves = before ++ x :: after) {call : ToolCallRecord}
    (hdispatch : x.dispatches callId = true) (hcall : x.pre.calls[callId]? = some call)
    (heffect : call.effect ≠ .readOnly) : ∃ binding, ApprovedWith before callId call binding := by
  subst hsplit
  obtain ⟨hbefore, hmakes, -⟩ := h.of_split
  obtain ⟨call', hcall', hstate, -⟩ := dispatches_cases hmakes hdispatch
  obtain rfl := Option.some.inj (hcall.symm.trans hcall')
  exact approvedWith_of_cleared hbefore hcall heffect hstate

/-- An approval was consumed for the call the ledger keeps under its id. -/
theorem approvals_of_approvedWith (h : Run ledgerMachine .new moves ledger)
    {call : ToolCallRecord} {binding : ApprovalBinding}
    (happroved : ApprovedWith moves callId call binding) :
    ledger.approvals[binding.approvalId]? = some callId := by
  obtain ⟨y, hy, -, -, -, -, hcallId, -, -⟩ := happroved.approved
  obtain ⟨-, -, hlater, -⟩ := continued_of_mem h coherent_new hy
  exact hlater.approvals _ _ hcallId

/-- An accepted dispatch has set the fence the call keeps. -/
theorem fence_at_end (h : Run ledgerMachine .new moves ledger) (hx : x ∈ moves) {fence : String}
    (hinput : x.input = .dispatch callId fence) (hreply : x.reply = .done) :
    ∃ call, ledger.calls[callId]? = some call ∧ call.dispatchFence = some fence := by
  obtain ⟨-, -, hmakes⟩ := h.of_mem hx
  obtain ⟨call, hcall, hfence⟩ := dispatch_fence hmakes hinput hreply
  obtain ⟨-, -, -, hlater⟩ := continued_of_mem h coherent_new hx
  obtain ⟨call', hcall', hcont⟩ := hlater.calls callId call hcall
  exact ⟨call', hcall', hcont.fence fence hfence⟩

/-- A result that was returned is the one the ledger keeps. -/
theorem result_at_end (h : Run ledgerMachine .new moves ledger) (hx : x ∈ moves)
    {result : ToolResult} (hreply : x.reply = .result result) :
    ∃ call, ledger.calls[result.callId]? = some call ∧ call.result = some result := by
  obtain ⟨-, -, hmakes⟩ := h.of_mem hx
  obtain ⟨hpre, -, -, hlater⟩ := continued_of_mem h coherent_new hx
  obtain ⟨call, hcall, hresult⟩ := result_of_reply hmakes hpre hreply
  obtain ⟨call', hcall', hcont⟩ := hlater.calls result.callId call hcall
  obtain rfl := hcont.kept (by rw [hresult]; rfl)
  exact ⟨call', hcall', hresult⟩

theorem ledger_safety (h : Run ledgerMachine .new moves ledger) : LedgerSafety moves ledger where
  approvedFirst := fun _ _ _ hsplit _ _ hdispatch hcall heffect =>
    approvedFirst h hsplit hdispatch hcall heffect
  consumedOnce := fun _ => consumedOnce h
  oneCall := by
    intro callId call binding callId' call' binding' happroved happroved' hid
    have hcallId := approvals_of_approvedWith h happroved
    rw [hid, approvals_of_approvedWith h happroved'] at hcallId
    exact (Option.some.inj hcallId).symm
  dispatchedOnce := fun _ => dispatchedOnce h
  oneFence := by
    intro x hx y hy callId fence fence' hinput hreply hinput' hreply'
    obtain ⟨call, hcall, hfence⟩ := fence_at_end h hx hinput hreply
    obtain ⟨call', hcall', hfence'⟩ := fence_at_end h hy hinput' hreply'
    obtain rfl := Option.some.inj (hcall.symm.trans hcall')
    exact Option.some.inj (hfence.symm.trans hfence')
  finishedOnce := fun _ => finishedOnce h
  resultKept := by
    intro x hx callId call hcall hresult
    obtain ⟨-, -, -, hlater⟩ := continued_of_mem h coherent_new hx
    obtain ⟨call', hcall', hcont⟩ := hlater.calls callId call hcall
    rw [hcall', hcont.kept hresult]
  oneResult := by
    intro x hx y hy result result' hreply hreply' hid
    obtain ⟨call, hcall, hresult⟩ := result_at_end h hx hreply
    obtain ⟨call', hcall', hresult'⟩ := result_at_end h hy hreply'
    rw [hid] at hcall
    obtain rfl := Option.some.inj (hcall.symm.trans hcall')
    exact Option.some.inj (hresult.symm.trans hresult')
  refusedUnchanged := by
    intro x hx hrefused
    obtain ⟨-, -, hmakes⟩ := h.of_mem hx
    exact post_eq_pre_of_refused hmakes hrefused

end

/-- A write is published, approved, dispatched and finished; a second approval and a
    second dispatch are refused. -/
theorem ledger_safety_of_write :
    ∃ moves ledger, moves.map Move.input =
        [.publish "call" .write "hash" (some
            { approvalId := "approval", tenantId := "tenant", userId := "user"
              sessionId := "session", runId := "run", argumentsHash := "hash"
              expiresAtMs := 100 }),
          .approve "approval"
            { tenantId := "tenant", userId := "user", sessionId := "session", runId := "run"
              argumentsHash := "hash" } 99,
          .approve "approval"
            { tenantId := "tenant", userId := "user", sessionId := "session", runId := "run"
              argumentsHash := "hash" } 99,
          .dispatch "call" "fence", .dispatch "call" "other",
          .terminal "call" "fence" .succeeded "done"] ∧
      moves.map Move.reply =
        [.disposition (.awaitingApproval "approval"), .done, .refused .approvalReplay, .done,
          .refused .dispatchFence,
          .result { callId := "call", status := .succeeded, detail := "done" }] ∧
      LedgerSafety moves ledger := by
  obtain ⟨moves, ledger, hrun, hinputs, hreplies⟩ := ledgerMachine.exists_run .new
    [.publish "call" .write "hash" (some
        { approvalId := "approval", tenantId := "tenant", userId := "user"
          sessionId := "session", runId := "run", argumentsHash := "hash", expiresAtMs := 100 }),
      .approve "approval"
        { tenantId := "tenant", userId := "user", sessionId := "session", runId := "run"
          argumentsHash := "hash" } 99,
      .approve "approval"
        { tenantId := "tenant", userId := "user", sessionId := "session", runId := "run"
          argumentsHash := "hash" } 99,
      .dispatch "call" "fence", .dispatch "call" "other",
      .terminal "call" "fence" .succeeded "done"]
    (fun moves _ => decide (moves.map Move.reply =
      [.disposition (.awaitingApproval "approval"), .done, .refused .approvalReplay, .done,
        .refused .dispatchFence,
        .result { callId := "call", status := .succeeded, detail := "done" }]))
    (by decide)
  exact ⟨moves, ledger, hinputs, of_decide_eq_true hreplies, ledger_safety hrun⟩

end AiPlatform.Runtime.ToolLifecycle
