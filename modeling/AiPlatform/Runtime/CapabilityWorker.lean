/-
  AiPlatform.Runtime.CapabilityWorker

  The runtime's client of the capability worker (`capability_worker.rs`).

  Each request is in two halves: what the client checks before anything is
  sent, and what it makes of the reply.  The caller puts the two together, since
  it may drop the request in between.
-/

import AiPlatform.Capability.Validation

namespace AiPlatform.Runtime.CapabilityWorker

open AiPlatform.Capability AiPlatform.Checks

inductive CapabilityWorkerError where
  | invalidBaseUrl
  | missingInternalToken
  | invalidRequest
  | unavailable
  | timeout
  | rejected (status : Nat)
  | responseTooLarge
  | invalidResponse
  | eventSequenceViolation
  deriving DecidableEq, Repr

namespace CapabilityWorkerError

def code : CapabilityWorkerError → String
  | .invalidBaseUrl => "capability_worker_url_invalid"
  | .missingInternalToken => "capability_worker_token_missing"
  | .invalidRequest => "capability_worker_request_invalid"
  | .unavailable => "capability_worker_unavailable"
  | .timeout => "capability_worker_timeout"
  | .rejected _ => "capability_worker_rejected"
  | .responseTooLarge => "capability_worker_response_too_large"
  | .invalidResponse => "capability_worker_response_invalid"
  | .eventSequenceViolation => "capability_worker_event_sequence_invalid"

end CapabilityWorkerError

/-- The body of a response, as far as the client gets with it. -/
inductive Body (α : Type) where
  | tooLarge
  /-- The connection breaks while it is read, or the JSON is not an `α`. -/
  | unreadable
  | value (v : α)

/-- What comes back for a request that was sent. -/
inductive Reply (α : Type) where
  | timeout
  | unavailable
  | response (status : Nat) (body : Body α)

/-- The second half of `request`. -/
def Reply.read {α : Type} : Reply α → Except CapabilityWorkerError α
  | .timeout => .error .timeout
  | .unavailable => .error .unavailable
  | .response status body =>
      if !(200 ≤ status && status < 300) then
        .error (if status == 408 then .timeout else .rejected status)
      else
        match body with
        | .tooLarge => .error .responseTooLarge
        | .unreadable => .error .invalidResponse
        | .value v => .ok v

def validateScope (scope : CapabilityScopeV2) : Except CapabilityWorkerError Unit :=
  failIf ([scope.tenantId, scope.userId, scope.sessionId].any fun value =>
    value == "" || value.utf8ByteSize > 255 || value.toList.any isAsciiControl) .invalidRequest

/-- The first half of `request`. -/
def admits (crates : Crates) (scope : CapabilityScopeV2) (path : String) :
    Except CapabilityWorkerError Unit := do
  validateScope scope
  failIf (!crates.joins path) .invalidBaseUrl

def executionPath (crates : Crates) (executionId suffix : String) :
    Except CapabilityWorkerError String := do
  failIf (!crates.parsesUuid executionId) .invalidRequest
  return "executions/" ++ executionId ++ suffix

/-! ## Requests -/

def catalogChecks (crates : Crates) (scope : CapabilityScopeV2) (capabilityRevision : Nat) :
    Except CapabilityWorkerError Unit := do
  let request : CapabilityCatalogRequestV2 :=
    { schemaVersion := CAPABILITY_CATALOG_SCHEMA_VERSION
      tenantId := scope.tenantId
      userId := scope.userId
      sessionId := scope.sessionId
      capabilityRevision := capabilityRevision }
  request.validate.mapError fun _ => .invalidRequest
  admits crates scope "catalog"

def createChecks (crates : Crates) (scope : CapabilityScopeV2)
    (request : CreateCapabilityExecutionRequestV2) : Except CapabilityWorkerError Unit := do
  failIf (request.lease.scope != scope) .invalidRequest
  admits crates scope "executions"

def getChecks (crates : Crates) (scope : CapabilityScopeV2) (executionId : String) :
    Except CapabilityWorkerError Unit := do
  let path ← executionPath crates executionId ""
  admits crates scope path

def eventsChecks (crates : Crates) (scope : CapabilityScopeV2) (executionId : String) :
    Except CapabilityWorkerError Unit := do
  let path ← executionPath crates executionId "/events"
  admits crates scope path

def cancelChecks (crates : Crates) (scope : CapabilityScopeV2) (executionId : String) :
    Except CapabilityWorkerError Unit := do
  let path ← executionPath crates executionId ":cancel"
  admits crates scope path

/-! ## Replies -/

/-- The reply to `create`, `get` and `cancel`. -/
def readExecution (reply : Reply CapabilityExecutionV2) :
    Except CapabilityWorkerError CapabilityExecutionV2 := do
  let execution ← reply.read
  execution.validate.mapError fun _ => .invalidResponse
  return execution

/-- The last sequence of the events, when each belongs to the execution and
    follows the one before it. -/
def sequenceOf (executionId : String) (previous : Nat) : List CapabilityEventV2 → Option Nat
  | [] => some previous
  | event :: rest =>
      if event.executionId != executionId || event.sequence ≤ previous then none
      else sequenceOf executionId event.sequence rest

def validateEventPage (page : CapabilityEventPageV2) (executionId : String)
    (afterSequence : Nat) : Except CapabilityWorkerError Unit := do
  failIf (page.schemaVersion != CAPABILITY_EVENT_SCHEMA_VERSION
      || page.executionId != executionId || page.afterSequence != afterSequence
      || page.events.length > 1) .invalidResponse
  match sequenceOf executionId afterSequence page.events with
  | none => throw .eventSequenceViolation
  | some previous => failIf (page.nextSequence != previous) .eventSequenceViolation

/-- The numbers of a page are `u64`; a larger one does not deserialise. -/
def fitsU64 (page : CapabilityEventPageV2) : Bool :=
  page.afterSequence < 2 ^ 64 && page.nextSequence < 2 ^ 64
    && page.events.all fun event =>
      event.sequence < 2 ^ 64 && event.createdAtEpochMs < 2 ^ 64

def readEvents (reply : Reply CapabilityEventPageV2) (executionId : String)
    (afterSequence : Nat) : Except CapabilityWorkerError CapabilityEventPageV2 := do
  let page ← reply.read
  failIf (!fitsU64 page) .invalidResponse
  validateEventPage page executionId afterSequence
  return page

/-! ## What a reply that was accepted says -/

theorem Reply.read_eq_ok {α : Type} {reply : Reply α} {v : α} :
    reply.read = .ok v ↔
      ∃ status, (200 ≤ status ∧ status < 300) ∧ reply = .response status (.value v) := by
  cases reply with
  | timeout => simp [Reply.read]
  | unavailable => simp [Reply.read]
  | response status body =>
    by_cases hstatus : 200 ≤ status ∧ status < 300
    · cases body <;> simp [Reply.read, hstatus]
    · have hfails : status < 200 ∨ 300 ≤ status := by omega
      simp [Reply.read, hfails, hstatus]

theorem readExecution_ok {reply : Reply CapabilityExecutionV2}
    {execution : CapabilityExecutionV2} (h : readExecution reply = .ok execution) :
    ∃ status, (200 ≤ status ∧ status < 300) ∧
      reply = .response status (.value execution) := by
  simp only [readExecution, bind_eq_ok, pure_eq_ok] at h
  obtain ⟨e, hread, _, -, rfl⟩ := h
  exact Reply.read_eq_ok.mp hread

/-- The event of an accepted page belongs to the execution and lies past the
    cursor, within `u64`. -/
theorem readEvents_head {reply : Reply CapabilityEventPageV2} {executionId : String}
    {afterSequence : Nat} {page : CapabilityEventPageV2} {event : CapabilityEventV2}
    (h : readEvents reply executionId afterSequence = .ok page)
    (hevent : page.events.head? = some event) :
    event.executionId = executionId ∧ afterSequence < event.sequence ∧
      event.sequence < 2 ^ 64 := by
  simp only [readEvents, bind_eq_ok, pure_eq_ok, failIf_eq_ok] at h
  obtain ⟨page, -, _, hfits, _, hvalid, rfl⟩ := h
  obtain ⟨rest, hrest⟩ : ∃ rest, page.events = event :: rest := by
    cases hlist : page.events with
    | nil => simp [hlist] at hevent
    | cons e rest =>
      obtain rfl : e = event := by simpa [hlist] using hevent
      exact ⟨rest, rfl⟩
  simp only [fitsU64, hrest, List.all_cons, Bool.not_eq_false', Bool.and_eq_true,
    decide_eq_true_eq] at hfits
  simp only [validateEventPage, bind_eq_ok, hrest, sequenceOf] at hvalid
  obtain ⟨_, -, hsequence⟩ := hvalid
  split at hsequence
  · cases hsequence
  · rename_i previous hprevious
    split at hprevious
    · cases hprevious
    · rename_i hkeep
      simp only [Bool.or_eq_true, bne_iff_ne, ne_eq, decide_eq_true_eq, not_or, not_not,
        Nat.not_le] at hkeep
      exact ⟨hkeep.1, hkeep.2, hfits.2.1.1⟩

/-- A page has one event at most. -/
theorem readEvents_mem {reply : Reply CapabilityEventPageV2} {executionId : String}
    {afterSequence : Nat} {page : CapabilityEventPageV2} {event : CapabilityEventV2}
    (h : readEvents reply executionId afterSequence = .ok page) (hevent : event ∈ page.events) :
    page.events.head? = some event := by
  simp only [readEvents, bind_eq_ok, pure_eq_ok, validateEventPage, failIf_eq_ok,
    Bool.or_eq_false_iff, decide_eq_false_iff_not] at h
  obtain ⟨page, -, -, -, -, ⟨-, ⟨-, hlength⟩, -⟩, rfl⟩ := h
  cases hevents : page.events with
  | nil =>
    rw [hevents] at hevent
    cases hevent
  | cons only others =>
    rw [hevents, List.length_cons] at hlength
    have hnone : others = [] := List.length_eq_zero_iff.mp (by omega)
    rw [hevents, hnone] at hevent
    rw [List.mem_singleton.mp hevent, List.head?_cons]

theorem readEvents_ok {reply : Reply CapabilityEventPageV2} {executionId : String}
    {afterSequence : Nat} {page : CapabilityEventPageV2}
    (h : readEvents reply executionId afterSequence = .ok page) :
    ∃ status, (200 ≤ status ∧ status < 300) ∧ reply = .response status (.value page) := by
  simp only [readEvents, bind_eq_ok, pure_eq_ok] at h
  obtain ⟨p, hread, _, -, _, -, rfl⟩ := h
  exact Reply.read_eq_ok.mp hread

end AiPlatform.Runtime.CapabilityWorker
