/-
  AiPlatform.Worker.Isolation

  Calls made under another scope than the one an execution was reserved under.

  Every call answers with an error that the call alone determines and leaves the
  store as it was, except one: `append_event` looks for a recorded event id
  before it looks at the owner, and returns the owner's event.
-/

import AiPlatform.Worker.Reservation

namespace AiPlatform.Worker

open AiPlatform.Json AiPlatform.Capability Transition

variable {toVec : Payload → Option (List UInt8)}

def StoreReply.isError : StoreReply → Bool
  | .reserved (.error _) | .record (.error _) | .dispatched (.error _) => true
  | .renewed (.error _) | .event (.error _) | .page (.error _) => true
  | _ => false

namespace StoreCall

/-- The scope a call is made under and the execution it is made on. -/
def target : StoreCall → Option (CapabilityScopeV2 × String)
  | .get scope executionId
  | .dispatch scope executionId _
  | .renew scope executionId _ _
  | .appendEvent scope executionId _ _ _ _ _
  | .events scope executionId _
  | .cancel scope executionId _ => some (scope, executionId)
  | .reserve _ | .recoverable | .registerApprovedAuthority _ _ => none

/-- The answer to a call on an execution of another scope: nothing in it comes
    from the store. -/
def foreignReply (toVec : Payload → Option (List UInt8)) : StoreCall → StoreReply
  | .get _ _ | .cancel _ _ _ => .record (.error .scopeMismatch)
  | .dispatch _ _ _ => .dispatched (.error .scopeMismatch)
  | .renew _ _ _ _ => .renewed (.error .scopeMismatch)
  | .appendEvent _ _ _ _ _ payload _ =>
      if MemoryStore.payloadFits toVec payload then .event (.error .scopeMismatch)
      else .event (.error .invalidEvent)
  | .events _ _ _ => .page (.error .scopeMismatch)
  | .reserve _ | .recoverable | .registerApprovedAuthority _ _ => .registered

/-- The call is an `append_event` that ends at its look for a recorded event id:
    its payload fits and the execution has an event under its id. -/
def replaysEvent (toVec : Payload → Option (List UInt8)) (state : MemoryState) :
    StoreCall → Bool
  | .appendEvent _ executionId eventId _ _ payload _ =>
      MemoryStore.payloadFits toVec payload
        && (MemoryStore.recordedEvent state executionId eventId).isSome
  | _ => false

end StoreCall

/-- The call discloses nothing and changes nothing. -/
structure Isolated (toVec : Payload → Option (List UInt8)) (now : Nat) (call : StoreCall)
    (state : MemoryState) : Prop where
  error : (call.apply toVec now state).1.isError = true
  fixed : (call.apply toVec now state).1 = call.foreignReply toVec
  unchanged : (call.apply toVec now state).2 = state

/-- The scope an execution was reserved under stays its record's scope. -/
theorem scope_of_reserves {s t : MemoryState} {tr : List StoreMove} {executionId : String}
    {requested : NewExecution} {x : StoreMove} (h : Run (storeMachine toVec) s tr t)
    (hx : x ∈ tr) (hres : Reserves executionId requested x) :
    ∃ record, t.executions[executionId]? = some record ∧
      record.scope = requested.execution.scope := by
  obtain ⟨record, hat, hid⟩ := identity_of_reserves h hx hres
  exact ⟨record, hat, congrArg (fun i : NewExecution => i.execution.scope) hid⟩

section

variable {state : MemoryState} {scope : CapabilityScopeV2} {executionId : String}
  {record : ExecutionRecord} {call : StoreCall}

/-- What a call that does not replay an event does on a foreign execution. -/
theorem apply_foreign (now : Nat) (hat : state.executions[executionId]? = some record)
    (hforeign : record.scope ≠ scope) (htarget : call.target = some (scope, executionId))
    (hreplay : call.replaysEvent toVec state = false) :
    call.apply toVec now state = (call.foreignReply toVec, state) := by
  have hr := recordForScope_foreign hat hforeign
  cases call with
  | reserve requested => exact absurd htarget (by simp [StoreCall.target])
  | recoverable => exact absurd htarget (by simp [StoreCall.target])
  | registerApprovedAuthority a v => exact absurd htarget (by simp [StoreCall.target])
  | get sc id | events sc id after | dispatch sc id fence | renew sc id fence ms
  | cancel sc id eventId =>
      obtain ⟨rfl, rfl⟩ := Prod.mk.inj (Option.some.inj htarget)
      simp [StoreCall.apply, StoreCall.foreignReply, MemoryStore.get, MemoryStore.events,
        MemoryStore.eventsPage, MemoryStore.dispatch, MemoryStore.renew, MemoryStore.cancel,
        hr]
  | appendEvent sc id eventId event status payload fence =>
      obtain ⟨rfl, rfl⟩ := Prod.mk.inj (Option.some.inj htarget)
      simp only [StoreCall.apply, StoreCall.foreignReply, MemoryStore.appendEvent]
      by_cases hp : MemoryStore.payloadFits toVec payload = true
      · have hnone : MemoryStore.recordedEvent state id eventId = none := by
          simpa [StoreCall.replaysEvent, hp] using hreplay
        simp [hp, hnone, hr]
      · simp [hp]

theorem foreignReply_isError (htarget : call.target = some (scope, executionId)) :
    (call.foreignReply toVec).isError = true := by
  cases call with
  | reserve requested => exact absurd htarget (by simp [StoreCall.target])
  | recoverable => exact absurd htarget (by simp [StoreCall.target])
  | registerApprovedAuthority a v => exact absurd htarget (by simp [StoreCall.target])
  | get sc id | events sc id after | dispatch sc id fence | renew sc id fence ms
  | cancel sc id eventId => rfl
  | appendEvent sc id eventId event status payload fence =>
      simp only [StoreCall.foreignReply]
      split <;> rfl

/-- A call that replays an event returns it, whoever owns the execution. -/
theorem apply_replay (now : Nat) (hreplay : call.replaysEvent toVec state = true) :
    ∃ event, (call.apply toVec now state).1 = .event (.ok event) := by
  cases call with
  | appendEvent sc id eventId event status payload fence =>
      simp only [StoreCall.replaysEvent, Bool.and_eq_true] at hreplay
      obtain ⟨recorded, hrec⟩ := Option.isSome_iff_exists.mp hreplay.2
      exact ⟨recorded, by simp [StoreCall.apply, MemoryStore.appendEvent, hreplay.1, hrec]⟩
  | _ => exact absurd hreplay (by simp [StoreCall.replaysEvent])

end

/-- A call under another scope than the one the execution was reserved under is
    isolated exactly when it does not replay a recorded event id. -/
theorem isolated_iff {s : MemoryState} {tr : List StoreMove}
    (h : Run (storeMachine toVec) .empty tr s) {x : StoreMove} (hx : x ∈ tr)
    {executionId : String} {requested : NewExecution} (hres : Reserves executionId requested x)
    (call : StoreCall) {scope : CapabilityScopeV2}
    (htarget : call.target = some (scope, executionId))
    (hforeign : requested.execution.scope ≠ scope) (now : Nat) :
    Isolated toVec now call s ↔ call.replaysEvent toVec s = false := by
  obtain ⟨record, hat, hscope⟩ := scope_of_reserves h hx hres
  constructor
  · intro hiso
    by_contra hreplay
    obtain ⟨event, hev⟩ := apply_replay now (Bool.not_eq_false _ ▸ hreplay)
    have := hiso.error
    rw [hev] at this
    exact absurd this (by simp [StoreReply.isError])
  · intro hreplay
    have heq := apply_foreign now hat (hscope ▸ hforeign) htarget hreplay
    exact
      { error := by rw [heq]; exact foreignReply_isError htarget
        fixed := by rw [heq]
        unchanged := by rw [heq] }

/-- A list of calls that leaves an execution of `scope` has reserved it. -/
theorem exists_reserved (toVec : Payload → Option (List UInt8)) (is : List CallAt) (p : MemoryState → Bool) (executionId : String)
    (scope : CapabilityScopeV2)
    (h : ((storeMachine toVec).exec .empty is).any (fun out =>
      out.2.executions[executionId]?.any (fun record => record.scope == scope)
        && p out.2) = true) :
    ∃ tr s x requested, Run (storeMachine toVec) .empty tr s ∧ x ∈ tr ∧
      Reserves executionId requested x ∧ requested.execution.scope = scope ∧ p s = true := by
  obtain ⟨tr, s, hrun, _, hcheck⟩ := Machine.exists_run _ _ is
    (fun _ s => s.executions[executionId]?.any (fun record => record.scope == scope)
      && p s) h
  simp only [Bool.and_eq_true] at hcheck
  obtain ⟨hscope, hp⟩ := hcheck
  cases hat : s.executions[executionId]? with
  | none => simp [hat] at hscope
  | some record =>
      simp only [hat, Option.any_some, beq_iff_eq] at hscope
      obtain ⟨x, hx, requested, hres, hid⟩ := reserved_of_run hrun hat
      have hs : requested.execution.scope = record.scope :=
        congrArg (fun i : NewExecution => i.execution.scope) hid
      exact ⟨tr, s, x, requested, hrun, hx, hres, hs.trans hscope, hp⟩

def otherScope : CapabilityScopeV2 :=
  { tenantId := "tenant-b", userId := "user-b", sessionId := "session-b" }

/-- Another tenant reads an execution. -/
theorem isolated_iff_get :
    ∃ tr s x requested, Run (storeMachine plainToVec) .empty tr s ∧ x ∈ tr ∧
      Reserves "execution-1" requested x ∧ requested.execution.scope ≠ otherScope ∧
      Isolated plainToVec 1 (.get otherScope "execution-1") s := by
  obtain ⟨tr, s, x, requested, h, hx, hres, hscope, _⟩ := exists_reserved plainToVec
    [⟨0, .reserve (sampleRequest "execution-1" .read)⟩] (fun _ => true) "execution-1"
    sampleScope (by decide)
  have hforeign : requested.execution.scope ≠ otherScope := by rw [hscope]; decide
  exact ⟨tr, s, x, requested, h, hx, hres, hforeign,
    (isolated_iff h hx hres (.get otherScope "execution-1") rfl hforeign 1).mpr rfl⟩

/-- Another tenant sends an event under an id recorded for the execution and is
    given the owner's event. -/
theorem appendEvent_discloses :
    ∃ tr s x requested event, Run (storeMachine plainToVec) .empty tr s ∧ x ∈ tr ∧
      Reserves "execution-1" requested x ∧ requested.execution.scope ≠ otherScope ∧
      (MemoryStore.appendEvent plainToVec 2 otherScope "execution-1" "event-1" "progress"
        .running ∅ none s).1 = .ok event ∧
      event.executionId = "execution-1" ∧ event.toolCallId = "call-1" ∧
      event.status = .published := by
  obtain ⟨tr, s, x, requested, h, hx, hres, hscope, hcheck⟩ := exists_reserved plainToVec
    [⟨0, .reserve (sampleRequest "execution-1" .read)⟩,
      ⟨1, .appendEvent sampleScope "execution-1" "event-1" "published" .published ∅ none⟩]
    (fun s =>
      match (MemoryStore.appendEvent plainToVec 2 otherScope "execution-1" "event-1"
        "progress" .running ∅ none s).1 with
      | .ok event => decide (event.executionId = "execution-1" ∧
          event.toolCallId = "call-1" ∧ event.status = .published)
      | .error _ => false)
    "execution-1" sampleScope (by decide)
  refine ⟨tr, s, x, requested, ?_⟩
  cases happend : (MemoryStore.appendEvent plainToVec 2 otherScope "execution-1" "event-1"
      "progress" .running ∅ none s).1 with
  | error e => simp [happend] at hcheck
  | ok event =>
      simp only [happend, decide_eq_true_eq] at hcheck
      exact ⟨event, h, hx, hres, by rw [hscope]; decide, rfl, hcheck⟩

end AiPlatform.Worker
