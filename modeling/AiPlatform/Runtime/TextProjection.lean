/-
  AiPlatform.Runtime.TextProjection

  What the runtime remembers of the turns while it projects their notifications
  (`TextProjectionState` of `http_service.rs`), and the events that come of a
  notification (`persist_projected_events`): a fallback text, what the projector makes
  of it, all of it normalised.

  `nextKey` stands for the first key of a `HashMap`, which may be any.
-/

import AiPlatform.Runtime.V1Projector
import AiPlatform.Lib.Machine
import AiPlatform.Lib.Lifecycles
import Mathlib.Data.Finset.Card

namespace AiPlatform.Runtime

open AiPlatform.Json Transition Lifecycles

structure TurnTextProjectionState where
  deltaItems : Finset String := ∅
  completedItems : Finset String := ∅
  childAgents : Finset String := ∅

structure TextProjectionState where
  turns : List (String × TurnTextProjectionState) := []

def MAX_ACTIVE_TURNS : Nat := 1024

namespace TextProjectionState

/-- The state of a turn, with an entry for it; where there are too many turns another one
    is evicted first. -/
def turn (nextKey : List String → Option String) (state : TextProjectionState) (turnId : String) :
    TextProjectionState × TurnTextProjectionState :=
  let turns :=
    if (state.turns.lookup turnId).isNone && MAX_ACTIVE_TURNS ≤ state.turns.length then
      match nextKey (state.turns.map Prod.fst) with
      | some stale => Assoc.erase stale state.turns
      | none => state.turns
    else state.turns
  match turns.lookup turnId with
  | some turn => (⟨turns⟩, turn)
  | none => (⟨Assoc.set turnId {} turns⟩, {})

/-- What is written through the reference that `turn` returns. -/
def put (state : TextProjectionState) (turnId : String) (turn : TurnTextProjectionState) :
    TextProjectionState :=
  ⟨Assoc.set turnId turn state.turns⟩

end TextProjectionState

/-- `data.get(key).and_then(Value::as_str).unwrap_or_default()` -/
def textAt (key : String) (data : Value) : String := ((data.get key).bind Value.asStr).getD ""

section

variable (nextKey : List String → Option String)

/-- One turn of the loop of `normalize_subagent_events`. -/
def normalizeEvent (now : UInt64) (state : TextProjectionState) (event : AssistantTurnEventV1) :
    TextProjectionState × List AssistantTurnEventV1 :=
  let runId := textAt "run_id" event.data
  let agentId := textAt "agent_id" event.data
  if runId = "" ∨ agentId = "" then (state, [event])
  else if event.eventType = "subagent_started" then
    let (state, turn) := state.turn nextKey runId
    (state.put runId { turn with childAgents := insert agentId turn.childAgents },
      if agentId ∈ turn.childAgents then [] else [event])
  else if event.eventType = "subagent_finished" then
    let (state, turn) := state.turn nextKey runId
    (state.put runId { turn with childAgents := insert agentId turn.childAgents },
      if agentId ∈ turn.childAgents then [event]
      else [.new now "subagent_started" (setMember "status" (.string "running") event.data), event])
  else (state, [event])

def normalizeSubagentEvents (now : UInt64) : TextProjectionState → List AssistantTurnEventV1 →
    TextProjectionState × List AssistantTurnEventV1
  | state, [] => (state, [])
  | state, event :: rest =>
      let (state, normalized) := normalizeEvent nextKey now state event
      let (state, more) := normalizeSubagentEvents now state rest
      (state, normalized ++ more)

def fallbackEvent (now : UInt64) (context : V1ProjectionContext) (state : TextProjectionState) :
    ServerNotification → TextProjectionState × Option AssistantTurnEventV1
  | .agentMessageDelta _ turnId itemId _ =>
      let (state, turn) := state.turn nextKey turnId
      (state.put turnId { turn with deltaItems := insert itemId turn.deltaItems }, none)
  | .itemCompleted (.agentMessage id text _) threadId turnId =>
      let (state, turn) := state.turn nextKey turnId
      let state := state.put turnId { turn with completedItems := insert id turn.completedItems }
      if id ∈ turn.completedItems ∨ id ∈ turn.deltaItems then (state, none)
      else (state, some (.new now "text_delta" (.object [("run_id", .string turnId),
        ("session_id", .string context.sessionId), ("thread_id", .string threadId),
        ("item_id", .string id), ("content", .string text),
        ("projection", .string "completed_item_fallback")])))
  | .turnCompleted _ turn => (⟨Assoc.erase turn.id state.turns⟩, none)
  | _ => (state, none)

/-- A notification, where it is projected and when. -/
structure ProjectionInput where
  notification : ServerNotification
  context : V1ProjectionContext
  now : UInt64

/-- The events that `persist_projected_events` appends and broadcasts, once the thread is
    identified. -/
def projectedEvents (state : TextProjectionState) (input : ProjectionInput) :
    TextProjectionState × List AssistantTurnEventV1 :=
  let (state, fallback) := fallbackEvent nextKey input.now input.context state input.notification
  normalizeSubagentEvents nextKey input.now state (fallback.toList ++
    projectServerNotification input.notification input.context input.now)

/-- The projection, notification by notification. -/
def textProjection : Machine TextProjectionState ProjectionInput (List AssistantTurnEventV1) where
  step state input :=
    let (state, events) := projectedEvents nextKey state input
    some (events, state)

end

/-! ## The turns -/

namespace TextProjectionState

variable {nextKey : List String → Option String} {state : TextProjectionState}
  {turnId other : String} {entry : TurnTextProjectionState}

def keys (state : TextProjectionState) : List String := state.turns.map Prod.fst

/-- What is remembered of a turn. -/
def look (state : TextProjectionState) (turnId : String) : TurnTextProjectionState :=
  (state.turns.lookup turnId).getD {}

@[simp] theorem look_put_self : (state.put turnId entry).look turnId = entry := by
  rw [look, put, Assoc.lookup_set_self]
  rfl

@[simp] theorem look_put_ne (h : other ≠ turnId) :
    (state.put turnId entry).look other = state.look other := by
  rw [look, put, Assoc.lookup_set_ne h]
  rfl

theorem look_erase_self : (⟨Assoc.erase turnId state.turns⟩ : TextProjectionState).look turnId = {} := by
  have hnone : (Assoc.erase turnId state.turns).lookup turnId = none := by
    rw [Assoc.lookup_eq_none_iff, Assoc.keys_erase]
    simp
  rw [look, hnone]
  rfl

theorem look_erase_ne (h : other ≠ turnId) :
    (⟨Assoc.erase turnId state.turns⟩ : TextProjectionState).look other = state.look other := by
  rw [look, Assoc.lookup_erase_ne h]
  rfl

theorem mem_keys_put : other ∈ (state.put turnId entry).keys ↔ other = turnId ∨ other ∈ state.keys :=
  Assoc.mem_keys_set

/-- The turns that are left when there are too many. -/
def kept (nextKey : List String → Option String) (state : TextProjectionState) (turnId : String) :
    List (String × TurnTextProjectionState) :=
  if (state.turns.lookup turnId).isNone && MAX_ACTIVE_TURNS ≤ state.turns.length then
    match nextKey (state.turns.map Prod.fst) with
    | some stale => Assoc.erase stale state.turns
    | none => state.turns
  else state.turns

theorem turn_eq : state.turn nextKey turnId =
    match (kept nextKey state turnId).lookup turnId with
    | some turn => (⟨kept nextKey state turnId⟩, turn)
    | none => (⟨Assoc.set turnId {} (kept nextKey state turnId)⟩, {}) := rfl

theorem mem_keys_turn : other ∈ (state.turn nextKey turnId).1.keys ↔
    other = turnId ∨ other ∈ (kept nextKey state turnId).map Prod.fst := by
  rw [turn_eq]
  split
  next turn hlookup =>
    constructor
    · exact Or.inr
    · rintro (rfl | hmem)
      · exact Assoc.mem_keys_of_lookup hlookup
      · exact hmem
  next => exact Assoc.mem_keys_set

/-- If no turn was lost, none was evicted. -/
theorem kept_eq (h : ∀ key ∈ state.keys, key ∈ (state.turn nextKey turnId).1.keys) :
    kept nextKey state turnId = state.turns := by
  have hkeys := fun key hkey => mem_keys_turn.mp (h key hkey)
  unfold kept at hkeys ⊢
  split
  next hfull =>
    rw [if_pos hfull] at hkeys
    cases hstale : nextKey (state.turns.map Prod.fst) with
    | none => rfl
    | some stale =>
      simp only [hstale] at hkeys
      refine Assoc.erase_of_not_mem fun hmem => ?_
      rcases hkeys stale hmem with rfl | hleft
      · have hnone : state.turns.lookup stale = none := by simpa using (Bool.and_eq_true_iff.mp hfull).1
        exact Assoc.lookup_eq_none_iff.mp hnone hmem
      · rw [Assoc.keys_erase] at hleft
        simp at hleft
  next => rfl

/-- The same, once the turn has been written to. -/
theorem kept_eq_of_put (h : ∀ key ∈ state.keys, key ∈ ((state.turn nextKey turnId).1.put turnId
    entry).keys) : kept nextKey state turnId = state.turns := by
  refine kept_eq fun key hkey => ?_
  rcases mem_keys_put.mp (h key hkey) with rfl | hmem
  · exact mem_keys_turn.mpr (Or.inl rfl)
  · exact hmem

/-- If none is evicted, a turn is as it is remembered, and so is every other. -/
theorem turn_spec (h : kept nextKey state turnId = state.turns) :
    (state.turn nextKey turnId).2 = state.look turnId ∧
      ∀ key, (state.turn nextKey turnId).1.look key = state.look key := by
  rw [turn_eq, h]
  unfold look
  cases hlookup : state.turns.lookup turnId with
  | some turn => exact ⟨rfl, fun key => rfl⟩
  | none =>
    refine ⟨rfl, fun key => ?_⟩
    by_cases hkey : key = turnId
    · subst hkey
      simp only [Assoc.lookup_set_self, hlookup, Option.getD_some, Option.getD_none]
    · simp only [Assoc.lookup_set_ne hkey]

end TextProjectionState

/-! ## The marks of the children -/

/-- The mark of an event for an agent of this run. -/
def childMarkIn (run : String) (event : AssistantTurnEventV1) : Option (Mark (String × String)) :=
  let child := (run, textAt "agent_id" event.data)
  if event.eventType = "subagent_started" then some (.started child)
  else if event.eventType = "subagent_finished" then some (.finished child)
  else none

theorem textAt_setMember {key other : String} {member data : Value} (h : other ≠ key) :
    textAt other (setMember key member data) = textAt other data := by
  cases data with
  | object members =>
    simp only [textAt, setMember, Value.get, Assoc.lookup_set_ne h]
  | _ => rfl

end AiPlatform.Runtime
