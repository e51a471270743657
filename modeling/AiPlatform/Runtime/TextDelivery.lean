/-
  AiPlatform.Runtime.TextDelivery

  Whether the text of a message, and the life of a child agent, come out once.

  Of each message the projection is a retelling of what the notifications say: the
  deltas are its pieces, the completed item is the whole, and with the turn all is
  forgotten.  The children are another matter.  What the projector makes of their items
  names no run, so the normalisation passes it on as it is.
-/

import AiPlatform.Runtime.TextProjection
import AiPlatform.Lib.Retelling

namespace AiPlatform.Runtime

open AiPlatform.Json Transition Lifecycles Retelling

/-! ## What a notification is about -/

def ServerNotification.turnId : ServerNotification → String
  | .turnStarted _ turn => turn.id
  | .agentMessageDelta _ turnId _ _ => turnId
  | .reasoningSummaryTextDelta _ turnId _ _ _ => turnId
  | .planDelta _ turnId _ _ => turnId
  | .turnPlanUpdated _ turnId _ _ => turnId
  | .contextCompacted _ turnId => turnId
  | .reasoningTextDelta _ => ""
  | .itemStarted _ _ turnId => turnId
  | .itemCompleted _ _ turnId => turnId
  | .turnCompleted _ turn => turn.id
  | .error _ turnId _ => turnId
  | .other => ""

/-- What a notification says of a message of a turn. -/
def heardOf (turnId itemId : String) : ServerNotification → Heard String
  | .agentMessageDelta _ turn item delta =>
      if turn = turnId ∧ item = itemId then .piece delta else .other
  | .itemCompleted (.agentMessage id text _) _ turn =>
      if turn = turnId ∧ id = itemId then .whole text else .other
  | .turnCompleted _ turn => if turn.id = turnId then .reset else .other
  | _ => .other

/-- The text in an event, at a notification about the message. -/
def textOf (turnId itemId : String) (notification : ServerNotification)
    (event : AssistantTurnEventV1) : Option String :=
  if (heardOf turnId itemId notification).isText && event.eventType == "text_delta" then
    (event.data.get "content").bind Value.asStr
  else none

/-- A notification and the events that came of it. -/
abbrev Projected := Move TextProjectionState ProjectionInput (List AssistantTurnEventV1)

/-- What came of the notifications: no child of a run is started twice, none finishes that has
    not started, and the text of each completed message is delivered once, as its deltas
    in turn or else as the completed text. -/
structure ExactlyOnce (tr : List Projected) : Prop where
  children : Proper (tr.flatMap fun x =>
    x.reply.filterMap (childMarkIn x.input.notification.turnId))
  texts : ∀ turnId itemId, ToldOnce (tr.map fun x => heardOf turnId itemId x.input.notification)
    (tr.flatMap fun x => x.reply.filterMap (textOf turnId itemId x.input.notification))

/-- The children in the notifications themselves, as the projector has them. -/
def childrenOf (input : ProjectionInput) : List (Mark (String × String)) :=
  (projectServerNotification input.notification input.context input.now).filterMap
    (childMarkIn input.notification.turnId)

/-- The kernel starts no child of a turn twice and finishes none that it has not started; and
    a completed message of which nothing was heard since its turn was last completed is
    the first that is heard of it, with no delta to follow. -/
structure InOrder (inputs : List ProjectionInput) : Prop where
  children : Proper (inputs.flatMap childrenOf)
  texts : ∀ turnId itemId,
    Orderly (inputs.map fun input => heardOf turnId itemId input.notification)

/-- No turn is forgotten but for its completion. -/
def KeepsTurns (x : Projected) : Prop :=
  ∀ key ∈ x.pre.keys, key ∈ x.post.keys ∨
    ∃ threadId turn, x.input.notification = .turnCompleted threadId turn ∧ turn.id = key

/-! ## What the projector makes names no child of a run -/

variable {now : UInt64} {context : V1ProjectionContext} {event : AssistantTurnEventV1}
  {threadId turnId itemId : String} {phase : ToolProjectionPhase} {item : ThreadItem}

/-- The event does not name both a run and an agent. -/
def Unscoped (event : AssistantTurnEventV1) : Prop :=
  textAt "run_id" event.data = "" ∨ textAt "agent_id" event.data = ""

theorem textAt_of_lookup {key : String} {members : List (String × Value)}
    (h : members.lookup key = none) : textAt key (.object members) = "" := by
  simp only [textAt, Value.get, h, Option.bind_none, Option.getD_none]

theorem unscoped_of_agent {eventType : String} {data : Value} (h : textAt "agent_id" data = "") :
    Unscoped (.new now eventType data) := Or.inr h

theorem lookup_insertSome {key other : String} {member : Option Value}
    {projected : List (String × Value)} (h : other ≠ key) :
    (insertSome key member projected).lookup other = projected.lookup other := by
  cases member with
  | none => rfl
  | some member => exact Assoc.lookup_set_ne h

theorem lifecycleData_agent {runId status : String} {durationMs : Option (Option Int64)} :
    textAt "agent_id" (lifecycleData context threadId runId status durationMs) = "" := by
  refine textAt_of_lookup ?_
  split
  · rw [Assoc.lookup_set_ne (by decide), Assoc.lookup_set_ne (by decide)]
    split
    · rw [Assoc.lookup_set_ne (by decide)]
      rfl
    · rfl
  · split
    · rw [Assoc.lookup_set_ne (by decide)]
      rfl
    · rfl

theorem toolData_agent {tool : List (String × Value)} (h : toolData item = some tool) :
    tool.lookup "agent_id" = none := by
  simp only [toolData, Option.bind_eq_bind, Option.bind_eq_some_iff, Option.some.injEq] at h
  obtain ⟨object, -, itemType, -, name, -, named, -, id, -, idText, -, rfl⟩ := h
  rw [lookup_insertSome (by decide)]
  split
  · rw [Assoc.lookup_set_ne (by decide), lookup_insertSome (by decide),
      lookup_insertSome (by decide)]
    rfl
  · split
    · rw [Assoc.lookup_set_ne (by decide), lookup_insertSome (by decide),
        lookup_insertSome (by decide)]
      rfl
    · rw [lookup_insertSome (by decide), lookup_insertSome (by decide)]
      rfl

/-- The event of a child names its agent and its task, and no run. -/
theorem childEvent_run {object prompt : Value} {callId tool status agentId : String} :
    textAt "run_id" (childEvent object callId tool prompt status threadId turnId context now phase
      agentId).data = "" := by
  unfold childEvent
  dsimp only [AssistantTurnEventV1.new]
  split
  · exact textAt_of_lookup rfl
  · rw [textAt_setMember (by decide), textAt_setMember (by decide)]
    exact textAt_of_lookup rfl

theorem projectActivity_run {object : Value} {events : List AssistantTurnEventV1}
    (h : projectActivity object threadId turnId context now = some events)
    (hevent : event ∈ events) : textAt "run_id" event.data = "" := by
  simp only [projectActivity, Option.bind_eq_bind, Option.bind_eq_some_iff, Option.some.injEq] at h
  obtain ⟨kind, -, kindText, -, found, -, agentId, -, callId, -, rfl⟩ := h
  obtain rfl := List.mem_singleton.mp hevent
  exact textAt_of_lookup rfl

theorem projectCollabCall_run {object : Value} {events : List AssistantTurnEventV1}
    (h : projectCollabCall object threadId turnId context now phase = some events)
    (hevent : event ∈ events) : textAt "run_id" event.data = "" := by
  simp only [projectCollabCall, Option.bind_eq_bind, Option.bind_eq_some_iff] at h
  obtain ⟨id, -, callId, -, h⟩ := h
  split at h
  · cases h
  · obtain rfl := Option.some.inj h
    obtain ⟨agentId, -, rfl⟩ := List.mem_map.mp hevent
    exact childEvent_run

theorem projectCollabItem_run {events : List AssistantTurnEventV1}
    (h : projectCollabItem item threadId turnId context now phase = some events)
    (hevent : event ∈ events) : textAt "run_id" event.data = "" := by
  simp only [projectCollabItem, Option.bind_eq_bind, Option.bind_eq_some_iff] at h
  obtain ⟨value, -, itemType, -, type, -, h⟩ := h
  split at h
  · cases phase with
    | started =>
      obtain rfl := Option.some.inj h
      exact absurd hevent List.not_mem_nil
    | completed => exact projectActivity_run h hevent
  · split at h
    · exact projectCollabCall_run h hevent
    · cases h

theorem projectToolItem_unscoped
    (h : event ∈ projectToolItem item threadId turnId context now phase) : Unscoped event := by
  have hcollab : event ∈ (projectCollabItem item threadId turnId context now phase).getD [] →
      Unscoped event := by
    intro hevent
    cases hitem : projectCollabItem item threadId turnId context now phase with
    | none =>
      rw [hitem] at hevent
      exact absurd hevent List.not_mem_nil
    | some events =>
      rw [hitem] at hevent
      exact Or.inl (projectCollabItem_run hitem hevent)
  unfold projectToolItem at h
  cases htool : toolData item with
  | none =>
    rw [htool] at h
    exact hcollab h
  | some tool =>
    rw [htool] at h
    have hagent := toolData_agent htool
    dsimp only at h
    split at h
    · rcases List.mem_append.mp h with hevent | hevent
      · exact hcollab hevent
      · obtain rfl := List.mem_singleton.mp hevent
        refine unscoped_of_agent (textAt_of_lookup ?_)
        rw [Assoc.lookup_set_ne (by decide), Assoc.lookup_set_ne (by decide),
          Assoc.lookup_set_ne (by decide), Assoc.lookup_set_ne (by decide), hagent]
    · rcases List.mem_append.mp h with hevent | hevent
      · exact hcollab hevent
      · have hdata : ∀ failed : Bool, textAt "agent_id" (.object
            (Assoc.set "success" (.bool (!failed)) (Assoc.set "status"
              (.string (if failed then "failed" else "completed"))
              (Assoc.set "thread_id" (.string threadId) (Assoc.set "session_id"
                (.string context.sessionId) (Assoc.set "run_id" (.string turnId) tool)))))) = "" := by
          intro failed
          refine textAt_of_lookup ?_
          rw [Assoc.lookup_set_ne (by decide), Assoc.lookup_set_ne (by decide),
            Assoc.lookup_set_ne (by decide), Assoc.lookup_set_ne (by decide),
            Assoc.lookup_set_ne (by decide), hagent]
        rcases List.mem_cons.mp hevent with rfl | hevent
        · exact unscoped_of_agent (hdata _)
        · obtain rfl := List.mem_singleton.mp hevent
          exact unscoped_of_agent (hdata _)

/-- No event of the projector names both a run and an agent. -/
theorem projectServerNotification_unscoped {notification : ServerNotification}
    (h : event ∈ projectServerNotification notification context now) : Unscoped event := by
  cases notification with
  | turnStarted threadId turn =>
    obtain rfl := List.mem_singleton.mp h
    exact unscoped_of_agent lifecycleData_agent
  | agentMessageDelta threadId turnId itemId delta =>
    obtain rfl := List.mem_singleton.mp h
    exact unscoped_of_agent (textAt_of_lookup rfl)
  | reasoningSummaryTextDelta threadId turnId itemId delta summaryIndex =>
    obtain rfl := List.mem_singleton.mp h
    exact unscoped_of_agent (textAt_of_lookup rfl)
  | planDelta threadId turnId itemId delta =>
    obtain rfl := List.mem_singleton.mp h
    exact unscoped_of_agent (textAt_of_lookup rfl)
  | turnPlanUpdated threadId turnId explanation plan =>
    obtain rfl := List.mem_singleton.mp h
    exact unscoped_of_agent (textAt_of_lookup rfl)
  | contextCompacted threadId turnId =>
    obtain rfl := List.mem_singleton.mp h
    exact unscoped_of_agent (textAt_of_lookup rfl)
  | reasoningTextDelta threadId => exact absurd h List.not_mem_nil
  | itemStarted item threadId turnId => exact projectToolItem_unscoped h
  | itemCompleted item threadId turnId => exact projectToolItem_unscoped h
  | turnCompleted threadId turn =>
    simp only [projectServerNotification] at h
    split at h
    · obtain rfl := List.mem_singleton.mp h
      exact unscoped_of_agent lifecycleData_agent
    · obtain rfl := List.mem_singleton.mp h
      exact unscoped_of_agent lifecycleData_agent
    · obtain rfl := List.mem_singleton.mp h
      exact unscoped_of_agent lifecycleData_agent
    · exact absurd h List.not_mem_nil
  | error threadId turnId willRetry =>
    simp only [projectServerNotification] at h
    split at h
    · exact absurd h List.not_mem_nil
    · obtain rfl := List.mem_singleton.mp h
      exact unscoped_of_agent (textAt_of_lookup rfl)
  | other => exact absurd h List.not_mem_nil

/-! ## One notification -/

variable {nextKey : List String → Option String} {state : TextProjectionState}
  {input : ProjectionInput}

/-- What names no child of a run passes the normalisation as it is. -/
theorem normalizeSubagentEvents_unscoped {events : List AssistantTurnEventV1}
    (h : ∀ event ∈ events, Unscoped event) :
    normalizeSubagentEvents nextKey now state events = (state, events) := by
  induction events with
  | nil => rfl
  | cons event rest ih =>
    obtain ⟨hevent, hrest⟩ := List.forall_mem_cons.mp h
    have hone : normalizeEvent nextKey now state event = (state, [event]) := if_pos hevent
    simp only [normalizeSubagentEvents, hone, ih hrest, List.singleton_append]

/-- A fallback is a text that names no agent. -/
theorem fallbackEvent_spec {notification : ServerNotification}
    (h : event ∈ (fallbackEvent nextKey now context state notification).2) :
    Unscoped event ∧ event.eventType = "text_delta" := by
  unfold fallbackEvent at h
  split at h
  · cases h
  · dsimp only at h
    split at h
    · cases h
    · obtain rfl := Option.some.inj h
      exact ⟨unscoped_of_agent (textAt_of_lookup rfl), rfl⟩
  · cases h
  · cases h

/-- So a notification leaves what its fallback leaves, and gives the fallback and what the
    projector makes of it. -/
theorem projectedEvents_eq : projectedEvents nextKey state input =
    ((fallbackEvent nextKey input.now input.context state input.notification).1,
      (fallbackEvent nextKey input.now input.context state input.notification).2.toList ++
        projectServerNotification input.notification input.context input.now) := by
  unfold projectedEvents
  refine normalizeSubagentEvents_unscoped fun event hevent => ?_
  rcases List.mem_append.mp hevent with hfallback | hprojected
  · exact (fallbackEvent_spec (Option.mem_toList.mp hfallback)).1
  · exact projectServerNotification_unscoped hprojected

theorem makes_iff {x : Projected} : (textProjection nextKey).Makes x ↔
    x.post = (fallbackEvent nextKey x.input.now x.input.context x.pre x.input.notification).1 ∧
      x.reply = (fallbackEvent nextKey x.input.now x.input.context x.pre
        x.input.notification).2.toList ++
          projectServerNotification x.input.notification x.input.context x.input.now := by
  unfold Machine.Makes textProjection
  simp only [projectedEvents_eq, Option.some.injEq, Prod.mk.injEq]
  constructor
  · rintro ⟨hreply, hpost⟩
    exact ⟨hpost.symm, hreply.symm⟩
  · rintro ⟨hpost, hreply⟩
    exact ⟨hreply.symm, hpost.symm⟩

/-- The children that come out of a notification are those that are in it. -/
theorem children_reply {x : Projected} (hx : (textProjection nextKey).Makes x) :
    x.reply.filterMap (childMarkIn x.input.notification.turnId) = childrenOf x.input := by
  have hfallback : ((fallbackEvent nextKey x.input.now x.input.context x.pre
      x.input.notification).2.toList).filterMap (childMarkIn x.input.notification.turnId) = [] := by
    refine List.filterMap_eq_nil_iff.mpr fun event hevent => ?_
    have htype := (fallbackEvent_spec (Option.mem_toList.mp hevent)).2
    simp [childMarkIn, htype]
  rw [(makes_iff.mp hx).2, List.filterMap_append, hfallback]
  rfl

/-! ## The text of a message -/

/-- Something of the message has been heard since its turn was last completed. -/
def heardIn (turnId itemId : String) (state : TextProjectionState) : Bool :=
  decide (itemId ∈ (state.look turnId).deltaItems ∨ itemId ∈ (state.look turnId).completedItems)

/-- Nothing is told at a notification about something else. -/
theorem filterMap_textOf_other {notification : ServerNotification}
    (h : (heardOf turnId itemId notification).isText = false) (events : List AssistantTurnEventV1) :
    events.filterMap (textOf turnId itemId notification) = [] := by
  refine List.filterMap_eq_nil_iff.mpr fun event _ => ?_
  simp only [textOf, h, Bool.false_and, Bool.false_eq_true, if_false]

theorem textOf_of_isText {notification : ServerNotification}
    (h : (heardOf turnId itemId notification).isText = true) :
    textOf turnId itemId notification event =
      if event.eventType = "text_delta" then (event.data.get "content").bind Value.asStr
      else none := by
  simp only [textOf, h, Bool.true_and, beq_iff_eq]

theorem projectToolItem_agentMessage {id text : String} {members : List (String × Value)} :
    projectToolItem (.agentMessage id text members) threadId turnId context now phase = [] := by
  rfl

/-- What is heard of a message is told as the retelling has it, and noted. -/
def Tells (turnId itemId : String) (x : Projected) : Prop :=
  x.reply.filterMap (textOf turnId itemId x.input.notification) =
      (heardOf turnId itemId x.input.notification).told (heardIn turnId itemId x.pre) ∧
    heardIn turnId itemId x.post =
      (heardOf turnId itemId x.input.notification).noted (heardIn turnId itemId x.pre)

theorem tells_other {x : Projected} (h : heardOf turnId itemId x.input.notification = .other)
    (hsame : heardIn turnId itemId x.post = heardIn turnId itemId x.pre) : Tells turnId itemId x := by
  refine ⟨?_, ?_⟩
  · rw [filterMap_textOf_other (by rw [h]; rfl), h]
    rfl
  · rw [hsame, h]
    rfl

/-- A completed turn is forgotten, and no other one. -/
theorem tells_turnCompleted {x : Projected} {thread : String} {turn : Turn}
    (hx : (textProjection nextKey).Makes x) (hn : x.input.notification = .turnCompleted thread turn) :
    Tells turnId itemId x := by
  have hpost : x.post = ⟨Assoc.erase turn.id x.pre.turns⟩ := by
    rw [(makes_iff.mp hx).1, hn]
    rfl
  by_cases hturn : turn.id = turnId
  · have hheard : heardOf turnId itemId x.input.notification = .reset := by
      rw [hn]
      exact if_pos hturn
    refine ⟨?_, ?_⟩
    · rw [filterMap_textOf_other (by rw [hheard]; rfl), hheard]
      rfl
    · rw [hpost, hheard, ← hturn, heardIn, TextProjectionState.look_erase_self]
      rfl
  · refine tells_other ?_ ?_
    · rw [hn]
      exact if_neg hturn
    · rw [hpost, heardIn, TextProjectionState.look_erase_ne (Ne.symm hturn)]
      rfl

/-- At a notification that completes no turn none is lost, so none was evicted. -/
theorem kept_of_keepsTurns {x : Projected} {turn : String} {entry : TurnTextProjectionState}
    (hkept : KeepsTurns x)
    (hn : ∀ threadId turn, x.input.notification ≠ .turnCompleted threadId turn)
    (hpost : x.post = (x.pre.turn nextKey turn).1.put turn entry) :
    TextProjectionState.kept nextKey x.pre turn = x.pre.turns := by
  have hkeys : ∀ key ∈ x.pre.keys, key ∈ ((x.pre.turn nextKey turn).1.put turn entry).keys := by
    intro key hkey
    rw [← hpost]
    rcases hkept key hkey with hmem | ⟨threadId, turn, heq, -⟩
    · exact hmem
    · exact absurd heq (hn threadId turn)
  exact TextProjectionState.kept_eq_of_put hkeys

/-- A delta is told, and its message noted. -/
theorem tells_agentMessageDelta {x : Projected} {thread turn item delta : String}
    (hx : (textProjection nextKey).Makes x) (hkept : KeepsTurns x)
    (hn : x.input.notification = .agentMessageDelta thread turn item delta) :
    Tells turnId itemId x := by
  have hpost : x.post = (x.pre.turn nextKey turn).1.put turn { (x.pre.turn nextKey turn).2 with
      deltaItems := insert item (x.pre.turn nextKey turn).2.deltaItems } := by
    rw [(makes_iff.mp hx).1, hn]
    rfl
  have hturns := kept_of_keepsTurns hkept (fun threadId turn h => by rw [hn] at h; cases h) hpost
  obtain ⟨hturn, hlook⟩ := TextProjectionState.turn_spec hturns
  by_cases h : turn = turnId ∧ item = itemId
  · have hheard : heardOf turnId itemId x.input.notification = .piece delta := by
      rw [hn]
      exact if_pos h
    obtain ⟨rfl, rfl⟩ := h
    refine ⟨?_, ?_⟩
    · have htext : (heardOf turn item x.input.notification).isText = true := by
        rw [hheard]
        rfl
      rw [(makes_iff.mp hx).2, hheard, hn]
      simp only [fallbackEvent, projectServerNotification, Option.toList_none, List.nil_append]
      rw [← hn, List.filterMap_cons, textOf_of_isText htext]
      rfl
    · rw [hpost, hheard, heardIn, TextProjectionState.look_put_self]
      exact decide_eq_true (Or.inl (Finset.mem_insert_self _ _))
  · refine tells_other ?_ ?_
    · rw [hn]
      exact if_neg h
    · rw [hpost, heardIn, heardIn, decide_eq_decide]
      by_cases hsame : turn = turnId
      · subst hsame
        have hitem : itemId ≠ item := fun heq => h ⟨rfl, heq.symm⟩
        rw [TextProjectionState.look_put_self, hturn, Finset.mem_insert]
        simp only [hitem, false_or]
      · rw [TextProjectionState.look_put_ne (Ne.symm hsame), hlook]

/-- A completed message is told if nothing of it is known, and noted. -/
theorem tells_agentMessage {x : Projected} {thread turn id text : String}
    {members : List (String × Value)} (hx : (textProjection nextKey).Makes x) (hkept : KeepsTurns x)
    (hn : x.input.notification = .itemCompleted (.agentMessage id text members) thread turn) :
    Tells turnId itemId x := by
  have hpost : x.post = (x.pre.turn nextKey turn).1.put turn { (x.pre.turn nextKey turn).2 with
      completedItems := insert id (x.pre.turn nextKey turn).2.completedItems } := by
    rw [(makes_iff.mp hx).1, hn]
    simp only [fallbackEvent]
    split
    · rfl
    · rfl
  have hturns := kept_of_keepsTurns hkept (fun threadId turn h => by rw [hn] at h; cases h) hpost
  obtain ⟨hturn, hlook⟩ := TextProjectionState.turn_spec hturns
  by_cases h : turn = turnId ∧ id = itemId
  · have hheard : heardOf turnId itemId x.input.notification = .whole text := by
      rw [hn]
      exact if_pos h
    obtain ⟨rfl, rfl⟩ := h
    refine ⟨?_, ?_⟩
    · have hreply : x.reply = (fallbackEvent nextKey x.input.now x.input.context x.pre
          x.input.notification).2.toList := by
        rw [(makes_iff.mp hx).2, hn]
        exact List.append_nil _
      rw [hreply, hheard]
      by_cases hknown : heardIn turn id x.pre = true
      · have hmem : id ∈ (x.pre.turn nextKey turn).2.completedItems ∨
            id ∈ (x.pre.turn nextKey turn).2.deltaItems := by
          rw [hturn]
          exact (of_decide_eq_true hknown).symm
        rw [hn, hknown]
        simp only [fallbackEvent, if_pos hmem]
        rfl
      · have hmem : ¬ (id ∈ (x.pre.turn nextKey turn).2.completedItems ∨
            id ∈ (x.pre.turn nextKey turn).2.deltaItems) := by
          rw [hturn]
          exact fun h => hknown (decide_eq_true h.symm)
        have htext : (heardOf turn id x.input.notification).isText = true := by
          rw [hheard]
          rfl
        rw [eq_false_of_ne_true hknown, hn]
        simp only [fallbackEvent, if_neg hmem]
        rw [← hn, Option.toList_some, List.filterMap_cons, textOf_of_isText htext]
        rfl
    · rw [hpost, hheard, heardIn, TextProjectionState.look_put_self]
      exact decide_eq_true (Or.inr (Finset.mem_insert_self _ _))
  · refine tells_other ?_ ?_
    · rw [hn]
      exact if_neg h
    · rw [hpost, heardIn, heardIn, decide_eq_decide]
      by_cases hsame : turn = turnId
      · subst hsame
        have hitem : itemId ≠ id := fun heq => h ⟨rfl, heq.symm⟩
        rw [TextProjectionState.look_put_self, hturn, Finset.mem_insert]
        simp only [hitem, false_or]
      · rw [TextProjectionState.look_put_ne (Ne.symm hsame), hlook]

theorem tells {x : Projected} (hx : (textProjection nextKey).Makes x) (hkept : KeepsTurns x) :
    Tells turnId itemId x := by
  have hidle : heardOf turnId itemId x.input.notification = .other →
      (fallbackEvent nextKey x.input.now x.input.context x.pre x.input.notification).1 = x.pre →
      Tells turnId itemId x := by
    intro hother hsame
    exact tells_other hother (by rw [(makes_iff.mp hx).1, hsame])
  cases hn : x.input.notification with
  | agentMessageDelta thread turn item delta => exact tells_agentMessageDelta hx hkept hn
  | turnCompleted thread turn => exact tells_turnCompleted hx hn
  | itemCompleted item thread turn =>
    cases item with
    | agentMessage id text members => exact tells_agentMessage hx hkept hn
    | other value =>
      rw [hn] at hidle
      exact hidle rfl rfl
  | _ =>
    rw [hn] at hidle
    exact hidle rfl rfl

/-! ## Runs -/

variable {s t : TextProjectionState} {tr : List Projected}

/-- Along a run the text of a message is retold. -/
theorem texts_run (h : Run (textProjection nextKey) s tr t) (hkept : ∀ x ∈ tr, KeepsTurns x) :
    (tr.flatMap fun x => x.reply.filterMap (textOf turnId itemId x.input.notification)) =
      retold (heardIn turnId itemId s)
        (tr.map fun x => heardOf turnId itemId x.input.notification) := by
  induction h with
  | nil s => rfl
  | @cons x tr t hx _ ih =>
    obtain ⟨hfirst, hrest⟩ := List.forall_mem_cons.mp hkept
    have hstep : Tells turnId itemId x := tells hx hfirst
    rw [List.flatMap_cons, List.map_cons, retold, hstep.1, ih hrest, hstep.2]

/-- Along a run the children come out as they are in the notifications. -/
theorem children_run (h : Run (textProjection nextKey) s tr t) :
    (tr.flatMap fun x => x.reply.filterMap (childMarkIn x.input.notification.turnId)) =
      (tr.map (·.input)).flatMap childrenOf := by
  induction h with
  | nil s => rfl
  | @cons x tr t hx _ ih =>
    rw [List.flatMap_cons, List.map_cons, List.flatMap_cons, children_reply hx, ih]

/-- From the start, and unless a turn is evicted, everything comes out once exactly if the
    notifications are in order. -/
theorem exactlyOnce_iff_inOrder (h : Run (textProjection nextKey) {} tr t)
    (hkept : ∀ x ∈ tr, KeepsTurns x) : ExactlyOnce tr ↔ InOrder (tr.map (·.input)) := by
  have hlog : ∀ turnId itemId, (tr.map (·.input)).map (fun input =>
        heardOf turnId itemId input.notification) =
      tr.map fun x => heardOf turnId itemId x.input.notification :=
    fun turnId itemId => List.map_map
  have htexts : ∀ turnId itemId,
      (tr.flatMap fun x => x.reply.filterMap (textOf turnId itemId x.input.notification)) =
        retold false (tr.map fun x => heardOf turnId itemId x.input.notification) :=
    fun turnId itemId => texts_run h hkept
  constructor
  · rintro ⟨hchildren, honce⟩
    refine ⟨children_run h ▸ hchildren, fun turnId itemId => ?_⟩
    have hone := honce turnId itemId
    rw [htexts turnId itemId] at hone
    rw [hlog turnId itemId]
    exact toldOnce_iff.mp hone
  · rintro ⟨hchildren, horder⟩
    refine ⟨(children_run h).symm ▸ hchildren, fun turnId itemId => ?_⟩
    have hone := horder turnId itemId
    rw [hlog turnId itemId] at hone
    rw [htexts turnId itemId]
    exact toldOnce_iff.mpr hone

/-- The moves that some notifications make. -/
def movesOf (nextKey : List String → Option String) :
    TextProjectionState → List ProjectionInput → List Projected
  | _, [] => []
  | state, input :: rest =>
      let (next, events) := projectedEvents nextKey state input
      ⟨state, input, events, next⟩ :: movesOf nextKey next rest

theorem run_movesOf (state : TextProjectionState) (inputs : List ProjectionInput) :
    ∃ t, Run (textProjection nextKey) state (movesOf nextKey state inputs) t := by
  induction inputs generalizing state with
  | nil => exact ⟨state, .nil state⟩
  | cons input rest ih =>
    obtain ⟨t, hrest⟩ := ih (projectedEvents nextKey state input).1
    have hx : (textProjection nextKey).Makes ⟨state, input,
        (projectedEvents nextKey state input).2, (projectedEvents nextKey state input).1⟩ := rfl
    exact ⟨t, .cons hx hrest⟩

section

/-- A notification of the thread `thread`. -/
def noticed (notification : ServerNotification) : ProjectionInput :=
  ⟨notification, ⟨"tenant", "user", "session"⟩, 0⟩

def streamed : List ProjectionInput :=
  [noticed (.agentMessageDelta "thread" "turn" "message" "hello"),
    noticed (.itemCompleted (.agentMessage "message" "hello" []) "thread" "turn")]

/-- A message that is streamed and then completed comes out once. -/
theorem exactlyOnce_streamed : ExactlyOnce (movesOf (fun _ => none) {} streamed) := by
  obtain ⟨t, hrun⟩ := @run_movesOf (fun _ => none) {} streamed
  have hkept : ∀ x ∈ movesOf (fun _ => none) {} streamed, ∀ key ∈ x.pre.keys, key ∈ x.post.keys := by
    decide
  have hinputs : (movesOf (fun _ => none) {} streamed).map (·.input) = streamed := rfl
  have hchildren : streamed.flatMap childrenOf = [] := rfl
  refine (exactlyOnce_iff_inOrder hrun fun x hx key hkey => Or.inl (hkept x hx key hkey)).mpr ?_
  rw [hinputs]
  refine ⟨hchildren ▸ proper_nil, fun turnId itemId => toldOnce_iff.mp ?_⟩
  simp only [streamed, noticed, List.map_cons, List.map_nil, heardOf]
  split
  · exact fun _ => rfl
  · exact fun h => absurd rfl h

/-- The kernel spawns a child in a turn, and then reports its activity. -/
def spawned : List ProjectionInput :=
  [noticed (.itemStarted (.other (some (.object [("type", .string "collabAgentToolCall"),
      ("id", .string "call"), ("tool", .string "spawnAgent"),
      ("receiverThreadIds", .array [.string "child"]), ("status", .string "inProgress")])))
      "thread" "turn"),
    noticed (.itemCompleted (.other (some (.object [("type", .string "subAgentActivity"),
      ("id", .string "activity"), ("kind", .string "started"),
      ("agentThreadId", .string "child")]))) "thread" "turn")]

/-- The child is started twice, as neither event names the run. -/
theorem children_start_twice : ¬ ∀ nextKey tr t, Run (textProjection nextKey) {} tr t →
    (∀ x ∈ tr, KeepsTurns x) → ExactlyOnce tr := by
  intro h
  obtain ⟨t, hrun⟩ := @run_movesOf (fun _ => none) {} spawned
  have hkept : ∀ x ∈ movesOf (fun _ => none) {} spawned, ∀ key ∈ x.pre.keys, key ∈ x.post.keys := by
    decide
  have honce := h _ _ t hrun fun x hx key hkey => Or.inl (hkept x hx key hkey)
  have hcount := honce.children.starts_once ("turn", "child")
  rw [children_run hrun] at hcount
  exact absurd hcount (by decide)

end

end AiPlatform.Runtime
