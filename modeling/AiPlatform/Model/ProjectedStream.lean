/-
  AiPlatform.Model.ProjectedStream

  When the projected stream is well formed.

  The index of an item is the length of the output when it is told of, for a tool call with the
  provider's index added.  It is the place that the item gets only if nothing is added to the
  output before the item is: the reasoning has to come first and in one piece, text and tool
  calls exclude each other, and the calls have to be numbered without a gap.
-/

import AiPlatform.Lib.ItemStream
import AiPlatform.Model.ProjectedCalls

namespace ResponsesProjector

open ModelPlane ToolAliases AiPlatform.Checks ItemStream

/-! ## What is asked of the stream -/

def Item.content : Item → PyStr
  | .reasoning summary _ => summary.flatten
  | .message content _ => content.flatten
  | .functionCall _ _ _ arguments _ => arguments

/-- What an event tells of an item. -/
def noteOf : Payload → Option (Note ItemId PyChar)
  | .outputItemAdded outputIndex item => some ⟨item.id, outputIndex, .added⟩
  | .reasoningSummaryPartAdded outputIndex => some ⟨.reasoning, outputIndex, .other⟩
  | .reasoningSummaryTextDelta outputIndex delta => some ⟨.reasoning, outputIndex, .delta delta⟩
  | .reasoningSummaryTextDone outputIndex text => some ⟨.reasoning, outputIndex, .whole text⟩
  | .reasoningSummaryPartDone outputIndex text => some ⟨.reasoning, outputIndex, .whole text⟩
  | .contentPartAdded outputIndex => some ⟨.message, outputIndex, .other⟩
  | .outputTextDelta outputIndex delta => some ⟨.message, outputIndex, .delta delta⟩
  | .outputTextDone outputIndex text => some ⟨.message, outputIndex, .whole text⟩
  | .contentPartDone outputIndex text => some ⟨.message, outputIndex, .whole text⟩
  | .functionCallArgumentsDelta callId outputIndex delta => some ⟨.call callId, outputIndex, .delta delta⟩
  | .functionCallArgumentsDone callId outputIndex _ arguments => some ⟨.call callId, outputIndex, .whole arguments⟩
  | .outputItemDone outputIndex item => some ⟨item.id, outputIndex, .done item.content⟩
  | .responseCreated _ | .responseCompleted .. => none

def tells (events : List Event) : List (Note ItemId PyChar) := (events.map Event.payload).filterMap noteOf

/-- `response.completed.output`, of the last event -/
def completedOutput (events : List Event) : List ItemId :=
  match events.getLast?.map Event.payload with
  | some (.responseCompleted _ output _ _) => output.map Item.id
  | _ => []

namespace Delta

def isText : Delta → Bool
  | .text _ => true
  | _ => false

def isReasoning : Delta → Bool
  | .reasoning _ => true
  | _ => false

def isToolCalls : Delta → Bool
  | .toolCalls _ => true
  | _ => false

def textPart : Delta → PyStr
  | .text delta => delta
  | _ => []

def reasoningPart : Delta → PyStr
  | .reasoning delta => delta
  | _ => []

def rawCalls : Delta → List PyJson
  | .toolCalls (.list raws) => raws
  | _ => []

end Delta

/-- The entries of all tool call deltas. -/
def rawCalls (deltas : List Delta) : List PyJson := deltas.flatMap Delta.rawCalls

structure WellFormed (deltas : List Delta) (events : List Event) : Prop where
  numbered : events.map Event.sequenceNumber = List.range events.length
  proper : Proper (tells events) (completedOutput events)
  text : pieces .message (tells events) = deltas.flatMap Delta.textPart
  reasoning : pieces .reasoning (tells events) = deltas.flatMap Delta.reasoningPart
  arguments : ∀ index callId, GivesId (rawCalls deltas) index callId →
    pieces (.call callId) (tells events) = argumentsOf (rawCalls deltas) index

/-- Reasoning comes in one piece, after nothing but tool calls that cannot be told of yet. -/
def ReasoningFirst (deltas : List Delta) : Prop :=
  ∃ calls reasonings rest, deltas = calls ++ reasonings ++ rest ∧
    (∀ delta ∈ calls, delta.isToolCalls = true) ∧ (∀ index, ¬ Opens (rawCalls calls) index) ∧
    (∀ delta ∈ reasonings, delta.isReasoning = true) ∧ ∀ delta ∈ rest, delta.isReasoning = false

/-- Reasoning comes first, text and tool calls exclude each other, and the calls are numbered without a
    gap; all of them but the first get what it takes to be told of. -/
structure InOrder (deltas : List Delta) : Prop where
  reasoning_first : ReasoningFirst deltas
  not_both : deltas.any Delta.isText = true → rawCalls deltas = []
  no_gap : ∀ raw ∈ rawCalls deltas, ∀ index, indexOf raw = some index →
    ∀ lower < index, ∃ other ∈ rawCalls deltas, indexOf other = some lower
  opened : ∀ raw ∈ rawCalls deltas, ∀ index, indexOf raw = some index → 0 < index → Opens (rawCalls deltas) index

/-! ## Numbers -/

/-- The events are numbered on from the number of the projector. -/
def Numbered (s s' : Projector) (events : List Event) : Prop :=
  events.map Event.sequenceNumber = List.range' s.sequence events.length ∧ s'.sequence = s.sequence + events.length

section Numbers

variable {s s' s₁ : Projector} {events : List Event} {payloads : List Payload}

theorem numbered_nil (s : Projector) : Numbered s s [] := ⟨rfl, rfl⟩

theorem Numbered.append {before after : List Event} (h : Numbered s s₁ before) (h' : Numbered s₁ s' after) :
    Numbered s s' (before ++ after) := by
  constructor
  · rw [List.map_append, h.1, h'.1, h.2, List.length_append, List.range'_append_1]
  · rw [h'.2, h.2, List.length_append, Nat.add_assoc]

theorem emit_numbered (h : emit s₁ payloads = .ok (s', events)) (hsequence : s.sequence = s₁.sequence) :
    Numbered s s' events := by
  obtain ⟨rfl, rfl⟩ := emit_ok h
  constructor
  · rw [List.map_map, List.length_map, List.length_zipIdx, hsequence, List.range'_eq_map_range]
    have hindices := congrArg (List.map (s₁.sequence + ·)) (List.zipIdx_map_snd 0 payloads)
    rw [List.map_map, ← List.range_eq_range'] at hindices
    exact hindices
  · rw [List.length_map, List.length_zipIdx, hsequence]

theorem andThen_numbered {first : Except Raised (Projector × List Event)}
    {next : Projector → Except Raised (Projector × List Event)}
    (hfirst : ∀ s₁ before, first = .ok (s₁, before) → Numbered s s₁ before)
    (hnext : ∀ s₁ s' after, next s₁ = .ok (s', after) → Numbered s₁ s' after)
    (h : andThen first next = .ok (s', events)) : Numbered s s' events := by
  obtain ⟨s₁, before, after, hbefore, hafter, rfl⟩ := andThen_ok h
  exact (hfirst s₁ before hbefore).append (hnext s₁ s' after hafter)

theorem openReasoning_numbered (h : openReasoning s = .ok (s', events)) : Numbered s s' events := by
  unfold openReasoning at h
  split at h
  · obtain ⟨rfl, rfl⟩ := Prod.mk.inj (Except.ok.inj h)
    exact numbered_nil s
  · exact emit_numbered h rfl

theorem addReasoning_numbered {delta : PyStr} (h : addReasoning delta s = .ok (s', events)) :
    Numbered s s' events := by
  obtain ⟨size, -, h⟩ := bind_eq_ok.mp h
  split at h
  · cases h
  · exact emit_numbered h rfl

theorem closeReasoning_numbered (h : closeReasoning s = .ok (s', events)) : Numbered s s' events := by
  unfold closeReasoning at h
  split at h
  · obtain ⟨rfl, rfl⟩ := Prod.mk.inj (Except.ok.inj h)
    exact numbered_nil s
  · exact emit_numbered h rfl

theorem openMessage_numbered (h : openMessage s = .ok (s', events)) : Numbered s s' events := by
  unfold openMessage at h
  split at h
  · obtain ⟨rfl, rfl⟩ := Prod.mk.inj (Except.ok.inj h)
    exact numbered_nil s
  · exact emit_numbered h rfl

theorem addText_numbered {delta : PyStr} (h : addText delta s = .ok (s', events)) : Numbered s s' events := by
  obtain ⟨size, -, h⟩ := bind_eq_ok.mp h
  split at h
  · cases h
  · exact emit_numbered h rfl

theorem closeMessage_numbered (h : closeMessage s = .ok (s', events)) : Numbered s s' events := by
  unfold closeMessage at h
  split at h
  · obtain ⟨rfl, rfl⟩ := Prod.mk.inj (Except.ok.inj h)
    exact numbered_nil s
  · exact emit_numbered h rfl

theorem finish_numbered (h : finish s = .ok (s', events)) : Numbered s s' events := by
  unfold finish at h
  split at h
  · cases h
  · exact emit_numbered h rfl

theorem openToolCall_numbered {index : Nat} {call call' : Call} (h : openToolCall s index call = .ok (s', call', events)) :
    Numbered s s' events := by
  unfold openToolCall at h
  split at h
  · obtain ⟨rfl, rfl, rfl⟩ : s = s' ∧ call = call' ∧ [] = events := by simpa using Except.ok.inj h
    exact numbered_nil s
  · split at h
    · cases h
    · split at h
      · cases h
      · obtain ⟨⟨s₁, events₁⟩, hemit, h⟩ := bind_eq_ok.mp h
        obtain ⟨rfl, -, rfl⟩ : s₁ = s' ∧ named s.toolAliases call = call' ∧ events₁ = events := by
          simpa using Except.ok.inj h
        exact emit_numbered hemit rfl

theorem toolCallPart_numbered {raw : PyJson} (h : toolCallPart raw s = .ok (s', events)) : Numbered s s' events := by
  obtain ⟨index, call, bytes, -, -, hflush⟩ := toolCallPart_ok h
  unfold flushArguments at hflush
  split at hflush
  · obtain ⟨rfl, rfl⟩ := Prod.mk.inj (Except.ok.inj hflush)
    exact numbered_nil s
  · obtain ⟨⟨s₁, call₁, opening⟩, hopen, hflush⟩ := bind_eq_ok.mp hflush
    obtain ⟨⟨s₂, after⟩, hemit, hflush⟩ := bind_eq_ok.mp hflush
    obtain ⟨rfl, rfl⟩ := Prod.mk.inj (Except.ok.inj hflush)
    have hopened := openToolCall_numbered hopen
    have hall := hopened.append (emit_numbered hemit rfl)
    exact hall

theorem toolCallParts_numbered {raws : List PyJson} (h : toolCallParts raws s = .ok (s', events)) :
    Numbered s s' events := by
  induction raws generalizing s s' events with
  | nil =>
    obtain ⟨rfl, rfl⟩ := Prod.mk.inj (Except.ok.inj h)
    exact numbered_nil s
  | cons raw later ih => exact andThen_numbered (fun _ _ => toolCallPart_numbered) (fun _ _ _ => ih) h

theorem closeCalls_numbered {base : Nat} {calls : List (Nat × Call)} (h : closeCalls base calls s = .ok (s', events)) :
    Numbered s s' events := by
  induction calls generalizing s s' events with
  | nil =>
    obtain ⟨rfl, rfl⟩ := Prod.mk.inj (Except.ok.inj h)
    exact numbered_nil s
  | cons entry later ih =>
    refine andThen_numbered (fun s₁ before hfirst => ?_) (fun _ _ _ => ih) h
    obtain ⟨⟨s₂, call₂, opening⟩, hopen, hfirst⟩ := bind_eq_ok.mp hfirst
    obtain ⟨⟨s₃, after⟩, hemit, hfirst⟩ := bind_eq_ok.mp hfirst
    obtain ⟨rfl, rfl⟩ := Prod.mk.inj (Except.ok.inj hfirst)
    exact (openToolCall_numbered hopen).append (emit_numbered hemit rfl)

theorem project_numbered {delta : Delta} (h : project delta s = .ok (s', events)) : Numbered s s' events := by
  cases delta with
  | toolCalls rawCalls =>
    cases rawCalls with
    | list raws =>
      exact andThen_numbered (fun _ _ => closeReasoning_numbered) (fun _ _ _ => toolCallParts_numbered) h
    | _ => cases h
  | reasoning delta => exact andThen_numbered (fun _ _ => openReasoning_numbered) (fun _ _ _ => addReasoning_numbered) h
  | text delta =>
    refine andThen_numbered (fun s₁ before hfirst => ?_) (fun _ _ _ => addText_numbered) h
    exact andThen_numbered (fun _ _ => closeReasoning_numbered) (fun _ _ _ => openMessage_numbered) hfirst

theorem complete_numbered (h : complete s = .ok (s', events)) : Numbered s s' events := by
  refine andThen_numbered (fun s₁ before hfirst => ?_) (fun _ _ _ => finish_numbered) h
  refine andThen_numbered (fun s₁ before hfirst => ?_) (fun _ _ _ => closeMessage_numbered) hfirst
  exact andThen_numbered (fun _ _ => closeReasoning_numbered) (fun _ _ _ => closeCalls_numbered) hfirst

end Numbers

/-! ## Runs -/

/-- The deltas passed on one after the other, with what is read of the usage in between. -/
inductive Runs (start : Projector) : List Delta → List Event → Projector → Prop where
  | nil : Runs start [] [] start
  | usage {deltas : List Delta} {events : List Event} {s : Projector} (usage : Option Usage)
      (h : Runs start deltas events s) : Runs start deltas events { s with usage := usage }
  | step {deltas : List Delta} {events more : List Event} {s s' : Projector} {delta : Delta}
      (h : Runs start deltas events s) (hstep : project delta s = .ok (s', more)) :
      Runs start (deltas ++ [delta]) (events ++ more) s'

section Runs

variable {start s s' : Projector} {deltas later : List Delta} {events more : List Event}

theorem Runs.projectAll (h : Runs start deltas events s) (hall : projectAll later s = .ok (s', more)) :
    Runs start (deltas ++ later) (events ++ more) s' := by
  induction later generalizing deltas events more s with
  | nil =>
    obtain ⟨rfl, rfl⟩ := Prod.mk.inj (Except.ok.inj hall)
    rwa [List.append_nil, List.append_nil]
  | cons delta later ih =>
    obtain ⟨s₁, before, after, hfirst, hrest, rfl⟩ := andThen_ok hall
    have hrun := ih (h.step hfirst) hrest
    rwa [List.append_assoc, List.append_assoc] at hrun

theorem Runs.setUsage (h : Runs start deltas events s) (raw : PyJson) :
    Runs start deltas events (setUsage raw s) := by
  unfold ResponsesProjector.setUsage
  split
  · exact h.usage _
  · exact h

theorem Runs.passChoices {stream stream' : Stream} {start : Projector} {before : List Event} {choices : List PyJson}
    (h : Runs start deltas events stream.projector) (hevents : stream.events = before ++ events)
    (hpass : choices.foldlM passChoice stream = .ok stream') :
    ∃ events', Runs start (deltas ++ choices.flatMap fun choice => deltasOfDelta (choice.get (lit "delta"))) events'
      stream'.projector ∧ stream'.events = before ++ events' := by
  induction choices generalizing deltas events stream with
  | nil =>
    obtain rfl := Except.ok.inj hpass
    rw [List.flatMap_nil, List.append_nil]
    exact ⟨events, h, hevents⟩
  | cons choice later ih =>
    rw [List.foldlM_cons] at hpass
    obtain ⟨next, hnext, hlater⟩ := bind_eq_ok.mp hpass
    obtain ⟨terminal, -, hnext⟩ := bind_eq_ok.mp hnext
    obtain ⟨⟨projector, more⟩, hall, hnext⟩ := bind_eq_ok.mp hnext
    obtain rfl := Except.ok.inj hnext
    have hrun := ih (h.projectAll hall) (by rw [hevents, List.append_assoc]) hlater
    rwa [List.append_assoc] at hrun

theorem Runs.passEvents {stream stream' : Stream} {start : Projector} {before : List Event}
    {providerEvents : List PyJson} (h : Runs start deltas events stream.projector)
    (hevents : stream.events = before ++ events) (hpass : providerEvents.foldlM passEvent stream = .ok stream') :
    ∃ events', Runs start (deltas ++ providerEvents.flatMap deltasOf) events' stream'.projector ∧
      stream'.events = before ++ events' := by
  induction providerEvents generalizing deltas events stream with
  | nil =>
    obtain rfl := Except.ok.inj hpass
    rw [List.flatMap_nil, List.append_nil]
    exact ⟨events, h, hevents⟩
  | cons event later ih =>
    rw [List.foldlM_cons] at hpass
    obtain ⟨next, hnext, hlater⟩ := bind_eq_ok.mp hpass
    unfold passEvent at hnext
    split at hnext
    · cases hnext
    · dsimp only at hnext
      generalize hread : { stream with projector := ResponsesProjector.setUsage (event.get (lit "usage")) stream.projector } = read at hnext
      have hrun : Runs start deltas events read.projector := hread ▸ h.setUsage (event.get (lit "usage"))
      have hevents' : read.events = before ++ events := hread ▸ hevents
      obtain ⟨events₁, hrun, hevents₁⟩ := hrun.passChoices hevents' hnext
      have hall := ih hrun hevents₁ hlater
      rwa [List.append_assoc] at hall

end Runs

/-- A stream is the event of its creation, a run and what completes it. -/
theorem stream_ok {projector : Projector} {providerEvents : List PyJson} {done : Bool} {events : List Event}
    (h : stream projector providerEvents done = .ok events) :
    ∃ before middle after s s' , emit projector [.responseCreated projector.modelId] =
        .ok ({ projector with sequence := projector.sequence + 1 }, before) ∧
      Runs { projector with sequence := projector.sequence + 1 } (providerEvents.flatMap deltasOf) middle s ∧
      complete s = .ok (s', after) ∧ events = before ++ middle ++ after := by
  obtain ⟨⟨s₀, before⟩, hcreated, h⟩ := bind_eq_ok.mp h
  obtain ⟨passed, hpassed, h⟩ := bind_eq_ok.mp h
  split at h
  · cases h
  · obtain ⟨⟨s', after⟩, hcomplete, h⟩ := bind_eq_ok.mp h
    obtain rfl := Except.ok.inj h
    obtain rfl := (emit_ok hcreated).1
    obtain ⟨middle, hrun, hevents⟩ := Runs.passEvents .nil (List.append_nil before).symm hpassed
    exact ⟨before, middle, after, passed.projector, s', hcreated, hrun, hcomplete, by rw [hevents]⟩

theorem Runs.numbered {start s : Projector} {deltas : List Delta} {events : List Event}
    (h : Runs start deltas events s) : Numbered start s events := by
  induction h with
  | nil => exact numbered_nil start
  | usage _ _ ih => exact ih
  | step _ hstep ih => exact ih.append (project_numbered hstep)

end ResponsesProjector
