/-
  AiPlatform.Model.ProjectedCalls

  What each step of the projector does, and what the projector knows of the tool calls.

  A call is told once its id, its name and some of its arguments have come; from then on its
  arguments go out as they come.  `CallsOk` says what is known of the entries read so far.
-/

import AiPlatform.Model.ResponsesProjector

namespace ResponsesProjector

open ModelPlane ToolAliases AiPlatform.Checks

/-! ## Steps -/

section Steps

variable {s s' s₁ : Projector} {events : List Event} {payloads : List Payload}

theorem emit_ok (h : emit s payloads = .ok (s', events)) :
    s' = { s with sequence := s.sequence + payloads.length } ∧
      events = payloads.zipIdx.map fun (payload, i) => ⟨s.sequence + i, payload⟩ := by
  unfold emit at h
  split at h
  · obtain ⟨rfl, rfl⟩ := Prod.mk.inj (Except.ok.inj h)
    exact ⟨rfl, rfl⟩
  · cases h

theorem payloads_emit (h : emit s payloads = .ok (s', events)) : events.map Event.payload = payloads := by
  rw [(emit_ok h).2, List.map_map]
  exact List.zipIdx_map_fst 0 payloads

theorem andThen_ok {first : Except Raised (Projector × List Event)}
    {next : Projector → Except Raised (Projector × List Event)} (h : andThen first next = .ok (s', events)) :
    ∃ s₁ before after, first = .ok (s₁, before) ∧ next s₁ = .ok (s', after) ∧ events = before ++ after := by
  obtain ⟨⟨s₁, before⟩, hfirst, h⟩ := bind_eq_ok.mp h
  obtain ⟨⟨s₂, after⟩, hnext, h⟩ := bind_eq_ok.mp h
  obtain ⟨rfl, rfl⟩ := Prod.mk.inj (Except.ok.inj h)
  exact ⟨s₁, before, after, hfirst, hnext, rfl⟩

theorem openReasoning_ok (h : openReasoning s = .ok (s', events)) :
    (s.reasoningOpen = true ∧ s' = s ∧ events = []) ∨
      (s.reasoningOpen = false ∧
        s' = { s with reasoningOpen := true, sequence := s.sequence + 2 } ∧
        events.map Event.payload = [.outputItemAdded s.output.length (.reasoning [] false),
          .reasoningSummaryPartAdded s.output.length]) := by
  unfold openReasoning at h
  split at h
  · case isTrue hopen =>
    obtain ⟨rfl, rfl⟩ := Prod.mk.inj (Except.ok.inj h)
    exact .inl ⟨hopen, rfl, rfl⟩
  · case isFalse hopen =>
    exact .inr ⟨Bool.eq_false_iff.mpr hopen, (emit_ok h).1, payloads_emit h⟩

theorem addReasoning_ok {delta : PyStr} (h : addReasoning delta s = .ok (s', events)) :
    ∃ size, s' = { s with
        reasoningBytes := s.reasoningBytes + size
        reasoning := s.reasoning ++ delta
        sequence := s.sequence + 1 } ∧
      events.map Event.payload = [.reasoningSummaryTextDelta s.output.length delta] := by
  obtain ⟨size, -, h⟩ := bind_eq_ok.mp h
  split at h
  · cases h
  · exact ⟨size, (emit_ok h).1, payloads_emit h⟩

theorem closeReasoning_ok (h : closeReasoning s = .ok (s', events)) :
    ((s.reasoningOpen = true → s.reasoningClosed = true) ∧ s' = s ∧ events = []) ∨
      (s.reasoningOpen = true ∧ s.reasoningClosed = false ∧
        s' = { s with
          output := s.output ++ [.reasoning [s.reasoning] true]
          reasoningClosed := true
          sequence := s.sequence + 3 } ∧
        events.map Event.payload = [.reasoningSummaryTextDone s.output.length s.reasoning,
          .reasoningSummaryPartDone s.output.length s.reasoning,
          .outputItemDone s.output.length (.reasoning [s.reasoning] true)]) := by
  unfold closeReasoning at h
  split at h
  · case isTrue hsettled =>
    obtain ⟨rfl, rfl⟩ := Prod.mk.inj (Except.ok.inj h)
    exact .inl ⟨fun hopen => by simpa [hopen] using hsettled, rfl, rfl⟩
  · case isFalse hunsettled =>
    obtain ⟨hopen, hclosed⟩ : s.reasoningOpen = true ∧ s.reasoningClosed = false := by simpa using hunsettled
    exact .inr ⟨hopen, hclosed, (emit_ok h).1, payloads_emit h⟩

theorem openMessage_ok (h : openMessage s = .ok (s', events)) :
    (s.messageOpen = true ∧ s' = s ∧ events = []) ∨
      (s.messageOpen = false ∧
        s' = { s with messageOpen := true, sequence := s.sequence + 2 } ∧
        events.map Event.payload = [.outputItemAdded s.output.length (.message [] false),
          .contentPartAdded s.output.length]) := by
  unfold openMessage at h
  split at h
  · case isTrue hopen =>
    obtain ⟨rfl, rfl⟩ := Prod.mk.inj (Except.ok.inj h)
    exact .inl ⟨hopen, rfl, rfl⟩
  · case isFalse hopen =>
    exact .inr ⟨Bool.eq_false_iff.mpr hopen, (emit_ok h).1, payloads_emit h⟩

theorem addText_ok {delta : PyStr} (h : addText delta s = .ok (s', events)) :
    ∃ size, s' = { s with
        textBytes := s.textBytes + size
        text := s.text ++ delta
        sequence := s.sequence + 1 } ∧
      events.map Event.payload = [.outputTextDelta s.output.length delta] := by
  obtain ⟨size, -, h⟩ := bind_eq_ok.mp h
  split at h
  · cases h
  · exact ⟨size, (emit_ok h).1, payloads_emit h⟩

theorem closeMessage_ok (h : closeMessage s = .ok (s', events)) :
    ((s.messageOpen = true → s.messageClosed = true) ∧ s' = s ∧ events = []) ∨
      (s.messageOpen = true ∧ s.messageClosed = false ∧
        s' = { s with
          output := s.output ++ [.message [s.text] true]
          messageClosed := true
          sequence := s.sequence + 3 } ∧
        events.map Event.payload = [.outputTextDone s.output.length s.text,
          .contentPartDone s.output.length s.text,
          .outputItemDone s.output.length (.message [s.text] true)]) := by
  unfold closeMessage at h
  split at h
  · case isTrue hsettled =>
    obtain ⟨rfl, rfl⟩ := Prod.mk.inj (Except.ok.inj h)
    exact .inl ⟨fun hopen => by simpa [hopen] using hsettled, rfl, rfl⟩
  · case isFalse hunsettled =>
    obtain ⟨hopen, hclosed⟩ : s.messageOpen = true ∧ s.messageClosed = false := by simpa using hunsettled
    exact .inr ⟨hopen, hclosed, (emit_ok h).1, payloads_emit h⟩

theorem finish_ok (h : finish s = .ok (s', events)) :
    ∃ usage total, s'.output = s.output ∧ s'.sequence = s.sequence + 1 ∧
      events.map Event.payload = [.responseCompleted s.modelId s.output usage total] := by
  unfold finish at h
  split at h
  · cases h
  · obtain rfl := (emit_ok h).1
    exact ⟨_, _, rfl, rfl, payloads_emit h⟩

end Steps

/-! ## Entries of a delta -/

section Entries

variable (raws : List PyJson) (index : Nat)

/-- The entry has an id for the call. -/
def GivesId (callId : PyStr) : Prop :=
  ∃ raw ∈ raws, indexOf raw = some index ∧ raw.get (lit "id") = .str callId

/-- An entry has a name, or a part of it, for the call. -/
def GivesName : Prop :=
  ∃ raw ∈ raws, indexOf raw = some index ∧ (functionOf raw).get (lit "name") ≠ .none

def givenArguments (raw : PyJson) : PyStr := (((functionOf raw).get (lit "arguments")).asStr).getD []

/-- All arguments that the entries have for the call. -/
def argumentsOf : PyStr := (raws.filter fun raw => indexOf raw = some index).flatMap givenArguments

/-- The entries have all that it takes to tell of the call. -/
def Opens : Prop := (∃ callId, GivesId raws index callId) ∧ GivesName raws index ∧ argumentsOf raws index ≠ []

end Entries

/-- What an entry makes of its call. -/
structure Takes (s : Projector) (raw : PyJson) (index : Nat) (call call' : Call) : Prop where
  callId : (raw.get (lit "id") = .none ∧ call'.callId = call.callId) ∨
    (raw.get (lit "id") = .str call'.callId ∧ call'.callId ≠ [] ∧
      (call.callId ≠ [] → call'.callId = call.callId) ∧
      ∀ other ∈ s.toolCalls, other.1 ≠ index → other.2.callId ≠ call'.callId)
  wireName : ((functionOf raw).get (lit "name") = .none ∧ call'.wireName = call.wireName) ∨
    ((functionOf raw).get (lit "name") ≠ .none ∧ call'.wireName ≠ [])
  arguments : call'.arguments = call.arguments ++ givenArguments raw
  pendingArguments : call'.pendingArguments = call.pendingArguments ++ givenArguments raw

section Entries

variable {s s' : Projector} {raw : PyJson} {index : Nat} {call call' : Call} {events : List Event}

theorem setCallId_ok {callId : PyJson} (h : setCallId s.toolCalls index callId call = .ok call') :
    (callId = .none ∧ call' = call) ∨
      ∃ given, callId = .str given ∧ given ≠ [] ∧ (call.callId ≠ [] → given = call.callId) ∧
        (∀ other ∈ s.toolCalls, other.1 ≠ index → other.2.callId ≠ given) ∧
        call' = { call with callId := given } := by
  unfold setCallId at h
  split at h
  · exact .inl ⟨rfl, (Except.ok.inj h).symm⟩
  · rename_i given
    split at h
    · cases h
    · case isFalse hgood =>
      obtain rfl := Except.ok.inj h
      simp only [ne_eq, Bool.or_eq_true, decide_eq_true_eq, Bool.and_eq_true, List.any_eq_true, not_or,
        not_and, not_exists, not_not] at hgood
      obtain ⟨⟨⟨hne, -⟩, hsame⟩, hother⟩ := hgood
      exact .inr ⟨given, rfl, hne, fun hset => (hsame hset).symm,
        fun other hmem hindex heq => hother other hmem hindex heq, rfl⟩
  · cases h

theorem setWireName_ok {name : PyJson} (h : setWireName s index name call = .ok call') :
    (name = .none ∧ call' = call) ∨
      (name ≠ .none ∧ ∃ wireName, wireName ≠ [] ∧ call' = { call with wireName := wireName }) := by
  unfold setWireName at h
  split at h
  · exact .inl ⟨rfl, (Except.ok.inj h).symm⟩
  · rename_i given
    dsimp only at h
    generalize (if given = call.wireName then call.wireName else call.wireName ++ given) = wireName at h
    split at h
    · cases h
    · case isFalse hname =>
      split at h
      · cases h
      · split at h
        · cases h
        · obtain rfl := Except.ok.inj h
          refine .inr ⟨PyJson.noConfusion, wireName, ?_, rfl⟩
          intro hnil
          rw [hnil] at hname
          exact hname rfl
  · cases h

theorem addArguments_ok {arguments : PyJson} {size : Nat} (h : addArguments s arguments call = .ok (call', size)) :
    ∃ bytes, call' = { call with
      argumentBytes := bytes
      arguments := call.arguments ++ arguments.asStr.getD []
      pendingArguments := call.pendingArguments ++ arguments.asStr.getD [] } := by
  unfold addArguments at h
  split at h
  · case isTrue hfalsy =>
    obtain ⟨rfl, -⟩ := Prod.mk.inj (Except.ok.inj h)
    have hnone : arguments.asStr.getD [] = [] := by
      cases arguments with
      | str text =>
        have hempty : text = [] := by simpa [PyJson.truthy] using hfalsy
        exact hempty
      | _ => rfl
    rw [hnone, List.append_nil, List.append_nil]
    exact ⟨call.argumentBytes, rfl⟩
  · split at h
    · rename_i text
      obtain ⟨bytes, -, h⟩ := bind_eq_ok.mp h
      split at h
      · cases h
      · obtain ⟨rfl, -⟩ := Prod.mk.inj (Except.ok.inj h)
        exact ⟨_, rfl⟩
    · cases h

theorem toolCallPart_ok (h : toolCallPart raw s = .ok (s', events)) :
    ∃ index call bytes, indexOf raw = some index ∧
      Takes s raw index ((s.toolCalls.lookup index).getD .new) call ∧
      flushArguments { s with toolCalls := Assoc.set index call s.toolCalls, toolArgumentBytes := bytes } index call =
        .ok (s', events) := by
  unfold toolCallPart at h
  split at h
  · cases h
  · split at h
    · cases h
    · rename_i index hindex
      split at h
      · cases h
      · split at h
        · cases h
        · obtain ⟨call₁, hcallId, h⟩ := bind_eq_ok.mp h
          obtain ⟨call₂, hname, h⟩ := bind_eq_ok.mp h
          obtain ⟨⟨call₃, size⟩, harguments, h⟩ := bind_eq_ok.mp h
          refine ⟨index, call₃, _, hindex, ?_, h⟩
          obtain ⟨bytes, rfl⟩ := addArguments_ok harguments
          have hids := setCallId_ok hcallId
          have hnames := setWireName_ok hname
          have hsame : call₂.callId = call₁.callId ∧ call₂.arguments = call₁.arguments ∧
              call₂.pendingArguments = call₁.pendingArguments := by
            rcases hnames with ⟨-, rfl⟩ | ⟨-, wireName, -, rfl⟩
            · exact ⟨rfl, rfl, rfl⟩
            · exact ⟨rfl, rfl, rfl⟩
          constructor
          · show _ ∨ _
            rw [hsame.1]
            rcases hids with ⟨hnone, rfl⟩ | ⟨given, hgiven, hne, hkept, hother, rfl⟩
            · exact .inl ⟨hnone, rfl⟩
            · exact .inr ⟨hgiven, hne, hkept, hother⟩
          · rcases hnames with ⟨hnone, rfl⟩ | ⟨hsome, wireName, hne, rfl⟩
            · refine .inl ⟨hnone, ?_⟩
              rcases hids with ⟨-, rfl⟩ | ⟨given, -, -, -, -, rfl⟩
              · rfl
              · rfl
            · exact .inr ⟨hsome, hne⟩
          · show call₂.arguments ++ _ = _
            rw [hsame.2.1]
            rcases hids with ⟨-, rfl⟩ | ⟨given, -, -, -, -, rfl⟩
            · rfl
            · rfl
          · show call₂.pendingArguments ++ _ = _
            rw [hsame.2.2]
            rcases hids with ⟨-, rfl⟩ | ⟨given, -, -, -, -, rfl⟩
            · rfl
            · rfl

theorem openToolCall_ok (h : openToolCall s index call = .ok (s', call', events)) :
    (index ∈ s.toolCallItemsAdded ∧ s' = s ∧ call' = call ∧ events = []) ∨
      (index ∉ s.toolCallItemsAdded ∧ call.callId ≠ [] ∧ call.wireName ≠ [] ∧ call' = named s.toolAliases call ∧
        s' = { s with
          toolCalls := Assoc.set index call' s.toolCalls
          toolCallItemsAdded := s.toolCallItemsAdded ++ [index]
          sequence := s.sequence + 1 } ∧
        events.map Event.payload =
          [.outputItemAdded (s.output.length + index) ({ call' with arguments := [] }.item false)]) := by
  unfold openToolCall at h
  split at h
  · case isTrue hadded =>
    have heq := Except.ok.inj h
    obtain ⟨rfl, rfl, rfl⟩ : s = s' ∧ call = call' ∧ [] = events := by simpa using heq
    exact .inl ⟨by simpa using hadded, rfl, rfl, rfl⟩
  · case isFalse hadded =>
    split at h
    · cases h
    · case isFalse hready =>
      split at h
      · cases h
      · obtain ⟨⟨s₁, events₁⟩, hemit, h⟩ := bind_eq_ok.mp h
        have heq := Except.ok.inj h
        obtain ⟨rfl, rfl, rfl⟩ : s₁ = s' ∧ named s.toolAliases call = call' ∧ events₁ = events := by simpa using heq
        obtain ⟨hid, hname⟩ : call.callId ≠ [] ∧ call.wireName ≠ [] := by simpa using hready
        exact .inr ⟨by simpa using hadded, hid, hname, rfl, (emit_ok hemit).1, payloads_emit hemit⟩

theorem named_callId (toolAliases : List (PyStr × Identity)) (call : Call) :
    (named toolAliases call).callId = call.callId ∧ (named toolAliases call).wireName = call.wireName ∧
      (named toolAliases call).arguments = call.arguments ∧
      (named toolAliases call).pendingArguments = call.pendingArguments := by
  unfold named
  split
  · exact ⟨rfl, rfl, rfl, rfl⟩
  · exact ⟨rfl, rfl, rfl, rfl⟩

/-- Either the call has to wait, or its arguments go out, and it is told of first if it was not. -/
theorem flushArguments_ok (h : flushArguments s index call = .ok (s', events)) :
    ((call.callId = [] ∨ call.wireName = [] ∨ call.pendingArguments = []) ∧ s' = s ∧ events = []) ∨
      (call.callId ≠ [] ∧ call.wireName ≠ [] ∧ call.pendingArguments ≠ [] ∧
        ((index ∈ s.toolCallItemsAdded ∧
            s' = { s with
              toolCalls := Assoc.set index { call with pendingArguments := [] } s.toolCalls
              sequence := s.sequence + 1 } ∧
            events.map Event.payload =
              [.functionCallArgumentsDelta call.callId (s.output.length + index) call.pendingArguments]) ∨
          (index ∉ s.toolCallItemsAdded ∧
            s' = { s with
              toolCalls := Assoc.set index { named s.toolAliases call with pendingArguments := [] } s.toolCalls
              toolCallItemsAdded := s.toolCallItemsAdded ++ [index]
              sequence := s.sequence + 2 } ∧
            events.map Event.payload =
              [.outputItemAdded (s.output.length + index) ({ named s.toolAliases call with arguments := [] }.item false),
                .functionCallArgumentsDelta call.callId (s.output.length + index) call.pendingArguments]))) := by
  unfold flushArguments at h
  split at h
  · case isTrue hwaits =>
    obtain ⟨rfl, rfl⟩ := Prod.mk.inj (Except.ok.inj h)
    refine .inl ⟨?_, rfl, rfl⟩
    simpa [or_assoc] using hwaits
  · case isFalse hready =>
    obtain ⟨⟨hid, hname⟩, hpending⟩ :
        (call.callId ≠ [] ∧ call.wireName ≠ []) ∧ call.pendingArguments ≠ [] := by simpa using hready
    refine .inr ⟨hid, hname, hpending, ?_⟩
    obtain ⟨⟨s₁, call₁, opening⟩, hopen, h⟩ := bind_eq_ok.mp h
    obtain ⟨⟨s₂, after⟩, hemit, h⟩ := bind_eq_ok.mp h
    obtain ⟨rfl, rfl⟩ := Prod.mk.inj (Except.ok.inj h)
    have hpayloads := payloads_emit hemit
    obtain rfl := (emit_ok hemit).1
    rw [List.map_append, hpayloads]
    rcases openToolCall_ok hopen with ⟨hadded, rfl, rfl, rfl⟩ | ⟨hadded, -, -, rfl, rfl, hopening⟩
    · exact .inl ⟨hadded, rfl, rfl⟩
    · obtain ⟨hcallId, -, -, hkept⟩ := named_callId s.toolAliases call
      refine .inr ⟨hadded, ?_, ?_⟩
      · dsimp only
        rw [Assoc.set_set]
        rfl
      · rw [hopening]
        simp only [Call.item, hcallId, hkept, List.cons_append, List.nil_append]

end Entries

/-! ## What the entries leave -/

/-- What is known of a call after the entries. -/
structure CallOk (raws : List PyJson) (added : List Nat) (index : Nat) (call : Call) : Prop where
  callId : ∀ callId, GivesId raws index callId ↔ callId = call.callId ∧ call.callId ≠ []
  wireName : GivesName raws index ↔ call.wireName ≠ []
  arguments : call.arguments = argumentsOf raws index
  opened : index ∈ added →
    call.callId ≠ [] ∧ call.wireName ≠ [] ∧ call.arguments ≠ [] ∧ call.pendingArguments = []
  waiting : index ∉ added → call.pendingArguments = call.arguments ∧
    (call.callId = [] ∨ call.wireName = [] ∨ call.arguments = [])

structure CallsOk (s : Projector) (raws : List PyJson) : Prop where
  indexed : ∀ raw ∈ raws, ∃ index, indexOf raw = some index
  keys : (s.toolCalls.map Prod.fst).Nodup
  asked : ∀ index, index ∈ s.toolCalls.map Prod.fst ↔ ∃ raw ∈ raws, indexOf raw = some index
  call : ∀ index call, s.toolCalls.lookup index = some call → CallOk raws s.toolCallItemsAdded index call
  distinct : ∀ i j c d, s.toolCalls.lookup i = some c → s.toolCalls.lookup j = some d →
    c.callId = d.callId → c.callId ≠ [] → i = j
  added : ∀ index ∈ s.toolCallItemsAdded, index ∈ s.toolCalls.map Prod.fst

section Known

variable {s s' : Projector} {raws : List PyJson} {raw : PyJson} {index : Nat} {call call' : Call} {added : List Nat}
  {events : List Event}

theorem givesId_snoc {callId : PyStr} : GivesId (raws ++ [raw]) index callId ↔
    GivesId raws index callId ∨ (indexOf raw = some index ∧ raw.get (lit "id") = .str callId) := by
  simp only [GivesId, List.mem_append, List.mem_singleton, or_and_right, exists_or, exists_eq_left]

theorem givesName_snoc : GivesName (raws ++ [raw]) index ↔
    GivesName raws index ∨ (indexOf raw = some index ∧ (functionOf raw).get (lit "name") ≠ .none) := by
  simp only [GivesName, List.mem_append, List.mem_singleton, or_and_right, exists_or, exists_eq_left]

theorem argumentsOf_snoc : argumentsOf (raws ++ [raw]) index =
    argumentsOf raws index ++ if indexOf raw = some index then givenArguments raw else [] := by
  unfold argumentsOf
  rw [List.filter_append, List.flatMap_append, List.filter_singleton]
  by_cases h : indexOf raw = some index
  · simp [h]
  · simp [h]

/-- An entry for another call changes nothing. -/
theorem CallOk.other (h : CallOk raws added index call) (hother : indexOf raw ≠ some index) {added' : List Nat}
    (hadded : index ∈ added' ↔ index ∈ added) : CallOk (raws ++ [raw]) added' index call where
  callId callId := by
    rw [givesId_snoc, h.callId]
    exact or_iff_left fun hraw => hother hraw.1
  wireName := by
    rw [givesName_snoc, h.wireName]
    exact or_iff_left fun hraw => hother hraw.1
  arguments := by rw [argumentsOf_snoc, if_neg hother, List.append_nil, h.arguments]
  opened hmem := h.opened (hadded.mp hmem)
  waiting hmem := h.waiting fun hin => hmem (hadded.mpr hin)

theorem CallsOk.found (h : CallsOk s raws) (index : Nat) :
    CallOk raws s.toolCallItemsAdded index ((s.toolCalls.lookup index).getD .new) := by
  cases hlookup : s.toolCalls.lookup index with
  | some call => exact h.call index call hlookup
  | none =>
    have hkey := Assoc.lookup_eq_none_iff.mp hlookup
    have hnone : ∀ raw ∈ raws, indexOf raw ≠ some index := by
      intro raw hraw hindex
      exact hkey ((h.asked index).mpr ⟨raw, hraw, hindex⟩)
    exact
      { callId := fun callId => by
          refine iff_of_false ?_ fun hset => hset.2 rfl
          rintro ⟨raw, hraw, hindex, -⟩
          exact hnone raw hraw hindex
        wireName := by
          refine iff_of_false ?_ fun hset => hset rfl
          rintro ⟨raw, hraw, hindex, -⟩
          exact hnone raw hraw hindex
        arguments := by
          have hfilter : (raws.filter fun raw => indexOf raw = some index) = [] :=
            List.filter_eq_nil_iff.mpr fun raw hraw => by simpa using hnone raw hraw
          rw [argumentsOf, hfilter]
          rfl
        opened := fun hmem => absurd (h.added index hmem) hkey
        waiting := fun _ => ⟨rfl, .inl rfl⟩ }

/-- What an entry for the call makes known of it. -/
theorem CallOk.takes (h : CallOk raws added index call) (hindex : indexOf raw = some index)
    (htakes : Takes s raw index call call') :
    (∀ callId, GivesId (raws ++ [raw]) index callId ↔ callId = call'.callId ∧ call'.callId ≠ []) ∧
      (GivesName (raws ++ [raw]) index ↔ call'.wireName ≠ []) ∧
      call'.arguments = argumentsOf (raws ++ [raw]) index := by
  refine ⟨fun callId => ?_, ?_, ?_⟩
  · rw [givesId_snoc, h.callId]
    rcases htakes.callId with ⟨hnone, hsame⟩ | ⟨hgiven, hne, hkept, -⟩
    · rw [hnone, hsame]
      exact or_iff_left fun hraw => PyJson.noConfusion hraw.2
    · rw [hgiven]
      constructor
      · rintro (⟨rfl, hset⟩ | ⟨-, heq⟩)
        · exact ⟨(hkept hset).symm, hne⟩
        · exact ⟨(PyJson.str.inj heq).symm, hne⟩
      · rintro ⟨rfl, -⟩
        exact .inr ⟨hindex, rfl⟩
  · rw [givesName_snoc, h.wireName]
    rcases htakes.wireName with ⟨hnone, hsame⟩ | ⟨hsome, hne⟩
    · rw [hnone, hsame]
      exact or_iff_left fun hraw => hraw.2 rfl
    · exact iff_of_true (.inr ⟨hindex, hsome⟩) hne
  · rw [argumentsOf_snoc, if_pos hindex, htakes.arguments, h.arguments]

/-- What an entry changes: its call, which afterwards waits or has been told of. -/
structure Updates (s s' : Projector) (index : Nat) (call final : Call) : Prop where
  toolCalls : s'.toolCalls = Assoc.set index final s.toolCalls
  callId : final.callId = call.callId
  wireName : final.wireName = call.wireName
  arguments : final.arguments = call.arguments
  told : (final.pendingArguments = call.pendingArguments ∧ s'.toolCallItemsAdded = s.toolCallItemsAdded ∧
      (call.callId = [] ∨ call.wireName = [] ∨ call.pendingArguments = [])) ∨
    (final.pendingArguments = [] ∧ call.callId ≠ [] ∧ call.wireName ≠ [] ∧ call.pendingArguments ≠ [] ∧
      ∀ i, i ∈ s'.toolCallItemsAdded ↔ i ∈ s.toolCallItemsAdded ∨ i = index)

theorem flushArguments_updates {bytes : Nat}
    (h : flushArguments { s with toolCalls := Assoc.set index call s.toolCalls, toolArgumentBytes := bytes } index call =
      .ok (s', events)) : ∃ final, Updates s s' index call final := by
  rcases flushArguments_ok h with ⟨hwaits, rfl, -⟩ |
    ⟨hid, hname, hpending, ⟨hadded, rfl, -⟩ | ⟨-, rfl, -⟩⟩
  · exact ⟨call, rfl, rfl, rfl, rfl, .inl ⟨rfl, rfl, hwaits⟩⟩
  · refine ⟨_, Assoc.set_set _, rfl, rfl, rfl, .inr ⟨rfl, hid, hname, hpending, fun i => ?_⟩⟩
    refine (or_iff_left_of_imp ?_).symm
    rintro rfl
    exact hadded
  · obtain ⟨hcallId, hwireName, harguments, -⟩ := named_callId s.toolAliases call
    refine ⟨_, Assoc.set_set _, hcallId, hwireName, harguments, .inr ⟨rfl, hid, hname, hpending, fun i => ?_⟩⟩
    exact List.mem_append.trans (or_congr_right List.mem_singleton)

theorem Updates.added_of_ne {final : Call} (h : Updates s s' index call final) {i : Nat} (hne : i ≠ index) :
    i ∈ s'.toolCallItemsAdded ↔ i ∈ s.toolCallItemsAdded := by
  rcases h.told with ⟨-, hsame, -⟩ | ⟨-, -, -, -, hadded⟩
  · rw [hsame]
  · rw [hadded]
    exact or_iff_left hne

theorem CallOk.updated {final found : Call} (h : CallOk raws s.toolCallItemsAdded index found)
    (hindex : indexOf raw = some index) (htakes : Takes s raw index found call)
    (hupdates : Updates s s' index call final) : CallOk (raws ++ [raw]) s'.toolCallItemsAdded index final := by
  obtain ⟨hcallId, hwireName, harguments⟩ := h.takes hindex htakes
  refine
    { callId := by rwa [hupdates.callId]
      wireName := by rwa [hupdates.wireName]
      arguments := by rwa [hupdates.arguments]
      opened := ?_
      waiting := ?_ }
  · intro hmem
    rw [hupdates.callId, hupdates.wireName, hupdates.arguments]
    rcases hupdates.told with ⟨hpending, hsame, hwaits⟩ | ⟨hpending, hid, hname, hsome, -⟩
    · rw [hsame] at hmem
      obtain ⟨hid, hname, hsome, hnone⟩ := h.opened hmem
      have hid' : call.callId ≠ [] := by
        rcases htakes.callId with ⟨-, heq⟩ | ⟨-, hne, -⟩
        · rwa [heq]
        · exact hne
      have hname' : call.wireName ≠ [] := by
        rcases htakes.wireName with ⟨-, heq⟩ | ⟨-, hne⟩
        · rwa [heq]
        · exact hne
      have hflat : call.pendingArguments = [] := (hwaits.resolve_left hid').resolve_left hname'
      refine ⟨hid', hname', ?_, hpending.trans hflat⟩
      rw [htakes.arguments]
      exact List.append_ne_nil_of_left_ne_nil hsome _
    · refine ⟨hid, hname, ?_, hpending⟩
      rw [htakes.arguments]
      by_cases hadded : index ∈ s.toolCallItemsAdded
      · exact List.append_ne_nil_of_left_ne_nil (h.opened hadded).2.2.1 _
      · rwa [← (h.waiting hadded).1, ← htakes.pendingArguments]
  · intro hmem
    rw [hupdates.callId, hupdates.wireName, hupdates.arguments]
    rcases hupdates.told with ⟨hpending, hsame, hwaits⟩ | ⟨-, -, -, -, hadded⟩
    · rw [hsame] at hmem
      have hall : call.pendingArguments = call.arguments := by
        rw [htakes.pendingArguments, htakes.arguments, (h.waiting hmem).1]
      rw [hpending, ← hall]
      exact ⟨rfl, hwaits⟩
    · exact absurd ((hadded index).mpr (.inr rfl)) hmem

/-- No other call has the id that a call has after an entry for it. -/
theorem CallsOk.callId_ne (h : CallsOk s raws)
    (htakes : Takes s raw index ((s.toolCalls.lookup index).getD .new) call) {i : Nat} {other : Call}
    (hother : s.toolCalls.lookup i = some other) (hne : i ≠ index) (hid : call.callId ≠ []) :
    other.callId ≠ call.callId := by
  rcases htakes.callId with ⟨-, heq⟩ | ⟨-, -, -, hothers⟩
  · rw [heq] at hid ⊢
    cases hlookup : s.toolCalls.lookup index with
    | none =>
      rw [hlookup] at hid
      exact absurd rfl hid
    | some found =>
      rw [hlookup] at hid
      exact fun hsame => hne (h.distinct i index other found hother hlookup hsame (hsame ▸ hid))
  · exact hothers _ (Assoc.mem_of_lookup hother) hne

theorem CallsOk.updated {final : Call} (h : CallsOk s raws) (hindex : indexOf raw = some index)
    (htakes : Takes s raw index ((s.toolCalls.lookup index).getD .new) call)
    (hupdates : Updates s s' index call final) : CallsOk s' (raws ++ [raw]) := by
  have hself : s'.toolCalls.lookup index = some final := by rw [hupdates.toolCalls, Assoc.lookup_set_self]
  have hother : ∀ i, i ≠ index → s'.toolCalls.lookup i = s.toolCalls.lookup i := by
    intro i hne
    rw [hupdates.toolCalls, Assoc.lookup_set_ne hne]
  refine
    { indexed := List.forall_mem_append.mpr ⟨h.indexed, List.forall_mem_singleton.mpr ⟨index, hindex⟩⟩
      keys := ?_
      asked := fun i => ?_
      call := fun i other hlookup => ?_
      distinct := fun i j c d hc hd hsame hid => ?_
      added := fun i hmem => ?_ }
  · rw [hupdates.toolCalls]
    exact Assoc.nodup_keys_set h.keys
  · rw [hupdates.toolCalls, Assoc.mem_keys_set, h.asked]
    simp only [List.mem_append, List.mem_singleton, or_and_right, exists_or, exists_eq_left, hindex, Option.some.injEq]
    rw [or_comm, eq_comm]
  · by_cases hi : i = index
    · subst hi
      obtain rfl := Option.some.inj (hself.symm.trans hlookup)
      exact (h.found i).updated hindex htakes hupdates
    · rw [hother i hi] at hlookup
      refine (h.call i other hlookup).other ?_ (hupdates.added_of_ne hi)
      rw [hindex]
      exact fun heq => hi (Option.some.inj heq).symm
  · by_cases hi : i = index
    · by_cases hj : j = index
      · rw [hi, hj]
      · subst hi
        obtain rfl := Option.some.inj (hself.symm.trans hc)
        rw [hother j hj] at hd
        rw [hupdates.callId] at hsame hid
        exact absurd hsame.symm (h.callId_ne htakes hd hj hid)
    · rw [hother i hi] at hc
      by_cases hj : j = index
      · subst hj
        obtain rfl := Option.some.inj (hself.symm.trans hd)
        rw [hupdates.callId] at hsame
        exact absurd hsame (h.callId_ne htakes hc hi (hsame ▸ hid))
      · rw [hother j hj] at hd
        exact h.distinct i j c d hc hd hsame hid
  · rw [hupdates.toolCalls, Assoc.mem_keys_set]
    by_cases hi : i = index
    · exact .inl hi
    · exact .inr (h.added i ((hupdates.added_of_ne hi).mp hmem))

/-- What is known of the calls goes on with each entry. -/
theorem CallsOk.part (h : CallsOk s raws) (hpart : toolCallPart raw s = .ok (s', events)) :
    CallsOk s' (raws ++ [raw]) := by
  obtain ⟨index, call, bytes, hindex, htakes, hflush⟩ := toolCallPart_ok hpart
  obtain ⟨final, hupdates⟩ := flushArguments_updates hflush
  exact h.updated hindex htakes hupdates

/-- A call has been told of exactly if the entries have all that it takes. -/
theorem CallsOk.added_iff (h : CallsOk s raws) : index ∈ s.toolCallItemsAdded ↔ Opens raws index := by
  constructor
  · intro hmem
    obtain ⟨call, hlookup⟩ := Assoc.exists_lookup_of_mem (h.added index hmem)
    have hcall := h.call index call hlookup
    obtain ⟨hid, hname, harguments, -⟩ := hcall.opened hmem
    exact ⟨⟨call.callId, (hcall.callId _).mpr ⟨rfl, hid⟩⟩, hcall.wireName.mpr hname, hcall.arguments ▸ harguments⟩
  · rintro ⟨⟨callId, hid⟩, hname, harguments⟩
    by_contra hmem
    obtain ⟨raw, hraw, hindex, -⟩ := id hid
    obtain ⟨call, hlookup⟩ := Assoc.exists_lookup_of_mem ((h.asked index).mpr ⟨raw, hraw, hindex⟩)
    have hcall := h.call index call hlookup
    rcases (hcall.waiting hmem).2 with hnone | hnone | hnone
    · exact ((hcall.callId _).mp hid).2 hnone
    · exact hcall.wireName.mp hname hnone
    · exact harguments (hcall.arguments ▸ hnone)

end Known

end ResponsesProjector
