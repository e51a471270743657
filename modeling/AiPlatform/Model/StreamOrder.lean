/-
  AiPlatform.Model.StreamOrder

  The projected stream followed delta by delta.

  As long as the order of the deltas is right, every item that has begun is at the place that it
  will have in the output (`Good`).  The first reasoning that comes too late breaks this for
  good: it leaves two notes that no proper log has (`Broken`).
-/

import AiPlatform.Model.ProjectedStream

namespace ResponsesProjector

open ModelPlane ToolAliases AiPlatform.Checks ItemStream

/-! ## What the projector has read -/

/-- What entries of a tool call delta leave as it is. -/
structure SameText (s s' : Projector) : Prop where
  text : s'.text = s.text
  reasoning : s'.reasoning = s.reasoning
  reasoningOpen : s'.reasoningOpen = s.reasoningOpen
  reasoningClosed : s'.reasoningClosed = s.reasoningClosed
  messageOpen : s'.messageOpen = s.messageOpen
  messageClosed : s'.messageClosed = s.messageClosed
  output : s'.output = s.output

/-- A reasoning was followed by something else. -/
def Closed (deltas : List Delta) : Prop :=
  ∃ before delta after, deltas = before ++ delta :: after ∧ before.any Delta.isReasoning = true ∧
    delta.isReasoning = false

structure Reads (s : Projector) (deltas : List Delta) : Prop where
  text : s.text = deltas.flatMap Delta.textPart
  reasoning : s.reasoning = deltas.flatMap Delta.reasoningPart
  messageOpen : s.messageOpen = deltas.any Delta.isText
  reasoningOpen : s.reasoningOpen = deltas.any Delta.isReasoning
  reasoningClosed : s.reasoningClosed = true ↔ Closed deltas
  messageClosed : s.messageClosed = false
  calls : CallsOk s (rawCalls deltas)

section Reads

variable {s s' s₁ : Projector} {deltas : List Delta} {delta : Delta} {raws : List PyJson} {events : List Event}

theorem SameText.trans (h : SameText s s₁) (h' : SameText s₁ s') : SameText s s' :=
  ⟨h'.text.trans h.text, h'.reasoning.trans h.reasoning, h'.reasoningOpen.trans h.reasoningOpen,
    h'.reasoningClosed.trans h.reasoningClosed, h'.messageOpen.trans h.messageOpen,
    h'.messageClosed.trans h.messageClosed, h'.output.trans h.output⟩

theorem toolCallPart_same {raw : PyJson} (h : toolCallPart raw s = .ok (s', events)) : SameText s s' := by
  obtain ⟨index, call, bytes, -, -, hflush⟩ := toolCallPart_ok h
  rcases flushArguments_ok hflush with ⟨-, rfl, -⟩ | ⟨-, -, -, ⟨-, rfl, -⟩ | ⟨-, rfl, -⟩⟩
  · exact ⟨rfl, rfl, rfl, rfl, rfl, rfl, rfl⟩
  · exact ⟨rfl, rfl, rfl, rfl, rfl, rfl, rfl⟩
  · exact ⟨rfl, rfl, rfl, rfl, rfl, rfl, rfl⟩

theorem toolCallParts_same {later : List PyJson} (h : toolCallParts later s = .ok (s', events)) : SameText s s' := by
  induction later generalizing s events with
  | nil =>
    obtain ⟨rfl, rfl⟩ := Prod.mk.inj (Except.ok.inj h)
    exact ⟨rfl, rfl, rfl, rfl, rfl, rfl, rfl⟩
  | cons raw later ih =>
    obtain ⟨s₁, before, after, hpart, hlater, -⟩ := andThen_ok h
    exact (toolCallPart_same hpart).trans (ih hlater)

theorem toolCallParts_ok {later : List PyJson} (h : toolCallParts later s = .ok (s', events)) (hok : CallsOk s raws) :
    CallsOk s' (raws ++ later) := by
  induction later generalizing s events raws with
  | nil =>
    obtain ⟨rfl, rfl⟩ := Prod.mk.inj (Except.ok.inj h)
    rwa [List.append_nil]
  | cons raw later ih =>
    obtain ⟨s₁, before, after, hpart, hlater, -⟩ := andThen_ok h
    have hall := ih hlater (hok.part hpart)
    rwa [List.append_assoc] at hall

/-- What is known of the calls does not depend on the rest. -/
theorem CallsOk.congr (h : CallsOk s raws) (hcalls : s'.toolCalls = s.toolCalls)
    (hadded : s'.toolCallItemsAdded = s.toolCallItemsAdded) : CallsOk s' raws where
  indexed := h.indexed
  keys := by rw [hcalls]; exact h.keys
  asked := by rw [hcalls]; exact h.asked
  call := by rw [hcalls, hadded]; exact h.call
  distinct := by rw [hcalls]; exact h.distinct
  added := by rw [hcalls, hadded]; exact h.added

theorem rawCalls_snoc : rawCalls (deltas ++ [delta]) = rawCalls deltas ++ delta.rawCalls := by
  rw [rawCalls, List.flatMap_append, List.flatMap_singleton]
  rfl

theorem closed_snoc : Closed (deltas ++ [delta]) ↔
    Closed deltas ∨ (deltas.any Delta.isReasoning = true ∧ delta.isReasoning = false) := by
  constructor
  · rintro ⟨before, other, after, heq, hbefore, hother⟩
    rcases List.eq_nil_or_concat after with rfl | ⟨after, last, rfl⟩
    · obtain ⟨rfl, hlast⟩ := List.append_inj' heq rfl
      obtain rfl := List.singleton_inj.mp hlast
      exact .inr ⟨hbefore, hother⟩
    · rw [List.concat_eq_append, ← List.cons_append, ← List.append_assoc] at heq
      obtain ⟨hdeltas, -⟩ := List.append_inj' heq rfl
      exact .inl ⟨before, other, after, hdeltas, hbefore, hother⟩
  · rintro (⟨before, other, after, rfl, hbefore, hother⟩ | ⟨hany, hdelta⟩)
    · exact ⟨before, other, after ++ [delta], by rw [List.append_assoc, List.cons_append], hbefore, hother⟩
    · exact ⟨deltas, delta, [], rfl, hany, hdelta⟩

theorem closeReasoning_reads (h : Reads s deltas) (hclose : closeReasoning s = .ok (s', events)) :
    s'.text = s.text ∧ s'.reasoning = s.reasoning ∧ s'.messageOpen = s.messageOpen ∧
      s'.reasoningOpen = s.reasoningOpen ∧ s'.messageClosed = s.messageClosed ∧ s'.toolCalls = s.toolCalls ∧
      s'.toolCallItemsAdded = s.toolCallItemsAdded ∧
      (s'.reasoningClosed = true ↔ Closed deltas ∨ deltas.any Delta.isReasoning = true) := by
  rcases closeReasoning_ok hclose with ⟨hsettled, rfl, -⟩ | ⟨hopen, -, rfl, -⟩
  · refine ⟨rfl, rfl, rfl, rfl, rfl, rfl, rfl, ?_⟩
    rw [h.reasoningClosed, ← h.reasoningOpen]
    exact (or_iff_left_of_imp fun hopen => h.reasoningClosed.mp (hsettled hopen)).symm
  · refine ⟨rfl, rfl, rfl, rfl, rfl, rfl, rfl, iff_of_true rfl (.inr ?_)⟩
    rw [← h.reasoningOpen, hopen]

theorem Reads.step (h : Reads s deltas) (hstep : project delta s = .ok (s', events)) :
    Reads s' (deltas ++ [delta]) := by
  cases delta with
  | toolCalls rawCalls =>
    cases rawCalls with
    | list raws =>
      obtain ⟨s₁, before, after, hclose, hparts, -⟩ := andThen_ok hstep
      obtain ⟨htext, hreasoning, hmessage, hopen, hclosed, hcalls, hadded, hiff⟩ := closeReasoning_reads h hclose
      have hsame := toolCallParts_same hparts
      have hall := toolCallParts_ok hparts (h.calls.congr hcalls hadded)
      exact
        { text := by rw [hsame.text, htext, h.text, List.flatMap_append]; exact (List.append_nil _).symm
          reasoning := by
            rw [hsame.reasoning, hreasoning, h.reasoning, List.flatMap_append]
            exact (List.append_nil _).symm
          messageOpen := by
            rw [hsame.messageOpen, hmessage, h.messageOpen, List.any_append]
            exact (Bool.or_false _).symm
          reasoningOpen := by
            rw [hsame.reasoningOpen, hopen, h.reasoningOpen, List.any_append]
            exact (Bool.or_false _).symm
          reasoningClosed := by
            rw [hsame.reasoningClosed, hiff, closed_snoc]
            exact or_congr_right (and_iff_left rfl).symm
          messageClosed := by rw [hsame.messageClosed, hclosed, h.messageClosed]
          calls := by rw [rawCalls_snoc]; exact hall }
    | _ => cases hstep
  | reasoning delta =>
    obtain ⟨s₁, before, after, hopen, hadd, -⟩ := andThen_ok hstep
    obtain ⟨size, rfl, -⟩ := addReasoning_ok hadd
    have hnot : Closed (deltas ++ [.reasoning delta]) ↔ Closed deltas :=
      closed_snoc.trans (or_iff_left fun hlast => Bool.noConfusion hlast.2)
    have hraws : rawCalls (deltas ++ [.reasoning delta]) = rawCalls deltas := by
      rw [rawCalls_snoc]
      exact List.append_nil _
    rcases openReasoning_ok hopen with ⟨htrue, rfl, -⟩ | ⟨-, rfl, -⟩
    · exact
        { text := by rw [List.flatMap_append, ← h.text]; exact (List.append_nil _).symm
          reasoning := by
            rw [List.flatMap_append, ← h.reasoning, List.flatMap_singleton]
            rfl
          messageOpen := by rw [List.any_append, ← h.messageOpen]; exact (Bool.or_false _).symm
          reasoningOpen := by rw [List.any_append, ← h.reasoningOpen]; exact htrue.trans (Bool.or_true _).symm
          reasoningClosed := h.reasoningClosed.trans hnot.symm
          messageClosed := h.messageClosed
          calls := hraws ▸ h.calls.congr rfl rfl }
    · exact
        { text := by rw [List.flatMap_append, ← h.text]; exact (List.append_nil _).symm
          reasoning := by
            rw [List.flatMap_append, ← h.reasoning, List.flatMap_singleton]
            rfl
          messageOpen := by rw [List.any_append, ← h.messageOpen]; exact (Bool.or_false _).symm
          reasoningOpen := by rw [List.any_append]; exact (Bool.or_true _).symm
          reasoningClosed := h.reasoningClosed.trans hnot.symm
          messageClosed := h.messageClosed
          calls := hraws ▸ h.calls.congr rfl rfl }
  | text delta =>
    obtain ⟨s₂, before, after, hfirst, hadd, -⟩ := andThen_ok hstep
    obtain ⟨s₁, closing, opening, hclose, hopen, -⟩ := andThen_ok hfirst
    obtain ⟨htext, hreasoning, hmessage, hreads, hclosed, hcalls, hadded, hiff⟩ := closeReasoning_reads h hclose
    obtain ⟨size, rfl, -⟩ := addText_ok hadd
    have hmiddle : s₂.text = s₁.text ∧ s₂.reasoning = s₁.reasoning ∧ s₂.messageOpen = true ∧
        s₂.reasoningOpen = s₁.reasoningOpen ∧ s₂.messageClosed = s₁.messageClosed ∧
        s₂.reasoningClosed = s₁.reasoningClosed ∧ s₂.toolCalls = s₁.toolCalls ∧
        s₂.toolCallItemsAdded = s₁.toolCallItemsAdded := by
      rcases openMessage_ok hopen with ⟨htrue, rfl, -⟩ | ⟨-, rfl, -⟩
      · exact ⟨rfl, rfl, htrue, rfl, rfl, rfl, rfl, rfl⟩
      · exact ⟨rfl, rfl, rfl, rfl, rfl, rfl, rfl, rfl⟩
    obtain ⟨htext', hreasoning', hmessage', hreads', hclosed', hiff', hcalls', hadded'⟩ := hmiddle
    exact
      { text := by
          show s₂.text ++ delta = _
          rw [htext', htext, h.text, List.flatMap_append, List.flatMap_singleton]
          rfl
        reasoning := by
          show s₂.reasoning = _
          rw [hreasoning', hreasoning, h.reasoning, List.flatMap_append]
          exact (List.append_nil _).symm
        messageOpen := by rw [List.any_append]; exact hmessage'.trans (Bool.or_true _).symm
        reasoningOpen := by
          show s₂.reasoningOpen = _
          rw [hreads', hreads, h.reasoningOpen, List.any_append]
          exact (Bool.or_false _).symm
        reasoningClosed := by
          show s₂.reasoningClosed = true ↔ _
          rw [hiff', hiff, closed_snoc]
          exact or_congr_right (and_iff_left rfl).symm
        messageClosed := hclosed'.trans (hclosed.trans h.messageClosed)
        calls := by
          rw [rawCalls_snoc]
          show CallsOk _ (rawCalls deltas ++ [])
          rw [List.append_nil]
          exact h.calls.congr (hcalls'.trans hcalls) (hadded'.trans hadded) }

end Reads

/-! ## In order so far -/

/-- Every item that has begun is at its place, and nothing is added to the output before it. -/
structure Good (s : Projector) (log : List (Note ItemId PyChar)) : Prop where
  output : s.output.map Item.id = if s.reasoningClosed then [.reasoning] else []
  closed_open : s.reasoningClosed = true → s.reasoningOpen = true
  fresh : s.reasoningOpen = true → s.reasoningClosed = false → s.messageOpen = false ∧ s.toolCallItemsAdded = []
  reasoning_absent : s.reasoningOpen = false → s.reasoning = [] ∧ Absent .reasoning log
  reasoning_begun : s.reasoningOpen = true → s.reasoningClosed = false → Begun .reasoning 0 s.reasoning log
  reasoning_ended : s.reasoningClosed = true → Ended .reasoning 0 s.reasoning log
  message_absent : s.messageOpen = false → s.text = [] ∧ Absent .message log
  message_begun : s.messageOpen = true → Begun .message s.output.length s.text log
  call_begun : ∀ index ∈ s.toolCallItemsAdded, ∀ call, s.toolCalls.lookup index = some call →
    Begun (.call call.callId) (s.output.length + index) call.arguments log
  call_absent : ∀ callId, (∀ index ∈ s.toolCallItemsAdded, ∀ call, s.toolCalls.lookup index = some call →
    call.callId ≠ callId) → Absent (.call callId) log

/-- No reasoning is open. -/
def Settled (s : Projector) : Prop := s.reasoningOpen = true → s.reasoningClosed = true

/-- A reasoning delta is in order here. -/
def MayReason (s : Projector) : Prop :=
  s.reasoningClosed = false ∧ (s.reasoningOpen = false → s.messageOpen = false ∧ s.toolCallItemsAdded = [])

section Good

variable {s s' : Projector} {log : List (Note ItemId PyChar)} {events before after : List Event}
  {payloads : List Payload} {raws : List PyJson} {raw : PyJson}

theorem tells_of (h : events.map Event.payload = payloads) : tells events = payloads.filterMap noteOf := by
  rw [tells, h]

theorem tells_append (before after : List Event) : tells (before ++ after) = tells before ++ tells after := by
  rw [tells, List.map_append, List.filterMap_append]
  rfl

theorem Good.output_nil (h : Good s log) (hclosed : s.reasoningClosed = false) : s.output = [] := by
  have hids := h.output
  rw [hclosed] at hids
  exact List.map_eq_nil_iff.mp hids

theorem Good.closeReasoning (h : Good s log) (hclose : closeReasoning s = .ok (s', events)) :
    Good s' (log ++ tells events) ∧ Settled s' := by
  rcases closeReasoning_ok hclose with ⟨hsettled, rfl, rfl⟩ | ⟨hopen, hclosed, rfl, hpayloads⟩
  · rw [show log ++ tells [] = log from List.append_nil log]
    exact ⟨h, hsettled⟩
  · obtain ⟨hmessage, hadded⟩ := h.fresh hopen hclosed
    have hnil := h.output_nil hclosed
    have hnotes : tells events = [Kind.whole s.reasoning, .whole s.reasoning, .done s.reasoning].map
        (Note.mk .reasoning 0) := by
      rw [tells_of hpayloads, hnil]
      simp [noteOf, Item.id, Item.content]
    rw [hnotes]
    refine ⟨?_, fun _ => rfl⟩
    exact
      { output := by rw [hnil]; rfl
        closed_open := fun _ => hopen
        fresh := fun _ hnot => Bool.noConfusion hnot
        reasoning_absent := fun hnot => absurd (hnot.symm.trans hopen) Bool.false_ne_true
        reasoning_begun := fun _ hnot => Bool.noConfusion hnot
        reasoning_ended := fun _ => (h.reasoning_begun hopen hclosed).ends (by simp [Kind.Closes]) rfl
        message_absent := fun hnot => (h.message_absent hnot).imp_right fun hlog => hlog.append (absent_map (by simp) _)
        message_begun := fun htrue => absurd (hmessage.symm.trans htrue) Bool.false_ne_true
        call_begun := fun index hindex => absurd (hadded ▸ hindex) List.not_mem_nil
        call_absent := fun callId hnone => (h.call_absent callId hnone).append (absent_map (by simp) _) }

theorem Good.openReasoning (h : Good s log)
    (hmay : s.reasoningOpen = false → s.messageOpen = false ∧ s.toolCallItemsAdded = [])
    (hopen : openReasoning s = .ok (s', events)) :
    Good s' (log ++ tells events) ∧ s'.reasoningOpen = true ∧ s'.reasoningClosed = s.reasoningClosed := by
  rcases openReasoning_ok hopen with ⟨htrue, rfl, rfl⟩ | ⟨hfalse, rfl, hpayloads⟩
  · rw [show log ++ tells [] = log from List.append_nil log]
    exact ⟨h, htrue, rfl⟩
  · obtain ⟨hmessage, hadded⟩ := hmay hfalse
    have hclosed : s.reasoningClosed = false := by
      by_contra hnot
      exact absurd (hfalse.symm.trans (h.closed_open (Bool.eq_true_of_not_eq_false hnot))) Bool.false_ne_true
    have hnil := h.output_nil hclosed
    have hnotes : tells events = (Kind.added :: [.other]).map (Note.mk .reasoning 0) := by
      rw [tells_of hpayloads, hnil]
      rfl
    rw [hnotes]
    obtain ⟨hquiet, habsent⟩ := h.reasoning_absent hfalse
    have hbegun : Begun .reasoning 0 s.reasoning (log ++ (Kind.added :: [.other]).map (Note.mk .reasoning 0)) := by
      rw [hquiet]
      exact habsent.begins 0 (by simp [Kind.IsPart])
    refine ⟨?_, rfl, rfl⟩
    exact
      { output := h.output
        closed_open := fun _ => rfl
        fresh := fun _ _ => ⟨hmessage, hadded⟩
        reasoning_absent := fun hnot => Bool.noConfusion hnot
        reasoning_begun := fun _ _ => hbegun
        reasoning_ended := fun htrue => absurd (hclosed.symm.trans htrue) Bool.false_ne_true
        message_absent := fun hnot => (h.message_absent hnot).imp_right fun hlog => hlog.append (absent_map (by simp) _)
        message_begun := fun htrue => absurd (hmessage.symm.trans htrue) Bool.false_ne_true
        call_begun := fun index hindex => absurd (hadded ▸ hindex) List.not_mem_nil
        call_absent := fun callId hnone => (h.call_absent callId hnone).append (absent_map (by simp) _) }

theorem Good.addReasoning {delta : PyStr} (h : Good s log) (hopen : s.reasoningOpen = true)
    (hclosed : s.reasoningClosed = false) (hadd : addReasoning delta s = .ok (s', events)) :
    Good s' (log ++ tells events) := by
  obtain ⟨size, rfl, hpayloads⟩ := addReasoning_ok hadd
  obtain ⟨hmessage, hadded⟩ := h.fresh hopen hclosed
  have hnotes : tells events = [Kind.delta delta].map (Note.mk .reasoning 0) := by
    rw [tells_of hpayloads, h.output_nil hclosed]
    rfl
  rw [hnotes]
  have hbegun := (h.reasoning_begun hopen hclosed).goes_on (show ∀ k ∈ [Kind.delta delta], k.IsPart by simp [Kind.IsPart])
  rw [List.flatMap_singleton] at hbegun
  exact
    { output := h.output
      closed_open := h.closed_open
      fresh := h.fresh
      reasoning_absent := fun hnot => absurd (hnot.symm.trans hopen) Bool.false_ne_true
      reasoning_begun := fun _ _ => hbegun
      reasoning_ended := fun htrue => absurd (hclosed.symm.trans htrue) Bool.false_ne_true
      message_absent := fun hnot => (h.message_absent hnot).imp_right fun hlog => hlog.append (absent_map (by simp) _)
      message_begun := fun htrue => absurd (hmessage.symm.trans htrue) Bool.false_ne_true
      call_begun := fun index hindex => absurd (hadded ▸ hindex) List.not_mem_nil
      call_absent := fun callId hnone => (h.call_absent callId hnone).append (absent_map (by simp) _) }

/-- What tells of the message only leaves the rest in order. -/
theorem Good.message {kinds : List (Kind PyChar)} (h : Good s log) (hsettled : Settled s)
    (hopen : s'.messageOpen = true)
    (hbegun : Begun .message s.output.length s'.text (log ++ kinds.map (Note.mk .message s.output.length)))
    (hsame : s' = { s with messageOpen := s'.messageOpen, text := s'.text, textBytes := s'.textBytes, sequence := s'.sequence }) :
    Good s' (log ++ kinds.map (Note.mk .message s.output.length)) := by
  have hnot : ∀ {p : Prop}, s.reasoningOpen = true → s.reasoningClosed = false → p := fun hreads hclosed =>
    absurd (hclosed.symm.trans (hsettled hreads)) Bool.false_ne_true
  rw [hsame]
  exact
    { output := h.output
      closed_open := h.closed_open
      fresh := fun hreads hclosed => hnot hreads hclosed
      reasoning_absent := fun hreads =>
        (h.reasoning_absent hreads).imp_right fun hlog => hlog.append (absent_map (by simp) _)
      reasoning_begun := fun hreads hclosed => hnot hreads hclosed
      reasoning_ended := fun hclosed => (h.reasoning_ended hclosed).append (absent_map (by simp) _)
      message_absent := fun hfalse => absurd (hfalse.symm.trans hopen) Bool.false_ne_true
      message_begun := fun _ => hbegun
      call_begun := fun index hindex call hlookup =>
        (h.call_begun index hindex call hlookup).append (absent_map (by simp) _)
      call_absent := fun callId hnone => (h.call_absent callId hnone).append (absent_map (by simp) _) }

theorem Good.openMessage (h : Good s log) (hsettled : Settled s) (hopen : openMessage s = .ok (s', events)) :
    Good s' (log ++ tells events) ∧ s'.messageOpen = true ∧ Settled s' := by
  rcases openMessage_ok hopen with ⟨htrue, rfl, rfl⟩ | ⟨hfalse, rfl, hpayloads⟩
  · rw [show log ++ tells [] = log from List.append_nil log]
    exact ⟨h, htrue, hsettled⟩
  · obtain ⟨hquiet, habsent⟩ := h.message_absent hfalse
    have hnotes : tells events = (Kind.added :: [.other]).map (Note.mk .message s.output.length) := by
      rw [tells_of hpayloads]
      rfl
    rw [hnotes]
    refine ⟨h.message hsettled rfl ?_ rfl, rfl, hsettled⟩
    show Begun ItemId.message s.output.length s.text _
    rw [hquiet]
    exact habsent.begins s.output.length (by simp [Kind.IsPart])

theorem Good.addText {delta : PyStr} (h : Good s log) (hsettled : Settled s) (hopen : s.messageOpen = true)
    (hadd : addText delta s = .ok (s', events)) : Good s' (log ++ tells events) := by
  obtain ⟨size, rfl, hpayloads⟩ := addText_ok hadd
  have hnotes : tells events = [Kind.delta delta].map (Note.mk .message s.output.length) := by
    rw [tells_of hpayloads]
    rfl
  rw [hnotes]
  refine h.message hsettled hopen ?_ rfl
  have hbegun := (h.message_begun hopen).goes_on (show ∀ k ∈ [Kind.delta delta], k.IsPart by simp [Kind.IsPart])
  rwa [List.flatMap_singleton] at hbegun

/-! ### Tool calls -/

section Calls

variable {index : Nat} {call final : Call} {kinds : List (Kind PyChar)}

/-- An entry for a call that has been told of. -/
theorem CallsOk.told (hok : CallsOk s raws)
    (htakes : Takes s raw index ((s.toolCalls.lookup index).getD .new) call) (hadded : index ∈ s.toolCallItemsAdded) :
    ∃ found, s.toolCalls.lookup index = some found ∧ call.callId = found.callId ∧
      call.arguments = found.arguments ++ call.pendingArguments ∧
      ((call.callId = [] ∨ call.wireName = [] ∨ call.pendingArguments = []) → call.pendingArguments = []) := by
  obtain ⟨found, hlookup⟩ := Assoc.exists_lookup_of_mem (hok.added index hadded)
  rw [hlookup] at htakes
  obtain ⟨hid, hname, -, hnone⟩ := (hok.call index found hlookup).opened hadded
  have hsame : call.callId = found.callId := by
    rcases htakes.callId with ⟨-, heq⟩ | ⟨-, -, hkept, -⟩
    · exact heq
    · exact hkept hid
  have hname' : call.wireName ≠ [] := by
    rcases htakes.wireName with ⟨-, heq⟩ | ⟨-, hne⟩
    · exact heq ▸ hname
    · exact hne
  refine ⟨found, hlookup, hsame, ?_, fun hwaits => ?_⟩
  · rw [htakes.arguments, htakes.pendingArguments]
    show _ = _ ++ (found.pendingArguments ++ _)
    rw [hnone]
    rfl
  · exact (hwaits.resolve_left (hsame ▸ hid)).resolve_left hname'

/-- Where the call of the entry is at its place, all is in order. -/
theorem Good.updated (h : Good s log) (hok : CallsOk s raws) (hsettled : Settled s) (hindex : indexOf raw = some index)
    (htakes : Takes s raw index ((s.toolCalls.lookup index).getD .new) call) (hsame : SameText s s')
    (hupdates : Updates s s' index call final)
    (hself : index ∈ s'.toolCallItemsAdded → Begun (.call call.callId) (s.output.length + index) call.arguments
      (log ++ kinds.map (Note.mk (.call call.callId) (s.output.length + index))))
    (hnone : index ∉ s'.toolCallItemsAdded → kinds = []) :
    Good s' (log ++ kinds.map (Note.mk (.call call.callId) (s.output.length + index))) := by
  have hlookup : s'.toolCalls.lookup index = some final := by rw [hupdates.toolCalls, Assoc.lookup_set_self]
  have hother : ∀ i, i ≠ index → s'.toolCalls.lookup i = s.toolCalls.lookup i := by
    intro i hne
    rw [hupdates.toolCalls, Assoc.lookup_set_ne hne]
  have hid : index ∈ s'.toolCallItemsAdded → call.callId ≠ [] := by
    intro hmem
    have hcall := (hok.updated hindex htakes hupdates).call index final hlookup
    exact hupdates.callId ▸ (hcall.opened hmem).1
  -- what is told of the call does not tell of another one
  have habsent : ∀ callId, (index ∈ s'.toolCallItemsAdded → call.callId ≠ callId) →
      Absent (.call callId) (kinds.map (Note.mk (ItemId.call call.callId) (s.output.length + index))) := by
    intro callId hne
    by_cases hmem : index ∈ s'.toolCallItemsAdded
    · exact absent_map (by simpa using hne hmem) _
    · rw [hnone hmem]
      rfl
  have hnot : ∀ {p : Prop}, s'.reasoningOpen = true → s'.reasoningClosed = false → p := by
    intro p hreads hclosed
    rw [hsame.reasoningOpen] at hreads
    rw [hsame.reasoningClosed, hsettled hreads] at hclosed
    cases hclosed
  exact
    { output := by rw [hsame.output, hsame.reasoningClosed]; exact h.output
      closed_open := by rw [hsame.reasoningOpen, hsame.reasoningClosed]; exact h.closed_open
      fresh := fun hreads hclosed => hnot hreads hclosed
      reasoning_absent := by
        rw [hsame.reasoningOpen, hsame.reasoning]
        exact fun hreads => (h.reasoning_absent hreads).imp_right fun hlog => hlog.append (absent_map (by simp) _)
      reasoning_begun := fun hreads hclosed => hnot hreads hclosed
      reasoning_ended := by
        rw [hsame.reasoningClosed, hsame.reasoning]
        exact fun hclosed => (h.reasoning_ended hclosed).append (absent_map (by simp) _)
      message_absent := by
        rw [hsame.messageOpen, hsame.text]
        exact fun hopen => (h.message_absent hopen).imp_right fun hlog => hlog.append (absent_map (by simp) _)
      message_begun := by
        rw [hsame.messageOpen, hsame.text, hsame.output]
        exact fun hopen => (h.message_begun hopen).append (absent_map (by simp) _)
      call_begun := fun i hmem c hc => by
        rw [hsame.output]
        by_cases hi : i = index
        · subst hi
          obtain rfl := Option.some.inj (hlookup.symm.trans hc)
          rw [hupdates.callId, hupdates.arguments]
          exact hself hmem
        · rw [hother i hi] at hc
          refine (h.call_begun i ((hupdates.added_of_ne hi).mp hmem) c hc).append (habsent c.callId fun hin => ?_)
          exact (hok.callId_ne htakes hc hi (hid hin)).symm
      call_absent := fun callId hall => by
        have hne : index ∈ s'.toolCallItemsAdded → call.callId ≠ callId := fun hin =>
          hupdates.callId ▸ hall index hin final hlookup
        refine Absent.append (h.call_absent callId fun i hmem c hc => ?_) (habsent callId hne)
        by_cases hi : i = index
        · subst hi
          obtain ⟨found, hfound, hsameId, -⟩ := hok.told htakes hmem
          obtain rfl := Option.some.inj (hfound.symm.trans hc)
          rw [← hsameId]
          refine hne ?_
          rcases hupdates.told with ⟨-, heq, -⟩ | ⟨-, -, -, -, hadded⟩
          · rw [heq]
            exact hmem
          · exact (hadded i).mpr (.inl hmem)
        · exact hall i ((hupdates.added_of_ne hi).mpr hmem) c (by rw [hother i hi, hc]) }

theorem Good.part (h : Good s log) (hok : CallsOk s raws) (hsettled : Settled s)
    (hpart : toolCallPart raw s = .ok (s', events)) : Good s' (log ++ tells events) ∧ Settled s' := by
  have hsame := toolCallPart_same hpart
  refine ⟨?_, fun hreads => ?_⟩
  · obtain ⟨index, call, bytes, hindex, htakes, hflush⟩ := toolCallPart_ok hpart
    obtain ⟨final, hupdates⟩ := flushArguments_updates hflush
    rcases flushArguments_ok hflush with ⟨hwaits, hs', rfl⟩ |
      ⟨hid, hname, hpending, ⟨hadded, hs', hpayloads⟩ | ⟨hadded, hs', hpayloads⟩⟩
    · show Good s' (log ++ ([] : List (Kind PyChar)).map (Note.mk (.call call.callId) (s.output.length + index)))
      refine h.updated hok hsettled hindex htakes hsame hupdates ?_ fun _ => rfl
      rw [hs']
      intro hmem
      obtain ⟨found, hfound, hsameId, harguments, hquiet⟩ := hok.told htakes hmem
      rw [List.map_nil, List.append_nil, hsameId, harguments, hquiet hwaits, List.append_nil]
      exact h.call_begun index hmem found hfound
    · have hnotes : tells events = [Kind.delta call.pendingArguments].map
          (Note.mk (.call call.callId) (s.output.length + index)) := by
        rw [tells_of hpayloads]
        rfl
      rw [hnotes]
      refine h.updated hok hsettled hindex htakes hsame hupdates (fun _ => ?_) fun hnot => absurd ?_ hnot
      · obtain ⟨found, hfound, hsameId, harguments, -⟩ := hok.told htakes hadded
        have hbegun := (h.call_begun index hadded found hfound).goes_on
          (show ∀ k ∈ [Kind.delta call.pendingArguments], k.IsPart by simp [Kind.IsPart])
        rw [List.flatMap_singleton] at hbegun
        rw [hsameId, harguments]
        exact hbegun
      · rw [hs']
        exact hadded
    · have hnotes : tells events = (Kind.added :: [.delta call.pendingArguments]).map
          (Note.mk (.call call.callId) (s.output.length + index)) := by
        rw [tells_of hpayloads]
        simp [noteOf, Item.id, Call.item, (named_callId s.toolAliases call).1]
      rw [hnotes]
      refine h.updated hok hsettled hindex htakes hsame hupdates (fun _ => ?_) fun hnot => absurd ?_ hnot
      · have habsent : Absent (.call call.callId) log := by
          refine h.call_absent call.callId fun i hmem c hc => ?_
          exact hok.callId_ne htakes hc (fun heq => hadded (heq ▸ hmem)) hid
        have hall : call.arguments = call.pendingArguments := by
          rw [htakes.arguments, htakes.pendingArguments, ((hok.found index).waiting hadded).1]
        have hbegun := habsent.begins (s.output.length + index)
          (show ∀ k ∈ [Kind.delta call.pendingArguments], k.IsPart by simp [Kind.IsPart])
        rw [List.flatMap_singleton] at hbegun
        rw [hall]
        exact hbegun
      · rw [hs']
        exact List.mem_append_right _ (List.mem_singleton.mpr rfl)
  · rw [hsame.reasoningOpen] at hreads
    rw [hsame.reasoningClosed, hsettled hreads]

theorem Good.parts {later : List PyJson} (h : Good s log) (hok : CallsOk s raws) (hsettled : Settled s)
    (hparts : toolCallParts later s = .ok (s', events)) : Good s' (log ++ tells events) := by
  induction later generalizing s log events raws with
  | nil =>
    obtain ⟨rfl, rfl⟩ := Prod.mk.inj (Except.ok.inj hparts)
    rw [show log ++ tells [] = log from List.append_nil log]
    exact h
  | cons raw later ih =>
    obtain ⟨s₁, before, after, hpart, hlater, rfl⟩ := andThen_ok hparts
    obtain ⟨hgood, hstill⟩ := h.part hok hsettled hpart
    rw [tells_append, ← List.append_assoc]
    exact ih hgood (hok.part hpart) hstill hlater

end Calls

/-- A delta that is in order keeps all in order. -/
theorem Good.step {deltas : List Delta} {delta : Delta} (h : Good s log) (hreads : Reads s deltas)
    (hmay : delta.isReasoning = true → MayReason s) (hstep : project delta s = .ok (s', events)) :
    Good s' (log ++ tells events) := by
  cases delta with
  | toolCalls rawCalls =>
    cases rawCalls with
    | list raws =>
      obtain ⟨s₁, before, after, hclose, hparts, rfl⟩ := andThen_ok hstep
      obtain ⟨hgood, hsettled⟩ := h.closeReasoning hclose
      obtain ⟨-, -, -, -, -, hcalls, hadded, -⟩ := closeReasoning_reads hreads hclose
      rw [tells_append, ← List.append_assoc]
      exact hgood.parts (hreads.calls.congr hcalls hadded) hsettled hparts
    | _ => cases hstep
  | reasoning delta =>
    obtain ⟨s₁, before, after, hopen, hadd, rfl⟩ := andThen_ok hstep
    obtain ⟨hclosed, hfirst⟩ := hmay rfl
    obtain ⟨hgood, hopened, hsame⟩ := h.openReasoning hfirst hopen
    rw [tells_append, ← List.append_assoc]
    exact hgood.addReasoning hopened (hsame.trans hclosed) hadd
  | text delta =>
    obtain ⟨s₂, before, after, hfirst, hadd, rfl⟩ := andThen_ok hstep
    obtain ⟨s₁, closing, opening, hclose, hopen, rfl⟩ := andThen_ok hfirst
    obtain ⟨hgood, hsettled⟩ := h.closeReasoning hclose
    obtain ⟨hgood', hopened, hsettled'⟩ := hgood.openMessage hsettled hopen
    rw [tells_append, tells_append, ← List.append_assoc, ← List.append_assoc]
    exact hgood'.addText hsettled' hopened hadd

end Good

end ResponsesProjector
