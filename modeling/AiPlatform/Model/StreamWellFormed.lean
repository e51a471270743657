/-
  AiPlatform.Model.StreamWellFormed

  The projected stream is well formed exactly if the deltas are in order.
-/

import AiPlatform.Model.StreamCompletion

namespace ResponsesProjector

open ModelPlane ToolAliases AiPlatform.Checks ItemStream

/-! ## Where the stream ends -/

/-- All was in order, and the reasoning is closed. -/
structure AtEnd (s : Projector) (raws : List PyJson) (log : List (Note ItemId PyChar)) : Prop where
  good : Good s log
  settled : Settled s
  calls : CallsOk s raws
  ready : ∀ entry ∈ s.toolCalls, entry.1 ∉ s.toolCallItemsAdded → entry.2.callId ≠ [] ∧ entry.2.wireName ≠ []

/-- The places of what closes now are those that were told. -/
structure Placed (s : Projector) : Prop where
  alone : s.messageOpen = true → s.toolCalls = []
  no_gap : ∀ index ∈ s.toolCalls.map Prod.fst, index < s.toolCalls.length
  opened : ∀ index ∈ s.toolCalls.map Prod.fst, 0 < index → index ∈ s.toolCallItemsAdded

theorem CallsOk.lookup_of_given {s : Projector} {raws : List PyJson} {index : Nat} {callId : PyStr} (h : CallsOk s raws)
    (hid : GivesId raws index callId) : ∃ call, s.toolCalls.lookup index = some call := by
  obtain ⟨raw, hraw, hindex, -⟩ := hid
  exact Assoc.exists_lookup_of_mem ((h.asked index).mpr ⟨raw, hraw, hindex⟩)

section AtEnd

variable {s : Projector} {raws : List PyJson} {log : List (Note ItemId PyChar)} {index : Nat} {call : Call}

/-- Where a call closes, and what is told then. -/
theorem lastLog_call (hlookup : s.toolCalls.lookup index = some call) :
    ∃ j, (closingOrder s.toolCalls)[j]? = some (index, call) ∧
      ∀ n ∈ closingNotes s.output.length (s.output.length + j) s.toolCallItemsAdded index call, n ∈ lastLog s := by
  have hmem := (perm_closingOrder s.toolCalls).mem_iff.mpr (Assoc.mem_of_lookup hlookup)
  obtain ⟨j, hj⟩ := List.getElem?_of_mem hmem
  exact ⟨j, hj, fun n hn => List.mem_append_left _ (closingLog_get hj n hn)⟩

theorem closed_note (base length : Nat) (added : List Nat) (index : Nat) (call : Call) :
    Note.mk (.call call.callId) (base + index) (.done call.arguments) ∈ closingNotes base length added index call :=
  List.mem_append_right _ (List.mem_cons_of_mem _ List.mem_cons_self)

theorem lastLog_absent {x : ItemId} (hcall : ∀ entry ∈ s.toolCalls, x ≠ .call entry.2.callId)
    (hmessage : s.messageOpen = true → x ≠ .message) : Absent x (lastLog s) := by
  refine Absent.append (closingLog_absent fun entry hentry => ?_) ?_
  · exact hcall entry ((perm_closingOrder s.toolCalls).mem_iff.mp hentry)
  · split
    · case isTrue hopen => exact absent_map (hmessage hopen).symm _
    · rfl

variable (h : AtEnd s raws log)
include h

theorem AtEnd.callId_ne {entry : Nat × Call} (hentry : entry ∈ s.toolCalls) : entry.2.callId ≠ [] := by
  by_cases hadded : entry.1 ∈ s.toolCallItemsAdded
  · have hlookup := Assoc.lookup_of_mem h.calls.keys hentry
    exact ((h.calls.call entry.1 entry.2 hlookup).opened hadded).1
  · exact (h.ready entry hentry hadded).1

theorem AtEnd.ids : (closingOrder s.toolCalls).Pairwise fun entry other => entry.2.callId ≠ other.2.callId := by
  have hkeys : s.toolCalls.Pairwise fun entry other => entry.1 ≠ other.1 := List.pairwise_map.mp h.calls.keys
  refine ((perm_closingOrder s.toolCalls).pairwise_iff fun hne => Ne.symm hne).mpr ?_
  refine hkeys.imp_of_mem fun {entry other} hentry hother hne heq => hne ?_
  exact h.calls.distinct entry.1 other.1 entry.2 other.2 (Assoc.lookup_of_mem h.calls.keys hentry)
    (Assoc.lookup_of_mem h.calls.keys hother) heq (h.callId_ne hentry)

theorem AtEnd.reasoning_ended (hclosed : s.reasoningClosed = true) :
    Ended .reasoning 0 s.reasoning (log ++ lastLog s) := by
  refine (h.good.reasoning_ended hclosed).append (lastLog_absent (fun entry _ => ?_) fun _ => ?_)
  · exact ItemId.noConfusion
  · exact ItemId.noConfusion

theorem AtEnd.message_ended (hopen : s.messageOpen = true) (hnone : s.toolCalls = []) :
    Ended .message s.output.length s.text (log ++ lastLog s) := by
  have hlast : lastLog s = closingMessage s.text s.output.length := by
    rw [lastLog, if_pos hopen, hnone]
    rfl
  rw [hlast]
  exact (h.good.message_begun hopen).ends (by simp [Kind.Closes]) rfl

theorem AtEnd.call_ended (hplaced : Placed s) (hlookup : s.toolCalls.lookup index = some call) :
    Ended (.call call.callId) (s.output.length + index) call.arguments (log ++ lastLog s) := by
  have hmem := Assoc.mem_of_lookup hlookup
  obtain ⟨j, hj, -⟩ := lastLog_call hlookup
  rw [lastLog, ← List.append_assoc]
  refine Ended.append (closingLog_ended hj h.ids (fun hadded => ?_) fun hnot => ?_) ?_
  · exact h.good.call_begun index hadded call hlookup
  · have hcall := h.calls.call index call hlookup
    refine ⟨h.good.call_absent call.callId fun i hi other hother heq => hnot ?_, ?_, ?_⟩
    · have hid := ((h.calls.call i other hother).opened hi).1
      rwa [← h.calls.distinct i index other call hother hlookup heq hid]
    · obtain ⟨hid, hname⟩ := h.ready (index, call) hmem hnot
      exact ((hcall.waiting hnot).2.resolve_left hid).resolve_left hname
    · have hrank := closingOrder_get h.calls.keys hplaced.no_gap hj
      have hzero : index = 0 := by
        by_contra hne
        exact hnot (hplaced.opened index (Assoc.mem_keys_of_lookup hlookup) (Nat.pos_of_ne_zero hne))
      rw [hrank, hzero, Nat.add_zero]
  · split
    · exact absent_map ItemId.noConfusion _
    · rfl

/-- What is told of is in the output at the end. -/
theorem AtEnd.listed : ∀ n ∈ log ++ lastLog s, n.item ∈ lastItems s := by
  refine listed_of_absent fun x hx => ?_
  obtain ⟨hx, hmessage⟩ := not_or.mp fun hmem => hx (List.mem_append.mpr hmem)
  obtain ⟨hreasoning, hcall⟩ := not_or.mp fun hmem => hx (List.mem_append.mpr hmem)
  rw [h.good.output] at hreasoning
  have hcall' : ∀ entry ∈ s.toolCalls, x ≠ .call entry.2.callId := by
    intro entry hentry heq
    exact hcall (List.mem_map.mpr ⟨entry, (perm_closingOrder s.toolCalls).mem_iff.mpr hentry, heq.symm⟩)
  have hmessage' : s.messageOpen = true → x ≠ .message := by
    intro hopen heq
    rw [if_pos hopen, heq] at hmessage
    exact hmessage (List.mem_singleton.mpr rfl)
  refine Absent.append ?_ (lastLog_absent hcall' hmessage')
  cases x with
  | reasoning =>
    refine (h.good.reasoning_absent (Bool.eq_false_iff.mpr fun hopen => ?_)).2
    rw [if_pos (h.settled hopen)] at hreasoning
    exact hreasoning (List.mem_singleton.mpr rfl)
  | message => exact (h.good.message_absent (Bool.eq_false_iff.mpr fun hopen => hmessage' hopen rfl)).2
  | call callId =>
    refine h.good.call_absent callId fun index _ call hlookup heq => ?_
    exact hcall' (index, call) (Assoc.mem_of_lookup hlookup) (by rw [heq])

/-- Where all has its place, every item has ended there. -/
theorem AtEnd.proper (hplaced : Placed s) : Proper (log ++ lastLog s) (lastItems s) := by
  refine proper_of_ended (fun i x hx => ?_) h.listed
  have hfirst : (s.output.map Item.id).length = s.output.length := List.length_map _
  have hcalls : ((closingOrder s.toolCalls).map fun entry => ItemId.call entry.2.callId).length = s.toolCalls.length := by
    rw [List.length_map, (perm_closingOrder s.toolCalls).length_eq]
  rw [lastItems, List.append_assoc] at hx
  by_cases hreasoning : i < s.output.length
  · rw [List.getElem?_append_left (hfirst.symm ▸ hreasoning), h.good.output] at hx
    split at hx
    · case isTrue hclosed =>
      obtain ⟨rfl, rfl⟩ : i = 0 ∧ x = .reasoning := by
        cases i with
        | zero => exact ⟨rfl, (Option.some.inj hx).symm⟩
        | succ i => cases hx
      exact ⟨s.reasoning, h.reasoning_ended hclosed⟩
    · cases hx
  · obtain ⟨j, rfl⟩ := Nat.exists_eq_add_of_le (Nat.le_of_not_lt hreasoning)
    rw [List.getElem?_append_right (by rw [hfirst]; exact Nat.le_add_right _ _), hfirst, Nat.add_sub_cancel_left] at hx
    by_cases hcall : j < s.toolCalls.length
    · rw [List.getElem?_append_left (hcalls.symm ▸ hcall), List.getElem?_map] at hx
      obtain ⟨⟨index, call⟩, hj, rfl⟩ := Option.map_eq_some_iff.mp hx
      obtain rfl := closingOrder_get h.calls.keys hplaced.no_gap hj
      have hmem := (perm_closingOrder s.toolCalls).mem_iff.mp (List.mem_of_getElem? hj)
      exact ⟨call.arguments, h.call_ended hplaced (Assoc.lookup_of_mem h.calls.keys hmem)⟩
    · rw [List.getElem?_append_right (hcalls.symm ▸ Nat.le_of_not_lt hcall), hcalls] at hx
      split at hx
      · case isTrue hopen =>
        have hnone := hplaced.alone hopen
        obtain ⟨hj, rfl⟩ : j = 0 ∧ x = .message := by
          rw [hnone] at hx
          cases j with
          | zero => exact ⟨rfl, (Option.some.inj hx).symm⟩
          | succ j => cases hx
        rw [hj, Nat.add_zero]
        exact ⟨s.text, h.message_ended hopen hnone⟩
      · cases hx

/-- A proper log leaves the message alone, and the calls without a gap. -/
theorem AtEnd.placed (hproper : Proper (log ++ lastLog s) (lastItems s)) : Placed s := by
  have hlast : ∀ n ∈ lastLog s, n ∈ log ++ lastLog s := fun n hn => List.mem_append_right _ hn
  have halone : s.messageOpen = true → s.toolCalls = [] := by
    intro hopen
    obtain ⟨n, hn, hitem, hindex⟩ := begun_note (h.good.message_begun hopen)
    have hdone : Note.mk .message (s.output.length + s.toolCalls.length) (.whole s.text) ∈ lastLog s := by
      refine List.mem_append_right _ ?_
      rw [if_pos hopen]
      exact List.mem_cons_self
    have hsame := hproper.one_index n (List.mem_append_left _ hn) _ (hlast _ hdone) hitem
    rw [hindex] at hsame
    exact List.length_eq_zero_iff.mp (Nat.left_eq_add.mp hsame)
  have hgap : ∀ index ∈ s.toolCalls.map Prod.fst, index < s.toolCalls.length := by
    intro index hmem
    obtain ⟨call, hlookup⟩ := Assoc.exists_lookup_of_mem hmem
    obtain ⟨j, -, hnotes⟩ := lastLog_call hlookup
    have hplace := hproper.position _ (hlast _ (hnotes _ (closed_note _ _ _ index call)))
    have hbusy : s.messageOpen = false := by
      refine Bool.eq_false_iff.mpr fun hopen => ?_
      rw [halone hopen] at hmem
      cases hmem
    obtain ⟨hlt, -⟩ := List.getElem?_eq_some_iff.mp hplace
    rw [lastItems, hbusy, List.length_append, List.length_append, List.length_map, List.length_map,
      (perm_closingOrder s.toolCalls).length_eq] at hlt
    exact Nat.lt_of_add_lt_add_left hlt
  refine ⟨halone, hgap, fun index hmem hpos => ?_⟩
  by_contra hnot
  obtain ⟨call, hlookup⟩ := Assoc.exists_lookup_of_mem hmem
  obtain ⟨j, hj, hnotes⟩ := lastLog_call hlookup
  have hrank := closingOrder_get h.calls.keys hgap hj
  have hadded : Note.mk (.call call.callId) (s.output.length + j + index) Kind.added ∈
      closingNotes s.output.length (s.output.length + j) s.toolCallItemsAdded index call := by
    rw [closingNotes, if_neg hnot]
    exact List.mem_cons_self
  have hsame := hproper.one_index _ (hlast _ (hnotes _ hadded)) _ (hlast _ (hnotes _ (closed_note _ _ _ index call))) rfl
  have hsame : s.output.length + j + index = s.output.length + index := hsame
  omega

end AtEnd

/-! ### What was delivered -/

section Delivered

variable {s : Projector} {raws : List PyJson} {log : List (Note ItemId PyChar)} (h : AtEnd s raws log)
include h

theorem AtEnd.message_pieces (hplaced : Placed s) : pieces .message (log ++ lastLog s) = s.text := by
  cases hopen : s.messageOpen with
  | true => exact (h.message_ended hopen (hplaced.alone hopen)).pieces_eq
  | false =>
    obtain ⟨hquiet, habsent⟩ := h.good.message_absent hopen
    have hlast : Absent .message (lastLog s) := by
      refine lastLog_absent (fun entry _ => ItemId.noConfusion) fun hmessage => ?_
      rw [hopen] at hmessage
      cases hmessage
    rw [(habsent.append hlast).pieces, hquiet]

theorem AtEnd.reasoning_pieces : pieces .reasoning (log ++ lastLog s) = s.reasoning := by
  cases hopen : s.reasoningOpen with
  | true => exact (h.reasoning_ended (h.settled hopen)).pieces_eq
  | false =>
    obtain ⟨hquiet, habsent⟩ := h.good.reasoning_absent hopen
    have hlast : Absent .reasoning (lastLog s) :=
      lastLog_absent (fun entry _ => ItemId.noConfusion) fun _ => ItemId.noConfusion
    rw [(habsent.append hlast).pieces, hquiet]

theorem AtEnd.call_pieces (hplaced : Placed s) {index : Nat} {callId : PyStr} (hid : GivesId raws index callId) :
    pieces (.call callId) (log ++ lastLog s) = argumentsOf raws index := by
  obtain ⟨call, hlookup⟩ := h.calls.lookup_of_given hid
  have hcall := h.calls.call index call hlookup
  obtain ⟨rfl, -⟩ := (hcall.callId callId).mp hid
  rw [(h.call_ended hplaced hlookup).pieces_eq, hcall.arguments]

end Delivered

/-! ## The output of a run -/

section Output

variable {s s' start : Projector} {deltas : List Delta} {delta : Delta} {events : List Event}

theorem closeReasoning_output (h : closeReasoning s = .ok (s', events))
    (hs : s.reasoningClosed = true → s.output ≠ []) :
    (s'.reasoningClosed = true → s'.output ≠ []) ∧ (s.reasoningOpen = true → s'.reasoningClosed = true) := by
  rcases closeReasoning_ok h with ⟨hsettled, rfl, -⟩ | ⟨-, -, rfl, -⟩
  · exact ⟨hs, hsettled⟩
  · exact ⟨fun _ => List.append_ne_nil_of_right_ne_nil _ (List.cons_ne_nil _ _), fun _ => rfl⟩

theorem project_output (h : project delta s = .ok (s', events)) (hs : s.reasoningClosed = true → s.output ≠ []) :
    s'.reasoningClosed = true → s'.output ≠ [] := by
  cases delta with
  | toolCalls rawCalls =>
    cases rawCalls with
    | list raws =>
      obtain ⟨s₁, before, after, hclose, hparts, -⟩ := andThen_ok h
      have hsame : SameText s₁ s' := toolCallParts_same hparts
      rw [hsame.reasoningClosed, hsame.output]
      exact (closeReasoning_output hclose hs).1
    | _ => cases h
  | reasoning delta =>
    obtain ⟨s₁, before, after, hopen, hadd, -⟩ := andThen_ok h
    obtain ⟨size, rfl, -⟩ := addReasoning_ok hadd
    rcases openReasoning_ok hopen with ⟨-, rfl, -⟩ | ⟨-, rfl, -⟩
    · exact hs
    · exact hs
  | text delta =>
    obtain ⟨s₂, before, after, hfirst, hadd, -⟩ := andThen_ok h
    obtain ⟨s₁, closing, opening, hclose, hopen, -⟩ := andThen_ok hfirst
    obtain ⟨size, rfl, -⟩ := addText_ok hadd
    have hclosed := (closeReasoning_output hclose hs).1
    rcases openMessage_ok hopen with ⟨-, rfl, -⟩ | ⟨-, rfl, -⟩
    · exact hclosed
    · exact hclosed

theorem Runs.output (h : Runs start deltas events s) (hstart : start.reasoningClosed = true → start.output ≠ []) :
    s.reasoningClosed = true → s.output ≠ [] := by
  induction h with
  | nil => exact hstart
  | usage _ _ ih => exact ih
  | step _ hstep ih => exact project_output hstep ih

end Output

/-! ## Broken for good -/

/-- A broken log does not become proper by what comes when the stream is completed. -/
theorem Broken.not_proper {deltas : List Delta} {log : List (Note ItemId PyChar)} {s : Projector} {output : List ItemId}
    (h : Broken deltas log) (hcalls : CallsOk s (rawCalls deltas))
    (hoccupied : deltas.any Delta.isReasoning = true → s.output ≠ []) (closing : List (Note ItemId PyChar)) :
    ¬ Proper (log ++ (closing ++ lastLog s)) output := by
  intro hproper
  cases h with
  | late before n after hlog hdelta m hm hitem hdone =>
    have hsplit : log ++ (closing ++ lastLog s) = before ++ n :: (after ++ (closing ++ lastLog s)) := by
      rw [hlog, List.append_assoc, List.cons_append]
    have hopen := hproper.before_done before n _ hsplit hdelta m hm hitem
    rw [hdone] at hopen
    cases hopen
  | shared n m hn hm hne hindex =>
    exact hproper.own_index n (List.mem_append_left _ hn) m (List.mem_append_left _ hm) hne hindex
  | displaced hreasoning index callId hid n hn hitem hindex =>
    obtain ⟨call, hlookup⟩ := hcalls.lookup_of_given hid
    obtain ⟨rfl, -⟩ := ((hcalls.call index call hlookup).callId callId).mp hid
    obtain ⟨j, -, hnotes⟩ := lastLog_call hlookup
    have hdone := hnotes _ (closed_note _ _ _ index call)
    have hsame := hproper.one_index n (List.mem_append_left _ hn) _
      (List.mem_append_right _ (List.mem_append_right _ hdone)) hitem
    rw [hindex] at hsame
    exact hoccupied hreasoning (List.length_eq_zero_iff.mp (Nat.right_eq_add.mp hsame))

/-! ## The order of the deltas -/

theorem inOrder_iff {deltas : List Delta} {s : Projector} (hcalls : CallsOk s (rawCalls deltas))
    (hmessage : s.messageOpen = deltas.any Delta.isText) : InOrder deltas ↔ ReasoningFirst deltas ∧ Placed s := by
  constructor
  · intro h
    refine ⟨h.reasoning_first, fun hopen => ?_, fun index hmem => ?_, fun index hmem hpos => ?_⟩
    · have hnone := h.not_both (hmessage.symm.trans hopen)
      refine List.eq_nil_iff_forall_not_mem.mpr fun entry hentry => ?_
      obtain ⟨raw, hraw, -⟩ := (hcalls.asked entry.1).mp (List.mem_map_of_mem hentry)
      rw [hnone] at hraw
      cases hraw
    · obtain ⟨raw, hraw, hindex⟩ := (hcalls.asked index).mp hmem
      have hsub : List.range (index + 1) ⊆ s.toolCalls.map Prod.fst := by
        intro lower hlower
        rcases Nat.lt_succ_iff_lt_or_eq.mp (List.mem_range.mp hlower) with hlt | rfl
        · exact (hcalls.asked lower).mpr (h.no_gap raw hraw index hindex lower hlt)
        · exact hmem
      have hlength := (List.subperm_of_subset List.nodup_range hsub).length_le
      rwa [List.length_range, List.length_map] at hlength
    · obtain ⟨raw, hraw, hindex⟩ := (hcalls.asked index).mp hmem
      exact hcalls.added_iff.mpr (h.opened raw hraw index hindex hpos)
  · rintro ⟨hfirst, hplaced⟩
    refine ⟨hfirst, fun htext => ?_, fun raw hraw index hindex lower hlt => ?_, fun raw hraw index hindex hpos => ?_⟩
    · refine List.eq_nil_iff_forall_not_mem.mpr fun raw hraw => ?_
      obtain ⟨index, hindex⟩ := hcalls.indexed raw hraw
      have hmem := (hcalls.asked index).mpr ⟨raw, hraw, hindex⟩
      rw [hplaced.alone (hmessage.trans htext)] at hmem
      cases hmem
    · have hbound := hplaced.no_gap index ((hcalls.asked index).mpr ⟨raw, hraw, hindex⟩)
      have hrange := closingOrder_range hcalls.keys hplaced.no_gap
      have hmem : lower ∈ (closingOrder s.toolCalls).map Prod.fst := by
        rw [hrange]
        exact List.mem_range.mpr (hlt.trans hbound)
      exact (hcalls.asked lower).mp (((perm_closingOrder s.toolCalls).map Prod.fst).mem_iff.mp hmem)
    · exact hcalls.added_iff.mp (hplaced.opened index ((hcalls.asked index).mpr ⟨raw, hraw, hindex⟩) hpos)

/-! ## The stream -/

section Stream

variable {start s s' : Projector} {deltas : List Delta} {middle after : List Event}

/-- What the completed log is, whether or not all was in order. -/
theorem Runs.completed (h : Runs start deltas middle s) (hreads : Reads start []) (hgood : Good start [])
    (hcomplete : complete s = .ok (s', after)) :
    ∃ s₁ closing, after ≠ [] ∧ completedOutput after = lastItems s₁ ∧ tells after = tells closing ++ lastLog s₁ ∧
      s₁.text = deltas.flatMap Delta.textPart ∧ s₁.reasoning = deltas.flatMap Delta.reasoningPart ∧
      CallsOk s₁ (rawCalls deltas) ∧ s₁.messageOpen = deltas.any Delta.isText ∧
      ((ReasoningFirst deltas ∧ AtEnd s₁ (rawCalls deltas) (tells middle ++ tells closing)) ∨
        (¬ ReasoningFirst deltas ∧ Broken deltas (tells middle) ∧
          (deltas.any Delta.isReasoning = true → s₁.output ≠ []))) := by
  obtain ⟨hread, hcases⟩ := h.order hreads hgood
  obtain ⟨s₁, closing, hclose, hne, houtput, htells, hready⟩ := complete_ok hcomplete hread.calls.keys hread.messageClosed
  obtain ⟨htext, hreasoning, hmessage, -, -, hsameCalls, hsameAdded, -⟩ := closeReasoning_reads hread hclose
  have hcalls : CallsOk s₁ (rawCalls deltas) := hread.calls.congr hsameCalls hsameAdded
  refine ⟨s₁, closing, hne, houtput, htells, htext.trans hread.text, hreasoning.trans hread.reasoning, hcalls,
    hmessage.trans hread.messageOpen, ?_⟩
  rcases hcases with ⟨hfirst, hall⟩ | ⟨hnot, hbroken⟩
  · obtain ⟨hstill, hsettled⟩ := hall.closeReasoning hclose
    refine .inl ⟨hfirst, hstill, hsettled, hcalls, ?_⟩
    rw [hsameCalls, hsameAdded]
    exact hready
  · refine .inr ⟨hnot, hbroken, fun hany => ?_⟩
    have hstart : start.reasoningClosed = true → start.output ≠ [] := fun hclosed => by
      obtain ⟨before, other, later, heq, -⟩ := hreads.reasoningClosed.mp hclosed
      cases before with
      | nil => cases heq
      | cons => cases heq
    obtain ⟨hkept, hnow⟩ := closeReasoning_output hclose (h.output hstart)
    exact hkept (hnow (hread.reasoningOpen.trans hany))

/-- The log is proper exactly if the deltas are in order, and then all is delivered. -/
theorem Runs.proper_iff (h : Runs start deltas middle s) (hreads : Reads start []) (hgood : Good start [])
    (hcomplete : complete s = .ok (s', after)) :
    (Proper (tells middle ++ tells after) (completedOutput after) ↔ InOrder deltas) ∧
      (InOrder deltas → pieces .message (tells middle ++ tells after) = deltas.flatMap Delta.textPart ∧
        pieces .reasoning (tells middle ++ tells after) = deltas.flatMap Delta.reasoningPart ∧
        ∀ index callId, GivesId (rawCalls deltas) index callId →
          pieces (.call callId) (tells middle ++ tells after) = argumentsOf (rawCalls deltas) index) := by
  obtain ⟨s₁, closing, -, houtput, htells, htext, hreasoning, hcalls, hmessage, hcases⟩ :=
    h.completed hreads hgood hcomplete
  rw [houtput, htells, inOrder_iff hcalls hmessage]
  rcases hcases with ⟨hfirst, hend⟩ | ⟨hnot, hbroken, hoccupied⟩
  · rw [← List.append_assoc]
    refine ⟨⟨fun hproper => ⟨hfirst, hend.placed hproper⟩, fun horder => hend.proper horder.2⟩, fun horder => ?_⟩
    refine ⟨(hend.message_pieces horder.2).trans htext, hend.reasoning_pieces.trans hreasoning, ?_⟩
    exact fun index callId hid => hend.call_pieces horder.2 hid
  · refine ⟨iff_of_false (hbroken.not_proper hcalls hoccupied (tells closing)) fun horder => hnot horder.1, ?_⟩
    exact fun horder => absurd horder.1 hnot

end Stream

/-- The projector when `created` is out. -/
def started (modelId : PyStr) (estimatedInputTokens : Nat) (toolAliases : List (PyStr × Identity))
    (allowedToolNames : Option (List PyStr)) : Projector :=
  { Projector.new modelId estimatedInputTokens toolAliases allowedToolNames with sequence := 1 }

section Started

variable (modelId : PyStr) (estimatedInputTokens : Nat) (toolAliases : List (PyStr × Identity))
  (allowedToolNames : Option (List PyStr))

theorem reads_started : Reads (started modelId estimatedInputTokens toolAliases allowedToolNames) [] where
  text := rfl
  reasoning := rfl
  messageOpen := rfl
  reasoningOpen := rfl
  reasoningClosed := by
    refine iff_of_false Bool.false_ne_true ?_
    rintro ⟨before, delta, after, heq, -⟩
    exact List.append_ne_nil_of_right_ne_nil before (List.cons_ne_nil delta after) heq.symm
  messageClosed := rfl
  calls :=
    { indexed := fun raw hraw => absurd hraw List.not_mem_nil
      keys := List.nodup_nil
      asked := fun index => by
        refine iff_of_false List.not_mem_nil ?_
        rintro ⟨raw, hraw, -⟩
        exact List.not_mem_nil hraw
      call := fun index call hlookup => by cases hlookup
      distinct := fun i j c d hlookup => by cases hlookup
      added := fun index hindex => absurd hindex List.not_mem_nil }

theorem good_started : Good (started modelId estimatedInputTokens toolAliases allowedToolNames) [] where
  output := rfl
  closed_open hclosed := by cases hclosed
  fresh hopen := by cases hopen
  reasoning_absent _ := ⟨rfl, rfl⟩
  reasoning_begun hopen := by cases hopen
  reasoning_ended hclosed := by cases hclosed
  message_absent _ := ⟨rfl, rfl⟩
  message_begun hopen := by cases hopen
  call_begun index hindex := absurd hindex List.not_mem_nil
  call_absent callId _ := rfl

end Started

/-- The stream that is made of a provider's is well formed exactly if the deltas are in order. -/
theorem stream_wellFormed_iff (modelId : PyStr) (estimatedInputTokens : Nat) (toolAliases : List (PyStr × Identity))
    (allowedToolNames : Option (List PyStr)) (providerEvents : List PyJson) (done : Bool) (events : List Event)
    (h : stream (Projector.new modelId estimatedInputTokens toolAliases allowedToolNames) providerEvents done =
      .ok events) :
    WellFormed (providerEvents.flatMap deltasOf) events ↔ InOrder (providerEvents.flatMap deltasOf) := by
  obtain ⟨before, middle, after, s, s', hcreated, hrun, hcomplete, rfl⟩ := stream_ok h
  have hreads := reads_started modelId estimatedInputTokens toolAliases allowedToolNames
  have hgood := good_started modelId estimatedInputTokens toolAliases allowedToolNames
  obtain ⟨s₁, closing, hne, -⟩ := Runs.completed hrun hreads hgood hcomplete
  obtain ⟨hiff, hdelivered⟩ := Runs.proper_iff hrun hreads hgood hcomplete
  have hquiet : tells before = [] := tells_of (payloads_emit hcreated)
  have htells : tells (before ++ middle ++ after) = tells middle ++ tells after := by
    rw [tells_append, tells_append, hquiet, List.nil_append]
  have houtput := completedOutput_append (before ++ middle) hne
  constructor
  · intro hwell
    have hproper := hwell.proper
    rw [htells, houtput] at hproper
    exact hiff.mp hproper
  · intro horder
    obtain ⟨htext, hreasoning, harguments⟩ := hdelivered horder
    have hnumbers := ((emit_numbered hcreated rfl).append hrun.numbered).append (complete_numbered hcomplete)
    constructor
    · rw [hnumbers.1, List.range_eq_range']
      rfl
    · rw [htells, houtput]
      exact hiff.mpr horder
    · rw [htells, htext]
    · rw [htells, hreasoning]
    · rw [htells]
      exact harguments

/-- A chunk of a provider with one delta. -/
def chunk (delta : List (PyStr × PyJson)) : PyJson :=
  .dict [(lit "choices", .list [.dict [(lit "delta", .dict delta)]])]

/-- Reasoning and then text. -/
theorem reasoning_then_text_wellFormed : ∃ events,
    stream (Projector.new (lit "m") 0 [] none)
      [chunk [(lit "reasoning_content", .str (lit "r")), (lit "content", .str (lit "a"))]] true = .ok events ∧
      WellFormed [.reasoning (lit "r"), .text (lit "a")] events := by
  obtain ⟨events, h⟩ : ∃ events, stream (Projector.new (lit "m") 0 [] none)
      [chunk [(lit "reasoning_content", .str (lit "r")), (lit "content", .str (lit "a"))]] true = .ok events :=
    exists_ok_of_isOk (by decide +kernel)
  refine ⟨events, h, (stream_wellFormed_iff _ _ _ _ _ _ _ h).mpr ?_⟩
  show InOrder [.reasoning (lit "r"), .text (lit "a")]
  have hnone : ∀ raw ∈ rawCalls [.reasoning (lit "r"), .text (lit "a")], False := fun raw hraw => by cases hraw
  refine ⟨⟨[], [.reasoning (lit "r")], [.text (lit "a")], rfl, List.forall_mem_nil _, ?_, ?_, ?_⟩, fun _ => rfl,
    fun raw hraw => (hnone raw hraw).elim, fun raw hraw => (hnone raw hraw).elim⟩
  · rintro index ⟨⟨callId, raw, hraw, -⟩, -⟩
    cases hraw
  · exact List.forall_mem_singleton.mpr rfl
  · exact List.forall_mem_singleton.mpr rfl

/-- A call that comes after text is told of at the place of the message. -/
theorem call_at_message : ∃ events,
    stream (Projector.new (lit "m") 0 [] none)
      [chunk [(lit "content", .str (lit "a"))],
        chunk [(lit "tool_calls", .list [.dict [(lit "index", .int 0), (lit "id", .str (lit "c")),
          (lit "function", .dict [(lit "name", .str (lit "f")), (lit "arguments", .str (lit "x"))])]])]] true =
      .ok events ∧
    ¬ WellFormed [.text (lit "a"), .toolCalls (.list [.dict [(lit "index", .int 0), (lit "id", .str (lit "c")),
          (lit "function", .dict [(lit "name", .str (lit "f")), (lit "arguments", .str (lit "x"))])]])] events := by
  refine ⟨[⟨0, .responseCreated (lit "m")⟩, ⟨1, .outputItemAdded 0 (.message [] false)⟩, ⟨2, .contentPartAdded 0⟩,
    ⟨3, .outputTextDelta 0 (lit "a")⟩, ⟨4, .outputItemAdded 0 (.functionCall (lit "c") (lit "f") none [] false)⟩,
    ⟨5, .functionCallArgumentsDelta (lit "c") 0 (lit "x")⟩,
    ⟨6, .functionCallArgumentsDone (lit "c") 0 (lit "f") (lit "x")⟩,
    ⟨7, .outputItemDone 0 (.functionCall (lit "c") (lit "f") none (lit "x") true)⟩,
    ⟨8, .outputTextDone 1 (lit "a")⟩, ⟨9, .contentPartDone 1 (lit "a")⟩,
    ⟨10, .outputItemDone 1 (.message [lit "a"] true)⟩,
    ⟨11, .responseCompleted (lit "m") [.functionCall (lit "c") (lit "f") none (lit "x") true,
      .message [lit "a"] true] ⟨0, 1⟩ 1⟩], rfl, fun h => ?_⟩
  refine h.proper.own_index ⟨.message, 0, .added⟩ ?_ ⟨.call (lit "c"), 0, .added⟩ ?_ ItemId.noConfusion rfl
  · exact List.mem_cons_self
  · simp [tells, noteOf, Item.id]

end ResponsesProjector
