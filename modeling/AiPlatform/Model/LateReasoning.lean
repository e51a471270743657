/-
  AiPlatform.Model.LateReasoning

  Reasoning that comes too late breaks the projected stream for good: after text or tool calls
  were told of, or after it was closed.
-/

import AiPlatform.Model.StreamOrder

namespace ResponsesProjector

open ModelPlane ToolAliases AiPlatform.Checks ItemStream

/-- What no log has that goes on to a proper one. -/
inductive Broken (deltas : List Delta) (log : List (Note ItemId PyChar)) : Prop where
  /-- A piece of an item that is done. -/
  | late (before : List (Note ItemId PyChar)) (n : Note ItemId PyChar) (after : List (Note ItemId PyChar))
      (hlog : log = before ++ n :: after) (hdelta : n.kind.isDelta = true) (m : Note ItemId PyChar) (hm : m ∈ before)
      (hitem : m.item = n.item) (hdone : m.kind.isDone = true)
  /-- Two items at one place. -/
  | shared (n m : Note ItemId PyChar) (hn : n ∈ log) (hm : m ∈ log) (hne : n.item ≠ m.item) (hindex : n.index = m.index)
  /-- A call whose place leaves no room for the reasoning. -/
  | displaced (hreasoning : deltas.any Delta.isReasoning = true) (index : Nat) (callId : PyStr)
      (hid : GivesId (rawCalls deltas) index callId) (n : Note ItemId PyChar) (hn : n ∈ log)
      (hitem : n.item = .call callId) (hindex : n.index = index)

section Late

variable {s s' start : Projector} {deltas : List Delta} {delta : Delta} {log more : List (Note ItemId PyChar)}
  {events : List Event} {raws : List PyJson} {index : Nat}

theorem GivesId.append {callId : PyStr} (h : GivesId raws index callId) (later : List PyJson) :
    GivesId (raws ++ later) index callId := by
  obtain ⟨raw, hraw, hrest⟩ := h
  exact ⟨raw, List.mem_append_left _ hraw, hrest⟩

theorem Opens.append (h : Opens raws index) (later : List PyJson) : Opens (raws ++ later) index := by
  obtain ⟨⟨callId, hid⟩, ⟨raw, hraw, hname⟩, harguments⟩ := h
  refine ⟨⟨callId, hid.append later⟩, ⟨raw, List.mem_append_left _ hraw, hname⟩, ?_⟩
  rw [argumentsOf, List.filter_append, List.flatMap_append]
  exact List.append_ne_nil_of_left_ne_nil harguments _

theorem Broken.append (h : Broken deltas log) (delta : Delta) (more : List (Note ItemId PyChar)) :
    Broken (deltas ++ [delta]) (log ++ more) := by
  cases h with
  | late before n after hlog hdelta m hm hitem hdone =>
    exact .late before n (after ++ more) (by rw [hlog, List.append_assoc, List.cons_append]) hdelta m hm hitem hdone
  | shared n m hn hm hne hindex =>
    exact .shared n m (List.mem_append_left _ hn) (List.mem_append_left _ hm) hne hindex
  | displaced hreasoning index callId hid n hn hitem hindex =>
    refine .displaced ?_ index callId ?_ n (List.mem_append_left _ hn) hitem hindex
    · rw [List.any_append, hreasoning, Bool.true_or]
    · rw [rawCalls_snoc]
      exact hid.append _

theorem begun_note {x : ItemId} {text : PyStr} (h : Begun x index text log) :
    ∃ n ∈ log, n.item = x ∧ n.index = index := by
  obtain ⟨body, hstory, -⟩ := h
  have hmem : Note.mk x index Kind.added ∈ story x log := by
    rw [hstory]
    exact List.mem_cons_self
  exact ⟨_, (mem_story.mp hmem).1, rfl, rfl⟩

theorem ended_done {x : ItemId} {text : PyStr} (h : Ended x index text log) :
    ∃ n ∈ log, n.item = x ∧ n.kind.isDone = true := by
  have hpos : 0 < (story x log).countP fun n => n.kind.isDone := by
    rw [h.countP_done]
    exact Nat.one_pos
  obtain ⟨n, hn, hdone⟩ := List.countP_pos_iff.mp hpos
  exact ⟨n, (mem_story.mp hn).1, (mem_story.mp hn).2, hdone⟩

/-- Reasoning that is not in order breaks the log. -/
theorem broken_of_late {piece : PyStr} (h : Good s log) (hreads : Reads s deltas) (hnot : ¬ MayReason s)
    (hstep : project (.reasoning piece) s = .ok (s', events)) :
    Broken (deltas ++ [.reasoning piece]) (log ++ tells events) := by
  obtain ⟨s₁, before, after, hopen, hadd, rfl⟩ := andThen_ok hstep
  obtain ⟨size, rfl, hadded⟩ := addReasoning_ok hadd
  rw [tells_append, tells_of hadded]
  cases hclosed : s.reasoningClosed with
  | true =>
    obtain ⟨m, hm, hitem, hdone⟩ := ended_done (h.reasoning_ended hclosed)
    refine .late (log ++ tells before) ⟨.reasoning, s₁.output.length, .delta piece⟩ [] ?_ rfl m
      (List.mem_append_left _ hm) hitem hdone
    rw [List.append_assoc]
    rfl
  | false =>
    have hfirst : s.reasoningOpen = false ∧ ¬ (s.messageOpen = false ∧ s.toolCallItemsAdded = []) := by
      by_contra hall
      exact hnot ⟨hclosed, fun hfalse => by_contra fun hbusy => hall ⟨hfalse, hbusy⟩⟩
    obtain ⟨hfalse, hbusy⟩ := hfirst
    rcases openReasoning_ok hopen with ⟨htrue, -⟩ | ⟨-, -, hopened⟩
    · rw [htrue] at hfalse
      cases hfalse
    · have hnil := h.output_nil hclosed
      cases hmessage : s.messageOpen with
      | true =>
        obtain ⟨n, hn, hitem, hindex⟩ := begun_note (h.message_begun hmessage)
        rw [tells_of hopened]
        refine .shared n ⟨.reasoning, s.output.length, .added⟩ (List.mem_append_left _ hn) ?_ ?_ hindex
        · exact List.mem_append_right _ (List.mem_append_left _ List.mem_cons_self)
        · rw [hitem]
          exact ItemId.noConfusion
      | false =>
        have hsome : s.toolCallItemsAdded ≠ [] := fun hnone => hbusy ⟨hmessage, hnone⟩
        obtain ⟨index, hindex⟩ := List.exists_mem_of_ne_nil _ hsome
        obtain ⟨call, hlookup⟩ := Assoc.exists_lookup_of_mem (hreads.calls.added index hindex)
        have hcall := hreads.calls.call index call hlookup
        obtain ⟨n, hn, hitem, hplace⟩ := begun_note (h.call_begun index hindex call hlookup)
        rw [hnil, List.length_nil, Nat.zero_add] at hplace
        refine .displaced ?_ index call.callId ?_ n (List.mem_append_left _ hn) hitem hplace
        · rw [List.any_append]
          exact Bool.or_true _
        · rw [rawCalls_snoc]
          exact ((hcall.callId _).mpr ⟨rfl, (hcall.opened hindex).1⟩).append _

/-! ### The order of the deltas -/

theorem any_eq_false {p : Delta → Bool} : deltas.any p = false ↔ ∀ delta ∈ deltas, p delta = false := by
  simp

theorem ReasoningFirst.snoc (h : ReasoningFirst deltas) (hreads : Reads s deltas)
    (hmay : delta.isReasoning = true → MayReason s) : ReasoningFirst (deltas ++ [delta]) := by
  obtain ⟨calls, reasonings, rest, heq, hcalls, hopens, hreasonings, hrest⟩ := h
  cases hkind : delta.isReasoning with
  | false =>
    refine ⟨calls, reasonings, rest ++ [delta], by rw [heq, List.append_assoc], hcalls, hopens, hreasonings, ?_⟩
    exact List.forall_mem_append.mpr ⟨hrest, List.forall_mem_singleton.mpr hkind⟩
  | true =>
    obtain ⟨hclosed, hfirst⟩ := hmay hkind
    cases hopen : s.reasoningOpen with
    | true =>
      -- the reasoning goes on
      have hnone : rest = [] := by
        cases rest with
        | nil => rfl
        | cons other rest =>
          have hany : (calls ++ reasonings).any Delta.isReasoning = true := by
            have hall := hreads.reasoningOpen.symm.trans hopen
            rwa [heq, List.any_append, any_eq_false.mpr hrest, Bool.or_false] at hall
          have hover : Closed deltas :=
            ⟨calls ++ reasonings, other, rest, heq, hany, hrest other List.mem_cons_self⟩
          rw [hreads.reasoningClosed.mpr hover] at hclosed
          cases hclosed
      refine ⟨calls, reasonings ++ [delta], [], ?_, hcalls, hopens, ?_, List.forall_mem_nil _⟩
      · rw [heq, hnone, List.append_nil, List.append_nil, List.append_assoc]
      · exact List.forall_mem_append.mpr ⟨hreasonings, List.forall_mem_singleton.mpr hkind⟩
    | false =>
      -- the reasoning begins
      obtain ⟨hmessage, hadded⟩ := hfirst hopen
      refine ⟨deltas, [delta], [], (List.append_nil _).symm, ?_, ?_, List.forall_mem_singleton.mpr hkind,
        List.forall_mem_nil _⟩
      · intro other hother
        have htext := any_eq_false.mp (hreads.messageOpen.symm.trans hmessage) other hother
        have hreasoning := any_eq_false.mp (hreads.reasoningOpen.symm.trans hopen) other hother
        cases other with
        | toolCalls rawCalls => rfl
        | reasoning piece => cases hreasoning
        | text piece => cases htext
      · intro index hopened
        have hmem := hreads.calls.added_iff.mpr hopened
        rw [hadded] at hmem
        cases hmem

theorem ReasoningFirst.mayReason (h : ReasoningFirst (deltas ++ [delta])) (hreads : Reads s deltas)
    (hkind : delta.isReasoning = true) : MayReason s := by
  obtain ⟨calls, reasonings, rest, heq, hcalls, hopens, hreasonings, hrest⟩ := h
  obtain ⟨earlier, hdeltas, hearlier⟩ : ∃ earlier, deltas = calls ++ earlier ∧
      ∀ delta ∈ earlier, delta.isReasoning = true := by
    have hall : rest = [] := by
      rcases List.eq_nil_or_concat rest with hnone | ⟨rest', last, rfl⟩
      · exact hnone
      · rw [List.concat_eq_append, ← List.append_assoc] at heq
        obtain rfl := List.singleton_inj.mp (List.append_inj' heq rfl).2
        rw [hrest delta (by simp)] at hkind
        cases hkind
    subst hall
    rcases List.eq_nil_or_concat reasonings with rfl | ⟨earlier, last, rfl⟩
    · rw [List.append_nil, List.append_nil] at heq
      have hlast := hcalls delta (heq ▸ List.mem_append_right _ List.mem_cons_self)
      cases delta with
      | reasoning piece => cases hlast
      | _ => cases hkind
    · rw [List.append_nil, List.concat_eq_append, ← List.append_assoc] at heq
      refine ⟨earlier, (List.append_inj' heq rfl).1, fun delta hmem => hreasonings delta ?_⟩
      rw [List.concat_eq_append]
      exact List.mem_append_left _ hmem
  have hquiet : ∀ delta ∈ calls, delta.isReasoning = false := by
    intro other hother
    have htool := hcalls other hother
    cases other with
    | toolCalls rawCalls => rfl
    | _ => cases htool
  constructor
  · by_contra hnot
    obtain ⟨before, other, after, hsplit, hbefore, hother⟩ := hreads.reasoningClosed.mp (Bool.eq_true_of_not_eq_false hnot)
    rcases List.append_eq_append_iff.mp (hdeltas.symm.trans hsplit) with ⟨middle, hmiddle, hlater⟩ | ⟨middle, hmiddle, hlater⟩
    · have hmem : other ∈ earlier := hlater ▸ List.mem_append_right _ List.mem_cons_self
      rw [hearlier other hmem] at hother
      cases hother
    · rw [any_eq_false.mpr fun delta hmem => hquiet delta (hmiddle ▸ List.mem_append_left _ hmem)] at hbefore
      cases hbefore
  · intro hopen
    have hnone : earlier = [] := by
      rw [hreads.reasoningOpen] at hopen
      refine List.eq_nil_iff_forall_not_mem.mpr fun other hmem => ?_
      have hfalse := any_eq_false.mp hopen other (hdeltas ▸ List.mem_append_right _ hmem)
      rw [hearlier other hmem] at hfalse
      cases hfalse
    rw [hnone, List.append_nil] at hdeltas
    subst hdeltas
    refine ⟨?_, List.eq_nil_iff_forall_not_mem.mpr fun index hmem => hopens index (hreads.calls.added_iff.mp hmem)⟩
    rw [hreads.messageOpen]
    refine any_eq_false.mpr fun other hother => ?_
    have htool := hcalls other hother
    cases other with
    | text piece => cases htool
    | _ => rfl

theorem ReasoningFirst.of_snoc (h : ReasoningFirst (deltas ++ [delta])) : ReasoningFirst deltas := by
  obtain ⟨calls, reasonings, rest, heq, hcalls, hopens, hreasonings, hrest⟩ := h
  rcases List.eq_nil_or_concat rest with rfl | ⟨rest, last, rfl⟩
  · rcases List.eq_nil_or_concat reasonings with rfl | ⟨reasonings, last, rfl⟩
    · rw [List.append_nil, List.append_nil] at heq
      refine ⟨deltas, [], [], by simp, fun other hmem => hcalls other (heq ▸ List.mem_append_left _ hmem), ?_,
        List.forall_mem_nil _, List.forall_mem_nil _⟩
      intro index hopened
      refine hopens index ?_
      rw [← heq, rawCalls_snoc]
      exact hopened.append _
    · rw [List.append_nil, List.concat_eq_append, ← List.append_assoc] at heq
      refine ⟨calls, reasonings, [], ?_, hcalls, hopens, fun other hmem => hreasonings other ?_, List.forall_mem_nil _⟩
      · rw [List.append_nil]
        exact (List.append_inj' heq rfl).1
      · rw [List.concat_eq_append]
        exact List.mem_append_left _ hmem
  · rw [List.concat_eq_append, ← List.append_assoc] at heq
    refine ⟨calls, reasonings, rest, (List.append_inj' heq rfl).1, hcalls, hopens, hreasonings, fun other hmem => hrest other ?_⟩
    rw [List.concat_eq_append]
    exact List.mem_append_left _ hmem

/-- Either all is in order so far, or the log is broken. -/
theorem Runs.order (h : Runs start deltas events s) (hreads : Reads start []) (hgood : Good start []) :
    Reads s deltas ∧
      ((ReasoningFirst deltas ∧ Good s (tells events)) ∨ (¬ ReasoningFirst deltas ∧ Broken deltas (tells events))) := by
  induction h with
  | nil =>
    refine ⟨hreads, .inl ⟨⟨[], [], [], rfl, List.forall_mem_nil _, ?_, List.forall_mem_nil _, List.forall_mem_nil _⟩, hgood⟩⟩
    rintro index ⟨⟨callId, raw, hraw, -⟩, -⟩
    cases hraw
  | usage usage h ih =>
    obtain ⟨hread, hcases⟩ := ih
    refine ⟨⟨hread.text, hread.reasoning, hread.messageOpen, hread.reasoningOpen, hread.reasoningClosed,
      hread.messageClosed, hread.calls.congr rfl rfl⟩, hcases.imp_left fun hall => ⟨hall.1, ?_⟩⟩
    exact ⟨hall.2.output, hall.2.closed_open, hall.2.fresh, hall.2.reasoning_absent, hall.2.reasoning_begun,
      hall.2.reasoning_ended, hall.2.message_absent, hall.2.message_begun, hall.2.call_begun, hall.2.call_absent⟩
  | @step deltas events more s s' delta h hstep ih =>
    obtain ⟨hread, hcases⟩ := ih
    refine ⟨hread.step hstep, ?_⟩
    rw [tells_append]
    rcases hcases with ⟨hfirst, hall⟩ | ⟨hnot, hbroken⟩
    · by_cases hmay : delta.isReasoning = true → MayReason s
      · exact .inl ⟨hfirst.snoc hread hmay, hall.step hread hmay hstep⟩
      · obtain ⟨hkind, hlate⟩ := Classical.not_imp.mp hmay
        cases delta with
        | reasoning piece =>
          exact .inr ⟨fun hstill => hlate (hstill.mayReason hread hkind), broken_of_late hall hread hlate hstep⟩
        | _ => cases hkind
    · exact .inr ⟨fun hstill => hnot hstill.of_snoc, hbroken.append delta _⟩

end Late

end ResponsesProjector
