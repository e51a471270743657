/-
  AiPlatform.Model.StreamCompletion

  What `complete` tells of the items.

  The calls close in the order of their indices, each at the length of the output before the
  first of them plus its index.  A call that was not told of is added just before, at the length
  that the output has by then plus its index.
-/

import AiPlatform.Model.LateReasoning

namespace ResponsesProjector

open ModelPlane ToolAliases AiPlatform.Checks ItemStream

/-! ## The closing loop -/

def closingKinds (arguments : PyStr) : List (Kind PyChar) := [.whole arguments, .done arguments]

/-- What one round of the closing loop tells; `length` is that of the output by then. -/
def closingNotes (base length : Nat) (added : List Nat) (index : Nat) (call : Call) : List (Note ItemId PyChar) :=
  (if index ∈ added then [] else [Kind.added].map (Note.mk (.call call.callId) (length + index))) ++
    (closingKinds call.arguments).map (Note.mk (.call call.callId) (base + index))

/-- What the closing loop tells. -/
def closingLog (base : Nat) (added : List Nat) : Nat → List (Nat × Call) → List (Note ItemId PyChar)
  | _, [] => []
  | length, (index, call) :: later =>
    closingNotes base length added index call ++ closingLog base added (length + 1) later

structure ClosesCalls (base : Nat) (calls : List (Nat × Call)) (s s' : Projector) (log : List (Note ItemId PyChar)) :
    Prop where
  same : s'.text = s.text ∧ s'.messageOpen = s.messageOpen ∧ s'.messageClosed = s.messageClosed
  output : s'.output.map Item.id = s.output.map Item.id ++ calls.map fun entry => .call entry.2.callId
  told : log = closingLog base s.toolCallItemsAdded s.output.length calls
  ready : ∀ entry ∈ calls, entry.1 ∉ s.toolCallItemsAdded → entry.2.callId ≠ [] ∧ entry.2.wireName ≠ []

section Loop

variable {s s' : Projector} {log : List (Note ItemId PyChar)} {events : List Event} {index base length : Nat}
  {call : Call} {calls : List (Nat × Call)} {added : List Nat}

/-- A round closes its call, and tells of it first if that was not done. -/
theorem closeToolCall_ok (h : closeToolCall base index call s = .ok (s', events)) :
    ClosesCalls base [(index, call)] s s' (tells events) ∧
      ∀ i, i ∈ s'.toolCallItemsAdded ↔ i ∈ s.toolCallItemsAdded ∨ i = index := by
  obtain ⟨⟨s₁, call₁, opening⟩, hopen, h⟩ := bind_eq_ok.mp h
  obtain ⟨⟨s₂, after⟩, hemit, h⟩ := bind_eq_ok.mp h
  obtain ⟨rfl, rfl⟩ := Prod.mk.inj (Except.ok.inj h)
  have hnotes := tells_of (payloads_emit hemit)
  obtain rfl := (emit_ok hemit).1
  rw [tells_append, hnotes]
  rcases openToolCall_ok hopen with ⟨hadded, rfl, rfl, rfl⟩ | ⟨hadded, hid, hname, rfl, rfl, hopening⟩
  · refine ⟨?_, fun i => (or_iff_left_of_imp fun hi => hi ▸ hadded).symm⟩
    exact
      { same := ⟨rfl, rfl, rfl⟩
        output := List.map_append
        told := by
          rw [closingLog, closingNotes, if_pos hadded]
          rfl
        ready := fun entry hentry hnot => by
          obtain rfl := List.mem_singleton.mp hentry
          exact absurd hadded hnot }
  · obtain ⟨hcallId, -, harguments, -⟩ := named_callId s.toolAliases call
    have hitem : (named s.toolAliases call).item true =
        .functionCall call.callId (named s.toolAliases call).name (named s.toolAliases call).scope call.arguments true := by
      rw [Call.item, hcallId, harguments]
    refine ⟨?_, fun i => List.mem_append.trans (or_congr_right List.mem_singleton)⟩
    exact
      { same := ⟨rfl, rfl, rfl⟩
        output := by
          rw [hitem]
          exact List.map_append
        told := by
          rw [tells_of hopening, hitem, hcallId, harguments, closingLog, closingNotes, if_neg hadded]
          simp [noteOf, Item.id, Item.content, Call.item, closingKinds, closingLog]
        ready := fun entry hentry _ => by
          obtain rfl := List.mem_singleton.mp hentry
          exact ⟨hid, hname⟩ }

theorem closingLog_congr {added' : List Nat} (h : ∀ entry ∈ calls, entry.1 ∈ added' ↔ entry.1 ∈ added) :
    closingLog base added' length calls = closingLog base added length calls := by
  induction calls generalizing length with
  | nil => rfl
  | cons entry later ih =>
    obtain ⟨index, call⟩ := entry
    have hhead := h (index, call) List.mem_cons_self
    rw [closingLog, closingLog, ih fun entry hentry => h entry (List.mem_cons_of_mem _ hentry), closingNotes,
      closingNotes, if_congr hhead rfl rfl]

theorem closeCalls_ok (h : closeCalls base calls s = .ok (s', events)) (hkeys : (calls.map Prod.fst).Nodup) :
    ClosesCalls base calls s s' (tells events) := by
  induction calls generalizing s events with
  | nil =>
    obtain ⟨rfl, rfl⟩ := Prod.mk.inj (Except.ok.inj h)
    exact ⟨⟨rfl, rfl, rfl⟩, (List.append_nil _).symm, rfl, fun entry hentry => absurd hentry List.not_mem_nil⟩
  | cons entry later ih =>
    obtain ⟨index, call⟩ := entry
    obtain ⟨s₁, before, after, hfirst, hlater, rfl⟩ := andThen_ok h
    obtain ⟨hnew, hkeys⟩ := List.nodup_cons.mp hkeys
    obtain ⟨hround, hadded⟩ := closeToolCall_ok hfirst
    have hrest := ih hlater hkeys
    have hother : ∀ entry ∈ later, entry.1 ∈ s₁.toolCallItemsAdded ↔ entry.1 ∈ s.toolCallItemsAdded := by
      intro entry hentry
      rw [hadded]
      refine or_iff_left fun heq => hnew ?_
      rw [← heq]
      exact List.mem_map.mpr ⟨entry, hentry, rfl⟩
    have hlength : s₁.output.length = s.output.length + 1 := by
      have hids := congrArg List.length hround.output
      rwa [List.length_append, List.length_map, List.length_map] at hids
    exact
      { same := ⟨hrest.same.1.trans hround.same.1, hrest.same.2.1.trans hround.same.2.1,
          hrest.same.2.2.trans hround.same.2.2⟩
        output := by
          rw [hrest.output, hround.output, List.append_assoc]
          rfl
        told := by
          rw [tells_append, hround.told, hrest.told, closingLog_congr hother, hlength]
          rw [closingLog, closingLog, List.append_nil]
          rfl
        ready := fun entry hentry hnot => by
          rcases List.mem_cons.mp hentry with rfl | hentry
          · exact hround.ready _ (List.mem_singleton.mpr rfl) hnot
          · exact hrest.ready entry hentry fun hmem => hnot ((hother entry hentry).mp hmem) }

/-! ### The notes of one call -/

theorem closingLog_get {j : Nat} (h : calls[j]? = some (index, call)) :
    ∀ n ∈ closingNotes base (length + j) added index call, n ∈ closingLog base added length calls := by
  induction calls generalizing j length with
  | nil => cases h
  | cons entry later ih =>
    obtain ⟨index', call'⟩ := entry
    intro n hn
    rw [closingLog]
    cases j with
    | zero =>
      obtain ⟨rfl, rfl⟩ := Prod.mk.inj (Option.some.inj h)
      exact List.mem_append_left _ hn
    | succ j =>
      refine List.mem_append_right _ (ih h n ?_)
      rwa [Nat.add_assoc, Nat.add_comm 1 j]

theorem closingNotes_item : ∀ n ∈ closingNotes base length added index call, n.item = .call call.callId := by
  intro n hn
  rcases List.mem_append.mp hn with hn | hn
  · split at hn
    · cases hn
    · obtain rfl := List.mem_singleton.mp hn
      rfl
  · obtain ⟨kind, -, rfl⟩ := List.mem_map.mp hn
    rfl

theorem closingNotes_absent {x : ItemId} (h : x ≠ .call call.callId) :
    Absent x (closingNotes base length added index call) := by
  refine List.filter_eq_nil_iff.mpr fun n hn => ?_
  rw [closingNotes_item n hn]
  simpa using h.symm

theorem closingLog_absent {x : ItemId} (h : ∀ entry ∈ calls, x ≠ .call entry.2.callId) :
    Absent x (closingLog base added length calls) := by
  induction calls generalizing length with
  | nil => rfl
  | cons entry later ih =>
    obtain ⟨index, call⟩ := entry
    rw [closingLog]
    refine (closingNotes_absent (h (index, call) List.mem_cons_self)).append (ih fun entry hentry => ?_)
    exact h entry (List.mem_cons_of_mem _ hentry)

/-- Where the ids differ, the closing loop tells of each call in its own round only. -/
theorem closingLog_story {j : Nat} (h : calls[j]? = some (index, call))
    (hids : calls.Pairwise fun entry other => entry.2.callId ≠ other.2.callId) :
    story (.call call.callId) (closingLog base added length calls) =
      closingNotes base (length + j) added index call := by
  induction calls generalizing j length with
  | nil => cases h
  | cons entry later ih =>
    obtain ⟨index', call'⟩ := entry
    obtain ⟨hhead, hids⟩ := List.pairwise_cons.mp hids
    rw [closingLog]
    cases j with
    | zero =>
      obtain ⟨rfl, rfl⟩ := Prod.mk.inj (Option.some.inj h)
      rw [story_append_of_absent (closingLog_absent fun entry hentry heq => hhead entry hentry (ItemId.call.inj heq))]
      exact List.filter_eq_self.mpr fun n hn => decide_eq_true (closingNotes_item n hn)
    | succ j =>
      have hne : call.callId ≠ call'.callId := (hhead _ (List.mem_of_getElem? h)).symm
      have habsent : Absent (.call call.callId) (closingNotes base length added index' call') :=
        closingNotes_absent fun heq => hne (ItemId.call.inj heq)
      rw [story_append, habsent, List.nil_append, ih h hids, Nat.add_assoc, Nat.add_comm 1 j]

/-- A call closes at its place if it was told of there, or is the first to close. -/
theorem closingLog_ended {j : Nat} (h : calls[j]? = some (index, call))
    (hids : calls.Pairwise fun entry other => entry.2.callId ≠ other.2.callId)
    (hbegun : index ∈ added → Begun (.call call.callId) (base + index) call.arguments log)
    (hwaits : index ∉ added → Absent (.call call.callId) log ∧ call.arguments = [] ∧ length + j = base) :
    Ended (.call call.callId) (base + index) call.arguments (log ++ closingLog base added length calls) := by
  have hstory : story (.call call.callId) (closingLog base added length calls) =
      closingNotes base (length + j) added index call := closingLog_story h hids
  rw [closingNotes] at hstory
  split at hstory
  · case isTrue hadded =>
    exact (hbegun hadded).ends_in hstory (by simp [closingKinds, Kind.Closes]) rfl
  · case isFalse hadded =>
    obtain ⟨habsent, hnone, hfirst⟩ := hwaits hadded
    rw [hfirst, hnone, ← List.map_append] at hstory
    rw [hnone]
    exact habsent.ends_in hstory (by simp [closingKinds, Kind.Closes]) rfl

end Loop

/-! ## The whole of it -/

/-- The calls in the order in which they close. -/
def closingOrder (toolCalls : List (Nat × Call)) : List (Nat × Call) := toolCalls.insertionSort fun a b => a.1 ≤ b.1

/-- What the message tells when it closes. -/
def closingMessage (text : PyStr) (index : Nat) : List (Note ItemId PyChar) :=
  [Kind.whole text, .whole text, .done text].map (Note.mk .message index)

/-- The items that the response has in the end; `s` is the projector with the reasoning closed. -/
def lastItems (s : Projector) : List ItemId :=
  s.output.map Item.id ++ (closingOrder s.toolCalls).map (fun entry => .call entry.2.callId) ++
    if s.messageOpen then [.message] else []

/-- What is told once the reasoning is closed. -/
def lastLog (s : Projector) : List (Note ItemId PyChar) :=
  closingLog s.output.length s.toolCallItemsAdded s.output.length (closingOrder s.toolCalls) ++
    if s.messageOpen then closingMessage s.text (s.output.length + s.toolCalls.length) else []

section Whole

variable {s s' s₁ : Projector} {events before after : List Event} {calls toolCalls : List (Nat × Call)}

theorem perm_closingOrder (toolCalls : List (Nat × Call)) : (closingOrder toolCalls).Perm toolCalls :=
  List.perm_insertionSort _ toolCalls

theorem keys_closingOrder (h : (toolCalls.map Prod.fst).Nodup) :
    ((closingOrder toolCalls).map Prod.fst).Nodup :=
  ((perm_closingOrder toolCalls).map Prod.fst).nodup_iff.mpr h

/-- Where the indices leave no gap, each call closes at the place of its index. -/
theorem closingOrder_range (h : (toolCalls.map Prod.fst).Nodup)
    (hlt : ∀ index ∈ toolCalls.map Prod.fst, index < toolCalls.length) :
    (closingOrder toolCalls).map Prod.fst = List.range toolCalls.length := by
  have hperm := (perm_closingOrder toolCalls).map Prod.fst
  have hall : (toolCalls.map Prod.fst).Perm (List.range toolCalls.length) := by
    refine (List.subperm_of_subset h fun index hmem => List.mem_range.mpr (hlt index hmem)).perm_of_length_le ?_
    rw [List.length_range, List.length_map]
  have hsorted : ((closingOrder toolCalls).map Prod.fst).Pairwise (· ≤ ·) := by
    refine List.pairwise_map.mpr ?_
    exact List.pairwise_insertionSort _ toolCalls
  exact (hperm.trans hall).eq_of_pairwise' hsorted List.pairwise_le_range

theorem closingOrder_get {j index : Nat} {call : Call} (h : (toolCalls.map Prod.fst).Nodup)
    (hlt : ∀ index ∈ toolCalls.map Prod.fst, index < toolCalls.length)
    (hj : (closingOrder toolCalls)[j]? = some (index, call)) : j = index := by
  have hkey : ((closingOrder toolCalls).map Prod.fst)[j]? = some index := by rw [List.getElem?_map, hj, Option.map_some]
  rw [closingOrder_range h hlt] at hkey
  obtain ⟨hj, hindex⟩ := List.getElem?_eq_some_iff.mp hkey
  rw [← hindex, List.getElem_range]

theorem completedOutput_append (before : List Event) (hne : events ≠ []) :
    completedOutput (before ++ events) = completedOutput events := by
  rw [completedOutput, List.getLast?_append_of_ne_nil _ hne]
  rfl

theorem closeMessage_tells (h : closeMessage s = .ok (s', events)) (hclosed : s.messageClosed = false) :
    s'.output.map Item.id = s.output.map Item.id ++ (if s.messageOpen then [.message] else []) ∧
      tells events = if s.messageOpen then closingMessage s.text s.output.length else [] := by
  rcases closeMessage_ok h with ⟨hsettled, rfl, rfl⟩ | ⟨hopen, -, rfl, hpayloads⟩
  · have hnot : ¬ s'.messageOpen = true := fun hopen => by
      rw [hsettled hopen] at hclosed
      cases hclosed
    rw [if_neg hnot, if_neg hnot, List.append_nil]
    exact ⟨rfl, rfl⟩
  · rw [if_pos hopen, if_pos hopen, tells_of hpayloads]
    refine ⟨List.map_append, ?_⟩
    simp [noteOf, Item.id, Item.content, closingMessage]

/-- To complete is to close the reasoning, the calls and the message, and to list what there is. -/
theorem complete_ok (h : complete s = .ok (s', events)) (hkeys : (s.toolCalls.map Prod.fst).Nodup)
    (hclosed : s.messageClosed = false) :
    ∃ s₁ closing, closeReasoning s = .ok (s₁, closing) ∧ events ≠ [] ∧ completedOutput events = lastItems s₁ ∧
      tells events = tells closing ++ lastLog s₁ ∧
      ∀ entry ∈ s.toolCalls, entry.1 ∉ s.toolCallItemsAdded → entry.2.callId ≠ [] ∧ entry.2.wireName ≠ [] := by
  obtain ⟨s₃, before₃, final, h₃, hfinish, rfl⟩ := andThen_ok h
  obtain ⟨s₂, before₂, message, h₂, hmessage, rfl⟩ := andThen_ok h₃
  obtain ⟨s₁, closing, calls, hreasoning, hcalls, rfl⟩ := andThen_ok h₂
  have hsame : s₁.toolCalls = s.toolCalls ∧ s₁.toolCallItemsAdded = s.toolCallItemsAdded ∧
      s₁.messageClosed = s.messageClosed := by
    rcases closeReasoning_ok hreasoning with ⟨-, rfl, -⟩ | ⟨-, -, rfl, -⟩
    · exact ⟨rfl, rfl, rfl⟩
    · exact ⟨rfl, rfl, rfl⟩
  obtain ⟨hsameCalls, hsameAdded, hsameClosed⟩ := hsame
  have hloop : ClosesCalls s₁.output.length (closingOrder s₁.toolCalls) s₁ s₂ (tells calls) :=
    closeCalls_ok hcalls (keys_closingOrder (by rwa [hsameCalls]))
  have hstill : s₂.messageClosed = false := hloop.same.2.2.trans (hsameClosed.trans hclosed)
  obtain ⟨hitems, htells⟩ := closeMessage_tells hmessage hstill
  rw [hloop.same.2.1] at hitems htells
  obtain ⟨usage, total, -, -, hfinal⟩ := finish_ok hfinish
  have hne : final ≠ [] := by
    rintro rfl
    cases hfinal
  have hlength : s₂.output.length = s₁.output.length + s₁.toolCalls.length := by
    have hids := congrArg List.length hloop.output
    rwa [List.length_map, List.length_append, List.length_map, List.length_map,
      (perm_closingOrder s₁.toolCalls).length_eq] at hids
  refine ⟨s₁, closing, hreasoning, List.append_ne_nil_of_right_ne_nil _ hne, ?_, ?_, fun entry hentry => ?_⟩
  · obtain ⟨event, rfl⟩ : ∃ event, final = [event] := by
      refine List.length_eq_one_iff.mp ?_
      have hone := congrArg List.length hfinal
      rwa [List.length_map] at hone
    rw [completedOutput_append _ hne, lastItems, ← hloop.output, ← hitems, completedOutput]
    rw [List.getLast?_singleton, Option.map_some, (List.cons.inj hfinal).1]
  · have hnone : tells final = [] := tells_of hfinal
    rw [tells_append, tells_append, tells_append, hnone, List.append_nil, htells, hloop.told, lastLog, hloop.same.1,
      hlength, List.append_assoc]
  · rw [← hsameAdded]
    refine hloop.ready entry ((perm_closingOrder s₁.toolCalls).mem_iff.mpr ?_)
    rwa [hsameCalls]

end Whole

end ResponsesProjector
