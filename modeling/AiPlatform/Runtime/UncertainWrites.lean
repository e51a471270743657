/-
  AiPlatform.Runtime.UncertainWrites

  What recovery reports for a call that may have written, as a function of the
  list of its persisted events (`platform_lifecycle.rs`).

  Until a terminal event the entry of a call is the phase of its last event and
  the last effect one of them names.  A dispatched write is reported as such only
  where no later event overwrites either.
-/

import AiPlatform.Runtime.PlatformLifecycle
import Mathlib.Data.List.Induction

namespace AiPlatform.Runtime.PlatformLifecycle

open AiPlatform.Json

/-- The phases and the effects named by the events of a call, in the order of the
    list.  An event without a phase is skipped as a whole. -/
def phasesOf (callId : String) (events : List Value) : List PersistedPhase :=
  events.filterMap fun event =>
    if persistedCallId event = some callId then persistedPhase event else none

def effectsOf (callId : String) (events : List Value) : List PersistedEffect :=
  events.filterMap fun event =>
    if persistedCallId event = some callId ∧ (persistedPhase event).isSome then
      persistedEffect event
    else none

/-- The entry of a call without a terminal event. -/
def lastEntry (callId : String) (events : List Value) : Option PersistedCall :=
  (phasesOf callId events).getLast?.map fun phase =>
    { phase, effect := (effectsOf callId events).getLast?.getD .unknown }

section

variable {events : List Value} {event : Value} {callId : String} {phase : PersistedPhase}

theorem phasesOf_concat : phasesOf callId (events ++ [event]) = phasesOf callId events ++
    (if persistedCallId event = some callId then persistedPhase event else none).toList := by
  rw [phasesOf, List.filterMap_append, List.filterMap_cons, List.filterMap_nil]
  split <;> simp_all [phasesOf]

theorem effectsOf_concat : effectsOf callId (events ++ [event]) = effectsOf callId events ++
    (if persistedCallId event = some callId ∧ (persistedPhase event).isSome then
      persistedEffect event else none).toList := by
  rw [effectsOf, List.filterMap_append, List.filterMap_cons, List.filterMap_nil]
  split <;> simp_all [effectsOf]

/-- An event of another call, or without a phase, leaves the entry as it was. -/
theorem lastEntry_concat_other
    (h : persistedCallId event ≠ some callId ∨ persistedPhase event = none) :
    lastEntry callId (events ++ [event]) = lastEntry callId events := by
  have hphases : phasesOf callId (events ++ [event]) = phasesOf callId events := by
    rw [phasesOf_concat]
    rcases h with hcall | hphase
    · rw [if_neg hcall, Option.toList_none, List.append_nil]
    · rw [hphase, ite_self, Option.toList_none, List.append_nil]
  have heffects : effectsOf callId (events ++ [event]) = effectsOf callId events := by
    rw [effectsOf_concat, if_neg, Option.toList_none, List.append_nil]
    rintro ⟨hcall, hphase⟩
    rcases h with hother | hnone
    · exact hother hcall
    · rw [hnone] at hphase
      cases hphase
  rw [lastEntry, hphases, heffects, lastEntry]

/-- An event of the call takes its phase, and its effect where it names one. -/
theorem lastEntry_concat (hcall : persistedCallId event = some callId)
    (hphase : persistedPhase event = some phase) :
    lastEntry callId (events ++ [event]) = some
      { phase
        effect := (persistedEffect event).getD
          ((effectsOf callId events).getLast?.getD .unknown) } := by
  rw [lastEntry, phasesOf_concat, effectsOf_concat, if_pos hcall, if_pos ⟨hcall, by simp [hphase]⟩,
    hphase, Option.toList_some, List.getLast?_concat, Option.map_some]
  cases persistedEffect event with
  | none => rw [Option.toList_none, List.append_nil, Option.getD_none]
  | some effect => rw [Option.toList_some, List.getLast?_concat, Option.getD_some, Option.getD_some]

theorem effectsOf_eq_nil (h : phasesOf callId events = []) :
    effectsOf callId events = [] := by
  rw [effectsOf, List.filterMap_eq_nil_iff]
  intro event hevent
  have hnone := List.filterMap_eq_nil_iff.mp h event hevent
  by_cases hcall : persistedCallId event = some callId
  · rw [if_pos hcall] at hnone
    simp [hnone]
  · simp [hcall]

/-- One step of the fold on the entry of the call. -/
theorem getElem?_persistEvent_of_last {calls : Std.ExtTreeMap String PersistedCall}
    (hentry : calls[callId]? = lastEntry callId events)
    (hopen : PersistedPhase.terminal ∉ phasesOf callId events) :
    (persistEvent calls event)[callId]? = lastEntry callId (events ++ [event]) := by
  cases hcall : persistedCallId event with
  | none =>
    rw [persistEvent_silent (.inl hcall), hentry, lastEntry_concat_other (.inl (by simp [hcall]))]
  | some id =>
    cases hphase : persistedPhase event with
    | none => rw [persistEvent_silent (.inr hphase), hentry, lastEntry_concat_other (.inr hphase)]
    | some phase =>
      rw [getElem?_persistEvent hcall hphase]
      by_cases hid : id = callId
      · subst hid
        rw [if_pos rfl, hentry, lastEntry_concat hcall hphase]
        cases hlast : (phasesOf id events).getLast? with
        | none =>
          -- the first event of the call enters it
          have hnil := List.getLast?_eq_none_iff.mp hlast
          rw [effectsOf_eq_nil hnil, lastEntry, hlast, Option.map_none,
            Option.getD_none, PersistedCall.advance]
          split
          · rfl
          · cases persistedEffect event <;> rfl
        | some current =>
          have hlive : current ≠ .terminal := fun h => hopen (h ▸ List.mem_of_getLast? hlast)
          rw [lastEntry, hlast, Option.map_some, Option.getD_some, PersistedCall.advance,
            if_neg hlive]
      · rw [if_neg hid, hentry, lastEntry_concat_other (.inl fun h => hid ?_)]
        exact Option.some.inj (hcall.symm.trans h)

/-- Without a terminal event the entry of a call is what its last events say. -/
theorem getElem?_persistedCalls (hopen : PersistedPhase.terminal ∉ phasesOf callId events) :
    (persistedCalls events)[callId]? = lastEntry callId events := by
  induction events using List.reverseRecOn with
  | nil => simp [persistedCalls, lastEntry, phasesOf]
  | append_singleton earlier event ih =>
    have hearlier : PersistedPhase.terminal ∉ phasesOf callId earlier := fun h =>
      hopen (by rw [phasesOf_concat]; exact List.mem_append_left _ h)
    rw [persistedCalls, List.foldl_append, List.foldl_cons, List.foldl_nil]
    exact getElem?_persistEvent_of_last (ih hearlier) hearlier

end

/-! ## The report of one call -/

/-- Of a list without repetitions only one element passes. -/
theorem filterMap_eq_toList {ids : List String} {f : String → Option RecoveredToolCall}
    {callId : String} (hnodup : ids.Nodup) (hmem : (f callId).isSome → callId ∈ ids)
    (hother : ∀ id ≠ callId, f id = none) : ids.filterMap f = (f callId).toList := by
  by_cases hcall : callId ∈ ids
  · obtain ⟨earlier, later, rfl⟩ := List.append_of_mem hcall
    have hnone : ∀ id ∈ earlier ++ later, f id = none := by
      intro id hid
      refine hother id fun heq => ?_
      rw [List.nodup_middle] at hnodup
      exact (List.nodup_cons.mp hnodup).1 (heq ▸ hid)
    have hearlier : earlier.filterMap f = [] :=
      List.filterMap_eq_nil_iff.mpr fun id hid => hnone id (List.mem_append_left _ hid)
    have hlater : later.filterMap f = [] :=
      List.filterMap_eq_nil_iff.mpr fun id hid => hnone id (List.mem_append_right _ hid)
    rw [List.filterMap_append, hearlier, List.nil_append, List.filterMap_cons, hlater]
    cases f callId <;> rfl
  · have hnone : f callId = none := by
      cases hf : f callId with
      | none => rfl
      | some closed => exact absurd (hmem (by simp [hf])) hcall
    rw [hnone, Option.toList_none, List.filterMap_eq_nil_iff]
    intro id hid
    exact hother id fun heq => hcall (heq ▸ hid)

/-- What is reported under an id is the report of its entry. -/
theorem filter_unclosedToolCalls (events : List Value) (callId : String) :
    (unclosedToolCalls events).filter (fun closed => closed.callId = callId) =
      (reported (persistedCalls events) callId).toList := by
  have hsame : (reported (persistedCalls events) callId).filter
      (fun closed => closed.callId = callId) = reported (persistedCalls events) callId := by
    cases hclosed : reported (persistedCalls events) callId with
    | none => rfl
    | some closed => simp [callId_of_reported hclosed]
  rw [unclosedToolCalls_eq, List.filter_filterMap, filterMap_eq_toList
    (persistedCalls events).nodup_keys ?_ ?_, hsame]
  · intro hsome
    rw [hsame] at hsome
    obtain ⟨closed, hclosed⟩ := Option.isSome_iff_exists.mp hsome
    obtain ⟨call, hcall, -⟩ := Option.bind_eq_some_iff.mp hclosed
    exact OrdMap.mem_keys.mpr ⟨call, hcall⟩
  · intro id hid
    cases hclosed : reported (persistedCalls events) id with
    | none => rfl
    | some closed => simp [callId_of_reported hclosed, hid]

/-! ## Uncertain writes -/

/-- Some event dispatches the call with a write or an unknown effect.  An event
    that names no effect counts as unknown. -/
def UncertainDispatch (events : List Value) (callId : String) : Prop :=
  ∃ event ∈ events, persistedCallId event = some callId ∧
    persistedPhase event = some .dispatched ∧ (persistedEffect event).getD .unknown ≠ .read

/-- No event ends the call. -/
def NeverEnded (events : List Value) (callId : String) : Prop :=
  ∀ event ∈ events, persistedCallId event = some callId → persistedPhase event ≠ some .terminal

/-- The call is reported exactly once, and as one that may have written. -/
def ReportedUncertain (events : List Value) (callId : String) : Prop :=
  ∃ closed, (unclosedToolCalls events).filter (fun closed => closed.callId = callId) = [closed] ∧
    closed.resultStatus = "side_effect_unknown"

section

variable {events : List Value} {callId : String}

theorem mem_phasesOf {phase : PersistedPhase} : phase ∈ phasesOf callId events ↔
    ∃ event ∈ events, persistedCallId event = some callId ∧ persistedPhase event = some phase := by
  rw [phasesOf, List.mem_filterMap]
  refine exists_congr fun event => and_congr_right fun _ => ?_
  split <;> simp_all

theorem NeverEnded.terminal_not_mem (h : NeverEnded events callId) :
    PersistedPhase.terminal ∉ phasesOf callId events := by
  intro hmem
  obtain ⟨event, hevent, hcall, hphase⟩ := mem_phasesOf.mp hmem
  exact h event hevent hcall hphase

/-- An entry is reported as uncertain exactly when it is dispatched and not a read. -/
theorem recovery_uncertain_iff {call : PersistedCall} :
    (∃ closed, (call.recovery callId).toList = [closed] ∧
      closed.resultStatus = "side_effect_unknown") ↔
      call.phase = .dispatched ∧ call.effect ≠ .read := by
  obtain ⟨phase, effect⟩ := call
  cases phase <;> cases effect <;> simp [PersistedCall.recovery]

theorem reportedUncertain_iff_entry : ReportedUncertain events callId ↔
    ∃ call, (persistedCalls events)[callId]? = some call ∧ call.phase = .dispatched ∧
      call.effect ≠ .read := by
  rw [ReportedUncertain, filter_unclosedToolCalls, reported]
  cases (persistedCalls events)[callId]? with
  | none => simp
  | some call =>
    rw [Option.bind_some, recovery_uncertain_iff]
    simp

/-- A call that no event ends is reported as uncertain exactly when the last event of the
    call is a dispatch and the last effect its events name is not a read. -/
theorem reportedUncertain_iff (hopen : NeverEnded events callId) :
    ReportedUncertain events callId ↔
      (phasesOf callId events).getLast? = some .dispatched ∧
        (effectsOf callId events).getLast? ≠ some .read := by
  rw [reportedUncertain_iff_entry, getElem?_persistedCalls hopen.terminal_not_mem, lastEntry]
  cases (phasesOf callId events).getLast? with
  | none => simp
  | some phase =>
    cases (effectsOf callId events).getLast? with
    | none => simp
    | some effect => simp

end

/-- A dispatched write with a late copy of its first event. -/
def lateCopy : List Value :=
  [.object [("tool_call_id", .string "call"), ("lifecycle", .string "dispatched"),
      ("effect", .string "write")],
    .object [("tool_call_id", .string "call"), ("lifecycle", .string "published"),
      ("effect", .string "write")]]

/-- The late copy makes recovery call the write not dispatched. -/
theorem not_reportedUncertain_lateCopy :
    ¬ ∀ events callId, UncertainDispatch events callId → NeverEnded events callId →
      ReportedUncertain events callId := by
  intro h
  have hopen : NeverEnded lateCopy "call" := by
    intro event hevent _
    rcases List.mem_pair.mp hevent with rfl | rfl <;> decide
  have hreported := h lateCopy "call" ⟨_, List.mem_cons_self, by decide, by decide, by decide⟩ hopen
  rw [reportedUncertain_iff_entry, getElem?_persistedCalls hopen.terminal_not_mem] at hreported
  obtain ⟨call, hcall, hphase, -⟩ := hreported
  obtain rfl : _ = call := Option.some.inj
    ((show some ⟨.published, .write⟩ = lastEntry "call" lateCopy by decide).trans hcall)
  cases hphase

/-- A write that was published and then dispatched. -/
theorem reportedUncertain_of_dispatched :
    ReportedUncertain lateCopy.reverse "call" ↔
      (phasesOf "call" lateCopy.reverse).getLast? = some .dispatched ∧
        (effectsOf "call" lateCopy.reverse).getLast? ≠ some .read := by
  refine reportedUncertain_iff fun event hevent _ => ?_
  rcases List.mem_pair.mp (List.mem_reverse.mp hevent) with rfl | rfl <;> decide

end AiPlatform.Runtime.PlatformLifecycle
