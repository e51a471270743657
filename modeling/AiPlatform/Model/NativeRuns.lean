/-
  AiPlatform.Model.NativeRuns

  Whole streams of a provider's own Responses events: what is released is what was sent, in
  order and number by number, and it names no tool that was not offered.
-/

import AiPlatform.Model.NativeEvents

namespace NativeStream

open ModelPlane ToolAliases AiPlatform.Checks

/-! ## What is released -/

/-- The items in the output of an event's response -/
def outputOf (event : PyJson) : List PyJson :=
  match (event.get (lit "response")).get (lit "output") with
  | .list items => items
  | _ => []

/-- A call of a tool names one that was offered. -/
def Offered (settings : Settings) (item : PyJson) : Prop :=
  isCall item = true → ∀ allowed, settings.allowedToolIdentities = some allowed → identified allowed item = true

/-- The released event is the one that was sent, with the names restored and reasoning under the
    type of a summary. -/
structure Shows (settings : Settings) (parsed : PyJson) (shown : Encoded) : Prop where
  restored : ∃ event restored, normalizeReasoningEvent settings parsed = .ok event ∧
    restoreItem settings event = .ok restored ∧
    (if shown.eventType = completed then restoreOutput settings restored else .ok restored) = .ok shown.event
  type_eq : shown.event.get (lit "type") = .str shown.eventType
  item : Offered settings (shown.event.get (lit "item"))
  output : shown.eventType = completed → ∀ item ∈ outputOf shown.event, Offered settings item

section Event

variable {settings : Settings} {v v' : Validator} {parsed event item : PyJson} {released : Option Encoded}

theorem offered_of_valid (h : validateToolIdentity settings item = .ok ()) : Offered settings item := by
  intro hcall allowed hallowed
  unfold validateToolIdentity at h
  rw [hallowed] at h
  dsimp only at h
  rw [if_pos hcall] at h
  obtain ⟨size, -, h⟩ := bind_eq_ok.mp h
  split at h
  · cases h
  · split at h
    · cases h
    · case isFalse hidentified => simpa using hidentified

theorem offered_of_outputItems {items done : List PyJson} (h : outputItems settings items = .ok done) :
    ∀ item ∈ done, Offered settings item := by
  induction items generalizing done with
  | nil =>
    obtain rfl := Except.ok.inj h
    exact List.forall_mem_nil _
  | cons first rest ih =>
    obtain ⟨restored, hfirst, h⟩ := bind_eq_ok.mp h
    obtain ⟨later, hlater, h⟩ := bind_eq_ok.mp h
    obtain rfl := Except.ok.inj h
    obtain ⟨named, -, hfirst⟩ := bind_eq_ok.mp hfirst
    obtain ⟨u, hvalid, hfirst⟩ := bind_eq_ok.mp hfirst
    obtain ⟨u', -, hfirst⟩ := bind_eq_ok.mp hfirst
    obtain rfl := Except.ok.inj hfirst
    exact List.forall_mem_cons.mpr ⟨offered_of_valid hvalid, ih hlater⟩

theorem offered_of_restoreOutput {restored : PyJson} (hdict : event.isDict = true)
    (hresponse : (event.get (lit "response")).isDict = true) (h : restoreOutput settings event = .ok restored) :
    ∀ item ∈ outputOf restored, Offered settings item := by
  unfold restoreOutput at h
  dsimp only at h
  split at h
  · obtain ⟨items, hitems, h⟩ := bind_eq_ok.mp h
    obtain rfl := Except.ok.inj h
    rw [outputOf, PyJson.get_set_self hdict, PyJson.get_set_self hresponse]
    exact offered_of_outputItems hitems
  · rename_i hnone
    obtain rfl := Except.ok.inj h
    unfold outputOf
    split
    · rename_i items hitems
      exact absurd hitems (hnone items)
    · exact List.forall_mem_nil _

/-- What an accepted event is and does. -/
structure Takes (v : Validator) (parsed : PyJson) (v' : Validator) (released : Option Encoded) (shown : Encoded) :
    Prop where
  shows : Shows v.toSettings parsed shown
  sequence : shown.event.get (lit "sequence_number") = .int (v.lastSequence + 1)
  open_before : v.terminal = none
  created : v.seenCreated = false → shown.eventType = lit "response.created"
  settings : v'.toSettings = v.toSettings
  lastSequence : v'.lastSequence = v.lastSequence + 1
  seenCreated : v'.seenCreated = true
  told : (shown.eventType ≠ completed ∧ released = some shown ∧ v'.terminal = none) ∨
    (shown.eventType = completed ∧ released = none ∧ ∃ terminal, v'.terminal = some terminal ∧ terminal.event = shown)

theorem isDict_of_get {key : PyStr} (h : event.get key ≠ .none) : event.isDict = true := by
  cases event with
  | dict members => rfl
  | _ => exact absurd rfl h

theorem consumeEvent_ok (h : consumeEvent v parsed = .ok (v', released)) : ∃ shown, Takes v parsed v' released shown := by
  obtain ⟨⟨eventType, v₁, event⟩, hscreen, h⟩ := bind_eq_ok.mp h
  obtain ⟨encodedEvent, hencoded, h⟩ := bind_eq_ok.mp h
  obtain ⟨hcount, hreject⟩ := screen_ok hscreen
  obtain ⟨v₀, admitted, hadmits, hrestore, hmoves⟩ := count_ok hcount
  have htype := count_type hcount
  have hdict : event.isDict = true := isDict_of_get (by rw [htype]; exact PyJson.noConfusion)
  obtain ⟨u, hvalid, -⟩ := bind_eq_ok.mp hreject
  have hsequence : event.get (lit "sequence_number") = .int (v.lastSequence + 1) := by
    rw [restoreItem_get (by decide) hrestore, hadmits.sequence]
  have hshown : encodedEvent = ⟨eventType, event⟩ := by
    unfold encoded at hencoded
    split at hencoded
    · exact (Except.ok.inj hencoded).symm
    · cases hencoded
  subst hshown
  obtain ⟨argumentBytes, total, hmoved⟩ := id hmoves
  split at h
  · case isTrue hother =>
    obtain ⟨rfl, rfl⟩ := Prod.mk.inj (Except.ok.inj h)
    refine ⟨⟨eventType, event⟩, ?_⟩
    exact
      { shows :=
          { restored := ⟨admitted, event, hadmits.normalized, hrestore, if_neg hother⟩
            type_eq := htype
            item := offered_of_valid hvalid
            output := fun heq => absurd heq hother }
        sequence := hsequence
        open_before := hadmits.open_before
        created := hadmits.created
        settings := hmoves.settings
        lastSequence := by rw [hmoved]
        seenCreated := by rw [hmoved]
        told := .inl ⟨hother, rfl, by rw [hmoved]; exact hadmits.open_before⟩ }
  · case isFalse hcompleted =>
    obtain rfl : eventType = completed := not_not.mp hcompleted
    obtain ⟨terminal, hterminal, h⟩ := bind_eq_ok.mp h
    obtain ⟨rfl, rfl⟩ := Prod.mk.inj (Except.ok.inj h)
    rw [hmoves.settings] at hterminal
    unfold complete at hterminal
    dsimp only at hterminal
    split at hterminal
    · cases hterminal
    · case isFalse hsaid =>
      obtain ⟨hresponse, -⟩ : SaysCompleted event := by simpa [SaysCompleted] using hsaid
      obtain ⟨restored, hrestored, hterminal⟩ := bind_eq_ok.mp hterminal
      obtain ⟨usage, -, hterminal⟩ := bind_eq_ok.mp hterminal
      obtain ⟨shown, hlast, hterminal⟩ := bind_eq_ok.mp hterminal
      obtain rfl := Except.ok.inj hterminal
      have hshown : shown = ⟨completed, restored⟩ := by
        unfold encoded at hlast
        split at hlast
        · exact (Except.ok.inj hlast).symm
        · cases hlast
      subst hshown
      refine ⟨⟨completed, restored⟩, ?_⟩
      exact
        { shows :=
            { restored := ⟨admitted, event, hadmits.normalized, hrestore, (if_pos rfl).trans hrestored⟩
              type_eq := (restoreOutput_get (by decide) hrestored).trans htype
              item := by
                rw [show restored.get (lit "item") = event.get (lit "item") from restoreOutput_get (by decide) hrestored]
                exact offered_of_valid hvalid
              output := fun _ => offered_of_restoreOutput hdict hresponse hrestored }
          sequence := (restoreOutput_get (by decide) hrestored).trans hsequence
          open_before := hadmits.open_before
          created := hadmits.created
          settings := hmoves.settings
          lastSequence := by rw [hmoved]
          seenCreated := by rw [hmoved]
          told := .inr ⟨rfl, rfl, _, rfl, rfl⟩ }

end Event

/-! ## Whole streams -/

/-- What a completed stream has released. -/
structure WellReleased (loads : PyStr → Except LoadsError PyJson) (settings : Settings) (payloads : List PyStr)
    (shown : List Encoded) : Prop where
  exact : List.Forall₂ (fun payload encoded => ∃ parsed, loads payload = .ok parsed ∧ Shows settings parsed encoded)
    (payloads.filter (· ≠ doneMark)) shown
  numbered : ∀ (i : Nat) encoded, shown[i]? = some encoded → encoded.event.get (lit "sequence_number") = .int i
  created_first : ∃ first rest, shown = first :: rest ∧ first.eventType = lit "response.created"
  completed_last : ∃ before last, shown = before ++ [last] ∧ last.eventType = completed ∧
    ∀ encoded ∈ before, encoded.eventType ≠ completed
  offered : ∀ encoded ∈ shown, ∀ item ∈ encoded.event.get (lit "item") :: outputOf encoded.event, Offered settings item

section Runs

variable {loads : PyStr → Except LoadsError PyJson} {settings : Settings} {v v' v₁ : Validator}
  {payloads later : List PyStr} {payload : PyStr} {released more : List Encoded} {shown : List Encoded}

theorem consumeAll_append (payloads later : List PyStr) (v : Validator) :
    consumeAll loads (payloads ++ later) v =
      (do
        let (v₁, released) ← consumeAll loads payloads v
        let (v', more) ← consumeAll loads later v₁
        .ok (v', released ++ more)) := by
  induction payloads generalizing v with
  | nil =>
    rw [List.nil_append, consumeAll]
    show _ = (consumeAll loads later v >>= _)
    cases consumeAll loads later v with
    | error e => rfl
    | ok next => rfl
  | cons payload rest ih =>
    rw [List.cons_append, consumeAll, consumeAll]
    cases consume loads v payload with
    | error e => rfl
    | ok first =>
      show (consumeAll loads (rest ++ later) first.1 >>= _) = _
      rw [ih]
      show _ = ((consumeAll loads rest first.1 >>= _) >>= _)
      cases consumeAll loads rest first.1 with
      | error e => rfl
      | ok second =>
        show ((consumeAll loads later second.1 >>= _) >>= _) = (consumeAll loads later second.1 >>= _)
        cases consumeAll loads later second.1 with
        | error e => rfl
        | ok third =>
          show (Except.ok _ : Except Raised (Validator × List Encoded)) = .ok _
          rw [List.append_assoc]

theorem consumeAll_concat_ok (h : consumeAll loads (payloads ++ [payload]) v = .ok (v', shown)) :
    ∃ v₁ released told, consumeAll loads payloads v = .ok (v₁, released) ∧ consume loads v₁ payload = .ok (v', told) ∧
      shown = released ++ told.toList := by
  rw [consumeAll_append] at h
  obtain ⟨⟨v₁, released⟩, hbefore, h⟩ := bind_eq_ok.mp h
  obtain ⟨⟨v₂, more⟩, hlast, h⟩ := bind_eq_ok.mp h
  obtain ⟨rfl, rfl⟩ := Prod.mk.inj (Except.ok.inj h)
  obtain ⟨⟨v₃, told⟩, hstep, hlast⟩ := bind_eq_ok.mp hlast
  obtain ⟨rfl, rfl⟩ := Prod.mk.inj (Except.ok.inj hlast)
  rw [List.append_nil]
  exact ⟨v₁, released, told, hbefore, hstep, rfl⟩

/-- A run fails where one of its steps does. -/
theorem consumeAll_error {raised : Raised} (h : consumeAll loads payloads v = .error raised) :
    ∃ before payload after v₁ released, payloads = before ++ payload :: after ∧
      consumeAll loads before v = .ok (v₁, released) ∧ consume loads v₁ payload = .error raised := by
  induction payloads using List.reverseRecOn with
  | nil => exact absurd h ok_ne_error
  | append_singleton earlier last ih =>
    rw [consumeAll_append] at h
    rcases bind_eq_error.mp h with h | ⟨⟨v₁, released⟩, hbefore, h⟩
    · obtain ⟨before, payload, after, v₁, released, rfl, hrest⟩ := ih h
      exact ⟨before, payload, after ++ [last], v₁, released, by rw [List.append_assoc, List.cons_append], hrest⟩
    · rcases bind_eq_error.mp h with h | ⟨next, -, h⟩
      · rcases bind_eq_error.mp h with h | ⟨told, -, h⟩
        · exact ⟨earlier, last, [], v₁, released, rfl, hbefore, h⟩
        · cases h
      · cases h

theorem consumeAll_error_of {raised : Raised} (hbefore : consumeAll loads payloads v = .ok (v₁, released))
    (h : consume loads v₁ payload = .error raised) (later : List PyStr) :
    consumeAll loads (payloads ++ payload :: later) v = .error raised := by
  rw [consumeAll_append]
  exact bind_eq_error.mpr (.inr ⟨_, hbefore, bind_eq_error.mpr (.inl (bind_eq_error.mpr (.inl h)))⟩)

/-- What the validator knows of what it has let through, the terminal event included. -/
structure Follows (loads : PyStr → Except LoadsError PyJson) (settings : Settings) (payloads : List PyStr)
    (v : Validator) (shown : List Encoded) : Prop where
  made_with : v.toSettings = settings
  exact : List.Forall₂ (fun payload encoded => ∃ parsed, loads payload = .ok parsed ∧ Shows settings parsed encoded)
    (payloads.filter (· ≠ doneMark)) shown
  lastSequence : v.lastSequence + 1 = shown.length
  numbered : ∀ (i : Nat) encoded, shown[i]? = some encoded → encoded.event.get (lit "sequence_number") = .int i
  seenCreated : v.seenCreated = true ↔ shown ≠ []
  created_first : ∀ encoded, shown[0]? = some encoded → encoded.eventType = lit "response.created"
  still_open : v.terminal = none → ∀ encoded ∈ shown, encoded.eventType ≠ completed
  terminal : ∀ terminal, v.terminal = some terminal → ∃ before, shown = before ++ [terminal.event] ∧
    terminal.event.eventType = completed ∧ ∀ encoded ∈ before, encoded.eventType ≠ completed

theorem follows_new : Follows loads settings [] (Validator.new settings) [] where
  made_with := rfl
  exact := .nil
  lastSequence := rfl
  numbered i encoded h := by cases h
  seenCreated := iff_of_false Bool.false_ne_true fun hne => hne rfl
  created_first encoded h := by cases h
  still_open _ := List.forall_mem_nil _
  terminal _ h := by cases h

/-- An event that is let through goes on what is known. -/
theorem Follows.takes {told : Option Encoded} {encoded : Encoded} {parsed : PyJson}
    (h : Follows loads settings payloads v shown) (hpayload : payload ≠ doneMark) (hloads : loads payload = .ok parsed)
    (htakes : Takes v parsed v' told encoded) : Follows loads settings (payloads ++ [payload]) v' (shown ++ [encoded]) := by
  have hopen := h.still_open htakes.open_before
  have hfirst : shown = [] → encoded.eventType = lit "response.created" := by
    intro hnil
    refine htakes.created (Bool.eq_false_iff.mpr fun hseen => ?_)
    exact h.seenCreated.mp hseen hnil
  constructor
  · exact htakes.settings.trans h.made_with
  · have hfilter : (payloads ++ [payload]).filter (· ≠ doneMark) = payloads.filter (· ≠ doneMark) ++ [payload] := by
      rw [List.filter_append, List.filter_singleton]
      simp [hpayload]
    rw [hfilter]
    refine List.rel_append h.exact (.cons ⟨parsed, hloads, ?_⟩ .nil)
    exact h.made_with ▸ htakes.shows
  · rw [htakes.lastSequence, List.length_append, h.lastSequence]
    rfl
  · intro i other hother
    by_cases hi : i < shown.length
    · rw [List.getElem?_append_left hi] at hother
      exact h.numbered i other hother
    · rw [List.getElem?_append_right (Nat.le_of_not_lt hi)] at hother
      obtain ⟨hlast, hother⟩ := List.getElem?_eq_some_iff.mp hother
      rw [List.length_singleton] at hlast
      obtain rfl : i = shown.length := by omega
      rw [← hother, List.getElem_singleton, htakes.sequence, h.lastSequence]
  · exact iff_of_true htakes.seenCreated (List.append_ne_nil_of_right_ne_nil _ (List.cons_ne_nil _ _))
  · intro other hother
    cases shown with
    | nil =>
      obtain rfl := Option.some.inj hother
      exact hfirst rfl
    | cons first rest => exact h.created_first other hother
  · intro hnone
    rcases htakes.told with ⟨hne, -, -⟩ | ⟨-, -, terminal, hterminal, -⟩
    · exact List.forall_mem_append.mpr ⟨hopen, List.forall_mem_singleton.mpr hne⟩
    · rw [hterminal] at hnone
      cases hnone
  · intro terminal hterminal
    rcases htakes.told with ⟨-, -, hnone⟩ | ⟨heq, -, terminal', hterminal', rfl⟩
    · rw [hnone] at hterminal
      cases hterminal
    · obtain rfl := Option.some.inj (hterminal'.symm.trans hterminal)
      exact ⟨shown, rfl, heq, hopen⟩

theorem consume_ok {told : Option Encoded} (h : consume loads v payload = .ok (v', told)) :
    (payload = doneMark ∧ v' = v ∧ told = none) ∨
      (payload ≠ doneMark ∧ ∃ parsed encoded, loads payload = .ok parsed ∧ Takes v parsed v' told encoded) := by
  unfold consume at h
  split at h
  · case isTrue hdone =>
    obtain ⟨rfl, rfl⟩ := Prod.mk.inj (Except.ok.inj h)
    exact .inl ⟨hdone, rfl, rfl⟩
  · case isFalse hdone =>
    split at h
    · cases h
    · cases h
    · rename_i parsed hloads
      obtain ⟨encoded, htakes⟩ := consumeEvent_ok h
      exact .inr ⟨hdone, parsed, encoded, hloads, htakes⟩

/-- After a run, what was released and the terminal event are what was sent so far. -/
theorem follows_run (h : consumeAll loads payloads (Validator.new settings) = .ok (v, released)) :
    Follows loads settings payloads v (released ++ (v.terminal.map Terminal.event).toList) := by
  induction payloads using List.reverseRecOn generalizing v released with
  | nil =>
    obtain ⟨rfl, rfl⟩ := Prod.mk.inj (Except.ok.inj h)
    exact follows_new
  | append_singleton earlier last ih =>
    obtain ⟨v₁, before, told, hbefore, hstep, rfl⟩ := consumeAll_concat_ok h
    have hfollows := ih hbefore
    rcases consume_ok hstep with ⟨hdone, rfl, rfl⟩ | ⟨hdone, parsed, encoded, hloads, htakes⟩
    · have hfilter : (earlier ++ [last]).filter (· ≠ doneMark) = earlier.filter (· ≠ doneMark) := by
        rw [List.filter_append, List.filter_singleton]
        simp [hdone]
      rw [Option.toList_none, List.append_nil]
      exact
        { made_with := hfollows.made_with
          exact := by rw [hfilter]; exact hfollows.exact
          lastSequence := hfollows.lastSequence
          numbered := hfollows.numbered
          seenCreated := hfollows.seenCreated
          created_first := hfollows.created_first
          still_open := hfollows.still_open
          terminal := hfollows.terminal }
    · have hnext := hfollows.takes hdone hloads htakes
      rw [htakes.open_before, Option.map_none, Option.toList_none, List.append_nil] at hnext
      rcases htakes.told with ⟨-, rfl, hnone⟩ | ⟨-, rfl, terminal, hterminal, rfl⟩
      · rw [hnone, Option.map_none, Option.toList_none, List.append_nil]
        exact hnext
      · rw [hterminal, Option.toList_none, List.append_nil]
        exact hnext

end Runs

/-! ## Failing closed -/

/-- The stream ends with a declared error or with what was sent. -/
structure FailsClosed (loads : PyStr → Except LoadsError PyJson) (settings : Settings) (payloads : List PyStr) : Prop where
  declared : ∀ exception, consumeAll loads payloads (Validator.new settings) ≠ .error (.undeclared exception)
  released : ∀ v released terminal, consumeAll loads payloads (Validator.new settings) = .ok (v, released) →
    finish v = .ok terminal → WellReleased loads settings payloads (released ++ [terminal.event])

/-- The calls in the output of an event are offered under the names that were sent. -/
def HidesNone (settings : Settings) (parsed : PyJson) : Prop := ∀ item ∈ outputOf parsed, Offered settings item

def Finishes (loads : PyStr → Except LoadsError PyJson) (settings : Settings) (payloads : List PyStr) : Prop :=
  ∃ v released terminal, consumeAll loads payloads (Validator.new settings) = .ok (v, released) ∧ finish v = .ok terminal

/-- No payload makes the validator raise an exception of the language when it comes, and where the
    stream finishes, no event but the completed one carries calls that were not offered. -/
structure WithinChecks (loads : PyStr → Except LoadsError PyJson) (settings : Settings) (payloads : List PyStr) :
    Prop where
  no_escape : ∀ before payload after, payloads = before ++ payload :: after →
    ∀ v released, consumeAll loads before (Validator.new settings) = .ok (v, released) →
      ∀ exception, ¬ Escapes loads v payload exception
  hides_none : Finishes loads settings payloads → ∀ payload ∈ payloads, payload ≠ doneMark →
    ∀ parsed, loads payload = .ok parsed → (parsed.get (lit "type")).isStr completed = false → HidesNone settings parsed

section Closed

variable {loads : PyStr → Except LoadsError PyJson} {settings : Settings} {payloads : List PyStr} {parsed event : PyJson}
  {encoded : Encoded}

theorem normalizeReasoningEvent_get {key : PyStr} (htype : key ≠ lit "type") (hsummary : key ≠ lit "summary_index")
    (h : normalizeReasoningEvent settings parsed = .ok event) : event.get key = parsed.get key := by
  unfold normalizeReasoningEvent at h
  dsimp only at h
  split at h
  · rw [Except.ok.inj h]
  · split at h
    · cases h
    · split at h
      · obtain rfl := Except.ok.inj h
        rw [setDefault]
        split
        · exact PyJson.get_set_ne htype
        · rw [PyJson.get_set_ne hsummary, PyJson.get_set_ne htype]
      · rw [Except.ok.inj h]

theorem summaryType_ne {value : PyJson} {text : PyStr} (h : summaryType value = some text) :
    value.isStr completed = false ∧ text ≠ completed := by
  unfold summaryType at h
  split at h
  · case isTrue hdelta =>
    obtain rfl := Option.some.inj h
    rw [PyJson.isStr_iff.mp hdelta]
    exact ⟨by decide, by decide⟩
  · split at h
    · case isTrue hdone =>
      obtain rfl := Option.some.inj h
      rw [PyJson.isStr_iff.mp hdone]
      exact ⟨by decide, by decide⟩
    · cases h

/-- An event is shown as completed exactly if it was sent as completed. -/
theorem normalizeReasoningEvent_completed (h : normalizeReasoningEvent settings parsed = .ok event) :
    (event.get (lit "type")).isStr completed = (parsed.get (lit "type")).isStr completed := by
  unfold normalizeReasoningEvent at h
  dsimp only at h
  split at h
  · rw [Except.ok.inj h]
  · split at h
    · cases h
    · split at h
      · rename_i normalized hsummary
        obtain ⟨hsent, hne⟩ := summaryType_ne hsummary
        obtain rfl := Except.ok.inj h
        have hdict : parsed.isDict = true := by
          refine @isDict_of_get parsed (lit "type") fun hnone => ?_
          rw [hnone] at hsummary
          cases hsummary
        have hshown : (setDefault (parsed.set (lit "type") (.str normalized)) (lit "summary_index") (.int 0)).get
            (lit "type") = .str normalized := by
          rw [setDefault]
          split
          · exact PyJson.get_set_self hdict
          · rw [PyJson.get_set_ne (by decide), PyJson.get_set_self hdict]
        rw [hshown, hsent]
        exact Bool.eq_false_iff.mpr fun heq => hne (by simpa [PyJson.isStr] using heq)
      · rw [Except.ok.inj h]

theorem Shows.completed_iff (h : Shows settings parsed encoded) :
    encoded.eventType = completed ↔ (parsed.get (lit "type")).isStr completed = true := by
  obtain ⟨event, restored, hnormalized, hrestored, hshown⟩ := h.restored
  rw [← normalizeReasoningEvent_completed hnormalized, PyJson.isStr_iff,
    ← restoreItem_get (by decide) hrestored]
  have htype : encoded.event.get (lit "type") = restored.get (lit "type") := by
    split at hshown
    · exact restoreOutput_get (by decide) hshown
    · rw [Except.ok.inj hshown]
  rw [← htype, h.type_eq]
  exact ⟨fun heq => congrArg PyJson.str heq, PyJson.str.inj⟩

/-- Of an event that is not the completed one the output is shown as it was sent. -/
theorem Shows.outputOf_eq (h : Shows settings parsed encoded) (hne : encoded.eventType ≠ completed) :
    outputOf encoded.event = outputOf parsed := by
  obtain ⟨event, restored, hnormalized, hrestored, hshown⟩ := h.restored
  rw [if_neg hne] at hshown
  rw [outputOf, outputOf, ← Except.ok.inj hshown, restoreItem_get (by decide) hrestored,
    normalizeReasoningEvent_get (by decide) (by decide) hnormalized]

theorem mem_right {α β : Type} {r : α → β → Prop} {xs : List α} {ys : List β} (h : List.Forall₂ r xs ys) {x : α}
    (hx : x ∈ xs) : ∃ y ∈ ys, r x y := by
  induction h with
  | nil => cases hx
  | cons hhead _ ih =>
    rcases List.mem_cons.mp hx with rfl | hx
    · exact ⟨_, List.mem_cons_self, hhead⟩
    · obtain ⟨y, hy, hr⟩ := ih hx
      exact ⟨y, List.mem_cons_of_mem _ hy, hr⟩

theorem mem_left {α β : Type} {r : α → β → Prop} {xs : List α} {ys : List β} (h : List.Forall₂ r xs ys) {y : β}
    (hy : y ∈ ys) : ∃ x ∈ xs, r x y :=
  mem_right h.flip hy

theorem finish_ok {v : Validator} {terminal : Terminal} (h : finish v = .ok terminal) : v.terminal = some terminal := by
  unfold finish at h
  split at h
  · rename_i hterminal
    rw [hterminal, Except.ok.inj h]
  · cases h

/-- What a finished stream has released, but for the calls in it. -/
theorem released_of_finish {v : Validator} {released : List Encoded} {terminal : Terminal}
    (h : consumeAll loads payloads (Validator.new settings) = .ok (v, released)) (hfinish : finish v = .ok terminal)
    (hoffered : ∀ encoded ∈ released ++ [terminal.event],
      ∀ item ∈ encoded.event.get (lit "item") :: outputOf encoded.event, Offered settings item) :
    WellReleased loads settings payloads (released ++ [terminal.event]) := by
  have hfollows := follows_run h
  have hterminal := finish_ok hfinish
  rw [hterminal, Option.map_some, Option.toList_some] at hfollows
  constructor
  · exact hfollows.exact
  · exact hfollows.numbered
  · obtain ⟨first, rest, hshown⟩ := List.exists_cons_of_ne_nil
      (List.append_ne_nil_of_right_ne_nil released (List.cons_ne_nil terminal.event []))
    refine ⟨first, rest, hshown, hfollows.created_first first ?_⟩
    rw [hshown]
    rfl
  · obtain ⟨before, hshown, htype, hbefore⟩ := hfollows.terminal terminal hterminal
    exact ⟨before, terminal.event, hshown, htype, hbefore⟩
  · exact hoffered

/-- The validator fails closed exactly on the streams that stay within its checks. -/
theorem failsClosed_iff (loads : PyStr → Except LoadsError PyJson) (settings : Settings) (payloads : List PyStr) :
    FailsClosed loads settings payloads ↔ WithinChecks loads settings payloads := by
  constructor
  · intro h
    refine ⟨fun before payload after heq v released hbefore exception hescapes => ?_, ?_⟩
    · refine h.declared exception ?_
      rw [heq]
      exact consumeAll_error_of hbefore (consume_escapes.mpr hescapes) after
    · rintro ⟨v, released, terminal, hrun, hfinish⟩ payload hpayload hdone parsed hloads hother item hitem
      have hreleased := h.released v released terminal hrun hfinish
      have hmem : payload ∈ payloads.filter (· ≠ doneMark) := List.mem_filter.mpr ⟨hpayload, decide_eq_true hdone⟩
      obtain ⟨encoded, hencoded, parsed', hloads', hshows⟩ := mem_right hreleased.exact hmem
      obtain rfl := Except.ok.inj (hloads.symm.trans hloads')
      have hne : encoded.eventType ≠ completed := fun heq => by
        rw [hshows.completed_iff.mp heq] at hother
        cases hother
      rw [← hshows.outputOf_eq hne] at hitem
      exact hreleased.offered encoded hencoded item (List.mem_cons_of_mem _ hitem)
  · intro h
    refine ⟨fun exception herror => ?_, fun v released terminal hrun hfinish => ?_⟩
    · obtain ⟨before, payload, after, v, released, heq, hbefore, hstep⟩ := consumeAll_error herror
      exact h.no_escape before payload after heq v released hbefore exception (consume_escapes.mp hstep)
    · refine released_of_finish hrun hfinish fun encoded hencoded item hitem => ?_
      have hfollows := follows_run hrun
      rw [finish_ok hfinish, Option.map_some, Option.toList_some] at hfollows
      obtain ⟨payload, hpayload, parsed, hloads, hshows⟩ := mem_left hfollows.exact hencoded
      rcases List.mem_cons.mp hitem with rfl | hitem
      · exact hshows.item
      · by_cases hlast : encoded.eventType = completed
        · exact hshows.output hlast item hitem
        · rw [hshows.outputOf_eq hlast] at hitem
          obtain ⟨hpayload, hdone⟩ := List.mem_filter.mp hpayload
          refine h.hides_none ⟨v, released, terminal, hrun, hfinish⟩ payload hpayload (of_decide_eq_true hdone) parsed
            hloads ?_ item hitem
          exact Bool.eq_false_iff.mpr fun heq => hlast (hshows.completed_iff.mpr heq)

end Closed

end NativeStream
