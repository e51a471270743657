/-
  AiPlatform.Model.NativeEvents

  One event of a provider's own Responses stream: which exceptions of the language it makes the
  validator raise, and what is known of an event that it lets through.
-/

import AiPlatform.Lib.Checks
import AiPlatform.Model.NativeStream

namespace NativeStream

open ModelPlane ToolAliases AiPlatform.Checks

/-! ## What escapes -/

/-- The items that are looked at fail with an exception of the language. -/
inductive ItemEscapes (settings : Settings) (item : PyJson) : PyException → Prop where
  | arguments (hasked : settings.allowedToolIdentities.isSome = true) (hcall : isCall item = true) (text : PyStr)
      (htext : item.get (lit "arguments") = .str text) (hlone : encodes text = false) :
      ItemEscapes settings item .unicodeEncodeError
  | itemType (hdict : item.isDict = true) (hkind : (item.get (lit "type")).hashable = false) :
      ItemEscapes settings item .typeError

/-- The items of the output before this one are in order, and this one escapes. -/
def OutputEscapes (settings : Settings) (event : PyJson) (exception : PyException) : Prop :=
  ∃ before item after done restored,
    (event.get (lit "response")).get (lit "output") = .list (before ++ item :: after) ∧
      outputItems settings before = .ok done ∧ restoreToolNamespace settings.toolAliases item = .ok restored ∧
      ItemEscapes settings restored exception

/-- A response that says that it is completed. -/
def SaysCompleted (event : PyJson) : Prop :=
  (event.get (lit "response")).isDict = true ∧
    ((event.get (lit "response")).get (lit "status")).isStr (lit "completed") = true

/-- The event makes the validator raise an exception of the language. -/
inductive EventEscapes (v : Validator) (parsed : PyJson) : PyException → Prop where
  | eventType (hdict : parsed.isDict = true) (hstream : v.reasoningVisibility = lit "stream")
      (hkind : (parsed.get (lit "type")).hashable = false) : EventEscapes v parsed .typeError
  | delta (v' : Validator) (event : PyJson) (hadmitted : admitEvent v parsed = .ok (argumentsDelta, v', event))
      (itemId text : PyStr) (hid : event.get (lit "item_id") = .str itemId) (hshort : itemId ≠ [] ∧ itemId.length ≤ 255)
      (htext : event.get (lit "delta") = .str text) (hlone : encodes text = false) :
      EventEscapes v parsed .unicodeEncodeError
  | item (eventType : PyStr) (v' : Validator) (event : PyJson) (hcount : count v parsed = .ok (eventType, v', event))
      (exception : PyException) (hitem : ItemEscapes v.toSettings (event.get (lit "item")) exception) :
      EventEscapes v parsed exception
  | text (eventType : PyStr) (v' : Validator) (event : PyJson) (hscreen : screen v parsed = .ok (eventType, v', event))
      (hlone : writable event = false) : EventEscapes v parsed .unicodeEncodeError
  | output (v' : Validator) (event : PyJson) (hscreen : screen v parsed = .ok (completed, v', event))
      (hwritable : writable event = true) (hsaid : SaysCompleted event) (exception : PyException)
      (houtput : OutputEscapes v.toSettings event exception) : EventEscapes v parsed exception
  | names (v' : Validator) (event restored : PyJson) (hscreen : screen v parsed = .ok (completed, v', event))
      (hwritable : writable event = true) (hsaid : SaysCompleted event)
      (hrestore : restoreOutput v.toSettings event = .ok restored) (usage : Nat × Nat)
      (husage : usageOf (event.get (lit "response")) = .ok usage) (hlone : writable restored = false) :
      EventEscapes v parsed .unicodeEncodeError

/-- A payload that makes the validator raise an exception of the language. -/
def Escapes (loads : PyStr → Except LoadsError PyJson) (v : Validator) (payload : PyStr) (exception : PyException) :
    Prop :=
  payload ≠ doneMark ∧
    (loads payload = .error (.other exception) ∨ ∃ parsed, loads payload = .ok parsed ∧ EventEscapes v parsed exception)

/-! ### The checks one by one -/

section Checks

variable {settings : Settings} {v v' : Validator} {event item parsed : PyJson} {eventType text : PyStr} {e : PyException}

theorem utf8Size_escapes : ResponsesProjector.utf8Size text = .error (.undeclared e) ↔
    encodes text = false ∧ e = .unicodeEncodeError := by
  unfold ResponsesProjector.utf8Size
  split
  · case isTrue h => exact iff_of_false ok_ne_error fun hall => Bool.false_ne_true (hall.1.symm.trans h)
  · case isFalse h =>
    refine ⟨fun heq => ⟨Bool.eq_false_iff.mpr h, ?_⟩, ?_⟩
    · exact (Raised.undeclared.inj (Except.error.inj heq)).symm
    · rintro ⟨-, rfl⟩
      rfl

theorem planeError_declared {α : Type} {code : String} {statusCode : Nat} :
    (planeError code statusCode : Except Raised α) ≠ .error (.undeclared e) := by
  intro h
  cases h

theorem typeError_escapes {α : Type} : (typeError : Except Raised α) = .error (.undeclared e) ↔ e = .typeError := by
  constructor
  · intro h
    cases h
    rfl
  · rintro rfl
    rfl

theorem normalizeReasoningEvent_escapes : normalizeReasoningEvent settings event = .error (.undeclared e) ↔
    settings.reasoningVisibility = lit "stream" ∧ (event.get (lit "type")).hashable = false ∧ e = .typeError := by
  unfold normalizeReasoningEvent
  dsimp only
  split
  · case isTrue h => exact iff_of_false ok_ne_error fun hall => h hall.1
  · case isFalse h =>
    have hstream : settings.reasoningVisibility = lit "stream" := not_not.mp h
    split
    · case isTrue hkind =>
      have hkind : (event.get (lit "type")).hashable = false := (Bool.not_eq_true' _).mp hkind
      rw [typeError_escapes]
      exact ⟨fun heq => ⟨hstream, hkind, heq⟩, fun hall => hall.2.2⟩
    · case isFalse hkind =>
      refine iff_of_false ?_ fun hall => hkind ((Bool.not_eq_true' _).mpr hall.2.1)
      split
      · exact ok_ne_error
      · exact ok_ne_error

theorem takeNext_declared : takeNext v event ≠ .error (.undeclared e) := by
  unfold takeNext
  split
  · split
    · exact planeError_declared
    · split
      · exact planeError_declared
      · exact ok_ne_error
  · exact planeError_declared

theorem refuse_declared : refuse settings eventType ≠ .error (.undeclared e) := by
  unfold refuse
  split
  · exact planeError_declared
  · split
    · exact planeError_declared
    · exact ok_ne_error

theorem restoreToolNamespace_declared {toolAliases : List (PyStr × Identity)} :
    restoreToolNamespace toolAliases item ≠ .error (.undeclared e) := by
  unfold restoreToolNamespace
  split
  · exact ok_ne_error
  · split
    · exact ok_ne_error
    · dsimp only
      split
      · exact planeError_declared
      · exact ok_ne_error

theorem restoreItem_declared : restoreItem settings event ≠ .error (.undeclared e) := by
  intro h
  rcases bind_eq_error.mp h with h | ⟨restored, -, h⟩
  · exact restoreToolNamespace_declared h
  · cases h

theorem countArguments_escapes : countArguments v eventType event = .error (.undeclared e) ↔
    eventType = argumentsDelta ∧ e = .unicodeEncodeError ∧ ∃ itemId text, event.get (lit "item_id") = .str itemId ∧
      (itemId ≠ [] ∧ itemId.length ≤ 255) ∧ event.get (lit "delta") = .str text ∧ encodes text = false := by
  unfold countArguments
  split
  · case isTrue h => exact iff_of_false ok_ne_error fun hall => h hall.1
  · case isFalse h =>
    have htype : eventType = argumentsDelta := not_not.mp h
    split
    · rename_i itemId delta hid hdelta
      split
      · case isTrue hlong =>
        refine iff_of_false planeError_declared ?_
        rintro ⟨-, -, itemId', text, hid', ⟨hne, hshort⟩, -, -⟩
        obtain rfl := PyJson.str.inj (hid.symm.trans hid')
        rcases Bool.or_eq_true_iff.mp hlong with hnil | hlong
        · exact hne (of_decide_eq_true hnil)
        · exact absurd (of_decide_eq_true hlong) (Nat.not_lt.mpr hshort)
      · case isFalse hgood =>
        obtain ⟨hne, hshort⟩ : itemId ≠ [] ∧ itemId.length ≤ 255 := by simpa using hgood
        constructor
        · intro heq
          rcases bind_eq_error.mp heq with heq | ⟨size, -, heq⟩
          · obtain ⟨hlone, rfl⟩ := utf8Size_escapes.mp heq
            exact ⟨htype, rfl, itemId, delta, hid, ⟨hne, hshort⟩, hdelta, hlone⟩
          · dsimp only at heq
            split at heq
            · exact absurd heq planeError_declared
            · split at heq
              · exact absurd heq planeError_declared
              · exact absurd heq ok_ne_error
        · rintro ⟨-, rfl, itemId', text, -, -, htext, hlone⟩
          obtain rfl := PyJson.str.inj (hdelta.symm.trans htext)
          exact bind_eq_error.mpr (.inl (utf8Size_escapes.mpr ⟨hlone, rfl⟩))
    · rename_i hnone
      refine iff_of_false planeError_declared ?_
      rintro ⟨-, -, itemId, text, hid, -, htext, -⟩
      exact hnone itemId text hid htext

/-! ### Items -/

theorem hashable_of_isStr {value : PyJson} (h : value.isStr text = true) : value.hashable = true := by
  rw [PyJson.isStr_iff] at h
  rw [h]
  rfl

theorem argumentsSize_escapes : argumentsSize item = .error (.undeclared e) ↔
    e = .unicodeEncodeError ∧ ∃ text, item.get (lit "arguments") = .str text ∧ encodes text = false := by
  unfold argumentsSize
  split
  · rename_i arguments harguments
    rw [utf8Size_escapes]
    constructor
    · rintro ⟨hlone, rfl⟩
      exact ⟨rfl, arguments, harguments, hlone⟩
    · rintro ⟨rfl, text, htext, hlone⟩
      obtain rfl := PyJson.str.inj (harguments.symm.trans htext)
      exact ⟨hlone, rfl⟩
  · rename_i hnone
    refine iff_of_false ok_ne_error ?_
    rintro ⟨-, text, htext, -⟩
    exact hnone text htext

theorem validateToolIdentity_escapes : validateToolIdentity settings item = .error (.undeclared e) ↔
    settings.allowedToolIdentities.isSome = true ∧ isCall item = true ∧ e = .unicodeEncodeError ∧
      ∃ text, item.get (lit "arguments") = .str text ∧ encodes text = false := by
  unfold validateToolIdentity
  split
  · rename_i hnone
    refine iff_of_false ok_ne_error fun hall => ?_
    rw [hnone] at hall
    exact Bool.false_ne_true hall.1
  · rename_i allowed hsome
    rw [hsome]
    split
    · case isTrue hcall =>
      rw [bind_eq_error, argumentsSize_escapes]
      refine ⟨?_, fun hall => .inl hall.2.2⟩
      rintro (hescapes | ⟨size, -, heq⟩)
      · exact ⟨rfl, hcall, hescapes⟩
      · split at heq
        · exact absurd heq planeError_declared
        · split at heq
          · exact absurd heq planeError_declared
          · exact absurd heq ok_ne_error
    · case isFalse hcall =>
      refine iff_of_false ?_ fun hall => hcall hall.2.1
      split
      · exact planeError_declared
      · exact ok_ne_error

theorem checkType_escapes {noneAllowed : Bool} : checkType settings noneAllowed item = .error (.undeclared e) ↔
    item.isDict = true ∧ (item.get (lit "type")).hashable = false ∧ e = .typeError := by
  unfold checkType
  dsimp only
  split
  · case isTrue h =>
    refine iff_of_false ok_ne_error fun hall => ?_
    rw [hall.1] at h
    cases h
  · case isFalse hdict =>
    have hdict : item.isDict = true := by simpa using hdict
    split
    · case isTrue hkind =>
      rw [typeError_escapes]
      exact ⟨fun heq => ⟨hdict, (Bool.not_eq_true' _).mp hkind, heq⟩, fun hall => hall.2.2⟩
    · case isFalse hkind =>
      refine iff_of_false ?_ fun hall => hkind ((Bool.not_eq_true' _).mpr hall.2.1)
      split
      · exact ok_ne_error
      · exact planeError_declared

/-- An item without a text for its type passes the check of its identity. -/
theorem validateToolIdentity_of_unhashable (h : (item.get (lit "type")).hashable = false) :
    validateToolIdentity settings item = .ok () := by
  have hnone : ∀ text, (item.get (lit "type")).isStr text = false := by
    intro text
    refine Bool.eq_false_iff.mpr fun hstr => ?_
    rw [hashable_of_isStr hstr] at h
    cases h
  unfold validateToolIdentity
  split
  · rfl
  · rw [isCall, hnone, Bool.and_false, hnone, Bool.and_false, Bool.false_and]
    rfl

/-- An item is looked at: its identity, then its type. -/
theorem item_escapes (noneAllowed : Bool) :
    (validateToolIdentity settings item >>= fun _ => checkType settings noneAllowed item) = .error (.undeclared e) ↔
      ItemEscapes settings item e := by
  rw [bind_eq_error, validateToolIdentity_escapes]
  constructor
  · rintro (⟨hasked, hcall, rfl, text, htext, hlone⟩ | ⟨u, -, hcheck⟩)
    · exact .arguments hasked hcall text htext hlone
    · obtain ⟨hdict, hkind, rfl⟩ := checkType_escapes.mp hcheck
      exact .itemType hdict hkind
  · intro h
    cases h with
    | arguments hasked hcall text htext hlone => exact .inl ⟨hasked, hcall, rfl, text, htext, hlone⟩
    | itemType hdict hkind =>
      exact .inr ⟨(), validateToolIdentity_of_unhashable hkind, checkType_escapes.mpr ⟨hdict, hkind, rfl⟩⟩

theorem encoded_escapes : encoded eventType event = .error (.undeclared e) ↔
    (encodes eventType && writable event) = false ∧ e = .unicodeEncodeError := by
  unfold encoded
  split
  · case isTrue h => exact iff_of_false ok_ne_error fun hall => Bool.false_ne_true (hall.1.symm.trans h)
  · case isFalse h =>
    constructor
    · intro heq
      cases heq
      exact ⟨Bool.eq_false_iff.mpr h, rfl⟩
    · rintro ⟨-, rfl⟩
      rfl

theorem outputItem_escapes : outputItem settings item = .error (.undeclared e) ↔
    ∃ restored, restoreToolNamespace settings.toolAliases item = .ok restored ∧ ItemEscapes settings restored e := by
  rw [outputItem, bind_eq_error]
  constructor
  · rintro (h | ⟨restored, hrestored, h⟩)
    · exact absurd h restoreToolNamespace_declared
    · refine ⟨restored, hrestored, (item_escapes false).mp (bind_eq_error.mpr ?_)⟩
      rcases bind_eq_error.mp h with h | ⟨u, hvalid, h⟩
      · exact .inl h
      · rcases bind_eq_error.mp h with h | ⟨last, -, h⟩
        · exact .inr ⟨(), hvalid, h⟩
        · cases h
  · rintro ⟨restored, hrestored, h⟩
    refine .inr ⟨restored, hrestored, bind_eq_error.mpr ?_⟩
    rcases bind_eq_error.mp ((item_escapes false).mpr h) with h | ⟨u, hvalid, h⟩
    · exact .inl h
    · exact .inr ⟨(), hvalid, bind_eq_error.mpr (.inl h)⟩

/-- The first item that is not let through decides. -/
theorem outputItems_escapes {items : List PyJson} : outputItems settings items = .error (.undeclared e) ↔
    ∃ before item after done, items = before ++ item :: after ∧ outputItems settings before = .ok done ∧
      outputItem settings item = .error (.undeclared e) := by
  induction items with
  | nil =>
    refine iff_of_false ok_ne_error ?_
    rintro ⟨before, item, after, -, heq, -⟩
    exact List.append_ne_nil_of_right_ne_nil before (List.cons_ne_nil item after) heq.symm
  | cons first rest ih =>
    rw [outputItems, bind_eq_error]
    constructor
    · rintro (h | ⟨restored, hfirst, h⟩)
      · exact ⟨[], first, rest, [], rfl, rfl, h⟩
      · rcases bind_eq_error.mp h with h | ⟨last, -, h⟩
        · obtain ⟨before, item, after, done, rfl, hbefore, hitem⟩ := ih.mp h
          refine ⟨first :: before, item, after, restored :: done, rfl, ?_, hitem⟩
          exact bind_eq_ok.mpr ⟨restored, hfirst, bind_eq_ok.mpr ⟨done, hbefore, rfl⟩⟩
        · cases h
    · rintro ⟨before, item, after, done, heq, hbefore, hitem⟩
      cases before with
      | nil =>
        obtain ⟨rfl, rfl⟩ := List.cons.inj heq
        exact .inl hitem
      | cons other before =>
        obtain ⟨rfl, rfl⟩ := List.cons.inj heq
        obtain ⟨restored, hfirst, hbefore⟩ := bind_eq_ok.mp hbefore
        obtain ⟨done, hbefore, -⟩ := bind_eq_ok.mp hbefore
        exact .inr ⟨restored, hfirst, bind_eq_error.mpr (.inl (ih.mpr ⟨before, item, after, done, rfl, hbefore, hitem⟩))⟩

theorem restoreOutput_escapes : restoreOutput settings event = .error (.undeclared e) ↔ OutputEscapes settings event e := by
  unfold restoreOutput
  dsimp only
  split
  · rename_i items hitems
    rw [bind_eq_error, outputItems_escapes]
    constructor
    · rintro (⟨before, item, after, done, rfl, hbefore, hitem⟩ | ⟨last, -, h⟩)
      · obtain ⟨restored, hrestored, hescapes⟩ := outputItem_escapes.mp hitem
        exact ⟨before, item, after, done, restored, hitems, hbefore, hrestored, hescapes⟩
      · cases h
    · rintro ⟨before, item, after, done, restored, heq, hbefore, hrestored, hescapes⟩
      exact .inl ⟨before, item, after, done, PyJson.list.inj (hitems.symm.trans heq), hbefore,
        outputItem_escapes.mpr ⟨restored, hrestored, hescapes⟩⟩
  · rename_i hnone
    refine iff_of_false ok_ne_error ?_
    rintro ⟨before, item, after, done, restored, heq, -⟩
    exact hnone _ heq

theorem usageOf_declared : usageOf item ≠ .error (.undeclared e) := by
  unfold usageOf
  dsimp only
  split
  · exact ok_ne_error
  · exact planeError_declared

theorem complete_escapes : complete settings eventType event = .error (.undeclared e) ↔ SaysCompleted event ∧
    (OutputEscapes settings event e ∨ ∃ restored usage, restoreOutput settings event = .ok restored ∧
      usageOf (event.get (lit "response")) = .ok usage ∧ (encodes eventType && writable restored) = false ∧
      e = .unicodeEncodeError) := by
  unfold complete
  dsimp only
  split
  · case isTrue h =>
    refine iff_of_false planeError_declared fun hall => ?_
    rw [hall.1.1, hall.1.2] at h
    cases h
  · case isFalse h =>
    have hsaid : SaysCompleted event := by simpa [SaysCompleted] using h
    rw [bind_eq_error, restoreOutput_escapes]
    constructor
    · rintro (houtput | ⟨restored, hrestored, h⟩)
      · exact ⟨hsaid, .inl houtput⟩
      · rcases bind_eq_error.mp h with h | ⟨usage, husage, h⟩
        · exact absurd h usageOf_declared
        · rcases bind_eq_error.mp h with h | ⟨last, -, h⟩
          · obtain ⟨hlone, rfl⟩ := encoded_escapes.mp h
            exact ⟨hsaid, .inr ⟨restored, usage, hrestored, husage, hlone, rfl⟩⟩
          · cases h
    · rintro ⟨-, houtput | ⟨restored, usage, hrestored, husage, hlone, rfl⟩⟩
      · exact .inl houtput
      · refine .inr ⟨restored, hrestored, bind_eq_error.mpr (.inr ⟨usage, husage, bind_eq_error.mpr (.inl ?_)⟩)⟩
        exact encoded_escapes.mpr ⟨hlone, rfl⟩

end Checks

/-! ### The stages -/

section Stages

variable {v v' : Validator} {parsed event : PyJson} {eventType : PyStr} {e : PyException}

theorem takeNext_ok (h : takeNext v event = .ok (eventType, v')) :
    event.get (lit "type") = .str eventType ∧ event.get (lit "sequence_number") = .int (v.lastSequence + 1) ∧
      v.terminal = none ∧ (v.seenCreated = false → eventType = lit "response.created") ∧
      v' = { v with lastSequence := v.lastSequence + 1, seenCreated := true } := by
  unfold takeNext at h
  split at h
  · rename_i given htype
    split at h
    · cases h
    · case isFalse hnext =>
      split at h
      · cases h
      · case isFalse hcreated =>
        obtain ⟨rfl, rfl⟩ := Prod.mk.inj (Except.ok.inj h)
        have hnext : inSequence v event = true := by simpa using hnext
        unfold inSequence at hnext
        split at hnext
        · rename_i sequence hsequence
          obtain ⟨rfl, hterminal⟩ : sequence = v.lastSequence + 1 ∧ v.terminal = none := by simpa using hnext
          refine ⟨htype, hsequence, hterminal, fun hnew => ?_, rfl⟩
          rw [hnew] at hcreated
          simpa using hcreated
        · cases hnext
  · cases h

/-- What is known of an event that is admitted. -/
structure Admits (v : Validator) (parsed : PyJson) (eventType : PyStr) (v' : Validator) (event : PyJson) : Prop where
  isDict : parsed.isDict = true
  normalized : normalizeReasoningEvent v.toSettings parsed = .ok event
  type_eq : event.get (lit "type") = .str eventType
  sequence : event.get (lit "sequence_number") = .int (v.lastSequence + 1)
  open_before : v.terminal = none
  created : v.seenCreated = false → eventType = lit "response.created"
  next : v' = { v with lastSequence := v.lastSequence + 1, seenCreated := true }

theorem admit_ok (h : admitEvent v parsed = .ok (eventType, v', event)) : Admits v parsed eventType v' event := by
  unfold admitEvent at h
  split at h
  · cases h
  · case isFalse hdict =>
    obtain ⟨normalized, hnormalized, h⟩ := bind_eq_ok.mp h
    obtain ⟨⟨given, v₁⟩, htake, h⟩ := bind_eq_ok.mp h
    obtain ⟨u, -, h⟩ := bind_eq_ok.mp h
    obtain ⟨rfl, rfl, rfl⟩ : given = eventType ∧ v₁ = v' ∧ normalized = event := by simpa using Except.ok.inj h
    obtain ⟨htype, hsequence, hterminal, hcreated, hnext⟩ := takeNext_ok htake
    exact ⟨by simpa using hdict, hnormalized, htype, hsequence, hterminal, hcreated, hnext⟩

theorem countArguments_ok (h : countArguments v eventType event = .ok v') :
    ∃ argumentBytes total, v' = { v with argumentBytes := argumentBytes, totalArgumentBytes := total } := by
  unfold countArguments at h
  split at h
  · obtain rfl := Except.ok.inj h
    exact ⟨v.argumentBytes, v.totalArgumentBytes, rfl⟩
  · split at h
    · split at h
      · cases h
      · obtain ⟨size, -, h⟩ := bind_eq_ok.mp h
        dsimp only at h
        split at h
        · cases h
        · split at h
          · cases h
          · obtain rfl := Except.ok.inj h
            exact ⟨_, _, rfl⟩
    · cases h

/-- The counters apart, what becomes of the validator. -/
def Moves (v v' : Validator) : Prop :=
  ∃ argumentBytes total, v' = { v with
    lastSequence := v.lastSequence + 1
    seenCreated := true
    argumentBytes := argumentBytes
    totalArgumentBytes := total }

theorem count_ok (h : count v parsed = .ok (eventType, v', event)) :
    ∃ v₁ admitted, Admits v parsed eventType v₁ admitted ∧ restoreItem v.toSettings admitted = .ok event ∧ Moves v v' := by
  obtain ⟨⟨given, v₁, admitted⟩, hadmitted, h⟩ := bind_eq_ok.mp h
  obtain ⟨v₂, hcount, h⟩ := bind_eq_ok.mp h
  obtain ⟨restored, hrestore, h⟩ := bind_eq_ok.mp h
  obtain ⟨rfl, rfl, rfl⟩ : given = eventType ∧ v₂ = v' ∧ restored = event := by simpa using Except.ok.inj h
  have hadmits := admit_ok hadmitted
  obtain ⟨argumentBytes, total, rfl⟩ := countArguments_ok hcount
  have hnext := hadmits.next
  subst hnext
  exact ⟨_, admitted, hadmits, hrestore, argumentBytes, total, rfl⟩

theorem Moves.settings (h : Moves v v') : v'.toSettings = v.toSettings := by
  obtain ⟨argumentBytes, total, rfl⟩ := h
  rfl

theorem screen_ok (h : screen v parsed = .ok (eventType, v', event)) :
    count v parsed = .ok (eventType, v', event) ∧ rejectToolItem v.toSettings event = .ok () := by
  obtain ⟨⟨given, v₁, restored⟩, hcount, h⟩ := bind_eq_ok.mp h
  obtain ⟨u, hreject, h⟩ := bind_eq_ok.mp h
  obtain ⟨rfl, rfl, rfl⟩ : given = eventType ∧ v₁ = v' ∧ restored = event := by simpa using Except.ok.inj h
  obtain ⟨-, -, -, -, hmoves⟩ := count_ok hcount
  exact ⟨hcount, hmoves.settings ▸ hreject⟩

/-! ### Fields that stay -/

theorem restoreItem_get {settings : Settings} {restored : PyJson} {key : PyStr} (hne : key ≠ lit "item")
    (h : restoreItem settings event = .ok restored) : restored.get key = event.get key := by
  obtain ⟨item, -, h⟩ := bind_eq_ok.mp h
  obtain rfl := Except.ok.inj h
  split
  · exact PyJson.get_set_ne hne
  · rfl

theorem restoreOutput_get {settings : Settings} {restored : PyJson} {key : PyStr} (hne : key ≠ lit "response")
    (h : restoreOutput settings event = .ok restored) : restored.get key = event.get key := by
  unfold restoreOutput at h
  dsimp only at h
  split at h
  · obtain ⟨items, -, h⟩ := bind_eq_ok.mp h
    obtain rfl := Except.ok.inj h
    exact PyJson.get_set_ne hne
  · rw [Except.ok.inj h]

theorem count_type (h : count v parsed = .ok (eventType, v', event)) : event.get (lit "type") = .str eventType := by
  obtain ⟨v₁, admitted, hadmits, hrestore, -⟩ := count_ok h
  have hne : lit "type" ≠ lit "item" := by decide
  rw [restoreItem_get hne hrestore, hadmits.type_eq]

theorem writable_of_lookup {members : List (PyStr × PyJson)} {key : PyStr} {value : PyJson}
    (h : writableMembers members = true) (hlookup : members.lookup key = some value) : writable value = true := by
  induction members with
  | nil => cases hlookup
  | cons member rest ih =>
    obtain ⟨other, first⟩ := member
    obtain ⟨⟨-, hfirst⟩, hrest⟩ : (encodes other = true ∧ writable first = true) ∧ writableMembers rest = true := by
      simpa [writableMembers] using h
    rw [List.lookup_cons] at hlookup
    split at hlookup
    · obtain rfl := Option.some.inj hlookup
      exact hfirst
    · exact ih hrest hlookup

theorem writable_get {key : PyStr} (h : writable event = true) : writable (event.get key) = true := by
  cases event with
  | dict members =>
    rw [PyJson.get_dict]
    cases hlookup : members.lookup key with
    | none => rfl
    | some value => exact writable_of_lookup h hlookup
  | _ => rfl

/-- The type of an event is one of its texts. -/
theorem writable_with_type (h : event.get (lit "type") = .str eventType) :
    (encodes eventType && writable event) = writable event := by
  cases hwritable : writable event with
  | false => rw [Bool.and_false]
  | true =>
    have htype : writable (event.get (lit "type")) = true := writable_get hwritable
    rw [h] at htype
    rw [Bool.and_true]
    exact htype

/-! ### What escapes of an event -/

theorem admit_escapes : admitEvent v parsed = .error (.undeclared e) ↔ parsed.isDict = true ∧
    v.reasoningVisibility = lit "stream" ∧ (parsed.get (lit "type")).hashable = false ∧ e = .typeError := by
  unfold admitEvent
  split
  · case isTrue h =>
    refine iff_of_false planeError_declared fun hall => ?_
    rw [hall.1] at h
    cases h
  · case isFalse h =>
    have hdict : parsed.isDict = true := by simpa using h
    rw [bind_eq_error, normalizeReasoningEvent_escapes]
    refine ⟨?_, fun hall => .inl hall.2⟩
    rintro (hall | ⟨normalized, -, h⟩)
    · exact ⟨hdict, hall⟩
    · rcases bind_eq_error.mp h with h | ⟨⟨given, v₁⟩, -, h⟩
      · exact absurd h takeNext_declared
      · rcases bind_eq_error.mp h with h | ⟨u, -, h⟩
        · exact absurd h refuse_declared
        · cases h

theorem count_escapes : count v parsed = .error (.undeclared e) ↔ admitEvent v parsed = .error (.undeclared e) ∨
    ∃ eventType v₁ event, admitEvent v parsed = .ok (eventType, v₁, event) ∧
      countArguments v₁ eventType event = .error (.undeclared e) := by
  rw [count, bind_eq_error]
  refine or_congr_right ⟨?_, ?_⟩
  · rintro ⟨⟨eventType, v₁, event⟩, hadmitted, h⟩
    rcases bind_eq_error.mp h with h | ⟨v₂, -, h⟩
    · exact ⟨eventType, v₁, event, hadmitted, h⟩
    · rcases bind_eq_error.mp h with h | ⟨restored, -, h⟩
      · exact absurd h restoreItem_declared
      · cases h
  · rintro ⟨eventType, v₁, event, hadmitted, h⟩
    exact ⟨(eventType, v₁, event), hadmitted, bind_eq_error.mpr (.inl h)⟩

theorem screen_escapes : screen v parsed = .error (.undeclared e) ↔ count v parsed = .error (.undeclared e) ∨
    ∃ eventType v₁ event, count v parsed = .ok (eventType, v₁, event) ∧
      ItemEscapes v.toSettings (event.get (lit "item")) e := by
  rw [screen, bind_eq_error]
  refine or_congr_right ⟨?_, ?_⟩
  · rintro ⟨⟨eventType, v₁, event⟩, hcount, h⟩
    obtain ⟨-, -, -, -, hmoves⟩ := count_ok hcount
    rcases bind_eq_error.mp h with h | ⟨u, -, h⟩
    · exact ⟨eventType, v₁, event, hcount, hmoves.settings ▸ (item_escapes true).mp h⟩
    · cases h
  · rintro ⟨eventType, v₁, event, hcount, h⟩
    obtain ⟨-, -, -, -, hmoves⟩ := count_ok hcount
    rw [← hmoves.settings] at h
    exact ⟨(eventType, v₁, event), hcount, bind_eq_error.mpr (.inl ((item_escapes true).mpr h))⟩

theorem screened_escapes (h : screen v parsed = .error (.undeclared e)) : EventEscapes v parsed e := by
  rcases screen_escapes.mp h with h | ⟨eventType, v₁, event, hcount, hitem⟩
  · rcases count_escapes.mp h with h | ⟨eventType, v₁, event, hadmitted, h⟩
    · obtain ⟨hdict, hstream, hkind, rfl⟩ := admit_escapes.mp h
      exact .eventType hdict hstream hkind
    · obtain ⟨rfl, rfl, itemId, text, hid, hshort, htext, hlone⟩ := countArguments_escapes.mp h
      exact .delta v₁ event hadmitted itemId text hid hshort htext hlone
  · exact .item eventType v₁ event hcount e hitem

theorem encoded_screened (hscreen : screen v parsed = .ok (eventType, v', event)) (hwritable : writable event = true) :
    encoded eventType event = .ok ⟨eventType, event⟩ := by
  rw [encoded, writable_with_type (count_type (screen_ok hscreen).1), hwritable]
  rfl

theorem consumeEvent_of_complete (hscreen : screen v parsed = .ok (completed, v', event))
    (hwritable : writable event = true) (h : complete v.toSettings completed event = .error (.undeclared e)) :
    consumeEvent v parsed = .error (.undeclared e) := by
  obtain ⟨-, -, -, -, hmoves⟩ := count_ok (screen_ok hscreen).1
  rw [← hmoves.settings] at h
  refine bind_eq_error.mpr (.inr ⟨_, hscreen, bind_eq_error.mpr (.inr ⟨_, encoded_screened hscreen hwritable, ?_⟩)⟩)
  rw [if_neg (not_not.mpr rfl)]
  exact bind_eq_error.mpr (.inl h)

/-- An event makes the validator raise an exception of the language in these cases and no other. -/
theorem consumeEvent_escapes : consumeEvent v parsed = .error (.undeclared e) ↔ EventEscapes v parsed e := by
  constructor
  · intro h
    rcases bind_eq_error.mp h with h | ⟨⟨eventType, v₁, event⟩, hscreen, h⟩
    · exact screened_escapes h
    · have htype := count_type (screen_ok hscreen).1
      obtain ⟨-, -, -, -, hmoves⟩ := count_ok (screen_ok hscreen).1
      cases hwritable : writable event with
      | false =>
        rcases bind_eq_error.mp h with h | ⟨released, hreleased, -⟩
        · obtain ⟨-, rfl⟩ := encoded_escapes.mp h
          exact .text eventType v₁ event hscreen hwritable
        · rw [encoded, writable_with_type htype, hwritable] at hreleased
          cases hreleased
      | true =>
        obtain ⟨released, -, h⟩ := (bind_eq_error.mp h).resolve_left fun h => by
          rw [encoded_screened hscreen hwritable] at h
          cases h
        split at h
        · cases h
        · case isFalse hcompleted =>
          obtain rfl : eventType = completed := not_not.mp hcompleted
          rcases bind_eq_error.mp h with h | ⟨terminal, -, h⟩
          · rw [hmoves.settings] at h
            obtain ⟨hsaid, houtput | ⟨restored, usage, hrestore, husage, hlone, rfl⟩⟩ := complete_escapes.mp h
            · exact .output v₁ event hscreen hwritable hsaid e houtput
            · have hne : lit "type" ≠ lit "response" := by decide
              rw [writable_with_type ((restoreOutput_get hne hrestore).trans htype)] at hlone
              exact .names v₁ event restored hscreen hwritable hsaid hrestore usage husage hlone
          · cases h
  · intro h
    cases h with
    | eventType hdict hstream hkind =>
      refine bind_eq_error.mpr (.inl (screen_escapes.mpr (.inl (count_escapes.mpr (.inl ?_)))))
      exact admit_escapes.mpr ⟨hdict, hstream, hkind, rfl⟩
    | delta v' event hadmitted itemId text hid hshort htext hlone =>
      refine bind_eq_error.mpr (.inl (screen_escapes.mpr (.inl (count_escapes.mpr (.inr ⟨_, v', event, hadmitted, ?_⟩)))))
      exact countArguments_escapes.mpr ⟨rfl, rfl, itemId, text, hid, hshort, htext, hlone⟩
    | item eventType v' event hcount e hitem =>
      exact bind_eq_error.mpr (.inl (screen_escapes.mpr (.inr ⟨eventType, v', event, hcount, hitem⟩)))
    | text eventType v' event hscreen hlone =>
      refine bind_eq_error.mpr (.inr ⟨_, hscreen, bind_eq_error.mpr (.inl (encoded_escapes.mpr ⟨?_, rfl⟩))⟩)
      rw [writable_with_type (count_type (screen_ok hscreen).1), hlone]
    | output v' event hscreen hwritable hsaid e houtput =>
      exact consumeEvent_of_complete hscreen hwritable (complete_escapes.mpr ⟨hsaid, .inl houtput⟩)
    | names v' event restored hscreen hwritable hsaid hrestore usage husage hlone =>
      refine consumeEvent_of_complete hscreen hwritable (complete_escapes.mpr ⟨hsaid, .inr ?_⟩)
      have hne : lit "type" ≠ lit "response" := by decide
      have htype := (restoreOutput_get hne hrestore).trans (count_type (screen_ok hscreen).1)
      exact ⟨restored, usage, hrestore, husage, (writable_with_type htype).trans hlone, rfl⟩

theorem consume_escapes {loads : PyStr → Except LoadsError PyJson} {payload : PyStr} :
    consume loads v payload = .error (.undeclared e) ↔ Escapes loads v payload e := by
  unfold consume Escapes
  split
  · case isTrue h => exact iff_of_false ok_ne_error fun hall => hall.1 h
  · case isFalse h =>
    cases hloads : loads payload with
    | error raised =>
      cases raised with
      | jsonDecodeError =>
        refine iff_of_false planeError_declared ?_
        rintro ⟨-, heq | ⟨parsed, heq, -⟩⟩
        · cases heq
        · cases heq
      | other exception =>
        constructor
        · intro heq
          obtain rfl := Raised.undeclared.inj (Except.error.inj heq)
          exact ⟨h, .inl rfl⟩
        · rintro ⟨-, heq | ⟨parsed, heq, -⟩⟩
          · obtain rfl := LoadsError.other.inj (Except.error.inj heq)
            rfl
          · cases heq
    | ok parsed =>
      show consumeEvent v parsed = _ ↔ _
      rw [consumeEvent_escapes]
      constructor
      · exact fun hescapes => ⟨h, .inr ⟨parsed, rfl, hescapes⟩⟩
      · rintro ⟨-, heq | ⟨other, heq, hescapes⟩⟩
        · cases heq
        · obtain rfl := Except.ok.inj heq
          exact hescapes

end Stages

end NativeStream
