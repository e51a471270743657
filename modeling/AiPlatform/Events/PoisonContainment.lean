/-
  AiPlatform.Events.PoisonContainment

  What one delivery of an entry does (`consumer.py`, `_handle_one`), whatever bytes
  its payload is.

  The first pass of `parse_envelope` turns each of its errors into one that the
  worker parks the entry for.  The second pass lets its `ValidationError` through,
  and no caller catches it.  So a payload is contained unless it is the JSON of an
  envelope whose event type is registered and whose payload is an object that does
  not match the schema.
-/

import AiPlatform.Events.EventEnvelope

namespace AiPlatform.Events

open Capability (PyValue)

namespace EventConsumer

/-- Where a worker reads. -/
structure Site where
  stream : String
  group : String
  consumer : String

/-- A call that `_handle_one` makes. -/
inductive Effect where
  | xaddDlq (entry : DlqEntry)
  | xack (id : Nat)
  /-- The delivery counter of an entry is removed, or counts one more. -/
  | hdel (id : Nat)
  | hincrby (id : Nat)
  | claim (event : EventId)
  | release (event : EventId)
  | handler (envelope : EventEnvelope Payload)

/-- What these calls are answered. -/
structure Answers where
  claimed : Bool
  attempts : Nat
  /-- What the handler raises: the name of its class and its text. -/
  raised : Option (String × String)

/-- The calls that were made, and the error that goes on to the caller. -/
abbrev Outcome := List Effect × Option ParseError

def sendToDlq (site : Site) (id : Nat) (error : String) (attempts : Nat) : List Effect :=
  [.xaddDlq ⟨id, error, attempts, site.stream, site.group, site.consumer⟩]

def ackAndClear (id : Nat) : List Effect := [.xack id, .hdel id]

def onHandlerFailure (site : Site) (id : Nat) (exc : String × String) (attempts : Nat) :
    List Effect :=
  if MAX_DELIVERIES ≤ attempts then
    sendToDlq site id (exc.1 ++ ": " ++ exc.2) attempts ++ ackAndClear id
  else []

def dispatch (site : Site) (answers : Answers) (id : Nat) (envelope : EventEnvelope Payload) :
    List Effect :=
  .claim envelope.eventId ::
    if answers.claimed then
      .hincrby id :: .handler envelope ::
        match answers.raised with
        | some exc => .release envelope.eventId :: onHandlerFailure site id exc answers.attempts
        | none => ackAndClear id
    else ackAndClear id

/-- `_handle_one` of an entry with this payload field. -/
def handleOne (py : Pydantic) (site : Site) (first second : Fresh) (answers : Answers) (id : Nat)
    (payload : Option (List UInt8)) : Outcome :=
  match payload with
  | none => (sendToDlq site id "missing payload field" 1 ++ ackAndClear id, none)
  -- `fields.get(b"payload") or fields.get("payload")`
  | some [] => (sendToDlq site id "missing payload field" 1 ++ ackAndClear id, none)
  | some raw =>
      match parseEnvelope py first second raw with
      | .error (.deserialization message) =>
          (sendToDlq site id ("deserialize: " ++ message) 1 ++ ackAndClear id, none)
      | .error (.validation message) => ([], some (.validation message))
      | .ok envelope => (dispatch site answers id envelope, none)

/-- The envelopes the handler is called with. -/
def dispatchedEvents (effects : List Effect) : List (EventEnvelope Payload) :=
  effects.filterMap fun
    | .handler envelope => some envelope
    | _ => none

end EventConsumer

/-! ## Containment -/

/-- The payload of the envelope is what the schema of its event type makes of the
    one in the JSON. -/
def SatisfiesSchema (py : Pydantic) (raw : List UInt8) (envelope : EventEnvelope Payload) :
    Prop :=
  ∃ members value model, py.fromJson raw = some (.dict members) ∧
    members.lookup "payload" = some value ∧
    PAYLOAD_MODELS.lookup envelope.eventType = some model ∧
    model.validate py value = some envelope.payload

open EventConsumer in
/-- On its first delivery the entry of this payload raises nothing, and is handled,
    unless its event is one the dedupe table holds, or parked. -/
def Contained (py : Pydantic) (raw : List UInt8) : Prop :=
  ∀ (site : Site) (first second : Fresh) (answers : Answers) (id : Nat),
    let outcome := EventConsumer.handleOne py site first second answers id (some raw)
    outcome.2 = none ∧
      ((∃ envelope, parseEnvelope py first second raw = .ok envelope ∧
          SatisfiesSchema py raw envelope ∧
          dispatchedEvents outcome.1 = if answers.claimed then [envelope] else []) ∨
        ∃ error, outcome.1 =
          [.xaddDlq ⟨id, error, 1, site.stream, site.group, site.consumer⟩, .xack id, .hdel id])

/-- The JSON of an envelope whose event type is registered and whose payload is an
    object of another shape. -/
def MismatchesSchema (py : Pydantic) (raw : List UInt8) : Prop :=
  ∃ members items eventType fields,
    py.fromJson raw = some (.dict members) ∧ fits py envelopeFields members = true ∧
    members.lookup "payload" = some (.dict items) ∧
    members.lookup "event_type" = some (.str eventType) ∧
    payloadFields eventType = some fields ∧ fits py fields items = false

section
variable {py : Pydantic} {first second fresh : Fresh} {raw : List UInt8}

/-- A model is registered for the event types that have fields, and is valid where
    these fit. -/
theorem payloadModels_lookup (py : Pydantic) (eventType : String) :
    match payloadFields eventType with
    | none => PAYLOAD_MODELS.lookup eventType = none
    | some fields => ∃ model, PAYLOAD_MODELS.lookup eventType = some model ∧
        ∀ items, (model.validate py (.dict items)).isSome = fits py fields items := by
  unfold payloadFields
  by_cases h : eventType = UsageRecordedV1.EVENT_TYPE
  · subst h
    refine ⟨_, rfl, fun items => ?_⟩
    rw [← UsageRecordedV1.validate_isSome, Option.isSome_map]
  · rw [if_neg h]
    have hne : (eventType == UsageRecordedV1.EVENT_TYPE) = false := beq_eq_false_iff_ne.mpr h
    simp [PAYLOAD_MODELS, List.lookup_cons, hne]

/-- What a validated envelope shows of its JSON. -/
theorem validateJson_eq_ok {T : Type} {model : String} {payload : PyValue → Option T}
    {envelope : EventEnvelope T}
    (h : validateJson py fresh model payload raw = .ok envelope) :
    ∃ members value, py.fromJson raw = some (.dict members) ∧
      fits py envelopeFields members = true ∧
      members.lookup "event_type" = some (.str envelope.eventType) ∧
      members.lookup "payload" = some value ∧ payload value = some envelope.payload := by
  unfold validateJson at h
  split at h
  · rename_i found hfound
    obtain rfl := Except.ok.inj h
    obtain ⟨json, hjson, hvalid⟩ := Option.bind_eq_some_iff.mp hfound
    cases json with
    | dict members =>
      obtain ⟨htype, hpayload⟩ := EventEnvelope.validate_eq_some hvalid
      obtain ⟨text, htext, hread⟩ := Option.bind_eq_some_iff.mp htype
      obtain ⟨value, hvalue, hpayload⟩ := Option.bind_eq_some_iff.mp hpayload
      obtain ⟨hfits, -⟩ := Bool.and_eq_true_iff.mp
        (EventEnvelope.validate_isSome.symm.trans (Option.isSome_of_eq_some hvalid))
      refine ⟨members, value, hjson, hfits, ?_, hvalue, hpayload⟩
      cases text with
      | str text =>
        obtain rfl := Option.some.inj hread
        exact htext
      | _ => cases hread
    | _ => cases hvalid
  · cases h

/-- A dict that fits is validated, when its payload is. -/
theorem validateJson_isOk {T : Type} {model : String} {payload : PyValue → Option T}
    {members : List (String × PyValue)} {value : PyValue}
    (hjson : py.fromJson raw = some (.dict members))
    (hfits : fits py envelopeFields members = true)
    (hvalue : members.lookup "payload" = some value) :
    (∃ envelope, validateJson py fresh model payload raw = .ok envelope) ↔
      (payload value).isSome = true := by
  have hvalid : (EventEnvelope.validate py fresh payload (.dict members)).isSome =
      (payload value).isSome := by
    rw [EventEnvelope.validate_isSome, hfits, Bool.true_and, required, hvalue, Option.bind_some]
  rw [← hvalid, validateJson, hjson, Option.bind_some]
  cases EventEnvelope.validate py fresh payload (.dict members) with
  | none => simp
  | some envelope => simp

/-- The second pass raises for the payloads that mismatch, and no others. -/
theorem parseEnvelope_raises_iff (first second : Fresh) :
    (∃ message, parseEnvelope py first second raw = .error (.validation message)) ↔
      MismatchesSchema py raw := by
  constructor
  · rintro ⟨message, h⟩
    unfold parseEnvelope at h
    split at h
    · cases h
    · rename_i loose hloose
      obtain ⟨members, value, hjson, hfits, htype, hvalue, hread⟩ := validateJson_eq_ok hloose
      unfold payloadFor at h
      have hlookup := payloadModels_lookup py loose.eventType
      cases hfields : payloadFields loose.eventType with
      | none =>
        rw [hfields] at hlookup
        simp only [hlookup] at h
        cases h
      | some fields =>
        rw [hfields] at hlookup
        obtain ⟨model, hmodel, hvalid⟩ := hlookup
        simp only [hmodel] at h
        cases value with
        | dict items =>
          refine ⟨members, items, loose.eventType, fields, hjson, hfits, hvalue, htype, hfields, ?_⟩
          rw [← hvalid, ← Bool.not_eq_true, ← validateJson_isOk hjson hfits hvalue]
          rintro ⟨envelope, hok⟩
          rw [hok] at h
          cases h
        | _ => cases hread
  · rintro ⟨members, items, eventType, fields, hjson, hfits, hvalue, htype, hfields, hmismatch⟩
    obtain ⟨loose, hloose⟩ : ∃ loose, validateJson py first "_OpaquePayload" readDict raw = .ok loose :=
      (validateJson_isOk hjson hfits hvalue).mpr rfl
    obtain ⟨members', value', hjson', -, htype', -, -⟩ := validateJson_eq_ok hloose
    obtain rfl : members = members' := by
      rw [hjson] at hjson'
      exact PyValue.dict.inj (Option.some.inj hjson')
    obtain rfl : eventType = loose.eventType := by
      rw [htype] at htype'
      exact PyValue.str.inj (Option.some.inj htype')
    have hlookup := payloadModels_lookup py loose.eventType
    rw [hfields] at hlookup
    obtain ⟨model, hmodel, hvalid⟩ := hlookup
    simp only [parseEnvelope, hloose, payloadFor, hmodel]
    cases hsecond : validateJson py second model.name (model.validate py) raw with
    | error text => exact ⟨text, rfl⟩
    | ok envelope =>
      have hsome := (validateJson_isOk hjson hfits hvalue).mp ⟨envelope, hsecond⟩
      rw [hvalid, hmismatch] at hsome
      cases hsome

/-- An envelope that is parsed satisfies its schema. -/
theorem parseEnvelope_satisfies {envelope : EventEnvelope Payload}
    (h : parseEnvelope py first second raw = .ok envelope) : SatisfiesSchema py raw envelope := by
  unfold parseEnvelope at h
  split at h
  · cases h
  · rename_i loose hloose
    obtain ⟨members, -, hjson, -, htype, -⟩ := validateJson_eq_ok hloose
    unfold payloadFor at h
    cases hmodel : PAYLOAD_MODELS.lookup loose.eventType with
    | none =>
      simp only [hmodel] at h
      cases h
    | some model =>
      simp only [hmodel] at h
      cases hsecond : validateJson py second model.name (model.validate py) raw with
      | error text =>
        rw [hsecond] at h
        cases h
      | ok found =>
        rw [hsecond] at h
        obtain rfl := Except.ok.inj h
        obtain ⟨members', value, hjson', -, htype', hvalue, hpayload⟩ :=
          validateJson_eq_ok hsecond
        obtain rfl : members = members' := by
          rw [hjson] at hjson'
          exact PyValue.dict.inj (Option.some.inj hjson')
        obtain hsame : loose.eventType = found.eventType := by
          rw [htype] at htype'
          exact PyValue.str.inj (Option.some.inj htype')
        exact ⟨members, value, model, hjson, hvalue, hsame ▸ hmodel, hpayload⟩

end

namespace EventConsumer

variable {py : Pydantic} {site : Site} {first second : Fresh} {answers : Answers} {id : Nat}
  {raw : List UInt8}

/-- The handler is called once for an event the dedupe table lets through. -/
theorem dispatchedEvents_dispatch (envelope : EventEnvelope Payload) :
    dispatchedEvents (dispatch site answers id envelope) = if answers.claimed then [envelope] else [] := by
  unfold dispatch
  cases answers.claimed with
  | false => rfl
  | true =>
    cases answers.raised with
    | none => rfl
    | some exc =>
      simp only [if_true, dispatchedEvents, onHandlerFailure]
      split
      · rfl
      · rfl

/-- A delivery raises what the second pass does. -/
theorem handleOne_raises_iff :
    (EventConsumer.handleOne py site first second answers id (some raw)).2 ≠ none ↔
      MismatchesSchema py raw := by
  rw [← parseEnvelope_raises_iff first second]
  cases raw with
  | nil => simp [EventConsumer.handleOne, parseEnvelope, validateJson, py.fromJson_nil]
  | cons b rest =>
    simp only [EventConsumer.handleOne]
    cases parseEnvelope py first second (b :: rest) with
    | ok envelope => simp
    | error error =>
      cases error with
      | deserialization message => simp
      | validation message => simp

end EventConsumer

open EventConsumer in
/-- A payload is contained exactly when it is not an envelope of a registered type
    around an object that its schema refuses. -/
theorem contained_iff (py : Pydantic) (raw : List UInt8) :
    Contained py raw ↔ ¬ MismatchesSchema py raw := by
  constructor
  · intro h hmismatch
    have answers : Answers := ⟨true, 1, none⟩
    have fresh : Fresh := ⟨⟨"", by simp⟩, ""⟩
    have hnone := (h ⟨"", "", ""⟩ fresh fresh answers 0).1
    exact handleOne_raises_iff.mpr hmismatch hnone
  · intro hfine site first second answers id
    refine ⟨Decidable.not_not.mp fun h => hfine (handleOne_raises_iff.mp h), ?_⟩
    cases raw with
    | nil => exact .inr ⟨"missing payload field", rfl⟩
    | cons b rest =>
      simp only [EventConsumer.handleOne]
      cases hparse : parseEnvelope py first second (b :: rest) with
      | ok envelope =>
        exact .inl ⟨envelope, rfl, parseEnvelope_satisfies hparse, dispatchedEvents_dispatch envelope⟩
      | error error =>
        cases error with
        | deserialization message => exact .inr ⟨"deserialize: " ++ message, rfl⟩
        | validation message =>
          exact absurd ((parseEnvelope_raises_iff first second).mp ⟨message, hparse⟩) hfine

/-- What the workers of a stream see of a parsed payload. -/
def ParseError.seen : ParseError → Parsed
  | .deserialization message => .malformed message
  | .validation _ => .invalid

def seen : Except ParseError (EventEnvelope Payload) → Parsed
  | .ok envelope => .envelope envelope.eventId
  | .error error => error.seen

/-- The payloads that mismatch are the ones that end a worker. -/
theorem handleOne_ends_iff {bus : Bus} {py : Pydantic} {first second : Fresh} {id : Nat}
    {raw : List UInt8} {todo : List Entry}
    (hbus : bus.parseEnvelope raw = seen (parseEnvelope py first second raw)) :
    handleOne bus ⟨id, some raw⟩ todo = .ended ↔ MismatchesSchema py raw := by
  rw [← parseEnvelope_raises_iff first second]
  cases raw with
  | nil => simp [handleOne, eventOf, parseEnvelope, validateJson, py.fromJson_nil]
  | cons b rest =>
    simp only [handleOne, eventOf, hbus]
    cases parseEnvelope py first second (b :: rest) with
    | ok envelope => simp [seen]
    | error error =>
      cases error with
      | deserialization message => simp [seen, ParseError.seen]
      | validation message => simp [seen, ParseError.seen]

/-! ## A payload that is not contained -/

/-- A usage record without its fields. -/
def bareRecord : List (String × PyValue) :=
  [("event_type", .str "usage.recorded.v1"), ("producer", .str "ai-gateway"),
    ("tenant_id", .str "t1"), ("request_id", .str "req-1"), ("payload", .dict [])]

def bareRecordJson : List UInt8 :=
  ("\x7b\"event_type\":\"usage.recorded.v1\",\"producer\":\"ai-gateway\",\"tenant_id\":\"t1\"," ++
    "\"request_id\":\"req-1\",\"payload\":\x7b\x7d\x7d").toUTF8.data.toList

/-- A reading of this text, and of no other. -/
def samplePydantic : Pydantic where
  fromJson raw := if raw = bareRecordJson then some (.dict bareRecord) else none
  fromJson_nil := if_neg (by decide)
  uuid _ := none
  datetime _ := none
  int
    | .int n => some n
    | _ => none
  float
    | .float bits => some bits
    | _ => none
  errorText model _ := "1 validation error for " ++ model
  isPrintable c := decide (0x20 ≤ c.toNat ∧ c.toNat < 0x7f)

/-- A usage record without its fields stops the worker. -/
theorem bare_record_escapes : ¬ Contained samplePydantic bareRecordJson := by
  intro h
  have fresh : Fresh := ⟨⟨"", by simp⟩, ""⟩
  have hjson : samplePydantic.fromJson bareRecordJson = some (.dict bareRecord) := by
    simp [samplePydantic]
  have hmismatch : MismatchesSchema samplePydantic bareRecordJson :=
    ⟨bareRecord, [], "usage.recorded.v1", usageFields, hjson, by decide, rfl, rfl, if_pos rfl,
      by decide⟩
  exact EventConsumer.handleOne_raises_iff.mpr hmismatch
    (h ⟨"", "", ""⟩ fresh fresh ⟨true, 1, none⟩ 0).1

end AiPlatform.Events
