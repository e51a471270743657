/-
  AiPlatform.Events.EventEnvelope

  The envelope of an event and the payloads registered for it
  (`event_envelope.py`).

  A model is validated from JSON by pydantic, which is a parameter: how it reads
  the bytes, and which values its numbers, dates and UUIDs take.  Beside the
  validators stand the schemas as lists of fields, which say when they return.
-/

import AiPlatform.Capability.PythonCanonical
import AiPlatform.Events.EventConsumer

namespace AiPlatform.Events

open Capability (PyValue)

/-- What `pydantic` and the Unicode tables decide. -/
structure Pydantic where
  /-- The JSON in these bytes; of two members of one name the last stands. -/
  fromJson : List UInt8 → Option PyValue
  fromJson_nil : fromJson [] = none
  uuid : PyValue → Option EventId
  /-- A datetime, as its ISO text. -/
  datetime : PyValue → Option String
  int : PyValue → Option Int
  /-- A float, as its bits. -/
  float : PyValue → Option UInt64
  /-- `str` of the `ValidationError` of a model. -/
  errorText : String → List UInt8 → String
  /-- `str.isprintable` of a character. -/
  isPrintable : Char → Bool

/-- What the default factories of an envelope give. -/
structure Fresh where
  /-- `uuid4()` -/
  eventId : EventId
  /-- `_utcnow()` -/
  occurredAt : String

/-! ## Fields -/

def readStr : PyValue → Option String
  | .str s => some s
  | _ => none

/-- `str | None` -/
def readOptionalStr : PyValue → Option (Option String)
  | .none => some none
  | .str s => some (some s)
  | _ => none

/-- `dict[str, Any]` -/
def readDict : PyValue → Option (List (String × PyValue))
  | .dict items => some items
  | _ => none

variable {α β : Type}

def required (read : PyValue → Option α) (members : List (String × PyValue)) (name : String) :
    Option α :=
  (members.lookup name).bind read

/-- A field that may be left out. -/
def orDefault (read : PyValue → Option α) (default : α) (members : List (String × PyValue))
    (name : String) : Option α :=
  match members.lookup name with
  | none => some default
  | some value => read value

/-! ## Models -/

structure EventEnvelope (Payload : Type) where
  eventId : EventId
  eventType : String
  schemaVersion : Int
  occurredAt : String
  producer : String
  tenantId : String
  requestId : String
  traceparent : Option String
  payload : Payload

/-- The fields of `EventEnvelope[Payload]`, with a validator for the payload. -/
def EventEnvelope.validate {Payload : Type} (py : Pydantic) (fresh : Fresh)
    (payload : PyValue → Option Payload) : PyValue → Option (EventEnvelope Payload)
  | .dict members =>
      EventEnvelope.mk
        <$> orDefault py.uuid fresh.eventId members "event_id"
        <*> required readStr members "event_type"
        <*> orDefault py.int 1 members "schema_version"
        <*> orDefault py.datetime fresh.occurredAt members "occurred_at"
        <*> required readStr members "producer"
        <*> required readStr members "tenant_id"
        <*> required readStr members "request_id"
        <*> orDefault readOptionalStr none members "traceparent"
        <*> required payload members "payload"
  | _ => none

structure UsageRecordedV1 where
  tenantId : String
  userId : String
  model : String
  provider : String
  serviceId : String
  assistantId : String
  inputTokens : Int
  outputTokens : Int
  latencyMs : Int
  firstTokenMs : Int
  requestTotalDurationMs : Int
  errorType : Option String
  status : String
  requestType : String
  timestamp : UInt64
  metadata : List (String × PyValue)

namespace UsageRecordedV1

def EVENT_TYPE : String := "usage.recorded.v1"

def validate (py : Pydantic) : PyValue → Option UsageRecordedV1
  | .dict members =>
      UsageRecordedV1.mk
        <$> required readStr members "tenant_id"
        <*> required readStr members "user_id"
        <*> required readStr members "model"
        <*> orDefault readStr "" members "provider"
        <*> orDefault readStr "" members "service_id"
        <*> orDefault readStr "" members "assistant_id"
        <*> orDefault py.int 0 members "input_tokens"
        <*> orDefault py.int 0 members "output_tokens"
        <*> orDefault py.int 0 members "latency_ms"
        <*> orDefault py.int 0 members "first_token_ms"
        <*> orDefault py.int 0 members "request_total_duration_ms"
        <*> orDefault readOptionalStr none members "error_type"
        <*> orDefault readStr "success" members "status"
        <*> orDefault readStr "chat" members "request_type"
        <*> required py.float members "timestamp"
        <*> orDefault readDict [] members "metadata"
  | _ => none

end UsageRecordedV1

/-- A payload of a registered model. -/
inductive Payload where
  | usageRecordedV1 (record : UsageRecordedV1)

/-- A model class: its name and its validator. -/
structure PayloadModel where
  name : String
  validate : Pydantic → PyValue → Option Payload

def PAYLOAD_MODELS : List (String × PayloadModel) :=
  [(UsageRecordedV1.EVENT_TYPE,
    ⟨"UsageRecordedV1", fun py value => (UsageRecordedV1.validate py value).map .usageRecordedV1⟩)]

/-! ## `parse_envelope` -/

inductive ParseError where
  /-- An `EventDeserializationError`. -/
  | deserialization (message : String)
  /-- pydantic's `ValidationError`. -/
  | validation (message : String)
  deriving DecidableEq, Repr

def hexDigits (width n : Nat) : String :=
  let digits := Nat.toDigits 16 n
  String.ofList (List.replicate (width - digits.length) '0' ++ digits)

/-- `repr` of a string. -/
def reprStr (py : Pydantic) (text : String) : String :=
  let quote := if text.contains '\'' && !text.contains '"' then '"' else '\''
  let body := text.toList.map fun c =>
    if c = quote ∨ c = '\\' then String.ofList ['\\', c]
    else if c = '\n' then "\\n"
    else if c = '\r' then "\\r"
    else if c = '\t' then "\\t"
    else if py.isPrintable c then c.toString
    else if c.toNat < 0x100 then "\\x" ++ hexDigits 2 c.toNat
    else if c.toNat < 0x10000 then "\\u" ++ hexDigits 4 c.toNat
    else "\\U" ++ hexDigits 8 c.toNat
  quote.toString ++ String.join body ++ quote.toString

def payloadFor (py : Pydantic) (eventType : String) : Except ParseError PayloadModel :=
  match PAYLOAD_MODELS.lookup eventType with
  | some model => .ok model
  | none =>
      .error (.deserialization
        ("no payload schema registered for event_type " ++ reprStr py eventType))

/-- `EventEnvelope[model].model_validate_json(raw)`; the error is the text of its
    `ValidationError`. -/
def validateJson {Payload : Type} (py : Pydantic) (fresh : Fresh) (model : String)
    (payload : PyValue → Option Payload) (raw : List UInt8) :
    Except String (EventEnvelope Payload) :=
  match (py.fromJson raw).bind (EventEnvelope.validate py fresh payload) with
  | some envelope => .ok envelope
  | none => .error (py.errorText ("EventEnvelope[" ++ model ++ "]") raw)

/-- `parse_envelope`.  Each of its passes asks the default factories. -/
def parseEnvelope (py : Pydantic) (first second : Fresh) (raw : List UInt8) :
    Except ParseError (EventEnvelope Payload) :=
  -- `_OpaquePayload` takes every object.
  match validateJson py first "_OpaquePayload" readDict raw with
  | .error text => .error (.deserialization ("malformed envelope: " ++ text))
  | .ok loose =>
      match payloadFor py loose.eventType with
      | .error error => .error error
      | .ok model =>
          (validateJson py second model.name (model.validate py) raw).mapError .validation

/-! ## Schemas -/

inductive FieldType where
  | uuid
  | str
  | int
  | float
  | datetime
  | optionalStr
  | dict
  deriving DecidableEq, Repr

def FieldType.takes (py : Pydantic) : FieldType → PyValue → Bool
  | .uuid, value => (py.uuid value).isSome
  | .str, value => (readStr value).isSome
  | .int, value => (py.int value).isSome
  | .float, value => (py.float value).isSome
  | .datetime, value => (py.datetime value).isSome
  | .optionalStr, value => (readOptionalStr value).isSome
  | .dict, value => (readDict value).isSome

structure Field where
  name : String
  type : FieldType
  required : Bool
  deriving DecidableEq, Repr

/-- Every field is there with a value of its type, or is absent and need not be there. -/
def fits (py : Pydantic) (fields : List Field) (members : List (String × PyValue)) : Bool :=
  fields.all fun field =>
    match members.lookup field.name with
    | none => !field.required
    | some value => field.type.takes py value

/-- The fields of an envelope besides its payload. -/
def envelopeFields : List Field :=
  [⟨"event_id", .uuid, false⟩, ⟨"event_type", .str, true⟩, ⟨"schema_version", .int, false⟩,
    ⟨"occurred_at", .datetime, false⟩, ⟨"producer", .str, true⟩, ⟨"tenant_id", .str, true⟩,
    ⟨"request_id", .str, true⟩, ⟨"traceparent", .optionalStr, false⟩]

def usageFields : List Field :=
  [⟨"tenant_id", .str, true⟩, ⟨"user_id", .str, true⟩, ⟨"model", .str, true⟩,
    ⟨"provider", .str, false⟩, ⟨"service_id", .str, false⟩, ⟨"assistant_id", .str, false⟩,
    ⟨"input_tokens", .int, false⟩, ⟨"output_tokens", .int, false⟩, ⟨"latency_ms", .int, false⟩,
    ⟨"first_token_ms", .int, false⟩, ⟨"request_total_duration_ms", .int, false⟩,
    ⟨"error_type", .optionalStr, false⟩, ⟨"status", .str, false⟩, ⟨"request_type", .str, false⟩,
    ⟨"timestamp", .float, true⟩, ⟨"metadata", .dict, false⟩]

/-- The fields an event type has in its payload. -/
def payloadFields (eventType : String) : Option (List Field) :=
  if eventType = UsageRecordedV1.EVENT_TYPE then some usageFields else none

section
variable {py : Pydantic} {fresh : Fresh} {members : List (String × PyValue)}

theorem isSome_seq (f : Option (α → β)) (x : Option α) :
    (f <*> x).isSome = (f.isSome && x.isSome) := by
  cases f <;> cases x <;> rfl

theorem isSome_fmap (f : α → β) (x : Option α) : (f <$> x).isSome = x.isSome := by
  cases x <;> rfl

theorem isSome_required (read : PyValue → Option α) (name : String) :
    (required read members name).isSome =
      match members.lookup name with
      | none => false
      | some value => (read value).isSome := by
  unfold required
  cases members.lookup name <;> rfl

theorem isSome_orDefault (read : PyValue → Option α) (default : α) (name : String) :
    (orDefault read default members name).isSome =
      match members.lookup name with
      | none => true
      | some value => (read value).isSome := by
  unfold orDefault
  cases members.lookup name <;> rfl

theorem seq_eq_some {f : Option (α → β)} {x : Option α} {b : β} :
    f <*> x = some b ↔ ∃ g a, f = some g ∧ x = some a ∧ g a = b := by
  cases f <;> cases x <;> simp [Seq.seq]

/-- A payload is a usage record when its fields fit. -/
theorem UsageRecordedV1.validate_isSome :
    (UsageRecordedV1.validate py (.dict members)).isSome = fits py usageFields members := by
  simp only [UsageRecordedV1.validate, isSome_seq, isSome_fmap, isSome_required,
    isSome_orDefault, fits, usageFields, List.all_cons, List.all_nil, FieldType.takes,
    Bool.and_true, Bool.and_assoc, Bool.not_true, Bool.not_false]

/-- A dict is an envelope when its fields fit and its payload is valid. -/
theorem EventEnvelope.validate_isSome {T : Type} {payload : PyValue → Option T} :
    (EventEnvelope.validate py fresh payload (.dict members)).isSome =
      (fits py envelopeFields members && (required payload members "payload").isSome) := by
  simp only [EventEnvelope.validate, isSome_seq, isSome_fmap, isSome_required,
    isSome_orDefault, fits, envelopeFields, List.all_cons, List.all_nil, FieldType.takes,
    Bool.and_true, Bool.and_assoc, Bool.not_true, Bool.not_false]

/-- An envelope has the event type and the payload of its dict. -/
theorem EventEnvelope.validate_eq_some {T : Type} {payload : PyValue → Option T}
    {envelope : EventEnvelope T}
    (h : EventEnvelope.validate py fresh payload (.dict members) = some envelope) :
    required readStr members "event_type" = some envelope.eventType ∧
      required payload members "payload" = some envelope.payload := by
  simp only [EventEnvelope.validate, seq_eq_some, Option.map_eq_map, Option.map_eq_some_iff] at h
  obtain ⟨_, value, ⟨_, _, ⟨_, _, ⟨_, _, ⟨_, _, ⟨_, _, ⟨_, _, ⟨_, eventType, ⟨_, -, rfl⟩,
    htype, rfl⟩, -, rfl⟩, -, rfl⟩, -, rfl⟩, -, rfl⟩, -, rfl⟩, -, rfl⟩, hpayload, rfl⟩ := h
  exact ⟨htype, hpayload⟩

end

end AiPlatform.Events
