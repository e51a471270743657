/-
  AiPlatform.Capability.Validation

  The requests a runtime sends to the capability worker, and the checks both
  sides make on them (`ai-platform-capability-contract/src/lib.rs`): descriptor,
  lease, execution request and execution.

  What comes from other crates (JSON text, SHA-256, HMAC, UUIDs, URLs) is a
  parameter, `Crates`.
-/

import AiPlatform.Capability.Contract
import AiPlatform.Lib.Checks
import Mathlib.Data.List.Sort
import Mathlib.Data.String.Basic

namespace AiPlatform.Capability

open AiPlatform.Json AiPlatform.Checks

inductive ExecutionMode where
  | inline
  | stream
  | job
  deriving DecidableEq, Repr

structure CapabilityDescriptorV2 where
  schemaVersion : String
  id : String
  name : String
  version : String
  description : String
  schemaHash : String
  inputSchema : Value
  outputSchema : Value
  effect : CapabilityEffect
  approvalPolicy : ApprovalPolicy
  executionMode : ExecutionMode
  timeoutMs : Nat
  tags : List String
  protocol : String
  connectorBinding : Option Value

structure RuntimeCapabilityLeaseV1 where
  schemaVersion : String
  leaseId : String
  tenantId : String
  userId : String
  sessionId : String
  runId : String
  toolCallId : String
  attemptId : String
  capabilityId : String
  capabilityRevision : Nat
  argumentsHash : String
  effect : CapabilityEffect
  approvalId : Option String
  issuedAtEpochMs : Nat
  expiresAtEpochMs : Nat
  nonce : String
  signature : String

def RuntimeCapabilityLeaseV1.scope (lease : RuntimeCapabilityLeaseV1) : CapabilityScopeV2 :=
  { tenantId := lease.tenantId
    userId := lease.userId
    sessionId := lease.sessionId }

structure CapabilityCatalogRequestV2 where
  schemaVersion : String
  tenantId : String
  userId : String
  sessionId : String
  capabilityRevision : Nat

structure CapabilityCatalogV2 where
  schemaVersion : String
  capabilityRevision : Nat
  capabilities : List CapabilityDescriptorV2

structure CreateCapabilityExecutionRequestV2 where
  schemaVersion : String
  lease : RuntimeCapabilityLeaseV1
  idempotencyKey : String
  descriptor : CapabilityDescriptorV2
  connectorBinding : Option Value
  arguments : Value

def CAPABILITY_DESCRIPTOR_SCHEMA_VERSION : String := "capability-descriptor/v2"
def RUNTIME_CAPABILITY_LEASE_SCHEMA_VERSION : String := "runtime-capability-lease/v1"
def CAPABILITY_EXECUTION_SCHEMA_VERSION : String := "capability-execution/v2"
def CAPABILITY_CATALOG_SCHEMA_VERSION : String := "capability-catalog/v2"
def MAX_CAPABILITY_LEASE_TTL_MS : Nat := 120000

inductive ContractError where
  | invalidField (field : String)
  | schemaMismatch (field : String)
  | unsupportedSchemaKeyword (keyword : String)
  | expired
  | bindingMismatch (field : String)
  | invalidSignature
  deriving DecidableEq, Repr

/-- What the contract takes from the crates it is built with. -/
structure Crates where
  /-- `serde_json::to_string`; `to_vec` gives the bytes of the same text. -/
  toText : Value → Option String
  /-- The members of a `serde_json::Map` after these have been inserted in turn. -/
  collect : List (String × Value) → List (String × Value)
  sha256 : List UInt8 → List UInt8
  /-- `hmacSha256 key message`. -/
  hmacSha256 : List UInt8 → List UInt8 → List UInt8
  /-- `Uuid::parse_str` accepts the text. -/
  parsesUuid : String → Bool
  /-- `Url::join` of the worker's base URL accepts the relative path. -/
  joins : String → Bool
  /-- `validate_json_schema`, the contract's own check of an input schema.  No
      result here depends on which schemas it accepts. -/
  validateJsonSchema : Value → Except ContractError Unit

def Crates.toVec (crates : Crates) (value : Value) : Option (List UInt8) :=
  (crates.toText value).map fun text => text.toUTF8.data.toList

/-! ## Text checks -/

/-- An ASCII control byte.  In UTF-8 it only occurs as the character itself. -/
def isAsciiControl (c : Char) : Bool := c.toNat < 32 || c.toNat == 127

def isAsciiAlphanumeric (c : Char) : Bool :=
  ('a' ≤ c && c ≤ 'z') || ('A' ≤ c && c ≤ 'Z') || ('0' ≤ c && c ≤ '9')

def isAsciiHexdigit (c : Char) : Bool :=
  ('a' ≤ c && c ≤ 'f') || ('A' ≤ c && c ≤ 'F') || ('0' ≤ c && c ≤ '9')

def boundedText (value : String) (maximum : Nat) : Bool :=
  value != "" && value.utf8ByteSize ≤ maximum && !value.toList.any isAsciiControl

def boundedDescription (value : String) (maximum : Nat) : Bool :=
  value != "" && value.utf8ByteSize ≤ maximum
    && !value.toList.any fun c => isAsciiControl c && c != '\n'

def identifier (value : String) (maximum : Nat) : Bool :=
  boundedText value maximum
    && value.toList.all fun c =>
      isAsciiAlphanumeric c || c == '.' || c == '_' || c == ':' || c == '/' || c == '-'

def isSha256 (value : String) : Bool :=
  value.utf8ByteSize == 71 && "sha256:".toList.isPrefixOf value.toList
    && (value.toList.drop 7).all isAsciiHexdigit

/-- `str::contains`. -/
def containsText (needle value : String) : Bool :=
  value.toList.tails.any fun rest => needle.toList.isPrefixOf rest

def hexDigit (n : Nat) : Char := Nat.digitChar n

/-- `{:x}` of a digest, and `hex::encode`. -/
def hexEncode (bytes : List UInt8) : String :=
  String.ofList (bytes.flatMap fun b => [hexDigit (b.toNat / 16), hexDigit (b.toNat % 16)])

def hexValueOf (c : Char) : Option Nat :=
  if '0' ≤ c ∧ c ≤ '9' then some (c.toNat - 48)
  else if 'a' ≤ c ∧ c ≤ 'f' then some (c.toNat - 87)
  else if 'A' ≤ c ∧ c ≤ 'F' then some (c.toNat - 55)
  else none

/-- `hex::decode` -/
def hexDecode : List Char → Option (List UInt8)
  | [] => some []
  | [_] => none
  | high :: low :: rest =>
      match hexValueOf high, hexValueOf low, hexDecode rest with
      | some h, some l, some bytes => some (UInt8.ofNat (16 * h + l) :: bytes)
      | _, _, _ => none

theorem length_le_utf8ByteSize (s : String) : s.length ≤ s.utf8ByteSize := by
  rw [← String.length_toList, ← String.ofList_toList (s := s), String.utf8ByteSize_ofList,
    String.toList_ofList]
  induction s.toList with
  | nil => exact Nat.le_refl _
  | cons c rest ih =>
    have hpos := Char.utf8Size_pos c
    rw [String.utf8Len_cons, List.length_cons]
    omega

/-- A text of ASCII characters has a byte for each. -/
theorem utf8ByteSize_of_ascii {s : String} (h : ∀ c ∈ s.toList, c.toNat < 128) :
    s.utf8ByteSize = s.length := by
  rw [← String.length_toList, ← String.ofList_toList (s := s), String.utf8ByteSize_ofList,
    String.toList_ofList]
  generalize s.toList = text at h
  induction text with
  | nil => rfl
  | cons c rest ih =>
    obtain ⟨hc, hrest⟩ := List.forall_mem_cons.mp h
    have hone : c.utf8Size = 1 := Char.utf8Size_eq_one_iff.mpr (by
      have : c.val.toNat < 128 := hc
      exact UInt32.le_iff_toNat_le.mpr (by show _ ≤ 127; omega))
    rw [String.utf8Len_cons, ih hrest, hone, List.length_cons]

/-- The first of the fields that fails its check is the one reported. -/
def requireFields (check : String → Nat → Bool) :
    List (String × String × Nat) → Except ContractError Unit
  | [] => .ok ()
  | (field, value, maximum) :: rest =>
      if check value maximum then requireFields check rest else .error (.invalidField field)

def validateScope (scope : CapabilityScopeV2) : Except ContractError Unit :=
  requireFields boundedText
    [("tenant_id", scope.tenantId, 255),
     ("user_id", scope.userId, 255),
     ("session_id", scope.sessionId, 255)]

/-! ## Canonical JSON -/

mutual

def canonicalize (crates : Crates) : Value → Value
  | .object members => .object (crates.collect (canonicalizeMembers crates members))
  | .array values => .array (canonicalizeItems crates values)
  | .null => .null
  | .bool b => .bool b
  | .number n => .number n
  | .string s => .string s

def canonicalizeItems (crates : Crates) : List Value → List Value
  | [] => []
  | value :: rest => canonicalize crates value :: canonicalizeItems crates rest

def canonicalizeMembers (crates : Crates) : List (String × Value) → List (String × Value)
  | [] => []
  | (key, value) :: rest => (key, canonicalize crates value) :: canonicalizeMembers crates rest

end

def canonicalJsonHash (crates : Crates) (value : Value) : Except ContractError String :=
  if !value.isObject then .error (.invalidField "arguments")
  else
    match crates.toVec (canonicalize crates value) with
    | none => .error (.invalidField "arguments")
    | some bytes => .ok ("sha256:" ++ hexEncode (crates.sha256 bytes))

/-! ## Descriptor -/

/-- Two neighbours of the sorted list are equal. -/
def hasDuplicates (tags : List String) : Bool :=
  let sorted := tags.insertionSort (· ≤ ·)
  (sorted.zip sorted.tail).any fun pair => pair.1 == pair.2

def CapabilityDescriptorV2.validate (crates : Crates) (descriptor : CapabilityDescriptorV2) :
    Except ContractError Unit := do
  failIf (descriptor.schemaVersion != CAPABILITY_DESCRIPTOR_SCHEMA_VERSION)
    (.schemaMismatch "descriptor")
  failIf (!identifier descriptor.id 160) (.invalidField "capability_id")
  requireFields boundedText
    [("name", descriptor.name, 160),
     ("version", descriptor.version, 64),
     ("protocol", descriptor.protocol, 64)]
  failIf (!boundedDescription descriptor.description 2000) (.invalidField "description")
  failIf (!isSha256 descriptor.schemaHash || !descriptor.inputSchema.isObject
      || !descriptor.outputSchema.isObject) (.invalidField "schema")
  let schemaHash ← canonicalJsonHash crates descriptor.inputSchema
  failIf (schemaHash != descriptor.schemaHash) (.bindingMismatch "schema_hash")
  crates.validateJsonSchema descriptor.inputSchema
  failIf (!(1 ≤ descriptor.timeoutMs && descriptor.timeoutMs ≤ 3600000))
    (.invalidField "timeout_ms")
  failIf (descriptor.tags.length > 32 || descriptor.tags.any (fun tag => !identifier tag 80)
      || hasDuplicates descriptor.tags) (.invalidField "tags")
  failIf (descriptor.effect != .read && descriptor.approvalPolicy == .never)
    (.invalidField "approval_policy")
  failIf (descriptor.connectorBinding.any fun binding =>
      !binding.isObject || (crates.toVec binding).all fun encoded => encoded.length > 16 * 1024)
    (.invalidField "connector_binding")

def CapabilityCatalogRequestV2.validate (request : CapabilityCatalogRequestV2) :
    Except ContractError Unit := do
  failIf (request.schemaVersion != CAPABILITY_CATALOG_SCHEMA_VERSION)
    (.schemaMismatch "catalog_request")
  validateScope
    { tenantId := request.tenantId
      userId := request.userId
      sessionId := request.sessionId }
  failIf (request.capabilityRevision == 0) (.invalidField "capability_revision")

/-! ## Lease -/

def CapabilityEffect.wireName : CapabilityEffect → String
  | .read => "read"
  | .write => "write"
  | .unknown => "unknown"

def wireNat (n : Nat) : Value := .number (.posInt (UInt64.ofNat n))

/-- `serde_json::to_value` of a lease; an absent approval is left out. -/
def RuntimeCapabilityLeaseV1.toValue (crates : Crates) (lease : RuntimeCapabilityLeaseV1) :
    Value :=
  .object (crates.collect (
    [("schema_version", .string lease.schemaVersion),
     ("lease_id", .string lease.leaseId),
     ("tenant_id", .string lease.tenantId),
     ("user_id", .string lease.userId),
     ("session_id", .string lease.sessionId),
     ("run_id", .string lease.runId),
     ("tool_call_id", .string lease.toolCallId),
     ("attempt_id", .string lease.attemptId),
     ("capability_id", .string lease.capabilityId),
     ("capability_revision", wireNat lease.capabilityRevision),
     ("arguments_hash", .string lease.argumentsHash),
     ("effect", .string lease.effect.wireName)]
    ++ (lease.approvalId.map fun id => ("approval_id", Value.string id)).toList
    ++ [("issued_at_epoch_ms", wireNat lease.issuedAtEpochMs),
        ("expires_at_epoch_ms", wireNat lease.expiresAtEpochMs),
        ("nonce", .string lease.nonce),
        ("signature", .string lease.signature)]))

def RuntimeCapabilityLeaseV1.signingPayload (crates : Crates) (lease : RuntimeCapabilityLeaseV1) :
    Except ContractError (List UInt8) :=
  let unsigned := { lease with signature := "" }
  match crates.toVec (canonicalize crates (unsigned.toValue crates)) with
  | none => .error (.invalidField "lease")
  | some bytes => .ok bytes

/-- HMAC takes a key of any length, so only the length check rejects a secret. -/
def RuntimeCapabilityLeaseV1.sign (crates : Crates) (lease : RuntimeCapabilityLeaseV1)
    (secret : List UInt8) : Except ContractError RuntimeCapabilityLeaseV1 := do
  failIf (secret.length < 32) .invalidSignature
  let payload ← lease.signingPayload crates
  return { lease with signature := "sha256:" ++ hexEncode (crates.hmacSha256 secret payload) }

def RuntimeCapabilityLeaseV1.verifySignature (crates : Crates) (lease : RuntimeCapabilityLeaseV1)
    (secret : List UInt8) : Except ContractError Unit := do
  failIf (secret.length < 32 || !isSha256 lease.signature) .invalidSignature
  let payload ← lease.signingPayload crates
  match hexDecode (lease.signature.toList.drop 7) with
  | none => throw .invalidSignature
  | some signature => failIf (crates.hmacSha256 secret payload != signature) .invalidSignature

/-- A read carries no approval, a write or an unknown effect carries one. -/
def approvalAllowed (effect : CapabilityEffect) (approvalId : Option String) : Bool :=
  match effect with
  | .read => approvalId.isNone
  | .write | .unknown => approvalId.any fun id => identifier id 64

def RuntimeCapabilityLeaseV1.validate (lease : RuntimeCapabilityLeaseV1) (nowEpochMs : Nat) :
    Except ContractError Unit := do
  failIf (lease.schemaVersion != RUNTIME_CAPABILITY_LEASE_SCHEMA_VERSION)
    (.schemaMismatch "lease")
  validateScope lease.scope
  requireFields identifier
    [("lease_id", lease.leaseId, 64),
     ("run_id", lease.runId, 64),
     ("tool_call_id", lease.toolCallId, 160),
     ("attempt_id", lease.attemptId, 160),
     ("capability_id", lease.capabilityId, 160)]
  failIf (lease.capabilityRevision == 0 || !isSha256 lease.argumentsHash)
    (.invalidField "lease_binding")
  failIf (lease.issuedAtEpochMs ≥ lease.expiresAtEpochMs || nowEpochMs ≥ lease.expiresAtEpochMs
      || lease.expiresAtEpochMs - lease.issuedAtEpochMs > MAX_CAPABILITY_LEASE_TTL_MS) .expired
  failIf (!boundedText lease.nonce 128 || lease.nonce.utf8ByteSize < 16
      || !isSha256 lease.signature) (.invalidField "lease_proof")
  failIf (!approvalAllowed lease.effect lease.approvalId) (.invalidField "approval_id")

/-! ## Execution request and execution -/

def CreateCapabilityExecutionRequestV2.validate (crates : Crates)
    (request : CreateCapabilityExecutionRequestV2) (nowEpochMs : Nat) :
    Except ContractError Unit := do
  failIf (request.schemaVersion != CAPABILITY_EXECUTION_SCHEMA_VERSION)
    (.schemaMismatch "execution_request")
  request.lease.validate nowEpochMs
  request.descriptor.validate crates
  failIf (request.descriptor.id != request.lease.capabilityId
      || request.descriptor.effect != request.lease.effect
      || !optBeq request.descriptor.connectorBinding request.connectorBinding)
    (.bindingMismatch "descriptor")
  failIf (!identifier request.idempotencyKey 160 || !request.arguments.isObject)
    (.invalidField "execution_request")
  let argumentsHash ← canonicalJsonHash crates request.arguments
  failIf (argumentsHash != request.lease.argumentsHash) (.bindingMismatch "arguments_hash")

def CapabilityExecutionV2.validate (execution : CapabilityExecutionV2) :
    Except ContractError Unit := do
  failIf (execution.schemaVersion != CAPABILITY_EXECUTION_SCHEMA_VERSION)
    (.schemaMismatch "execution")
  validateScope execution.scope
  requireFields identifier
    [("execution_id", execution.executionId, 64),
     ("lease_id", execution.leaseId, 64),
     ("run_id", execution.runId, 64),
     ("tool_call_id", execution.toolCallId, 160),
     ("attempt_id", execution.attemptId, 160),
     ("capability_id", execution.capabilityId, 160),
     ("idempotency_key", execution.idempotencyKey, 160)]
  failIf (execution.capabilityRevision == 0 || !isSha256 execution.argumentsHash
      || !"/internal/v2/capabilities/executions/".toList.isPrefixOf execution.eventsUrl.toList
      || containsText "://" execution.eventsUrl) (.invalidField "execution_binding")
  failIf (!execution.status.isTerminal && (execution.result.isSome || execution.error.isSome))
    (.invalidField "terminal_payload")

end AiPlatform.Capability
