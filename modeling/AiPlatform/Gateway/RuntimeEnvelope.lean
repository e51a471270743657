/-
  AiPlatform.Gateway.RuntimeEnvelope

  The signed envelope of an agent runtime (`ai_gateway_contracts/agent_runtime.py`):
  the snapshot it may carry, how it is signed and what its verifier checks before it
  asks its replay store.
-/

import AiPlatform.Capability.PythonCanonical
import AiPlatform.Gateway.GatewaySecret

namespace AiPlatform.Gateway

open AiPlatform.Capability AiPlatform.Checks

abbrev Dict := List (String × PyValue)

def AGENT_RUNTIME_SCHEMA_VERSION : String := "agent-runtime/v1"

def AGENT_RUNTIME_ENVELOPE_SCHEMA_VERSION : String := "agent-runtime-envelope/v1"

def SNAPSHOT_KEYS : List String :=
  ["schema_version", "tenant_id", "agent_id", "agent_version_id", "publication", "model",
   "instructions", "capabilities", "knowledge", "memory", "channel_policy", "fingerprints"]

def PUBLICATION_KEYS : List String := ["id", "channel", "auth_mode"]

def MODEL_KEYS : List String := ["id", "provider", "parameters"]

def INSTRUCTION_KEYS : List String := ["agent", "prompt_hash"]

def CAPABILITY_KEYS : List String := ["type", "id", "version", "schema_hash", "risk", "config"]

def KNOWLEDGE_KEYS : List String := ["datasets", "retrieval"]

def MEMORY_KEYS : List String := ["mode"]

def CHANNEL_POLICY_KEYS : List String := ["attachments", "high_risk_tools", "allowed_origins"]

def FINGERPRINT_KEYS : List String := ["spec", "tool_schema", "skills", "knowledge_revision"]

/-- The keys of an envelope without its signature. -/
def UNSIGNED_KEYS : List String :=
  ["schema_version", "issuer", "tenant_id", "caller_principal", "agent_id", "agent_version_id",
   "draft_revision", "publication_id", "channel", "session_id", "resolved_snapshot",
   "request_body_hash", "snapshot_hash", "spec_hash", "issued_at_ms", "expires_at_ms", "nonce"]

def ENVELOPE_KEYS : List String := UNSIGNED_KEYS ++ ["signature"]

def CHANNELS : List String := ["preview", "hosted", "embed", "api", "builtin"]

def AUTH_MODES : List String := ["private", "tenant", "public", "token"]

def CAPABILITY_TYPES : List String := ["platform", "mcp", "skill", "connector"]

def RISKS : List String := ["low", "medium", "high", "critical"]

def MEMORY_MODES : List String := ["off", "session", "user"]

def SENSITIVE_KEYS : List String :=
  ["apikey", "apitoken", "authorization", "bearertoken", "clientsecret", "credential",
   "credentialref", "password", "privatekey", "refreshtoken", "secret", "secretref", "tokenhash",
   "tokenref"]

/-- `AgentRuntimeEnvelopeError` with its code, or the `TypeError` of `in` for an
    unhashable value and of `hmac.compare_digest` outside ASCII. -/
inductive EnvelopeFailure where
  | agentRuntimeEnvelopeError (code : String)
  | typeError
  deriving DecidableEq, Repr

def SNAPSHOT_INVALID : EnvelopeFailure := .agentRuntimeEnvelopeError "AGENT_RUNTIME_SNAPSHOT_INVALID"

def ENVELOPE_INVALID : EnvelopeFailure := .agentRuntimeEnvelopeError "AGENT_RUNTIME_ENVELOPE_INVALID"

def IDENTITY_INVALID : EnvelopeFailure := .agentRuntimeEnvelopeError "AGENT_RUNTIME_IDENTITY_INVALID"

/-! ## Values -/

/-- `mapping[key]`, where the key is known to be there. -/
def item (mapping : Dict) (key : String) : PyValue := (mapping.lookup key).getD .none

def isText (value : PyValue) (text : String) : Bool :=
  match value with
  | .str s => s == text
  | _ => false

def isNone : PyValue → Bool
  | .none => true
  | _ => false

def isDict : PyValue → Bool
  | .dict _ => true
  | _ => false

/-- `isinstance(value, int)`, which a `bool` is. -/
def asInt : PyValue → Option Int
  | .int n => some n
  | .bool b => some (if b then 1 else 0)
  | _ => none

/-- The items of a value that is known to be a dict. -/
def members : PyValue → Dict
  | .dict items => items
  | _ => []

def truthy : PyValue → Bool
  | .none => false
  | .bool b => b
  | .int n => n != 0
  | .float bits => bits != 0 && bits != 0x8000000000000000
  | .str s => s != ""
  | .list items => !items.isEmpty
  | .dict items => !items.isEmpty

/-- `str(value)`; of what is no text, its `repr`. -/
def str (repr : PyValue → String) : PyValue → String
  | .str s => s
  | value => repr value

/-- `left == right`, of two values that are texts or `None`. -/
def sameText : PyValue → PyValue → Bool
  | .str s, .str t => s == t
  | .none, .none => true
  | _, _ => false

/-- `value in frozenset(members)`; a list or a dict has no hash. -/
def inFrozenset (value : PyValue) (members : List String) : Except EnvelopeFailure Bool :=
  match value with
  | .str s => .ok (members.contains s)
  | .list _ | .dict _ => .error .typeError
  | _ => .ok false

/-- `set(mapping) == keys` -/
def hasKeys (mapping : Dict) (keys : List String) : Bool :=
  mapping.all (fun member => keys.contains member.1) &&
    keys.all (fun key => mapping.any fun member => member.1 == key)

def closedMapping (value : PyValue) (keys : List String) (code : EnvelopeFailure) :
    Except EnvelopeFailure Dict :=
  match value with
  | .dict mapping => if hasKeys mapping keys then .ok mapping else .error code
  | _ => .error code

def nonEmptyString (value : PyValue) (code : EnvelopeFailure) : Except EnvelopeFailure String :=
  match value with
  | .str text => if strip text = "" then .error code else .ok text
  | _ => .error code

def optionalString (value : PyValue) (code : EnvelopeFailure) :
    Except EnvelopeFailure (Option String) :=
  match value with
  | .none => .ok none
  | value => (nonEmptyString value code).map some

/-- What `re.sub("[^a-z0-9]", "", ...)` leaves of one character of `key.lower()`; of
    the characters outside ASCII two have a lower-case form with an ASCII letter. -/
def canonicalChar (c : Char) : Option Char :=
  if c.toNat = 0x212a then some 'k'
  else if c.toNat = 0x130 then some 'i'
  else
    let c := c.toLower
    if ('a' ≤ c && c ≤ 'z') || c.isDigit then some c else none

def canonicalKey (key : String) : String := String.ofList (key.toList.filterMap canonicalChar)

mutual

/-- `_reject_sensitive_keys` raises. -/
def hasSensitiveKey : PyValue → Bool
  | .dict members => hasSensitiveMember members
  | .list items => hasSensitiveItem items
  | _ => false

def hasSensitiveItem : List PyValue → Bool
  | [] => false
  | child :: rest => hasSensitiveKey child || hasSensitiveItem rest

def hasSensitiveMember : List (String × PyValue) → Bool
  | [] => false
  | (key, child) :: rest =>
      SENSITIVE_KEYS.contains (canonicalKey key) || hasSensitiveKey child || hasSensitiveMember rest

end

/-! ## The snapshot -/

/-- The loop over the capabilities; `seen` are the ids so far. -/
def validateCapabilities (seen : List String) : List PyValue → Except EnvelopeFailure Unit
  | [] => .ok ()
  | raw :: rest => do
      let capability ← closedMapping raw CAPABILITY_KEYS SNAPSHOT_INVALID
      let typed ← inFrozenset (item capability "type") CAPABILITY_TYPES
      failIf (!typed) SNAPSHOT_INVALID
      let risky ← inFrozenset (item capability "risk") RISKS
      failIf (!risky) SNAPSHOT_INVALID
      let capabilityId ← nonEmptyString (item capability "id") SNAPSHOT_INVALID
      failIf (seen.contains capabilityId) SNAPSHOT_INVALID
      discard (optionalString (item capability "version") SNAPSHOT_INVALID)
      discard (optionalString (item capability "schema_hash") SNAPSHOT_INVALID)
      failIf (!isDict (item capability "config")) SNAPSHOT_INVALID
      validateCapabilities (capabilityId :: seen) rest

def asList : PyValue → Option (List PyValue)
  | .list items => some items
  | _ => none

def isBool : PyValue → Bool
  | .bool _ => true
  | _ => false

/-- `isinstance(value, str)` and the test of the text. -/
def isStr (test : String → Bool) : PyValue → Bool
  | .str s => test s
  | _ => false

def validateSnapshot (snapshot : PyValue) : Except EnvelopeFailure Dict := do
  let snapshot ← closedMapping snapshot SNAPSHOT_KEYS SNAPSHOT_INVALID
  failIf (!isText (item snapshot "schema_version") AGENT_RUNTIME_SCHEMA_VERSION)
    (.agentRuntimeEnvelopeError "AGENT_RUNTIME_SNAPSHOT_VERSION_UNSUPPORTED")
  discard (nonEmptyString (item snapshot "tenant_id") SNAPSHOT_INVALID)
  discard (nonEmptyString (item snapshot "agent_id") SNAPSHOT_INVALID)
  discard (optionalString (item snapshot "agent_version_id") SNAPSHOT_INVALID)
  let publication ← closedMapping (item snapshot "publication") PUBLICATION_KEYS SNAPSHOT_INVALID
  discard (optionalString (item publication "id") SNAPSHOT_INVALID)
  let channel ← inFrozenset (item publication "channel") CHANNELS
  failIf (!channel) SNAPSHOT_INVALID
  let authMode ← inFrozenset (item publication "auth_mode") AUTH_MODES
  failIf (!authMode) SNAPSHOT_INVALID
  let model ← closedMapping (item snapshot "model") MODEL_KEYS SNAPSHOT_INVALID
  discard (nonEmptyString (item model "id") SNAPSHOT_INVALID)
  discard (nonEmptyString (item model "provider") SNAPSHOT_INVALID)
  failIf (!isDict (item model "parameters")) SNAPSHOT_INVALID
  let instructions ← closedMapping (item snapshot "instructions") INSTRUCTION_KEYS SNAPSHOT_INVALID
  failIf (!isStr (fun _ => true) (item instructions "agent")) SNAPSHOT_INVALID
  discard (nonEmptyString (item instructions "prompt_hash") SNAPSHOT_INVALID)
  let capabilities ← okOr (asList (item snapshot "capabilities")) SNAPSHOT_INVALID
  validateCapabilities [] capabilities
  let knowledge ← closedMapping (item snapshot "knowledge") KNOWLEDGE_KEYS SNAPSHOT_INVALID
  let datasets ← okOr (asList (item knowledge "datasets")) SNAPSHOT_INVALID
  failIf (!datasets.all (isStr (· != ""))) SNAPSHOT_INVALID
  failIf (!isDict (item knowledge "retrieval")) SNAPSHOT_INVALID
  let memory ← closedMapping (item snapshot "memory") MEMORY_KEYS SNAPSHOT_INVALID
  let mode ← inFrozenset (item memory "mode") MEMORY_MODES
  failIf (!mode) SNAPSHOT_INVALID
  let channelPolicy ←
    closedMapping (item snapshot "channel_policy") CHANNEL_POLICY_KEYS SNAPSHOT_INVALID
  failIf (!isBool (item channelPolicy "attachments") || !isBool (item channelPolicy "high_risk_tools"))
    SNAPSHOT_INVALID
  let allowedOrigins ← okOr (asList (item channelPolicy "allowed_origins")) SNAPSHOT_INVALID
  failIf (!allowedOrigins.all (isStr fun _ => true)) SNAPSHOT_INVALID
  let fingerprints ← closedMapping (item snapshot "fingerprints") FINGERPRINT_KEYS SNAPSHOT_INVALID
  forEach fingerprints fun member => discard (nonEmptyString member.2 SNAPSHOT_INVALID)
  failIf (hasSensitiveKey (.dict snapshot)) (.agentRuntimeEnvelopeError "AGENT_RUNTIME_SECRET_FORBIDDEN")
  return snapshot

/-! ## The signer -/

/-- The keyword arguments of `AgentRuntimeSigner`, with their defaults. -/
structure SignerArguments where
  secret : String
  issuer : String := "ai-gateway"
  maxTtlMs : Int := 60000
  maxClockSkewMs : Int := 5000

structure AgentRuntimeSigner where
  secret : String
  issuer : String
  maxTtlMs : Int
  maxClockSkewMs : Int
  secret_length : 16 ≤ secret.length
  issuer_bare : issuer ≠ "" ∧ ':' ∉ issuer.toList
  ttl_pos : 0 < maxTtlMs
  skew_nonneg : 0 ≤ maxClockSkewMs

/-- `__init__` -/
def SignerArguments.init (args : SignerArguments) : Except ValueError AgentRuntimeSigner :=
  if hsecret : 16 ≤ args.secret.length then
    if hissuer : args.issuer ≠ "" ∧ ':' ∉ args.issuer.toList then
      if hbounds : 0 < args.maxTtlMs ∧ 0 ≤ args.maxClockSkewMs then
        .ok ⟨args.secret, args.issuer, args.maxTtlMs, args.maxClockSkewMs, hsecret, hissuer,
          hbounds.1, hbounds.2⟩
      else .error ⟨"Agent Runtime time bounds must be positive"⟩
    else .error ⟨"Agent Runtime issuer must be non-empty and colon-free"⟩
  else .error ⟨"Agent Runtime signing secret must be at least 16 chars"⟩

/-- `canonical_runtime_json` as the bytes that are hashed. -/
def canonicalRuntimeJson (value : PyValue) : Except EnvelopeFailure (List UInt8) :=
  (canonicalJson value).mapError fun _ =>
    .agentRuntimeEnvelopeError "AGENT_RUNTIME_CANONICALIZATION_FAILED"

def digestText (digest : List UInt8) : String := "sha256:" ++ hexEncode digest

def runtimeSha256 (lib : Hashlib) (value : PyValue) : Except EnvelopeFailure String :=
  (canonicalRuntimeJson value).map fun bytes => digestText (lib.sha256 bytes)

def withoutSignature (envelope : Dict) : Dict :=
  envelope.filter fun member => member.1 != "signature"

/-- What `verify` returns. -/
structure VerifiedAgentRuntime where
  tenantId : String
  callerPrincipal : String
  agentId : String
  agentVersionId : PyValue
  draftRevision : PyValue
  publicationId : PyValue
  channel : String
  sessionId : String
  runtimeFingerprint : String
  specHash : String
  capabilityIds : List String
  resolvedSnapshot : PyValue

/-- The keyword arguments of `verify` besides the instant. -/
structure EnvelopeCall where
  requestBody : PyValue
  expectedTenantId : String
  expectedCallerPrincipal : String
  expectedSessionId : String

/-- What the clock shows during a `verify`: at the check of the window, at the
    computation of the TTL, and in the store. -/
structure Readings where
  validated : Int
  aged : Int
  stored : Int

/-- The keyword arguments of `sign`. -/
structure EnvelopeArguments where
  tenantId : String
  callerPrincipal : String
  agentId : String
  agentVersionId : Option String
  draftRevision : Option Int
  publicationId : Option String
  channel : String
  sessionId : String
  resolvedSnapshot : PyValue
  requestBody : PyValue
  specHash : String
  issuedAtMs : Option Int := none
  expiresAtMs : Option Int := none
  nonce : Option String := none

def optionalText : Option String → PyValue
  | none => .none
  | some text => .str text

def optionalInt : Option Int → PyValue
  | none => .none
  | some n => .int n

namespace AgentRuntimeSigner

/-- The pins of the envelope do not fit its channel. -/
def badPins (envelope : Dict) : Bool :=
  let hasDraftPin := !isNone (item envelope "draft_revision")
  let hasVersionPin := !isNone (item envelope "agent_version_id")
  let hasPublication := !isNone (item envelope "publication_id")
  if isText (item envelope "channel") "preview" then
    hasDraftPin == hasVersionPin || hasPublication
  else if isText (item envelope "channel") "builtin" then
    hasDraftPin || hasVersionPin || hasPublication
  else hasDraftPin || !hasVersionPin || !hasPublication

/-- The checks of `_validate_unsigned` before those of the time; the two instants of
    the envelope. -/
def validateFields (envelope : Dict) : Except EnvelopeFailure (Int × Int) := do
  failIf (!hasKeys envelope UNSIGNED_KEYS) ENVELOPE_INVALID
  failIf (!isText (item envelope "schema_version") AGENT_RUNTIME_ENVELOPE_SCHEMA_VERSION)
    (.agentRuntimeEnvelopeError "AGENT_RUNTIME_ENVELOPE_VERSION_UNSUPPORTED")
  forEach ["issuer", "tenant_id", "caller_principal", "agent_id", "session_id", "spec_hash", "nonce"]
    fun key => discard (nonEmptyString (item envelope key) ENVELOPE_INVALID)
  discard (optionalString (item envelope "agent_version_id") ENVELOPE_INVALID)
  discard (optionalString (item envelope "publication_id") ENVELOPE_INVALID)
  let channel ← inFrozenset (item envelope "channel") CHANNELS
  failIf (!channel) ENVELOPE_INVALID
  let draftRevision := item envelope "draft_revision"
  failIf (!isNone draftRevision && !(asInt draftRevision).any fun n => decide (1 ≤ n)) ENVELOPE_INVALID
  failIf (badPins envelope) ENVELOPE_INVALID
  let issued ← okOr (asInt (item envelope "issued_at_ms")) ENVELOPE_INVALID
  let expires ← okOr (asInt (item envelope "expires_at_ms")) ENVELOPE_INVALID
  return (issued, expires)

def validateUnsigned (signer : AgentRuntimeSigner) (now : Int) (envelope : Dict) :
    Except EnvelopeFailure Unit := do
  let (issued, expires) ← validateFields envelope
  failIf (expires ≤ issued || signer.maxTtlMs < expires - issued)
    (.agentRuntimeEnvelopeError "AGENT_RUNTIME_TTL_INVALID")
  failIf (now < issued - signer.maxClockSkewMs)
    (.agentRuntimeEnvelopeError "AGENT_RUNTIME_NOT_YET_VALID")
  failIf (expires < now) (.agentRuntimeEnvelopeError "AGENT_RUNTIME_EXPIRED")
  discard (nonEmptyString (item envelope "request_body_hash") ENVELOPE_INVALID)
  discard (nonEmptyString (item envelope "snapshot_hash") ENVELOPE_INVALID)
  discard (validateSnapshot (item envelope "resolved_snapshot"))

/-- `_signature` -/
def signature (lib : Hashlib) (signer : AgentRuntimeSigner) (envelope : Dict) :
    Except EnvelopeFailure String :=
  (canonicalRuntimeJson (.dict (withoutSignature envelope))).map fun bytes =>
    digestText (lib.hmacSha256 (utf8 signer.secret) bytes)

/-- The envelope that `sign` makes, but for its signature. -/
def unsignedEnvelope (signer : AgentRuntimeSigner) (args : EnvelopeArguments)
    (bodyHash snapshotHash : String) (issued expires : Int) (nonce : String) : Dict :=
  [("schema_version", .str AGENT_RUNTIME_ENVELOPE_SCHEMA_VERSION),
   ("issuer", .str signer.issuer),
   ("tenant_id", .str args.tenantId),
   ("caller_principal", .str args.callerPrincipal),
   ("agent_id", .str args.agentId),
   ("agent_version_id", optionalText args.agentVersionId),
   ("draft_revision", optionalInt args.draftRevision),
   ("publication_id", optionalText args.publicationId),
   ("channel", .str args.channel),
   ("session_id", .str args.sessionId),
   ("resolved_snapshot", args.resolvedSnapshot),
   ("request_body_hash", .str bodyHash),
   ("snapshot_hash", .str snapshotHash),
   ("spec_hash", .str args.specHash),
   ("issued_at_ms", .int issued),
   ("expires_at_ms", .int expires),
   ("nonce", .str nonce)]

/-- `sign` at the instant `now`; `token` is what `secrets.token_urlsafe(24)` would draw. -/
def sign (lib : Hashlib) (signer : AgentRuntimeSigner) (now : Int) (token : String)
    (args : EnvelopeArguments) : Except EnvelopeFailure Dict := do
  discard (validateSnapshot args.resolvedSnapshot)
  let issued := args.issuedAtMs.getD now
  let expires := args.expiresAtMs.getD (issued + 30000)
  discard (nonEmptyString (.str args.tenantId) IDENTITY_INVALID)
  discard (nonEmptyString (.str args.callerPrincipal) IDENTITY_INVALID)
  discard (nonEmptyString (.str args.agentId) IDENTITY_INVALID)
  discard (optionalString (optionalText args.agentVersionId) IDENTITY_INVALID)
  discard (optionalString (optionalText args.publicationId) IDENTITY_INVALID)
  discard (nonEmptyString (.str args.sessionId) IDENTITY_INVALID)
  let bodyHash ← runtimeSha256 lib args.requestBody
  let snapshotHash ← runtimeSha256 lib args.resolvedSnapshot
  discard (nonEmptyString (.str args.specHash) IDENTITY_INVALID)
  let envelope := signer.unsignedEnvelope args bodyHash snapshotHash issued expires
    (orElse (args.nonce.getD "") token)
  -- Against the instant of the issue, not the clock.
  signer.validateUnsigned issued envelope
  let signature ← signer.signature lib envelope
  return envelope ++ [("signature", .str signature)]

/-- `frozenset(str(item["id"]) for item in snapshot["capabilities"])` -/
def capabilityIds (repr : PyValue → String) (snapshot : PyValue) : List String :=
  ((asList (item (members snapshot) "capabilities")).getD []).map fun capability =>
    str repr (item (members capability) "id")

def requireDigest (computed given code : String) : Except EnvelopeFailure Unit := do
  let same ← compareDigest .typeError computed given
  failIf (!same) (.agentRuntimeEnvelopeError code)

/-- The snapshot is of another agent, version, publication or spec than the envelope. -/
def identityMismatch (unsigned : Dict) : Bool :=
  let snapshot := members (item unsigned "resolved_snapshot")
  let publication := members (item snapshot "publication")
  !sameText (item snapshot "tenant_id") (item unsigned "tenant_id") ||
    !sameText (item snapshot "agent_id") (item unsigned "agent_id") ||
    !sameText (item snapshot "agent_version_id") (item unsigned "agent_version_id") ||
    !sameText (item publication "id") (item unsigned "publication_id") ||
    !sameText (item publication "channel") (item unsigned "channel") ||
    !sameText (item (members (item snapshot "fingerprints")) "spec") (item unsigned "spec_hash")

/-- The replay key of an envelope that has passed, its TTL at the instant `now`, and
    what `verify` returns. -/
def granted (repr : PyValue → String) (signer : AgentRuntimeSigner) (now : Int) (unsigned : Dict) :
    String × Int × VerifiedAgentRuntime :=
  let expires := (asInt (item unsigned "expires_at_ms")).getD 0
  let text := fun key => str repr (item unsigned key)
  (Fields.join ':' [text "issuer", text "tenant_id", text "nonce"],
    max 1 (expires - now + signer.maxClockSkewMs),
    { tenantId := text "tenant_id"
      callerPrincipal := text "caller_principal"
      agentId := text "agent_id"
      agentVersionId := item unsigned "agent_version_id"
      draftRevision := item unsigned "draft_revision"
      publicationId := item unsigned "publication_id"
      channel := text "channel"
      sessionId := text "session_id"
      runtimeFingerprint := text "snapshot_hash"
      specHash := text "spec_hash"
      capabilityIds := capabilityIds repr (item unsigned "resolved_snapshot")
      resolvedSnapshot := item unsigned "resolved_snapshot" })

/-- `verify` up to the replay store.  `nowMs` stands for the clock where it is given;
    `repr` is Python's, of what is no text. -/
def check (lib : Hashlib) (repr : PyValue → String) (signer : AgentRuntimeSigner)
    (nowMs : Option Int) (readings : Readings) (envelope : PyValue) (call : EnvelopeCall) :
    Except EnvelopeFailure (String × Int × VerifiedAgentRuntime) := do
  let envelope ← closedMapping envelope ENVELOPE_KEYS ENVELOPE_INVALID
  let unsigned := withoutSignature envelope
  signer.validateUnsigned (nowMs.getD readings.validated) unsigned
  let snapshotHash ← runtimeSha256 lib (item unsigned "resolved_snapshot")
  requireDigest snapshotHash (str repr (item unsigned "snapshot_hash"))
    "AGENT_RUNTIME_SNAPSHOT_HASH_MISMATCH"
  let bodyHash ← runtimeSha256 lib call.requestBody
  requireDigest bodyHash (str repr (item unsigned "request_body_hash"))
    "AGENT_RUNTIME_BODY_HASH_MISMATCH"
  let signature := if truthy (item envelope "signature") then str repr (item envelope "signature") else ""
  let expectedSignature ← signer.signature lib unsigned
  requireDigest signature expectedSignature "AGENT_RUNTIME_SIGNATURE_INVALID"
  failIf (!isText (item unsigned "issuer") signer.issuer)
    (.agentRuntimeEnvelopeError "AGENT_RUNTIME_ISSUER_INVALID")
  failIf (!isText (item unsigned "tenant_id") call.expectedTenantId)
    (.agentRuntimeEnvelopeError "AGENT_RUNTIME_TENANT_MISMATCH")
  failIf (!isText (item unsigned "caller_principal") call.expectedCallerPrincipal)
    (.agentRuntimeEnvelopeError "AGENT_RUNTIME_CALLER_MISMATCH")
  failIf (!isText (item unsigned "session_id") call.expectedSessionId)
    (.agentRuntimeEnvelopeError "AGENT_RUNTIME_SESSION_MISMATCH")
  failIf (identityMismatch unsigned) (.agentRuntimeEnvelopeError "AGENT_RUNTIME_IDENTITY_MISMATCH")
  return signer.granted repr (nowMs.getD readings.aged) unsigned

def verify (lib : Hashlib) (repr : PyValue → String) (signer : AgentRuntimeSigner)
    (nowMs : Option Int) (readings : Readings) (envelope : PyValue) (call : EnvelopeCall)
    (store : InMemoryReplayStore) : Except EnvelopeFailure VerifiedAgentRuntime × InMemoryReplayStore :=
  store.consume (.agentRuntimeEnvelopeError "AGENT_RUNTIME_REPLAYED") readings.stored
    (signer.check lib repr nowMs readings envelope call)

end AgentRuntimeSigner

end AiPlatform.Gateway
