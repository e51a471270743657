/-
  AiPlatform.Gateway.CapabilityProof

  The proof that a capability request carries (`ai_gateway_contracts/capability_proof.py`):
  how it is signed and how it is verified.

  The values are those that `json.loads` gives, with texts that may hold surrogates.
-/

import AiPlatform.Gateway.GatewaySecret
import AiPlatform.Gateway.JsonBytes
import AiPlatform.Lib.Base64

namespace AiPlatform.Gateway

open AiPlatform.Capability AiPlatform.Checks

/-- The digests, the methods of `str` on texts that may hold surrogates, and what is read of a header. -/
structure ProofLibrary where
  hashlib : Hashlib
  stack : Stack
  upper : PyStr → PyStr
  strip : PyStr → PyStr
  /-- `urlsafe_b64decode`; none where it raises a `ValueError`. -/
  b64decode : String → Option (List UInt8)
  /-- `json.loads`; none where it raises a `ValueError`. -/
  loads : List UInt8 → Option PyJson

variable (lib : ProofLibrary)

def SCHEMA_VERSION : PyStr := lit "ai-platform-capability-proof/v1"

def MAX_TTL_SECONDS : Int := 120

def MIN_SECRET_BYTES : Nat := 32

/-- `CapabilityProofError`, the `TypeError` of `hmac.compare_digest`, or the interpreter's `RecursionError`. -/
inductive ProofFailure where
  | capabilityProofError (message : String)
  | typeError
  | recursionError
  deriving DecidableEq, Repr

def SCOPE_FIELDS : List String := ["tenant_id", "user_id", "session_id", "execution_id", "run_id"]

def TEXT_FIELDS : List String := ["method", "path", "body_sha256"] ++ SCOPE_FIELDS ++ ["nonce"]

def PROOF_FIELDS : List String := ["schema_version"] ++ TEXT_FIELDS ++ ["expires_at"]

/-- What a proof is bound to. -/
structure ProofRequest where
  method : PyStr
  path : PyStr
  body : PyJson
  tenantId : PyStr
  userId : PyStr
  sessionId : PyStr
  executionId : PyStr
  runId : PyStr

def ProofRequest.scope (request : ProofRequest) : List (String × PyStr) :=
  [("tenant_id", request.tenantId), ("user_id", request.userId), ("session_id", request.sessionId),
   ("execution_id", request.executionId), ("run_id", request.runId)]

structure CapabilityProof where
  fields : PyJson
  expiresAt : Int
  signature : PyStr

/-- `canonical_json` -/
def proofJson (value : PyJson) : Except ProofFailure (List UInt8) := do
  failIf (!lib.stack.encodes value) .recursionError
  okOr (canonicalBytes value) (.capabilityProofError "proof body is not canonicalizable")

def canonicalBodyHash (body : PyJson) : Except ProofFailure PyStr :=
  (proofJson lib body).map fun bytes => lit (hexEncode (lib.hashlib.sha256 bytes))

/-- The text of a field that is known to be one. -/
def fieldText (fields : PyJson) (key : String) : PyStr := ((fields.get (lit key)).asStr).getD []

def hasControl (text : PyStr) : Bool := text.any fun c => c.char.any fun c => decide (c.toNat < 32)

def isLowerHex (text : PyStr) : Bool := text.all fun c => (lit "0123456789abcdef").contains c

/-- `_validate_unsigned_fields`; the expiry. -/
def validateProofFields (fields : PyJson) : Except ProofFailure Int := do
  failIf (!(fields.get (lit "schema_version")).isStr SCHEMA_VERSION) (.capabilityProofError "proof schema is invalid")
  failIf (!TEXT_FIELDS.all fun key => fieldText fields key != []) (.capabilityProofError "proof scope is invalid")
  let expiresAt ← okOr (fields.get (lit "expires_at")).asInt (.capabilityProofError "proof expiry is invalid")
  failIf (decide (expiresAt ≤ 0) || decide (128 < (fieldText fields "nonce").length))
    (.capabilityProofError "proof expiry or nonce is invalid")
  let path := fieldText fields "path"
  failIf (decide (2048 < path.length) || hasControl path) (.capabilityProofError "proof path is invalid")
  let bodySha256 := fieldText fields "body_sha256"
  failIf (decide (bodySha256.length ≠ 64) || !isLowerHex bodySha256) (.capabilityProofError "proof body hash is invalid")
  forEach (SCOPE_FIELDS ++ ["nonce"]) fun key =>
    failIf (decide (255 < (fieldText fields key).length) || hasControl (fieldText fields key))
      (.capabilityProofError "proof scope is invalid")
  return expiresAt

def secretBytes (secret : List UInt8) : Except ProofFailure (List UInt8) := do
  failIf (decide (secret.length < MIN_SECRET_BYTES)) (.capabilityProofError "proof secret is too short")
  return secret

/-- `_signature` -/
def proofSignature (secret : List UInt8) (fields : PyJson) : Except ProofFailure PyStr := do
  let key ← secretBytes secret
  let message ← proofJson lib fields
  return lit (hexEncode (lib.hashlib.hmacSha256 key message))

/-- The dict that `_unsigned_fields` builds. -/
def proofFields (request : ProofRequest) (bodySha256 : PyStr) (expiresAt : Int) (nonce : PyStr) : PyJson :=
  .dict ([(lit "schema_version", .str SCHEMA_VERSION),
    (lit "method", .str (lib.strip (lib.upper request.method))),
    (lit "path", .str (lib.strip request.path)),
    (lit "body_sha256", .str bodySha256)] ++
    request.scope.map (fun member => (lit member.1, .str member.2)) ++
    [(lit "expires_at", .int expiresAt), (lit "nonce", .str nonce)])

/-- The header of an envelope. -/
def proofHeader (envelope : List UInt8) : String := "v1." ++ Base64.encode envelope

/-- The envelope that `sign_capability_proof` encodes, at the instant `current`. -/
def signedEnvelope (secret : List UInt8) (request : ProofRequest) (expiresAt : Option Int) (nonce : PyStr)
    (current : Int) : Except ProofFailure PyJson := do
  let expiry := expiresAt.getD (current + 30)
  failIf (decide (expiry ≤ current) || decide (current + MAX_TTL_SECONDS < expiry))
    (.capabilityProofError "proof expiry is outside the allowed TTL")
  let bodySha256 ← canonicalBodyHash lib request.body
  let fields := proofFields lib request bodySha256 expiry nonce
  discard (validateProofFields fields)
  let signature ← proofSignature lib secret fields
  return fields.set (lit "signature") (.str signature)

/-- `sign_capability_proof` at the instant `current`. -/
def signCapabilityProof (secret : List UInt8) (request : ProofRequest) (expiresAt : Option Int) (nonce : PyStr)
    (current : Int) : Except ProofFailure String := do
  let envelope ← signedEnvelope lib secret request expiresAt nonce current
  let encoded ← proofJson lib envelope
  return proofHeader encoded

def MALFORMED : ProofFailure := .capabilityProofError "proof header is malformed"

/-- The base64 text with the `=` that were left out. -/
def padded (encoded : String) : String :=
  encoded ++ String.ofList (List.replicate ((4 - encoded.length % 4) % 4) '=')

/-- `_decode` -/
def decodeProof (header : String) : Except ProofFailure (PyJson × PyStr) := do
  failIf (!"v1.".toList.isPrefixOf header.toList) MALFORMED
  let encoded := String.ofList (header.toList.drop 3)
  failIf (encoded.isEmpty || decide (4096 < encoded.length)) MALFORMED
  failIf (!isAscii encoded) MALFORMED
  let raw ← okOr (lib.b64decode (padded encoded)) MALFORMED
  failIf (!lib.stack.parses raw) .recursionError
  let envelope ← okOr (lib.loads raw) MALFORMED
  failIf (!envelope.isDict) MALFORMED
  let signature ← okOr ((envelope.get (lit "signature")).asStr.filter (·.length = 64))
    (.capabilityProofError "proof signature is malformed")
  let fields := envelope.pop (lit "signature")
  failIf (!fields.hasKeys (PROOF_FIELDS.map lit)) (.capabilityProofError "proof fields are invalid")
  return (fields, signature)

def requireSame (left right : PyStr) (message : String) : Except ProofFailure Unit := do
  let same ← compareTexts .typeError left right
  failIf (!same) (.capabilityProofError message)

/-- `verify_capability_proof` at the instant `current`. -/
def verifyCapabilityProof (secret : List UInt8) (header : String) (request : ProofRequest) (current : Int) :
    Except ProofFailure CapabilityProof := do
  let (fields, signature) ← decodeProof lib header
  let expiresAt ← validateProofFields fields
  let expected ← proofSignature lib secret fields
  requireSame signature expected "proof signature mismatch"
  failIf (decide (expiresAt ≤ current) || decide (current + MAX_TTL_SECONDS < expiresAt))
    (.capabilityProofError "proof expired")
  let bodySha256 ← canonicalBodyHash lib request.body
  forEach ([("method", lib.strip (lib.upper request.method)), ("path", request.path), ("body_sha256", bodySha256)] ++
      request.scope) fun bound =>
    requireSame (fieldText fields bound.1) bound.2 "proof request binding mismatch"
  return ⟨fields, expiresAt, signature⟩

end AiPlatform.Gateway
