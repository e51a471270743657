/-
  AiPlatform.Gateway.GatewaySecret

  The `X-Gateway-Secret` header (`auth/gateway_secret.py`): what a handler is made
  of, how it signs a request and what it checks before it asks its replay store.
-/

import AiPlatform.Capability.Validation
import AiPlatform.Gateway.PythonText
import AiPlatform.Gateway.ReplayStore
import AiPlatform.Lib.Fields
import AiPlatform.Lib.KeyedList

namespace AiPlatform.Gateway

open AiPlatform.Capability AiPlatform.Checks

/-! ## The configuration -/

inductive Version where
  | v1
  | v2
  deriving DecidableEq, Repr

def Version.text : Version → String
  | .v1 => "v1"
  | .v2 => "v2"

def bindingChars : List Char :=
  "abcdefghijklmnopqrstuvwxyzABCDEFGHIJKLMNOPQRSTUVWXYZ0123456789-_.".toList

/-- What `_validated_binding` lets through, stripped. -/
def isBinding (normalized : String) : Bool :=
  normalized != "" && normalized.length ≤ 64 && normalized.toList.all bindingChars.contains

/-- `_validated_path_prefix`; none where it raises. -/
def validatedPathPrefix (value : String) : Option String :=
  let trimmed := String.ofList (rstripChars (· == '/') (strip value).toList)
  let normalized := if trimmed = "" then "/" else trimmed
  if ['/'].isPrefixOf normalized.toList && !normalized.toList.any "\r\n?#".toList.contains then
    some normalized
  else none

/-- Text before and after the first `sep`. -/
def cut (sep : Char) (text : String) : String × String :=
  (String.ofList (text.toList.takeWhile (· != sep)),
    String.ofList ((text.toList.dropWhile (· != sep)).drop 1))

/-- `_parse_internal_auth_keys` -/
def parseInternalAuthKeys (raw : String) : List (String × String) :=
  KeyedList.collectLast ((Fields.split ',' raw).filterMap fun item =>
    let item := strip item
    if item.toList.contains ':' then
      let keyId := strip (cut ':' item).1
      let secret := strip (cut ':' item).2
      if keyId = "" ∨ secret = "" then none else some (keyId, secret)
    else none)

/-- The arguments of the dataclass, with their defaults. -/
structure SecretArguments where
  secret : String
  maxSkewMs : Int := 60000
  replayTtlMs : Int := 120000
  headerName : String := "X-Gateway-Secret"
  version : Option String := none
  keyId : Option String := none
  keys : Option (List (String × String)) := none
  callerService : String := "gateway"
  audience : String := "internal"
  allowedPathPrefixes : List String := []

/-- A `ValueError` of `__post_init__`. -/
structure ValueError where
  message : String
  deriving DecidableEq, Repr

/-- What is wrong with a key, if anything is. -/
def keyError (key : String × String) : Option ValueError :=
  if key.1 = "" ∨ ':' ∈ key.1.toList then
    some ⟨"internal auth key ids must be non-empty and colon-free"⟩
  else if key.2.length < 16 then some ⟨"internal auth secrets must be at least 16 chars"⟩
  else none

theorem keyError_eq_none {key : String × String} :
    keyError key = none ↔ key.1 ≠ "" ∧ ':' ∉ key.1.toList ∧ 16 ≤ key.2.length := by
  unfold keyError
  split
  · rename_i hid
    exact ⟨nofun, fun h => absurd hid (not_or.mpr ⟨h.1, h.2.1⟩)⟩
  · rename_i hid
    split
    · rename_i hshort
      exact ⟨nofun, fun h => absurd hshort (Nat.not_lt.mpr h.2.2)⟩
    · rename_i hlong
      exact ⟨fun _ => ⟨(not_or.mp hid).1, (not_or.mp hid).2, Nat.not_lt.mp hlong⟩, fun _ => rfl⟩

structure GatewaySecret where
  secret : String
  maxSkewMs : Int
  replayTtlMs : Int
  headerName : String
  version : Version
  keyId : String
  keys : List (String × String)
  callerService : String
  audience : String
  allowedPathPrefixes : List String
  secret_length : 16 ≤ secret.length
  caller_binding : isBinding callerService = true
  audience_binding : isBinding audience = true
  keys_valid : ∀ key ∈ keys, keyError key = none
  active : ∃ key ∈ keys, key.1 = keyId

/-- `given or fallback` -/
def orElse (given fallback : String) : String := if given = "" then fallback else given

/-- The keys and the id of the one that signs. -/
def SecretArguments.resolveKeys (args : SecretArguments) (environ : String → String) :
    List (String × String) × String :=
  let keys := args.keys.getD (parseInternalAuthKeys (environ "INTERNAL_AUTH_KEYS"))
  let keyId := orElse (args.keyId.getD "")
    (orElse (strip (environ "INTERNAL_AUTH_ACTIVE_KEY_ID")) "local")
  match keys with
  | [] => ([(keyId, args.secret)], keyId)
  | first :: _ => if keys.any (·.1 == keyId) then (keys, keyId) else (keys, first.1)

theorem SecretArguments.resolveKeys_active (args : SecretArguments) (environ : String → String) :
    ∃ key ∈ (args.resolveKeys environ).1, key.1 = (args.resolveKeys environ).2 := by
  unfold resolveKeys
  dsimp only
  split
  · exact ⟨_, List.mem_singleton_self _, rfl⟩
  · rename_i first rest hkeys
    split
    · rename_i hactive
      obtain ⟨key, hmem, heq⟩ := List.any_eq_true.mp hactive
      exact ⟨key, hmem, beq_iff_eq.mp heq⟩
    · refine ⟨first, ?_, rfl⟩
      rw [hkeys]
      exact List.mem_cons_self

/-- `__post_init__`; `environ` is `os.getenv` with the default `""`. -/
def SecretArguments.postInit (args : SecretArguments) (environ : String → String) :
    Except ValueError GatewaySecret :=
  if hsecret : 16 ≤ args.secret.length then
    let version := lower (strip (orElse (args.version.getD "") "v2"))
    if version ≠ "v1" ∧ version ≠ "v2" then
      .error ⟨"INTERNAL_AUTH_VERSION must be 'v1' or 'v2'"⟩
    else if hcaller : isBinding (strip args.callerService) = true then
      if haudience : isBinding (strip args.audience) = true then
        match args.allowedPathPrefixes.mapM validatedPathPrefix with
        | none => .error ⟨"internal auth path prefixes must be absolute paths"⟩
        | some prefixes =>
            let resolved := args.resolveKeys environ
            match hkeys : resolved.1.findSome? keyError with
            | some error => .error error
            | none =>
                .ok
                  { secret := args.secret
                    maxSkewMs := args.maxSkewMs
                    replayTtlMs := args.replayTtlMs
                    headerName := args.headerName
                    version := if version = "v1" then .v1 else .v2
                    keyId := resolved.2
                    keys := resolved.1
                    callerService := strip args.callerService
                    audience := strip args.audience
                    allowedPathPrefixes := prefixes
                    secret_length := hsecret
                    caller_binding := hcaller
                    audience_binding := haudience
                    keys_valid := List.findSome?_eq_none_iff.mp hkeys
                    active := args.resolveKeys_active environ }
      else .error ⟨"audience must be a non-empty service identifier"⟩
    else .error ⟨"caller_service must be a non-empty service identifier"⟩
  else .error ⟨"internal service secret must be at least 16 chars"⟩

/-! ## The signature -/

/-- `hashlib.sha256` and `hmac` with it, as the digests they give. -/
structure Hashlib where
  sha256 : List UInt8 → List UInt8
  /-- `hmacSha256 key message` -/
  hmacSha256 : List UInt8 → List UInt8 → List UInt8

def utf8 (text : String) : List UInt8 := text.toUTF8.data.toList

inductive Body where
  | bytes (data : List UInt8)
  | text (data : String)

/-- The bytes that `_body_sha256` takes the digest of. -/
def Body.data : Option Body → List UInt8
  | none => []
  | some (.text data) => utf8 data
  | some (.bytes data) => data

def bodySha256 (lib : Hashlib) (body : Option Body) : String := hexEncode (lib.sha256 (Body.data body))

/-- The items of a mapping of headers; one of Starlette may give a name twice. -/
abbrev HeaderItems := List (String × String)

/-- The keyword arguments of `sign` and of `verify`. -/
structure SecretRequest where
  method : Option String := none
  path : Option String := none
  query : Option String := some ""
  body : Option Body := none
  identityHeaders : Option HeaderItems := none

def SIGNED_IDENTITY_HEADERS : List String :=
  ["x-user-id", "x-tenant-id", "x-user-tier", "x-user-type", "x-user-roles", "x-user-email",
   "x-user-name", "x-app-user-id", "x-app-tenant-id"]

/-- The signed identity by its lower-case names, sorted; of two headers with one
    name the last stands. -/
def normalizedIdentity (headers : Option HeaderItems) : HeaderItems :=
  KeyedList.collectByKey (((headers.getD []).filter fun header =>
    SIGNED_IDENTITY_HEADERS.contains (lower header.1)).map fun header => (lower header.1, header.2))

/-- `_canonical_identity_headers` -/
def canonicalIdentityHeaders (headers : Option HeaderItems) : String :=
  Fields.join '\n' ((normalizedIdentity headers).map fun header => header.1 ++ ":" ++ header.2)

/-- `InvalidGatewaySecret`, or the `TypeError` that `hmac.compare_digest` raises for
    text outside ASCII. -/
inductive SecretFailure where
  | invalidGatewaySecret (message : String)
  | typeError
  deriving DecidableEq, Repr

namespace GatewaySecret

def pathMatchesPrefix (path pathPrefix : String) : Bool :=
  if pathPrefix = "/" then ['/'].isPrefixOf path.toList
  else path == pathPrefix || (pathPrefix ++ "/").toList.isPrefixOf path.toList

def requireAllowedPath (config : GatewaySecret) (path : String) : Except SecretFailure Unit :=
  failIf (!config.allowedPathPrefixes.isEmpty &&
      !config.allowedPathPrefixes.any (pathMatchesPrefix path))
    (.invalidGatewaySecret "path outside key scope")

/-- The fields of the message that is signed. -/
def canonicalFields (config : GatewaySecret) (request : SecretRequest)
    (bodyHash requestId ts keyId : String) : List String :=
  [config.callerService, config.audience, upper (request.method.getD ""), request.path.getD "",
   request.query.getD "", bodyHash, canonicalIdentityHeaders request.identityHeaders, requestId, ts,
   keyId]

def hmacV2 (lib : Hashlib) (config : GatewaySecret) (request : SecretRequest)
    (bodyHash requestId ts keyId : String) : Except SecretFailure String := do
  let secret := (config.keys.lookup keyId).getD ""
  failIf (secret == "") (.invalidGatewaySecret "unknown key id")
  return hexEncode (lib.hmacSha256 (utf8 secret)
    (utf8 (Fields.join '\n' (config.canonicalFields request bodyHash requestId ts keyId))))

/-- `_hmac`, of the first version. -/
def hmacV1 (lib : Hashlib) (config : GatewaySecret) (requestId ts : String) : String :=
  hexEncode (lib.hmacSha256 (utf8 config.secret) (utf8 (requestId ++ ":" ++ ts)))

/-- `sign` at the instant `now`; `tokenHex` is what `secrets.token_hex(16)` would draw. -/
def sign (lib : Hashlib) (config : GatewaySecret) (now : Int) (tokenHex : String)
    (requestId : Option String) (request : SecretRequest) : Except SecretFailure String := do
  let rid := orElse (requestId.getD "") tokenHex
  let ts := toString now
  match config.version with
  | .v2 =>
      config.requireAllowedPath (request.path.getD "")
      let kid := orElse config.keyId "local"
      let bodyHash := bodySha256 lib request.body
      let sig ← config.hmacV2 lib request bodyHash rid ts kid
      return Fields.join ':' ["v2", kid, rid, ts, bodyHash, sig]
  | .v1 => return Fields.join ':' ["v1", rid, ts, config.hmacV1 lib rid ts]

/-- `ts_str` within the skew of the clock. -/
def checkTimestamp (config : GatewaySecret) (now : Int) (tsStr : String) :
    Except SecretFailure Unit := do
  let ts ← okOr (int tsStr) (.invalidGatewaySecret "bad timestamp")
  failIf (config.maxSkewMs < (now - ts).natAbs) (.invalidGatewaySecret "timestamp skew")

def checkDigest (expected given message : String) : Except SecretFailure Unit := do
  let same ← compareDigest .typeError expected given
  failIf (!same) (.invalidGatewaySecret message)

/-- `_verify_v2` up to the replay store. -/
def checkV2 (lib : Hashlib) (config : GatewaySecret) (now : Int) (parts : List String)
    (request : SecretRequest) : Except SecretFailure String := do
  config.requireAllowedPath (request.path.getD "")
  match parts with
  | [_, keyId, rid, tsStr, bodyHash, sig] =>
      config.checkTimestamp now tsStr
      checkDigest (bodySha256 lib request.body) bodyHash "body hash mismatch"
      let expected ← config.hmacV2 lib request bodyHash rid tsStr keyId
      checkDigest expected sig "signature mismatch"
      return rid
  | _ => .error (.invalidGatewaySecret "malformed header")

/-- The checks of `verify` for the first version, after its prefix. -/
def checkV1 (lib : Hashlib) (config : GatewaySecret) (now : Int) (parts : List String) :
    Except SecretFailure String := do
  match parts with
  | [_, rid, tsStr, sig] =>
      config.checkTimestamp now tsStr
      checkDigest (config.hmacV1 lib rid tsStr) sig "signature mismatch"
      return rid
  | _ => .error (.invalidGatewaySecret "malformed header")

/-- `verify` at the instant `now`, up to the replay store: the id to look up there. -/
def check (lib : Hashlib) (config : GatewaySecret) (now : Int) (headerValue : Option String)
    (request : SecretRequest) : Except SecretFailure String := do
  failIf (headerValue.getD "" == "") (.invalidGatewaySecret "missing header")
  let parts := Fields.split ':' (headerValue.getD "")
  let version := parts.headD ""
  failIf (version != "v1" && version != "v2") (.invalidGatewaySecret "malformed header")
  failIf (version != config.version.text) (.invalidGatewaySecret "version mismatch")
  if version = "v2" then config.checkV2 lib now parts request
  else config.checkV1 lib now parts

/-- `verify`, whose clock shows `now` at its checks and `storeNow` in the store. -/
def verify (lib : Hashlib) (config : GatewaySecret) (now storeNow : Int)
    (headerValue : Option String) (request : SecretRequest) (store : InMemoryReplayStore) :
    Except SecretFailure String × InMemoryReplayStore :=
  store.consume (.invalidGatewaySecret "replay detected") storeNow
    ((config.check lib now headerValue request).map fun rid => (rid, config.replayTtlMs, rid))

end GatewaySecret

end AiPlatform.Gateway
