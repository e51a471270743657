/-
  AiPlatform.Capability.LeaseIssuer

  The gateway's issuer of capability leases (`capability_leases.py`) against the
  checks that the contract crate makes of a lease it receives.

  Both sides check every field.  The gateway counts characters and lets DEL pass,
  the crate counts the bytes of the UTF-8 and takes DEL for a control character;
  the gateway's integers have any size, the crate's are 64 bits wide.
-/

import AiPlatform.Capability.PythonCanonical

namespace AiPlatform.Capability

open AiPlatform.Json AiPlatform.Checks

/-! ## The lease in Python -/

namespace Python

/-- `any(ord(char) < 32 for char in value)` -/
def hasControl (value : String) : Bool :=
  value.toList.any fun c => c.toNat < 32

/-- `_IDENTIFIER_RE` -/
def identifierChar (c : Char) : Bool :=
  isAsciiAlphanumeric c || c == '_' || c == '.' || c == '/' || c == ':' || c == '-'

/-- `_identifier` -/
def identifier (value : String) (maximum : Nat) : Bool :=
  0 < value.length && value.length ≤ maximum && !hasControl value
    && value.toList.all identifierChar

/-- The check of the tenant, the user and the session. -/
def text (value : String) (maximum : Nat) : Bool :=
  0 < value.length && value.length ≤ maximum && !hasControl value

def lowerHexdigit (c : Char) : Bool :=
  ('0' ≤ c && c ≤ '9') || ('a' ≤ c && c ≤ 'f')

/-- `_HASH_RE` -/
def isHash (value : String) : Bool :=
  "sha256:".toList.isPrefixOf value.toList && (value.toList.drop 7).length == 64
    && (value.toList.drop 7).all lowerHexdigit

/-- `RuntimeCapabilityLeaseV1` as the gateway holds it. -/
structure Lease where
  schemaVersion : String
  leaseId : String
  tenantId : String
  userId : String
  sessionId : String
  runId : String
  toolCallId : String
  attemptId : String
  capabilityId : String
  capabilityRevision : Int
  argumentsHash : String
  effect : CapabilityEffect
  approvalId : Option String
  issuedAtEpochMs : Int
  expiresAtEpochMs : Int
  nonce : String
  signature : String

def requireFields (check : String → Nat → Bool) :
    List (String × String × Nat) → Except LeaseError Unit
  | [] => .ok ()
  | (field, value, maximum) :: rest =>
      if check value maximum then requireFields check rest else .error ⟨"invalid_" ++ field⟩

/-- The approval an effect asks for; `approval_id or ""` is no identifier when it is
    absent. -/
def approvalAllowed (effect : CapabilityEffect) (approvalId : Option String) : Bool :=
  match effect with
  | .read => approvalId.isNone
  | .write | .unknown => identifier (approvalId.getD "") 64

def Lease.validate (lease : Lease) (now : Int) : Except LeaseError Unit := do
  failIf (lease.schemaVersion != RUNTIME_CAPABILITY_LEASE_SCHEMA_VERSION)
    ⟨"schema_mismatch_lease"⟩
  requireFields identifier
    [("lease_id", lease.leaseId, 64),
     ("run_id", lease.runId, 64),
     ("tool_call_id", lease.toolCallId, 160),
     ("attempt_id", lease.attemptId, 160),
     ("capability_id", lease.capabilityId, 160)]
  requireFields text
    [("tenant_id", lease.tenantId, 255),
     ("user_id", lease.userId, 255),
     ("session_id", lease.sessionId, 255)]
  failIf (lease.capabilityRevision < 1 || !isHash lease.argumentsHash) ⟨"invalid_lease_binding"⟩
  failIf (lease.issuedAtEpochMs ≥ lease.expiresAtEpochMs) ⟨"lease_expired"⟩
  failIf (now ≥ lease.expiresAtEpochMs) ⟨"lease_expired"⟩
  failIf (!(16 ≤ lease.nonce.length && lease.nonce.length ≤ 128) || hasControl lease.nonce
      || !isHash lease.signature) ⟨"invalid_lease_proof"⟩
  failIf (!approvalAllowed lease.effect lease.approvalId) ⟨"invalid_approval_id"⟩

/-- `to_dict` -/
def Lease.toDict (lease : Lease) : List (String × PyValue) :=
  [("schema_version", .str lease.schemaVersion),
   ("lease_id", .str lease.leaseId),
   ("tenant_id", .str lease.tenantId),
   ("user_id", .str lease.userId),
   ("session_id", .str lease.sessionId),
   ("run_id", .str lease.runId),
   ("tool_call_id", .str lease.toolCallId),
   ("attempt_id", .str lease.attemptId),
   ("capability_id", .str lease.capabilityId),
   ("capability_revision", .int lease.capabilityRevision),
   ("arguments_hash", .str lease.argumentsHash),
   ("effect", .str lease.effect.wireName),
   ("issued_at_epoch_ms", .int lease.issuedAtEpochMs),
   ("expires_at_epoch_ms", .int lease.expiresAtEpochMs),
   ("nonce", .str lease.nonce),
   ("signature", .str lease.signature)]
    ++ (lease.approvalId.map fun id => ("approval_id", PyValue.str id)).toList

/-- `_signed_payload` -/
def Lease.signedPayload (lease : Lease) : Except LeaseError (List UInt8) :=
  canonicalJson (.dict { lease with signature := "" }.toDict)

def canonicalJsonHash (crates : Crates) : PyValue → Except LeaseError String
  | .dict items => do
      let bytes ← canonicalJson (.dict items)
      return "sha256:" ++ hexEncode (crates.sha256 bytes)
  | _ => .error ⟨"invalid_arguments"⟩

/-! ## The issuer -/

/-- `CapabilityLeaseIssuer`, which can only be made with a long enough secret and a
    TTL within bounds. -/
structure CapabilityLeaseIssuer where
  secret : List UInt8
  ttlMs : Int
  secret_length : 32 ≤ secret.length
  ttl_positive : 1 ≤ ttlMs
  ttl_bounded : ttlMs ≤ 120000

def CapabilityLeaseIssuer.new (secret : List UInt8) (ttlMs : Int) :
    Except LeaseError CapabilityLeaseIssuer :=
  if hsecret : 32 ≤ secret.length then
    if httl : 1 ≤ ttlMs ∧ ttlMs ≤ 120000 then .ok ⟨secret, ttlMs, hsecret, httl.1, httl.2⟩
    else .error ⟨"lease_ttl_out_of_bounds"⟩
  else .error ⟨"lease_secret_too_short"⟩

/-- The keyword arguments of `issue`. -/
structure IssueArguments where
  tenantId : String
  userId : String
  sessionId : String
  runId : String
  toolCallId : String
  attemptId : String
  capabilityId : String
  capabilityRevision : Int
  arguments : PyValue
  effect : String
  approvalId : Option String
  nowEpochMs : Option Int
  leaseId : Option String
  nonce : Option String

/-- What `issue` reads of the clock and of `secrets`. -/
structure Environment where
  clockMs : Int
  tokenHex : String
  tokenUrlsafe : String

/-- `CapabilityEffect(effect)` -/
def parseEffect (effect : String) : Option CapabilityEffect :=
  if effect = "read" then some .read
  else if effect = "write" then some .write
  else if effect = "unknown" then some .unknown
  else none

/-- `given or fallback` -/
def orElse (given : Option String) (fallback : String) : String :=
  match given with
  | none => fallback
  | some value => if value = "" then fallback else value

def IssueArguments.now (request : IssueArguments) (env : Environment) : Int :=
  request.nowEpochMs.getD env.clockMs

/-- The lease before its signature is known. -/
def CapabilityLeaseIssuer.unsigned (issuer : CapabilityLeaseIssuer) (request : IssueArguments)
    (env : Environment) (effect : CapabilityEffect) (argumentsHash : String) : Lease :=
  { schemaVersion := RUNTIME_CAPABILITY_LEASE_SCHEMA_VERSION
    leaseId := orElse request.leaseId env.tokenHex
    tenantId := request.tenantId
    userId := request.userId
    sessionId := request.sessionId
    runId := request.runId
    toolCallId := request.toolCallId
    attemptId := request.attemptId
    capabilityId := request.capabilityId
    capabilityRevision := request.capabilityRevision
    argumentsHash := argumentsHash
    effect := effect
    approvalId := request.approvalId
    issuedAtEpochMs := request.now env
    expiresAtEpochMs := request.now env + issuer.ttlMs
    nonce := orElse request.nonce env.tokenUrlsafe
    signature := "sha256:" ++ String.ofList (List.replicate 64 '0') }

def CapabilityLeaseIssuer.issue (crates : Crates) (issuer : CapabilityLeaseIssuer)
    (request : IssueArguments) (env : Environment) : Except LeaseError Lease := do
  match parseEffect request.effect with
  | none => .error ⟨"invalid_effect"⟩
  | some effect =>
      let argumentsHash ← canonicalJsonHash crates request.arguments
      let lease := issuer.unsigned request env effect argumentsHash
      lease.validate (request.now env)
      let payload ← lease.signedPayload
      return { lease with signature := "sha256:" ++ hexEncode (crates.hmacSha256 issuer.secret payload) }

/-- A `u64` of the crate; what is negative or too large is no number of that type. -/
def wireU64 (n : Int) : Option Nat :=
  if 0 ≤ n ∧ n < 2 ^ 64 then some n.toNat else none

/-- The lease as the crate reads it. -/
def Lease.receive (lease : Lease) : Option RuntimeCapabilityLeaseV1 := do
  let capabilityRevision ← wireU64 lease.capabilityRevision
  let issuedAtEpochMs ← wireU64 lease.issuedAtEpochMs
  let expiresAtEpochMs ← wireU64 lease.expiresAtEpochMs
  return { schemaVersion := lease.schemaVersion
           leaseId := lease.leaseId
           tenantId := lease.tenantId
           userId := lease.userId
           sessionId := lease.sessionId
           runId := lease.runId
           toolCallId := lease.toolCallId
           attemptId := lease.attemptId
           capabilityId := lease.capabilityId
           capabilityRevision := capabilityRevision
           argumentsHash := lease.argumentsHash
           effect := lease.effect
           approvalId := lease.approvalId
           issuedAtEpochMs := issuedAtEpochMs
           expiresAtEpochMs := expiresAtEpochMs
           nonce := lease.nonce
           signature := lease.signature }

end Python

/-! ## Characters and bytes -/

theorem toNat_lt_of_isAsciiHexdigit {c : Char} (h : isAsciiHexdigit c = true) : c.toNat < 128 := by
  simp only [isAsciiHexdigit, Bool.or_eq_true, Bool.and_eq_true, decide_eq_true_eq,
    Char.le_def, UInt32.le_iff_toNat_le] at h
  have hval : c.val.toNat = c.toNat := rfl
  have ha : ('f' : Char).val.toNat = 102 := rfl
  have hb : ('F' : Char).val.toNat = 70 := rfl
  have hc : ('9' : Char).val.toNat = 57 := rfl
  omega

theorem ne_empty_iff {s : String} : s ≠ "" ↔ 0 < s.length := by
  rw [Nat.pos_iff_ne_zero, Ne, Ne, String.length_eq_zero_iff]

namespace Python

/-- What both sides take for an identifier character lies between `-` and `z`. -/
theorem identifierChar_bounds {c : Char} (h : identifierChar c = true) :
    45 ≤ c.toNat ∧ c.toNat ≤ 122 := by
  simp only [identifierChar, isAsciiAlphanumeric, Bool.or_eq_true, Bool.and_eq_true,
    decide_eq_true_eq, beq_iff_eq, Char.le_def, UInt32.le_iff_toNat_le] at h
  have hval : c.val.toNat = c.toNat := rfl
  have ha : ('a' : Char).val.toNat = 97 := rfl
  have hz : ('z' : Char).val.toNat = 122 := rfl
  have hA : ('A' : Char).val.toNat = 65 := rfl
  have hZ : ('Z' : Char).val.toNat = 90 := rfl
  have h0 : ('0' : Char).val.toNat = 48 := rfl
  have h9 : ('9' : Char).val.toNat = 57 := rfl
  rcases h with ((((((h | h) | h) | rfl) | rfl) | rfl) | rfl) | rfl
  all_goals first | omega | decide

theorem not_control_of_bounds {c : Char} (h : 45 ≤ c.toNat ∧ c.toNat ≤ 122) :
    isAsciiControl c = false := by
  simp only [isAsciiControl, Bool.or_eq_false_iff, decide_eq_false_iff_not, beq_eq_false_iff_ne]
  omega

/-- An identifier is ASCII, so both sides measure it alike. -/
theorem identifier_received {value : String} {maximum : Nat}
    (h : identifier value maximum = true) : Capability.identifier value maximum = true := by
  simp only [identifier, Bool.and_eq_true, decide_eq_true_eq, List.all_eq_true] at h
  obtain ⟨⟨⟨hpos, hlen⟩, -⟩, hchars⟩ := h
  have hbounds : ∀ c ∈ value.toList, 45 ≤ c.toNat ∧ c.toNat ≤ 122 := fun c hc =>
    identifierChar_bounds (hchars c hc)
  have hsize : value.utf8ByteSize = value.length := utf8ByteSize_of_ascii fun c hc => by
    have := (hbounds c hc).2
    omega
  have hclean : value.toList.any isAsciiControl = false :=
    List.any_eq_false.mpr fun c hc => by rw [not_control_of_bounds (hbounds c hc)]; decide
  simp only [Capability.identifier, boundedText, Bool.and_eq_true, bne_iff_ne, decide_eq_true_eq,
    hsize, hclean, List.all_eq_true]
  refine ⟨⟨⟨ne_empty_iff.mpr hpos, hlen⟩, rfl⟩, fun c hc => ?_⟩
  have hchar := hchars c hc
  simp only [identifierChar, Bool.or_eq_true] at hchar ⊢
  tauto

/-- Free of the control character that the gateway does not look for. -/
def NoDelete (value : String) : Prop := ∀ c ∈ value.toList, c.toNat ≠ 127

theorem noDelete_of_all {value : String}
    (h : value.toList.all (fun c => c.toNat != 127) = true) : NoDelete value :=
  fun c hc => bne_iff_ne.mp (List.all_eq_true.mp h c hc)

theorem noControl_iff {value : String} (h : hasControl value = false) :
    value.toList.any isAsciiControl = false ↔ NoDelete value := by
  simp only [hasControl, List.any_eq_false, decide_eq_true_eq] at h
  simp only [List.any_eq_false, isAsciiControl, Bool.or_eq_true, decide_eq_true_eq, beq_iff_eq,
    not_or, NoDelete]
  exact forall₂_congr fun c hc => and_iff_right (h c hc)

/-- A text that the gateway takes is one for the crate when its bytes fit and it has
    no DEL. -/
theorem boundedText_iff {value : String} {maximum : Nat} (hne : value ≠ "")
    (h : hasControl value = false) :
    boundedText value maximum = true ↔ value.utf8ByteSize ≤ maximum ∧ NoDelete value := by
  simp only [boundedText, Bool.and_eq_true, bne_iff_ne, decide_eq_true_eq, Bool.not_eq_true',
    noControl_iff h]
  exact ⟨fun hall => ⟨hall.1.2, hall.2⟩, fun hall => ⟨⟨hne, hall.1⟩, hall.2⟩⟩

theorem isSha256_of_isHash {value : String} (h : isHash value = true) :
    isSha256 value = true := by
  simp only [isHash, Bool.and_eq_true, beq_iff_eq, List.all_eq_true] at h
  obtain ⟨⟨hmark, hlen⟩, hchars⟩ := h
  have hdigits : ∀ c ∈ value.toList.drop 7, isAsciiHexdigit c = true := by
    intro c hc
    have hlower := hchars c hc
    simp only [lowerHexdigit, isAsciiHexdigit, Bool.or_eq_true] at hlower ⊢
    tauto
  obtain ⟨rest, hrest⟩ := List.isPrefixOf_iff_prefix.mp hmark
  have hdrop : value.toList.drop 7 = rest := by rw [← hrest]; rfl
  rw [hdrop] at hlen hdigits
  have hascii : ∀ c ∈ value.toList, c.toNat < 128 := by
    rw [← hrest]
    intro c hc
    have hfirst : "sha256:".toList.all (fun c => c.toNat < 128) = true := by decide
    rcases List.mem_append.mp hc with hhead | htail
    · exact of_decide_eq_true (List.all_eq_true.mp hfirst c hhead)
    · exact toNat_lt_of_isAsciiHexdigit (hdigits c htail)
  have hsize : value.utf8ByteSize = 71 := by
    rw [utf8ByteSize_of_ascii hascii, ← String.length_toList, ← hrest, List.length_append, hlen]
    rfl
  simp only [isSha256, Bool.and_eq_true, beq_iff_eq, List.all_eq_true, hdrop]
  exact ⟨⟨hsize, hmark⟩, hdigits⟩

end Python

/-! ## Digests -/

/-- What is relied on of SHA-256 and of HMAC with it. -/
structure Digests (crates : Crates) : Prop where
  sha256 : ∀ bytes, (crates.sha256 bytes).length = 32
  hmacSha256 : ∀ key bytes, (crates.hmacSha256 key bytes).length = 32

theorem hexDigit_lower {n : Nat} (hn : n < 16) : Python.lowerHexdigit (hexDigit n) = true := by
  interval_cases n <;> rfl

theorem hexValueOf_hexDigit {n : Nat} (hn : n < 16) : hexValueOf (hexDigit n) = some n := by
  interval_cases n <;> rfl

theorem hexDecode_hexEncode (bytes : List UInt8) :
    hexDecode (hexEncode bytes).toList = some bytes := by
  rw [hexEncode, String.toList_ofList]
  induction bytes with
  | nil => rfl
  | cons b rest ih =>
    have hb := b.toNat_lt
    have hhigh : b.toNat / 16 < 16 := by omega
    have hlow : b.toNat % 16 < 16 := by omega
    rw [List.flatMap_cons, List.cons_append, List.cons_append, List.nil_append, hexDecode,
      hexValueOf_hexDigit hhigh, hexValueOf_hexDigit hlow, ih]
    simp only [Nat.div_add_mod, UInt8.ofNat_toNat]

theorem length_hexEncode (bytes : List UInt8) :
    (hexEncode bytes).toList.length = 2 * bytes.length := by
  rw [hexEncode, String.toList_ofList, List.length_flatMap]
  simp [Nat.mul_comm]

/-- The text after the mark of a digest. -/
theorem drop_digest (bytes : List UInt8) :
    ("sha256:" ++ hexEncode bytes).toList.drop 7 = (hexEncode bytes).toList := by
  rw [String.toList_append]
  rfl

theorem isHash_digest {bytes : List UInt8} (h : bytes.length = 32) :
    Python.isHash ("sha256:" ++ hexEncode bytes) = true := by
  have hmark : "sha256:".toList.isPrefixOf ("sha256:" ++ hexEncode bytes).toList = true := by
    rw [String.toList_append]
    exact List.isPrefixOf_iff_prefix.mpr (List.prefix_append _ _)
  simp only [Python.isHash, Bool.and_eq_true, beq_iff_eq, List.all_eq_true, drop_digest,
    length_hexEncode, h, hmark, true_and]
  intro c hc
  obtain ⟨n, hn, rfl⟩ := mem_hexEncode hc
  exact hexDigit_lower hn

/-! ## The two validations -/

theorem requireFields_eq_ok {check : String → Nat → Bool} {fields : List (String × String × Nat)}
    {u : Unit} :
    requireFields check fields = .ok u ↔ ∀ f ∈ fields, check f.2.1 f.2.2 = true := by
  induction fields with
  | nil => simp [requireFields]
  | cons f rest ih =>
    rw [requireFields, List.forall_mem_cons, ← ih]
    split <;> simp [*]

theorem Python.requireFields_eq_ok {check : String → Nat → Bool}
    {fields : List (String × String × Nat)} {u : Unit} :
    Python.requireFields check fields = .ok u ↔ ∀ f ∈ fields, check f.2.1 f.2.2 = true := by
  induction fields with
  | nil => simp [Python.requireFields]
  | cons f rest ih =>
    rw [Python.requireFields, List.forall_mem_cons, ← ih]
    split <;> simp [*]

/-- What the crate asks of a lease, field by field. -/
structure RuntimeCapabilityLeaseV1.Valid (lease : RuntimeCapabilityLeaseV1) (nowEpochMs : Nat) :
    Prop where
  schema : lease.schemaVersion = RUNTIME_CAPABILITY_LEASE_SCHEMA_VERSION
  scope : ∀ value ∈ [lease.tenantId, lease.userId, lease.sessionId], boundedText value 255 = true
  ids : ∀ f ∈ [(lease.leaseId, 64), (lease.runId, 64), (lease.toolCallId, 160),
    (lease.attemptId, 160), (lease.capabilityId, 160)], identifier f.1 f.2 = true
  revision : lease.capabilityRevision ≠ 0
  hash : isSha256 lease.argumentsHash = true
  issued : lease.issuedAtEpochMs < lease.expiresAtEpochMs
  unexpired : nowEpochMs < lease.expiresAtEpochMs
  ttl : lease.expiresAtEpochMs - lease.issuedAtEpochMs ≤ MAX_CAPABILITY_LEASE_TTL_MS
  nonce : boundedText lease.nonce 128 = true
  nonce_length : 16 ≤ lease.nonce.utf8ByteSize
  signature : isSha256 lease.signature = true
  approval : approvalAllowed lease.effect lease.approvalId = true

theorem RuntimeCapabilityLeaseV1.validate_eq_ok {lease : RuntimeCapabilityLeaseV1}
    {nowEpochMs : Nat} : lease.validate nowEpochMs = .ok () ↔ lease.Valid nowEpochMs := by
  simp only [RuntimeCapabilityLeaseV1.validate, validateScope, bind_eq_ok, failIf_eq_ok,
    requireFields_eq_ok, RuntimeCapabilityLeaseV1.scope, List.forall_mem_cons, List.not_mem_nil,
    false_implies, implies_true, and_true, exists_and_left, exists_const, bne_eq_false_iff_eq,
    Bool.or_eq_false_iff, Bool.not_eq_false', decide_eq_false_iff_not, beq_eq_false_iff_ne,
    Nat.not_le, Nat.not_lt, ge_iff_le, gt_iff_lt]
  constructor
  · rintro ⟨hschema, ⟨htenant, huser, hsession⟩, hids, ⟨hrevision, hhash⟩,
      ⟨⟨hissued, hunexpired⟩, httl⟩, ⟨⟨hnonce, hlength⟩, hsignature⟩, happroval⟩
    exact ⟨hschema, by simp [*], by simpa using hids, hrevision, hhash, hissued, hunexpired, httl,
      hnonce, hlength, hsignature, happroval⟩
  · intro h
    exact ⟨h.schema, by simpa using h.scope, by simpa using h.ids, ⟨h.revision, h.hash⟩,
      ⟨⟨h.issued, h.unexpired⟩, h.ttl⟩, ⟨⟨h.nonce, h.nonce_length⟩, h.signature⟩, h.approval⟩

namespace Python

/-- What the gateway asks of a lease, field by field. -/
structure Lease.Valid (lease : Lease) (now : Int) : Prop where
  schema : lease.schemaVersion = RUNTIME_CAPABILITY_LEASE_SCHEMA_VERSION
  ids : ∀ f ∈ [(lease.leaseId, 64), (lease.runId, 64), (lease.toolCallId, 160),
    (lease.attemptId, 160), (lease.capabilityId, 160)], identifier f.1 f.2 = true
  scope : ∀ value ∈ [lease.tenantId, lease.userId, lease.sessionId], text value 255 = true
  revision : 1 ≤ lease.capabilityRevision
  hash : isHash lease.argumentsHash = true
  issued : lease.issuedAtEpochMs < lease.expiresAtEpochMs
  unexpired : now < lease.expiresAtEpochMs
  nonce_length : 16 ≤ lease.nonce.length ∧ lease.nonce.length ≤ 128
  nonce : hasControl lease.nonce = false
  signature : isHash lease.signature = true
  approval : approvalAllowed lease.effect lease.approvalId = true

theorem Lease.validate_eq_ok {lease : Lease} {now : Int} :
    lease.validate now = .ok () ↔ lease.Valid now := by
  simp only [Lease.validate, bind_eq_ok, failIf_eq_ok, requireFields_eq_ok, List.forall_mem_cons,
    List.not_mem_nil, false_implies, implies_true, and_true, exists_and_left, exists_const,
    bne_eq_false_iff_eq, Bool.or_eq_false_iff, Bool.not_eq_false', Bool.and_eq_true,
    decide_eq_true_eq, decide_eq_false_iff_not, Int.not_le, Int.not_lt, ge_iff_le]
  constructor
  · rintro ⟨hschema, hids, ⟨htenant, huser, hsession⟩, ⟨hrevision, hhash⟩, hissued, hunexpired,
      ⟨⟨hlength, hnonce⟩, hsignature⟩, happroval⟩
    exact ⟨hschema, by simpa using hids, by simp [*], hrevision, hhash, hissued, hunexpired,
      hlength, hnonce, hsignature, happroval⟩
  · intro h
    exact ⟨h.schema, by simpa using h.ids, by simpa using h.scope, ⟨h.revision, h.hash⟩, h.issued,
      h.unexpired, ⟨⟨h.nonce_length, h.nonce⟩, h.signature⟩, h.approval⟩

theorem approvalAllowed_received {effect : CapabilityEffect} {approvalId : Option String}
    (h : approvalAllowed effect approvalId = true) :
    Capability.approvalAllowed effect approvalId = true := by
  cases approvalId with
  | none =>
    cases effect with
    | read => rfl
    | write | unknown => exact absurd h (by decide)
  | some id =>
    cases effect with
    | read => exact h
    | write | unknown => exact identifier_received h

/-! ## The signed bytes -/

theorem wireU64_eq_some {n : Int} {m : Nat} : wireU64 n = some m ↔ n = m ∧ m < 2 ^ 64 := by
  rw [wireU64]
  split
  · rw [Option.some.injEq]
    omega
  · exact ⟨nofun, fun h => by omega⟩

/-- The numbers of the crate's lease are those of the gateway's, its other fields are
    the same. -/
theorem Lease.receive_eq_some {lease : Lease} {received : RuntimeCapabilityLeaseV1} :
    lease.receive = some received ↔
      lease = { schemaVersion := received.schemaVersion
                leaseId := received.leaseId
                tenantId := received.tenantId
                userId := received.userId
                sessionId := received.sessionId
                runId := received.runId
                toolCallId := received.toolCallId
                attemptId := received.attemptId
                capabilityId := received.capabilityId
                capabilityRevision := received.capabilityRevision
                argumentsHash := received.argumentsHash
                effect := received.effect
                approvalId := received.approvalId
                issuedAtEpochMs := received.issuedAtEpochMs
                expiresAtEpochMs := received.expiresAtEpochMs
                nonce := received.nonce
                signature := received.signature } ∧
      received.capabilityRevision < 2 ^ 64 ∧ received.issuedAtEpochMs < 2 ^ 64 ∧
        received.expiresAtEpochMs < 2 ^ 64 := by
  simp only [Lease.receive, Option.bind_eq_bind, Option.bind_eq_some_iff, wireU64_eq_some,
    Option.pure_def, Option.some.injEq]
  constructor
  · rintro ⟨revision, ⟨hrevision, hrev⟩, issued, ⟨hissued, hiss⟩, expires, ⟨hexpires, hexp⟩, rfl⟩
    refine ⟨?_, hrev, hiss, hexp⟩
    cases lease
    simp_all
  · rintro ⟨rfl, hrev, hiss, hexp⟩
    exact ⟨_, ⟨rfl, hrev⟩, _, ⟨rfl, hiss⟩, _, ⟨rfl, hexp⟩, rfl⟩

end Python

/-- The members of a lease in the order of its fields. -/
def RuntimeCapabilityLeaseV1.members (lease : RuntimeCapabilityLeaseV1) : List (String × Value) :=
  [("schema_version", .string lease.schemaVersion),
   ("lease_id", .string lease.leaseId),
   ("tenant_id", .string lease.tenantId),
   ("user_id", .string lease.userId),
   ("session_id", .string lease.sessionId),
   ("run_id", .string lease.runId),
   ("tool_call_id", .string lease.toolCallId),
   ("attempt_id", .string lease.attemptId),
   ("capability_id", .string lease.capabilityId),
   ("capability_revision", wireNat lease.capabilityRevision),
   ("arguments_hash", .string lease.argumentsHash),
   ("effect", .string lease.effect.wireName)]
  ++ (lease.approvalId.map fun id => ("approval_id", Value.string id)).toList
  ++ [("issued_at_epoch_ms", wireNat lease.issuedAtEpochMs),
      ("expires_at_epoch_ms", wireNat lease.expiresAtEpochMs),
      ("nonce", .string lease.nonce),
      ("signature", .string lease.signature)]

/-- The bytes that are signed when the members are listed in this order. -/
def RuntimeCapabilityLeaseV1.signedBytes (order : MapOrder) (floatText : UInt64 → List Char)
    (lease : RuntimeCapabilityLeaseV1) : List UInt8 :=
  jsonBytes floatText (.object (order.collect { lease with signature := "" }.members))

section

variable {order : MapOrder} {floatText : UInt64 → List Char} {crates : Crates}
  {lease : RuntimeCapabilityLeaseV1}

theorem RuntimeCapabilityLeaseV1.toValue_eq :
    lease.toValue crates = .object (crates.collect lease.members) := rfl

theorem RuntimeCapabilityLeaseV1.nodup_members : (KeyedList.Keys lease.members).Nodup := by
  cases happroval : lease.approvalId with
  | none => simp [members, KeyedList.Keys, happroval]
  | some id => simp [members, KeyedList.Keys, happroval]

theorem RuntimeCapabilityLeaseV1.canonicalize_member {m : String × Value}
    (h : m ∈ lease.members) : canonicalize crates m.2 = m.2 := by
  simp only [members, List.mem_append, Option.mem_toList, Option.map_eq_some_iff, List.mem_cons,
    List.not_mem_nil, or_false] at h
  rcases h with (h | ⟨id, -, rfl⟩) | h
  · rcases h with rfl | rfl | rfl | rfl | rfl | rfl | rfl | rfl | rfl | rfl | rfl | rfl <;> rfl
  · rfl
  · rcases h with rfl | rfl | rfl | rfl <;> rfl

/-- The map of the members is canonical already. -/
theorem canonicalize_collect (hcollect : crates.collect = order.collect)
    {members : List (String × Value)} (hkeys : (KeyedList.Keys members).Nodup)
    (hflat : ∀ m ∈ members, canonicalize crates m.2 = m.2) :
    canonicalize crates (.object (order.collect members)) = .object (order.collect members) := by
  have hperm := collect_perm order hkeys
  have hsame : canonicalizeMembers crates (order.collect members) = order.collect members := by
    rw [canonicalizeMembers_eq]
    refine (List.map_congr_left fun m hm => ?_).trans (List.map_id _)
    rw [hflat m (hperm.subset hm)]
    rfl
  rw [canonicalize, hcollect, hsame]
  cases order with
  | byKey => exact congrArg _ (KeyedList.collectByKey_of_sorted (KeyedList.sorted_collectByKey _))
  | byInsertion =>
    exact congrArg _ (KeyedList.collectLast_eq ((hperm.map Prod.fst).nodup_iff.mpr hkeys))

theorem RuntimeCapabilityLeaseV1.signingPayload_eq (h : SerdeJson order floatText crates) :
    lease.signingPayload crates = .ok (lease.signedBytes order floatText) := by
  rw [signingPayload, toValue_eq, h.collect,
    canonicalize_collect h.collect nodup_members fun _ => canonicalize_member, toVec_eq h]
  rfl

theorem document_wireNat {n : Nat} (hn : n < 2 ^ 64) :
    document floatText (wireNat n) = PyValue.document (.int n) := by
  have hsize : n < UInt64.size := hn
  rw [wireNat, document, numberText, UInt64.toNat_ofNat_of_lt' hsize, PyValue.document]

namespace Python

theorem append_singleton_perm {α : Type} (a b : List α) (x : α) :
    (a ++ b ++ [x]).Perm (a ++ ([x] ++ b)) := by
  rw [List.append_assoc]
  exact List.Perm.append_left a List.perm_append_comm

/-- The gateway writes the members of the crate's lease, listed another way. -/
theorem documents_perm (floatText : UInt64 → List Char) {sender : Lease}
    (h : sender.receive = some lease) :
    (sender.toDict.map fun m => (m.1, PyValue.document m.2)).Perm
      (lease.members.map fun m => (m.1, document floatText m.2)) := by
  obtain ⟨rfl, hrevision, hissued, hexpires⟩ := Lease.receive_eq_some.mp h
  simp only [Lease.toDict, RuntimeCapabilityLeaseV1.members, List.map_append, List.map_cons,
    List.map_nil, document_wireNat hrevision, document_wireNat hissued, document_wireNat hexpires]
  rw [List.append_assoc]
  cases lease.approvalId with
  | none => exact .refl _
  | some id =>
    simp only [Option.map_some, Option.toList_some, List.map_cons, List.map_nil]
    exact append_singleton_perm [_, _, _, _, _, _, _, _, _, _, _, _] [_, _, _, _] _

theorem Lease.receive_signature (sender : Lease) (signature : String) :
    { sender with signature := signature }.receive =
      sender.receive.map fun received => { received with signature := signature } := by
  unfold Lease.receive
  cases wireU64 sender.capabilityRevision with
  | none => rfl
  | some revision =>
    cases wireU64 sender.issuedAtEpochMs with
    | none => rfl
    | some issued => cases wireU64 sender.expiresAtEpochMs <;> rfl

theorem Lease.allFinite_toDict (sender : Lease) :
    (PyValue.dict sender.toDict).allFinite = true := by
  cases happroval : sender.approvalId <;>
    simp [toDict, happroval, PyValue.allFinite, PyValue.allFiniteMembers]

/-- What the gateway signs are the members of the crate's lease by key. -/
theorem Lease.signedPayload_eq {sender : Lease} (h : sender.receive = some lease) :
    sender.signedPayload = .ok (lease.signedBytes .byKey floatText) := by
  have hunsigned : { sender with signature := "" }.receive =
      some { lease with signature := "" } := by
    rw [receive_signature, h]
    rfl
  have hperm := documents_perm floatText hunsigned
  have hnodup := ({ lease with signature := "" } : RuntimeCapabilityLeaseV1).nodup_members
  have hkeys : (KeyedList.Keys { sender with signature := "" }.toDict).Nodup := by
    have hmaps := hperm.map Prod.fst
    rw [List.map_map, List.map_map] at hmaps
    exact hmaps.nodup_iff.mpr hnodup
  have hfinite := { sender with signature := "" }.allFinite_toDict
  have hdocument : PyValue.document (.dict { sender with signature := "" }.toDict) =
      document floatText (.object (KeyedList.collectByKey { lease with signature := "" }.members)) := by
    have hcollect := (KeyedList.collectByKey_eq_iff (by
      rw [KeyedList.Keys, List.map_map]
      exact hkeys) (by
      rw [KeyedList.Keys, List.map_map]
      exact hnodup)).mpr hperm
    rw [KeyedList.collectByKey_map, KeyedList.collectByKey_map] at hcollect
    have htexts := congrArg (List.map fun m => (m.1.toList, m.2)) hcollect
    rw [List.map_map, List.map_map] at htexts
    rw [PyValue.document_dict hkeys, document, documentMembers_eq]
    exact congrArg _ htexts
  rw [signedPayload, canonicalJson, if_pos hfinite, hdocument]
  rfl

end Python

theorem RuntimeCapabilityLeaseV1.verifySignature_eq_ok (h : SerdeJson order floatText crates)
    {secret mac : List UInt8} (hsecret : 32 ≤ secret.length) (hmac : mac.length = 32)
    (hsignature : lease.signature = "sha256:" ++ hexEncode mac) :
    lease.verifySignature crates secret = .ok () ↔
      crates.hmacSha256 secret (lease.signedBytes order floatText) = mac := by
  have hshape : isSha256 lease.signature = true := by
    rw [hsignature]
    exact Python.isSha256_of_isHash (isHash_digest hmac)
  have hlength : ¬ secret.length < 32 := by omega
  have hdecode : hexDecode (lease.signature.toList.drop 7) = some mac := by
    rw [hsignature, drop_digest, hexDecode_hexEncode]
  simp only [verifySignature, bind_eq_ok, failIf_eq_ok, signingPayload_eq h, hshape, hdecode,
    hlength, Except.ok.injEq, bne_eq_false_iff_eq, decide_false, Bool.not_true, Bool.or_self,
    exists_const, exists_eq_left', true_and]

end

/-! ## Issued leases -/

namespace Python

/-- The crate takes the lease, at every instant between its two times, and its
    signature. -/
def Verifies (crates : Crates) (secret : List UInt8) (lease : Lease) : Prop :=
  ∃ received, lease.receive = some received ∧
    (∀ now, received.issuedAtEpochMs ≤ now → now < received.expiresAtEpochMs →
      received.validate now = .ok ()) ∧
    received.verifySignature crates secret = .ok ()

/-- The texts fit in bytes too and have no DEL, the numbers fit in 64 bits. -/
structure Fits (issuer : CapabilityLeaseIssuer) (request : IssueArguments) (env : Environment) :
    Prop where
  scope : ∀ value ∈ [request.tenantId, request.userId, request.sessionId],
    value.utf8ByteSize ≤ 255 ∧ NoDelete value
  nonce : (orElse request.nonce env.tokenUrlsafe).utf8ByteSize ≤ 128 ∧
    NoDelete (orElse request.nonce env.tokenUrlsafe)
  revision : request.capabilityRevision < 2 ^ 64
  issued : 0 ≤ request.now env
  expires : request.now env + issuer.ttlMs < 2 ^ 64

/-- HMAC gives the claims one code, listed by field or by key. -/
def SameMac (floatText : UInt64 → List Char) (crates : Crates) (issuer : CapabilityLeaseIssuer)
    (request : IssueArguments) (env : Environment) : Prop :=
  ∀ effect argumentsHash claims, parseEffect request.effect = some effect →
    canonicalJsonHash crates request.arguments = .ok argumentsHash →
    (issuer.unsigned request env effect argumentsHash).receive = some claims →
    crates.hmacSha256 issuer.secret (claims.signedBytes .byInsertion floatText) =
      crates.hmacSha256 issuer.secret (claims.signedBytes .byKey floatText)

section

variable {order : MapOrder} {floatText : UInt64 → List Char} {crates : Crates}
  {issuer : CapabilityLeaseIssuer} {request : IssueArguments} {env : Environment} {lease : Lease}

/-- An issued lease is one that the gateway holds valid, with its signature put in. -/
theorem issue_eq_ok (h : issuer.issue crates request env = .ok lease) :
    ∃ effect argumentsHash payload, parseEffect request.effect = some effect ∧
      canonicalJsonHash crates request.arguments = .ok argumentsHash ∧
      (issuer.unsigned request env effect argumentsHash).Valid (request.now env) ∧
      (issuer.unsigned request env effect argumentsHash).signedPayload = .ok payload ∧
      lease = { issuer.unsigned request env effect argumentsHash with
        signature := "sha256:" ++ hexEncode (crates.hmacSha256 issuer.secret payload) } := by
  unfold CapabilityLeaseIssuer.issue at h
  cases heffect : parseEffect request.effect with
  | none =>
    rw [heffect] at h
    cases h
  | some effect =>
    rw [heffect] at h
    simp only [bind_eq_ok, pure_eq_ok] at h
    obtain ⟨argumentsHash, hhash, ⟨⟩, hvalid, payload, hpayload, rfl⟩ := h
    exact ⟨effect, argumentsHash, payload, rfl, hhash, Lease.validate_eq_ok.mp hvalid, hpayload,
      rfl⟩

/-- The claims can be read by the crate when their numbers fit. -/
theorem receive_unsigned {effect : CapabilityEffect} {argumentsHash : String}
    (hvalid : (issuer.unsigned request env effect argumentsHash).Valid (request.now env)) :
    (∃ claims, (issuer.unsigned request env effect argumentsHash).receive = some claims) ↔
      request.capabilityRevision < 2 ^ 64 ∧ 0 ≤ request.now env ∧
        request.now env + issuer.ttlMs < 2 ^ 64 := by
  have hrevision : 1 ≤ request.capabilityRevision := hvalid.revision
  have hissued : request.now env < request.now env + issuer.ttlMs := hvalid.issued
  constructor
  · rintro ⟨claims, hclaims⟩
    obtain ⟨heq, hrev, hiss, hexp⟩ := Lease.receive_eq_some.mp hclaims
    have h1 : request.capabilityRevision = claims.capabilityRevision :=
      congrArg Lease.capabilityRevision heq
    have h2 : request.now env = claims.issuedAtEpochMs := congrArg Lease.issuedAtEpochMs heq
    have h3 : request.now env + issuer.ttlMs = claims.expiresAtEpochMs :=
      congrArg Lease.expiresAtEpochMs heq
    omega
  · rintro ⟨hrev, hiss, hexp⟩
    have h1 : wireU64 request.capabilityRevision = some request.capabilityRevision.toNat :=
      if_pos ⟨by omega, hrev⟩
    have h2 : wireU64 (request.now env) = some (request.now env).toNat :=
      if_pos ⟨hiss, by omega⟩
    have h3 : wireU64 (request.now env + issuer.ttlMs) =
        some (request.now env + issuer.ttlMs).toNat := if_pos ⟨by omega, hexp⟩
    simp only [Lease.receive, CapabilityLeaseIssuer.unsigned, h1, h2, h3]
    exact ⟨_, rfl⟩

/-- Before it expires, a lease that the gateway holds valid is valid for the crate
    when its texts fit. -/
theorem validate_received {sender : Lease} {claims : RuntimeCapabilityLeaseV1} {start : Int}
    (hvalid : sender.Valid start) (hclaims : sender.receive = some claims)
    (httl : sender.expiresAtEpochMs ≤ sender.issuedAtEpochMs + 120000) {signature : String}
    (hsignature : isHash signature = true) {now : Nat} (hnow : now < claims.expiresAtEpochMs) :
    ({ claims with signature := signature } : RuntimeCapabilityLeaseV1).validate now = .ok () ↔
      (∀ value ∈ [sender.tenantId, sender.userId, sender.sessionId],
        value.utf8ByteSize ≤ 255 ∧ NoDelete value) ∧
      sender.nonce.utf8ByteSize ≤ 128 ∧ NoDelete sender.nonce := by
  obtain ⟨rfl, -, -, -⟩ := Lease.receive_eq_some.mp hclaims
  rw [RuntimeCapabilityLeaseV1.validate_eq_ok]
  have hlength := hvalid.nonce_length.1
  have hnonce_ne : claims.nonce ≠ "" := ne_empty_iff.mpr (Nat.lt_of_lt_of_le (by decide) hlength)
  have hnonce : boundedText claims.nonce 128 = true ↔
      claims.nonce.utf8ByteSize ≤ 128 ∧ NoDelete claims.nonce :=
    boundedText_iff hnonce_ne hvalid.nonce
  have hscope : ∀ value ∈ [claims.tenantId, claims.userId, claims.sessionId],
      (boundedText value 255 = true ↔ value.utf8ByteSize ≤ 255 ∧ NoDelete value) := by
    intro value hvalue
    have htext := hvalid.scope value hvalue
    simp only [text, Bool.and_eq_true, decide_eq_true_eq, Bool.not_eq_true'] at htext
    exact boundedText_iff (ne_empty_iff.mpr htext.1.1) htext.2
  constructor
  · intro hrust
    exact ⟨fun value hvalue => (hscope value hvalue).mp (hrust.scope value hvalue),
      hnonce.mp hrust.nonce⟩
  · rintro ⟨hscopes, hfits⟩
    have hissued : (claims.issuedAtEpochMs : Int) < claims.expiresAtEpochMs := hvalid.issued
    have hrevision : (1 : Int) ≤ claims.capabilityRevision := hvalid.revision
    have httl' : (claims.expiresAtEpochMs : Int) ≤ claims.issuedAtEpochMs + 120000 := httl
    have hmax : MAX_CAPABILITY_LEASE_TTL_MS = 120000 := rfl
    refine
      { schema := hvalid.schema
        scope := fun value hvalue => (hscope value hvalue).mpr (hscopes value hvalue)
        ids := fun f hf => identifier_received (hvalid.ids f hf)
        revision := ?_
        hash := isSha256_of_isHash hvalid.hash
        issued := ?_
        unexpired := hnow
        ttl := ?_
        nonce := hnonce.mpr hfits
        nonce_length := hlength.trans (length_le_utf8ByteSize _)
        signature := isSha256_of_isHash hsignature
        approval := approvalAllowed_received hvalid.approval }
    · change claims.capabilityRevision ≠ 0
      omega
    · change claims.issuedAtEpochMs < claims.expiresAtEpochMs
      omega
    · change claims.expiresAtEpochMs - claims.issuedAtEpochMs ≤ MAX_CAPABILITY_LEASE_TTL_MS
      omega

theorem issued_leases_verify_iff (h : SerdeJson order floatText crates) (hdigests : Digests crates)
    (hissue : issuer.issue crates request env = .ok lease) :
    Verifies crates issuer.secret lease ↔
      Fits issuer request env ∧ (order = .byKey ∨ SameMac floatText crates issuer request env) := by
  obtain ⟨effect, argumentsHash, payload, heffect, hhash, hvalid, hpayload, rfl⟩ :=
    issue_eq_ok hissue
  have hmac := hdigests.hmacSha256 issuer.secret payload
  have hsignature := isHash_digest hmac
  have httl : (issuer.unsigned request env effect argumentsHash).expiresAtEpochMs ≤
      (issuer.unsigned request env effect argumentsHash).issuedAtEpochMs + 120000 :=
    Int.add_le_add_left issuer.ttl_bounded _
  -- whatever the crate reads, it was signed with its members by key
  have hsigned {claims : RuntimeCapabilityLeaseV1}
      (hclaims : (issuer.unsigned request env effect argumentsHash).receive = some claims) :
      payload = claims.signedBytes .byKey floatText :=
    Except.ok.inj (hpayload.symm.trans (Lease.signedPayload_eq hclaims))
  have hverify (claims : RuntimeCapabilityLeaseV1) (signature : String)
      (hsig : signature = "sha256:" ++ hexEncode (crates.hmacSha256 issuer.secret payload)) :
      { claims with signature := signature }.verifySignature crates issuer.secret = .ok () ↔
        crates.hmacSha256 issuer.secret (claims.signedBytes order floatText) =
          crates.hmacSha256 issuer.secret payload :=
    RuntimeCapabilityLeaseV1.verifySignature_eq_ok h issuer.secret_length hmac hsig
  unfold Verifies
  rw [Lease.receive_signature]
  constructor
  · rintro ⟨received, hreceived, hvalidate, hverified⟩
    obtain ⟨claims, hclaims, rfl⟩ := Option.map_eq_some_iff.mp hreceived
    obtain ⟨hrevision, hissued, hexpires⟩ := (receive_unsigned hvalid).mp ⟨claims, hclaims⟩
    have hstart : claims.issuedAtEpochMs < claims.expiresAtEpochMs := by
      have hlt := hvalid.issued
      rw [(Lease.receive_eq_some.mp hclaims).1] at hlt
      exact Int.ofNat_lt.mp hlt
    obtain ⟨hscope, hnonce⟩ := (validate_received hvalid hclaims httl hsignature hstart).mp
      (hvalidate _ (Nat.le_refl _) hstart)
    refine ⟨⟨hscope, hnonce, hrevision, hissued, hexpires⟩, ?_⟩
    cases order with
    | byKey => exact .inl rfl
    | byInsertion =>
      refine .inr fun effect' argumentsHash' claims' heffect' hhash' hclaims' => ?_
      cases heffect.symm.trans heffect'
      cases hhash.symm.trans hhash'
      cases hclaims.symm.trans hclaims'
      rw [(hverify claims _ rfl).mp hverified, hsigned hclaims]
  · rintro ⟨hfits, horder⟩
    obtain ⟨claims, hclaims⟩ :=
      (receive_unsigned hvalid).mpr ⟨hfits.revision, hfits.issued, hfits.expires⟩
    rw [hclaims]
    refine ⟨_, rfl, fun now _ hnow => ?_, (hverify claims _ rfl).mpr ?_⟩
    · exact (validate_received hvalid hclaims httl hsignature hnow).mpr ⟨hfits.scope, hfits.nonce⟩
    · rw [hsigned hclaims]
      cases order with
      | byKey => rfl
      | byInsertion =>
        rcases horder with hkey | hmacs
        · cases hkey
        · exact hmacs _ _ _ heffect hhash hclaims

end

/-! ## A lease for a tenant -/

def sampleIssuer : CapabilityLeaseIssuer :=
  ⟨List.replicate 32 107, 60000, by decide, by decide, by decide⟩

def sampleEnvironment : Environment := ⟨0, "", ""⟩

/-- A search that one tenant asks for. -/
def searchArguments (tenantId : String) : IssueArguments :=
  { tenantId := tenantId
    userId := "user-a"
    sessionId := "session-a"
    runId := "run-1"
    toolCallId := "call-1"
    attemptId := "attempt-1"
    capabilityId := "search"
    capabilityRevision := 1
    arguments := .dict []
    effect := "read"
    approvalId := none
    nowEpochMs := some 1000
    leaseId := some "lease-1"
    nonce := some "nonce-0123456789" }

theorem issue_search {crates : Crates} (hdigests : Digests crates) {tenantId : String}
    (htenant : text tenantId 255 = true) :
    ∃ lease, sampleIssuer.issue crates (searchArguments tenantId) sampleEnvironment =
      .ok lease := by
  have hhash : canonicalJsonHash crates (.dict []) =
      .ok ("sha256:" ++ hexEncode (crates.sha256 [123, 125])) := rfl
  have hvalid : (sampleIssuer.unsigned (searchArguments tenantId) sampleEnvironment .read
      ("sha256:" ++ hexEncode (crates.sha256 [123, 125]))).validate 1000 = .ok () := by
    rw [Lease.validate_eq_ok]
    have hids : ∀ f ∈ [("lease-1", 64), ("run-1", 64), ("call-1", 160), ("attempt-1", 160),
        ("search", 160)], identifier f.1 f.2 = true := by decide
    have hscope : ∀ value ∈ [tenantId, "user-a", "session-a"], text value 255 = true :=
      List.forall_mem_cons.mpr ⟨htenant, by decide⟩
    have hnonce : 16 ≤ "nonce-0123456789".length ∧ "nonce-0123456789".length ≤ 128 := by decide
    exact
      { schema := rfl
        ids := hids
        scope := hscope
        revision := (by decide : (1 : Int) ≤ 1)
        hash := isHash_digest (hdigests.sha256 _)
        issued := (by decide : (1000 : Int) < 1000 + 60000)
        unexpired := (by decide : (1000 : Int) < 1000 + 60000)
        nonce_length := hnonce
        nonce := (by decide : hasControl "nonce-0123456789" = false)
        signature := (by decide : isHash ("sha256:" ++ String.ofList (List.replicate 64 '0')) = true)
        approval := rfl }
  have hpayload : ∃ payload, (sampleIssuer.unsigned (searchArguments tenantId) sampleEnvironment
      .read ("sha256:" ++ hexEncode (crates.sha256 [123, 125]))).signedPayload = .ok payload := by
    rw [Lease.signedPayload, canonicalJson, if_pos (Lease.allFinite_toDict _)]
    exact ⟨_, rfl⟩
  obtain ⟨payload, hpayload⟩ := hpayload
  have heffect : parseEffect (searchArguments tenantId).effect = some .read := rfl
  unfold CapabilityLeaseIssuer.issue
  rw [heffect]
  exact ⟨_, bind_eq_ok.mpr ⟨_, hhash, bind_eq_ok.mpr ⟨_, hvalid,
    bind_eq_ok.mpr ⟨_, hpayload, rfl⟩⟩⟩⟩

/-- The bytes that are signed for `tenant-a`. -/
def searchPayload : List UInt8 :=
  ("\x7b\"arguments_hash\":\"sha256:44136fa355b3678a1146ad16f7e8649e94fb4fc21fe77e8310c060f61caaff8a\"," ++
    "\"attempt_id\":\"attempt-1\",\"capability_id\":\"search\",\"capability_revision\":1," ++
    "\"effect\":\"read\",\"expires_at_epoch_ms\":61000,\"issued_at_epoch_ms\":1000," ++
    "\"lease_id\":\"lease-1\",\"nonce\":\"nonce-0123456789\",\"run_id\":\"run-1\"," ++
    "\"schema_version\":\"runtime-capability-lease/v1\",\"session_id\":\"session-a\"," ++
    "\"signature\":\"\",\"tenant_id\":\"tenant-a\",\"tool_call_id\":\"call-1\"," ++
    "\"user_id\":\"user-a\"\x7d").toUTF8.data.toList

/-- SHA-256 of the arguments and HMAC of the claims of this search. -/
def searchCrates : Crates :=
  { sampleCrates .byKey with
    sha256 := fun bytes =>
      if bytes = [123, 125] then
        [68, 19, 111, 163, 85, 179, 103, 138, 17, 70, 173, 22, 247, 232, 100, 158,
          148, 251, 79, 194, 31, 231, 126, 131, 16, 192, 96, 246, 28, 170, 255, 138]
      else List.replicate 32 0
    hmacSha256 := fun _ bytes =>
      if bytes = searchPayload then
        [188, 170, 182, 11, 91, 223, 189, 203, 33, 105, 74, 5, 75, 158, 11, 29,
          24, 35, 54, 40, 82, 148, 69, 181, 217, 222, 116, 179, 225, 40, 16, 44]
      else List.replicate 32 0 }

theorem searchCrates_serdeJson : SerdeJson .byKey sampleFloatText searchCrates :=
  ⟨sampleFloatText_floatText, fun _ => rfl, rfl⟩

theorem searchCrates_digests : Digests searchCrates := by
  refine ⟨fun bytes => ?_, fun key bytes => ?_⟩
  · simp only [searchCrates]
    split <;> rfl
  · simp only [searchCrates]
    split <;> rfl

theorem issued_leases_verify_iff_search :
    ∃ lease, sampleIssuer.issue searchCrates (searchArguments "tenant-a") sampleEnvironment =
      .ok lease ∧ Verifies searchCrates sampleIssuer.secret lease := by
  obtain ⟨lease, hissue⟩ := issue_search searchCrates_digests
    (by decide : text "tenant-a" 255 = true)
  refine ⟨lease, hissue,
    (issued_leases_verify_iff searchCrates_serdeJson searchCrates_digests hissue).mpr
      ⟨⟨?_, ?_, by decide, by decide, by decide⟩, .inl rfl⟩⟩
  · change ∀ value ∈ ["tenant-a", "user-a", "session-a"],
      value.utf8ByteSize ≤ 255 ∧ NoDelete value
    simp only [List.forall_mem_cons]
    exact ⟨⟨by decide, noDelete_of_all (by decide)⟩, ⟨by decide, noDelete_of_all (by decide)⟩,
      ⟨by decide, noDelete_of_all (by decide)⟩, nofun⟩
  · change "nonce-0123456789".utf8ByteSize ≤ 128 ∧ NoDelete "nonce-0123456789"
    exact ⟨by decide, noDelete_of_all (by decide)⟩

/-- What the crate does not take for a text, it does not take for a tenant. -/
theorem not_verifies_search {crates : Crates} {tenantId : String} {lease : Lease}
    (hissue : sampleIssuer.issue crates (searchArguments tenantId) sampleEnvironment = .ok lease)
    (htenant : boundedText tenantId 255 = false) :
    ¬ Verifies crates sampleIssuer.secret lease := by
  rintro ⟨received, hreceived, hvalidate, -⟩
  obtain ⟨effect, argumentsHash, payload, -, -, -, -, rfl⟩ := issue_eq_ok hissue
  obtain ⟨heq, -, -, -⟩ := Lease.receive_eq_some.mp hreceived
  have hsame : tenantId = received.tenantId := congrArg Lease.tenantId heq
  have hissued : (1000 : Int) = received.issuedAtEpochMs := congrArg Lease.issuedAtEpochMs heq
  have hexpires : (1000 : Int) + 60000 = received.expiresAtEpochMs :=
    congrArg Lease.expiresAtEpochMs heq
  have hvalid := RuntimeCapabilityLeaseV1.validate_eq_ok.mp
    (hvalidate received.issuedAtEpochMs (Nat.le_refl _) (by omega))
  have htext := hvalid.scope _ List.mem_cons_self
  rw [← hsame, htenant] at htext
  cases htext

/-- A text of `n` characters, each of which takes two bytes. -/
def accented (n : Nat) : String := String.ofList (List.replicate n 'é')

theorem text_accented {n : Nat} (hpos : 0 < n) (hle : n ≤ 255) : text (accented n) 255 = true := by
  have hlength : (accented n).length = n := by
    rw [accented, String.length_ofList, List.length_replicate]
  have hclean : hasControl (accented n) = false := by
    rw [hasControl, accented, String.toList_ofList]
    exact List.any_eq_false.mpr fun c hc => by
      rw [List.eq_of_mem_replicate hc]
      decide
  simp [text, hlength, hclean, hpos, hle]

theorem boundedText_accented {n : Nat} (h : 255 < 2 * n) : boundedText (accented n) 255 = false := by
  have hsize : (accented n).utf8ByteSize = 2 * n := by
    rw [accented, String.utf8ByteSize_ofList]
    clear h
    induction n with
    | zero => rfl
    | succ n ih =>
      have htwo : Char.utf8Size 'é' = 2 := by decide
      rw [List.replicate_succ, String.utf8Len_cons, ih, htwo]
      omega
  have hlarge : ¬ 2 * n ≤ 255 := by omega
  simp [boundedText, hsize, hlarge]

/-- The gateway issues the lease of a tenant of 200 characters and 400 bytes, and the
    crate does not take it. -/
theorem unverifiable_lease :
    ∃ lease, sampleIssuer.issue searchCrates (searchArguments (accented 200)) sampleEnvironment =
      .ok lease ∧ ¬ Verifies searchCrates sampleIssuer.secret lease := by
  have htext : text (accented 200) 255 = true := text_accented (by decide) (by decide)
  obtain ⟨lease, hissue⟩ := issue_search searchCrates_digests htext
  exact ⟨lease, hissue, not_verifies_search hissue (boundedText_accented (by decide))⟩

end Python

end AiPlatform.Capability
