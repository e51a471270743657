/-
  AiPlatform.Gateway.SignedEnvelope

  An envelope that a signer has made passes the checks of its verifier at every
  instant of its window.

  The signer validates it at the instant of its issue; the verifier computes the
  same digests from the same members, and what depends on the clock is one
  comparison at either end.
-/

import AiPlatform.Gateway.RuntimeEnvelope
import AiPlatform.Gateway.Signature

namespace AiPlatform.Gateway

open AiPlatform.Capability AiPlatform.Checks

variable {lib : Hashlib} {repr : PyValue → String} {signer : AgentRuntimeSigner}
  {code : EnvelopeFailure} {value : PyValue} {mapping unsigned : Dict} {keys : List String}
  {text : String}

/-! ## The checks -/

theorem closedMapping_eq_ok : closedMapping value keys code = .ok mapping ↔
    value = .dict mapping ∧ hasKeys mapping keys = true := by
  cases value with
  | dict items =>
    rw [closedMapping]
    split
    · rename_i hkeys
      constructor
      · intro h
        obtain rfl := Except.ok.inj h
        exact ⟨rfl, hkeys⟩
      · rintro ⟨h, -⟩
        rw [PyValue.dict.inj h]
    · rename_i hkeys
      constructor
      · nofun
      · rintro ⟨h, htrue⟩
        exact absurd (PyValue.dict.inj h ▸ htrue) hkeys
  | none | bool | int | float | str | list => exact ⟨nofun, fun h => nomatch h.1⟩

theorem runtimeSha256_eq_ok {digest : String} (h : runtimeSha256 lib value = .ok digest) :
    ∃ bytes, digest = digestText bytes := by
  rw [runtimeSha256] at h
  cases hjson : canonicalRuntimeJson value with
  | error failure =>
    rw [hjson] at h
    cases h
  | ok bytes =>
    rw [hjson] at h
    exact ⟨_, (Except.ok.inj h).symm⟩

theorem signature_eq_ok {digest : String} (h : signer.signature lib unsigned = .ok digest) :
    ∃ bytes, digest = digestText bytes := by
  rw [AgentRuntimeSigner.signature] at h
  cases hjson : canonicalRuntimeJson (.dict (withoutSignature unsigned)) with
  | error failure =>
    rw [hjson] at h
    cases h
  | ok bytes =>
    rw [hjson] at h
    exact ⟨_, (Except.ok.inj h).symm⟩

theorem isAscii_digestText (digest : List UInt8) : isAscii (digestText digest) = true := by
  rw [digestText, isAscii, String.toList_append, List.all_append]
  exact Bool.and_eq_true_iff.mpr ⟨by decide, isAscii_hexEncode digest⟩

theorem nonEmptyString_digestText (digest : List UInt8) :
    nonEmptyString (.str (digestText digest)) code = .ok (digestText digest) := by
  have hmem : 's' ∈ (digestText digest).toList := by
    rw [digestText, String.toList_append]
    exact List.mem_append_left _ (by decide)
  exact if_neg (strip_ne_empty hmem (by decide))

theorem requireDigest_self (digest : List UInt8) :
    AgentRuntimeSigner.requireDigest (digestText digest) (digestText digest) text = .ok () := by
  rw [AgentRuntimeSigner.requireDigest, compareDigest, isAscii_digestText]
  simp only [Bool.and_self, if_true, beq_self_eq_true]
  rfl

theorem truthy_digestText (digest : List UInt8) : truthy (.str (digestText digest)) = true := by
  refine bne_iff_ne.mpr fun h => ?_
  have hlist := congrArg String.toList h
  rw [digestText, String.toList_append] at hlist
  exact absurd hlist (by simp)

theorem notText_self (text : String) : (!isText (.str text) text) = false := by
  rw [isText, beq_self_eq_true, Bool.not_true]

/-- The checks of an envelope that has passed them at one instant are passed at every
    instant of its window. -/
theorem validateUnsigned_of_window {now now' issued expires : Int}
    (h : signer.validateUnsigned now unsigned = .ok ())
    (hfields : AgentRuntimeSigner.validateFields unsigned = .ok (issued, expires))
    (hissued : issued - signer.maxClockSkewMs ≤ now') (hexpires : now' ≤ expires) :
    signer.validateUnsigned now' unsigned = .ok () := by
  simp only [AgentRuntimeSigner.validateUnsigned, hfields, bind_eq_ok, failIf_eq_ok,
    decide_eq_false_iff_not, Int.not_lt] at h ⊢
  obtain ⟨fields, heq, u, httl, v, -, w, -, hrest⟩ := h
  obtain rfl := Except.ok.inj heq
  exact ⟨_, rfl, u, httl, v, hissued, w, hexpires, hrest⟩

/-! ## Back and forth -/

variable {args : EnvelopeArguments} {now : Int} {token : String} {envelope : Dict}

def EnvelopeArguments.issued (args : EnvelopeArguments) (now : Int) : Int := args.issuedAtMs.getD now

def EnvelopeArguments.expires (args : EnvelopeArguments) (now : Int) : Int :=
  args.expiresAtMs.getD (args.issued now + 30000)

/-- The caller that the envelope was signed for. -/
def EnvelopeArguments.call (args : EnvelopeArguments) : EnvelopeCall :=
  ⟨args.requestBody, args.tenantId, args.callerPrincipal, args.sessionId⟩

/-- What is signed, with its two digests. -/
def EnvelopeArguments.signedDict (args : EnvelopeArguments) (signer : AgentRuntimeSigner) (now : Int)
    (token bodyHash snapshotHash : String) : Dict :=
  signer.unsignedEnvelope args bodyHash snapshotHash (args.issued now) (args.expires now)
    (orElse (args.nonce.getD "") token)

theorem envelope_of_sign (h : signer.sign lib now token args = .ok envelope) :
    ∃ bodyHash snapshotHash signature, runtimeSha256 lib args.requestBody = .ok bodyHash ∧
      runtimeSha256 lib args.resolvedSnapshot = .ok snapshotHash ∧
      signer.validateUnsigned (args.issued now)
        (args.signedDict signer now token bodyHash snapshotHash) = .ok () ∧
      signer.signature lib (args.signedDict signer now token bodyHash snapshotHash) = .ok signature ∧
      envelope = args.signedDict signer now token bodyHash snapshotHash ++
        [("signature", .str signature)] := by
  simp only [AgentRuntimeSigner.sign, bind_eq_ok, pure_eq_ok] at h
  obtain ⟨_, -, _, -, _, -, _, -, _, -, _, -, _, -, bodyHash, hbody, snapshotHash, hsnapshot, _, -, _,
    hvalid, signature, hsignature, rfl⟩ := h
  exact ⟨bodyHash, snapshotHash, signature, hbody, hsnapshot, hvalid, hsignature, rfl⟩

theorem validateFields_eq_ok {issued expires : Int}
    (h : AgentRuntimeSigner.validateFields unsigned = .ok (issued, expires)) :
    asInt (item unsigned "issued_at_ms") = some issued ∧
      asInt (item unsigned "expires_at_ms") = some expires := by
  simp only [AgentRuntimeSigner.validateFields, bind_eq_ok, okOr_eq_ok, pure_eq_ok] at h
  obtain ⟨_, -, _, -, _, -, _, -, _, -, _, -, _, -, _, -, _, -, issued', hissued, expires', hexpires,
    heq⟩ := h
  obtain ⟨rfl, rfl⟩ := Prod.mk.inj heq
  exact ⟨hissued, hexpires⟩

/-- A signed envelope whose snapshot is of the same agent passes the checks of its
    signer in its window. -/
theorem check_sign {nowMs : Option Int} {readings : Readings}
    (h : signer.sign lib now token args = .ok envelope)
    (hbound : AgentRuntimeSigner.identityMismatch (withoutSignature envelope) = false)
    (hissued : args.issued now - signer.maxClockSkewMs ≤ nowMs.getD readings.validated)
    (hexpires : nowMs.getD readings.validated ≤ args.expires now) :
    signer.check lib repr nowMs readings (.dict envelope) args.call =
      .ok (signer.granted repr (nowMs.getD readings.aged) (withoutSignature envelope)) := by
  obtain ⟨bodyHash, snapshotHash, signature, hbody, hsnapshot, hvalid, hsignature, rfl⟩ :=
    envelope_of_sign h
  have hunsigned : withoutSignature (args.signedDict signer now token bodyHash snapshotHash ++
      [("signature", .str signature)]) = args.signedDict signer now token bodyHash snapshotHash := rfl
  have hfields : AgentRuntimeSigner.validateFields
      (args.signedDict signer now token bodyHash snapshotHash) =
        .ok (args.issued now, args.expires now) := by
    have hvalid' := hvalid
    rw [AgentRuntimeSigner.validateUnsigned, bind_eq_ok] at hvalid'
    obtain ⟨⟨issued, expires⟩, hok, -⟩ := hvalid'
    obtain ⟨hissued, hexpires⟩ := validateFields_eq_ok hok
    rw [hok, ← Option.some.inj hissued, ← Option.some.inj hexpires]
  rw [hunsigned] at hbound
  have hnow := validateUnsigned_of_window hvalid hfields hissued hexpires
  obtain ⟨bodyBytes, rfl⟩ := runtimeSha256_eq_ok hbody
  obtain ⟨snapshotBytes, rfl⟩ := runtimeSha256_eq_ok hsnapshot
  obtain ⟨signatureBytes, rfl⟩ := signature_eq_ok hsignature
  simp only [AgentRuntimeSigner.check, bind_eq_ok, pure_eq_ok, failIf_eq_ok]
  refine ⟨_, closedMapping_eq_ok.mpr ⟨rfl, rfl⟩, (), ?_, _, ?_, (), requireDigest_self _, _, hbody, (),
    requireDigest_self _, _, hsignature, (), ?_, (), notText_self signer.issuer, (),
    notText_self args.tenantId, (), notText_self args.callerPrincipal, (),
    notText_self args.sessionId, (), hbound, rfl⟩
  · exact hnow
  · exact hsnapshot
  · have hitem : item (args.signedDict signer now token (digestText bodyBytes)
        (digestText snapshotBytes) ++ [("signature", .str (digestText signatureBytes))]) "signature" =
          .str (digestText signatureBytes) := rfl
    rw [hitem, if_pos (truthy_digestText _)]
    exact requireDigest_self _

end AiPlatform.Gateway
