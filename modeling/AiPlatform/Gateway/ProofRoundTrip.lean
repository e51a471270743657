/-
  AiPlatform.Gateway.ProofRoundTrip

  A capability proof that was issued for one request, and the requests that it then
  holds for.

  The verifier reads the members of the envelope in the order in which they were
  written, which is another one than that of the signer's dict; the canonical text
  does not depend on it.
-/

import AiPlatform.Gateway.CapabilityProof
import AiPlatform.Gateway.Signature

namespace AiPlatform.Gateway

open AiPlatform.Capability AiPlatform.Checks

/-! ## The order of the members -/

section Order

variable {key : PyStr} {text : String} {fields ms ns : List (PyStr × PyJson)}
  {xs ys : List (String × PyValue)}

theorem eq_lit_of_scalarText (h : scalarText key = some text) : key = lit text := by
  obtain ⟨chars, hchars, rfl⟩ := Option.map_eq_some_iff.mp h
  rw [lit, String.toList_ofList]
  clear h
  induction key generalizing chars with
  | nil =>
    obtain rfl := Option.some.inj hchars
    rfl
  | cons c rest ih =>
    simp only [List.mapM_cons, Option.bind_eq_bind, Option.bind_eq_some_iff, Option.pure_def,
      Option.some.injEq] at hchars
    obtain ⟨d, hd, more, hmore, rfl⟩ := hchars
    cases c with
    | scalar c =>
      obtain rfl := Option.some.inj hd
      rw [List.map_cons, ← ih more hmore]
    | surrogate offset => cases hd

theorem scalarMembers_cons_eq_some {member : PyStr × PyJson} :
    PyJson.scalarMembers (member :: ms) = some xs ↔ ∃ key value rest,
      scalarText member.1 = some key ∧ member.2.scalarValue = some value ∧
        PyJson.scalarMembers ms = some rest ∧ xs = (key, value) :: rest := by
  simp only [PyJson.scalarMembers, Option.bind_eq_bind, Option.bind_eq_some_iff, Option.some.injEq]
  constructor
  · rintro ⟨key, hkey, value, hvalue, rest, hrest, rfl⟩
    exact ⟨key, value, rest, hkey, hvalue, hrest, rfl⟩
  · rintro ⟨key, value, rest, hkey, hvalue, hrest, rfl⟩
    exact ⟨key, hkey, value, hvalue, rest, hrest, rfl⟩

theorem scalarMembers_perm (h : ms.Perm ns) (hms : PyJson.scalarMembers ms = some xs) :
    ∃ ys, PyJson.scalarMembers ns = some ys ∧ xs.Perm ys := by
  induction h generalizing xs with
  | nil => exact ⟨xs, hms, List.Perm.refl xs⟩
  | cons m _ ih =>
    obtain ⟨key, value, rest, hkey, hvalue, hrest, rfl⟩ := scalarMembers_cons_eq_some.mp hms
    obtain ⟨ys, hys, hperm⟩ := ih hrest
    exact ⟨(key, value) :: ys, scalarMembers_cons_eq_some.mpr ⟨key, value, ys, hkey, hvalue, hys, rfl⟩,
      hperm.cons _⟩
  | swap m n rest =>
    obtain ⟨key, value, _, hkey, hvalue, htail, rfl⟩ := scalarMembers_cons_eq_some.mp hms
    obtain ⟨key', value', rest', hkey', hvalue', hrest, rfl⟩ := scalarMembers_cons_eq_some.mp htail
    have htail' := scalarMembers_cons_eq_some.mpr ⟨key, value, rest', hkey, hvalue, hrest, rfl⟩
    exact ⟨_, scalarMembers_cons_eq_some.mpr ⟨key', value', _, hkey', hvalue', htail', rfl⟩,
      List.Perm.swap _ _ _⟩
  | trans _ _ ih ih' =>
    obtain ⟨ys, hys, hperm⟩ := ih hms
    obtain ⟨zs, hzs, hperm'⟩ := ih' hys
    exact ⟨zs, hzs, hperm.trans hperm'⟩

theorem keys_scalarMembers (hms : PyJson.scalarMembers ms = some xs) :
    ms.map Prod.fst = (KeyedList.Keys xs).map lit := by
  induction ms generalizing xs with
  | nil =>
    obtain rfl := Option.some.inj hms
    rfl
  | cons m ms ih =>
    obtain ⟨key, value, rest, hkey, -, hrest, rfl⟩ := scalarMembers_cons_eq_some.mp hms
    rw [List.map_cons, ih hrest, eq_lit_of_scalarText hkey]
    rfl

theorem allFiniteMembers_iff : PyValue.allFiniteMembers xs = true ↔ ∀ m ∈ xs, m.2.allFinite = true := by
  induction xs with
  | nil => simp [PyValue.allFiniteMembers]
  | cons m rest ih => rw [PyValue.allFiniteMembers, Bool.and_eq_true, ih, List.forall_mem_cons]

theorem canonicalJson_perm (hkeys : (KeyedList.Keys xs).Nodup) (h : xs.Perm ys) :
    canonicalJson (.dict xs) = canonicalJson (.dict ys) := by
  have hkeys' : (KeyedList.Keys ys).Nodup := (h.map Prod.fst).nodup_iff.mp hkeys
  have hfinite : (PyValue.dict xs).allFinite = (PyValue.dict ys).allFinite := by
    rw [PyValue.allFinite, PyValue.allFinite, Bool.eq_iff_iff, allFiniteMembers_iff, allFiniteMembers_iff]
    exact forall_congr' fun m => imp_congr_left h.mem_iff
  have hdocument : (PyValue.dict xs).document = (PyValue.dict ys).document := by
    rw [PyValue.document_dict hkeys, PyValue.document_dict hkeys',
      (KeyedList.collectByKey_eq_iff hkeys hkeys').mpr h]
  rw [canonicalJson, canonicalJson, hfinite, hdocument]

/-- The canonical bytes of a dict do not depend on the order of its members. -/
theorem canonicalBytes_perm (hkeys : (ms.map Prod.fst).Nodup) (h : ms.Perm ns) :
    canonicalBytes (.dict ms) = canonicalBytes (.dict ns) := by
  rw [canonicalBytes, canonicalBytes, PyJson.scalarValue, PyJson.scalarValue]
  cases hms : PyJson.scalarMembers ms with
  | none =>
    cases hns : PyJson.scalarMembers ns with
    | none => rfl
    | some ys =>
      obtain ⟨xs, hxs, -⟩ := scalarMembers_perm h.symm hns
      rw [hms] at hxs
      cases hxs
  | some xs =>
    obtain ⟨ys, hns, hperm⟩ := scalarMembers_perm h hms
    have hdistinct : (KeyedList.Keys xs).Nodup := List.Nodup.of_map lit (keys_scalarMembers hms ▸ hkeys)
    rw [hns]
    exact congrArg Except.toOption (canonicalJson_perm hdistinct hperm)

theorem get_of_perm (hkeys : (ns.map Prod.fst).Nodup) (h : ms.Perm ns) :
    (PyJson.dict ms).get key = (PyJson.dict ns).get key := by
  rw [PyJson.get_dict, PyJson.get_dict, Assoc.lookup_of_perm h hkeys]

theorem hasKeys_dict {keys : List PyStr} :
    (PyJson.dict ms).hasKeys keys = true ↔ ∀ key, key ∈ ms.map Prod.fst ↔ key ∈ keys := by
  simp only [PyJson.hasKeys, Bool.and_eq_true, List.all_eq_true, List.any_eq_true, List.contains_eq_mem,
    decide_eq_true_eq, beq_iff_eq]
  constructor
  · rintro ⟨hleft, hright⟩ key
    constructor
    · intro hmem
      obtain ⟨member, hmember, rfl⟩ := List.mem_map.mp hmem
      exact hleft member hmember
    · intro hmem
      obtain ⟨member, hmember, rfl⟩ := hright key hmem
      exact List.mem_map_of_mem hmember
  · intro h
    refine ⟨fun member hmember => (h _).mp (List.mem_map_of_mem hmember), fun key hkey => ?_⟩
    obtain ⟨member, hmember, heq⟩ := List.mem_map.mp ((h key).mpr hkey)
    exact ⟨member, hmember, heq⟩

/-- The canonical text of a dict has at least a brace. -/
theorem canonicalBytes_ne_nil {bytes : List UInt8} (h : canonicalBytes (.dict ms) = some bytes) :
    bytes ≠ [] := by
  obtain ⟨value, hvalue, hjson⟩ := Option.bind_eq_some_iff.mp h
  rw [PyJson.scalarValue] at hvalue
  obtain ⟨xs, -, rfl⟩ := Option.map_eq_some_iff.mp hvalue
  rw [canonicalJson, PyValue.document, JsonText.render] at hjson
  split at hjson
  · rintro rfl
    have hbytes := Option.some.inj hjson
    have hempty := toUTF8_injective (hbytes.trans (show [] = "".toUTF8.data.toList from rfl))
    have hchars := congrArg String.toList hempty
    rw [String.toList_ofList] at hchars
    exact absurd hchars (List.cons_ne_nil _ _)
  · cases hjson

end Order

/-! ## The texts -/

section Texts

variable {fields : PyJson} {left right : PyStr} {message : String} {bytes : List UInt8} {u : Unit}

theorem isAsciiText_lit {text : String} (h : isAscii text = true) : isAsciiText (lit text) = true := by
  refine List.all_eq_true.mpr fun c hc => ?_
  obtain ⟨d, hd, rfl⟩ := List.mem_map.mp hc
  exact List.all_eq_true.mp h d hd

theorem requireSame_eq_ok : requireSame left right message = .ok u ↔
    isAsciiText left = true ∧ right = left := by
  rw [requireSame, compareTexts]
  split
  · rename_i hascii
    obtain ⟨hleft, -⟩ := Bool.and_eq_true_iff.mp hascii
    simp only [bind_eq_ok, Except.ok.injEq, exists_eq_left', failIf_eq_ok, Bool.not_eq_eq_eq_not,
      Bool.not_false, beq_iff_eq]
    exact ⟨fun h => ⟨hleft, h.symm⟩, fun h => h.2.symm⟩
  · rename_i hascii
    refine iff_of_false (fun h => by cases h) fun h => hascii ?_
    rw [h.2, h.1, Bool.and_self]

theorem isAscii_encode (bytes : List UInt8) : isAscii (Base64.encode bytes) = true := by
  have halphabet : (Base64.alphabet.all fun c => decide (c.toNat < 128)) = true := by
    decide +kernel
  rw [isAscii, Base64.encode, String.toList_ofList]
  exact List.all_eq_true.mpr fun c hc =>
    List.all_eq_true.mp halphabet c (Base64.mem_alphabet hc)

theorem length_hexEncode (bytes : List UInt8) : (lit (hexEncode bytes)).length = 2 * bytes.length := by
  rw [lit, List.length_map, hexEncode, String.toList_ofList, List.length_flatMap]
  simp [Nat.mul_comm]

end Texts

/-! ## Back and forth -/

variable (lib : ProofLibrary)

/-- The header is read as it was written: the text is that of the bytes, and what is
    loaded of them has the members of the envelope, in any order. -/
structure ReadsBack (envelope : PyJson) (bytes : List UInt8) : Prop where
  b64decode : lib.b64decode (padded (Base64.encode bytes)) = some bytes
  parses : lib.stack.parses bytes = true
  loads : ∃ members read, envelope = .dict members ∧ lib.loads bytes = some (.dict read) ∧
    read.Perm members ∧ lib.stack.encodes ((PyJson.dict read).pop (lit "signature")) = true

/-- The other request is the one that a proof with this expiry was issued for, at an
    instant at which the proof is good.  A path must come without blanks around it, and
    every text that is compared in ASCII. -/
structure Covers (request : ProofRequest) (expiry : Int) (other : ProofRequest) (now : Int) : Prop where
  fresh : now < expiry
  window : expiry ≤ now + MAX_TTL_SECONDS
  method : lib.strip (lib.upper other.method) = lib.strip (lib.upper request.method)
  path : other.path = lib.strip request.path
  body : canonicalBodyHash lib other.body = canonicalBodyHash lib request.body
  scope : other.scope = request.scope
  ascii : ∀ text ∈ lib.strip (lib.upper other.method) :: other.path :: other.scope.map Prod.snd,
    isAsciiText text = true

section Issued

variable {lib} {secret : List UInt8} {request other : ProofRequest} {expiresAt : Option Int}
  {nonce bodySha256 signature : PyStr} {issued now expiry : Int} {envelope : PyJson}
  {bytes : List UInt8} {header : String}

/-- The keys of the dict that is signed. -/
def signedKeys : List String :=
  ["schema_version", "method", "path", "body_sha256"] ++ SCOPE_FIELDS ++ ["expires_at", "nonce"]

theorem proofFields_dict : ∃ members, proofFields lib request bodySha256 expiry nonce = .dict members ∧
    members.map Prod.fst = signedKeys.map lit :=
  ⟨_, rfl, by simp [signedKeys, SCOPE_FIELDS, ProofRequest.scope]⟩

theorem nodup_signedKeys : (signedKeys.map lit).Nodup := List.Nodup.map lit_injective (by decide)

theorem signature_not_mem_signedKeys : lit "signature" ∉ signedKeys.map lit := by
  rw [List.mem_map_of_injective lit_injective]
  decide

theorem mem_signedKeys {key : PyStr} : key ∈ signedKeys.map lit ↔ key ∈ PROOF_FIELDS.map lit := by
  have hperm : signedKeys.Perm PROOF_FIELDS := by decide
  exact (hperm.map lit).mem_iff

/-- What has been computed when an envelope is there. -/
theorem signedEnvelope_eq_ok
    (h : signedEnvelope lib secret request expiresAt nonce issued = .ok envelope) :
    ∃ bodySha256 signature, canonicalBodyHash lib request.body = .ok bodySha256 ∧
      (∃ expiry, validateProofFields (proofFields lib request bodySha256
        (expiresAt.getD (issued + 30)) nonce) = .ok expiry) ∧
      proofSignature lib secret (proofFields lib request bodySha256
        (expiresAt.getD (issued + 30)) nonce) = .ok signature ∧
      envelope = (proofFields lib request bodySha256
        (expiresAt.getD (issued + 30)) nonce).set (lit "signature") (.str signature) := by
  simp only [signedEnvelope, bind_eq_ok, discard_eq_ok, pure_eq_ok] at h
  obtain ⟨_, -, bodySha256, hbody, _, hvalid, signature, hsignature, rfl⟩ := h
  exact ⟨bodySha256, signature, hbody, hvalid, hsignature, rfl⟩

theorem validateProofFields_congr {fields fields' : PyJson} (h : ∀ key, fields'.get key = fields.get key) :
    validateProofFields fields' = validateProofFields fields := by
  simp only [validateProofFields, fieldText, h]
  rfl

theorem hexText_of_proofSignature {fields : PyJson} (h : proofSignature lib secret fields = .ok signature) :
    ∃ key message, signature = lit (hexEncode (lib.hashlib.hmacSha256 key message)) := by
  simp only [proofSignature, bind_eq_ok, pure_eq_ok] at h
  obtain ⟨key, -, message, -, rfl⟩ := h
  exact ⟨key, message, rfl⟩

theorem hexText_of_canonicalBodyHash {body : PyJson} (h : canonicalBodyHash lib body = .ok bodySha256) :
    ∃ bytes, bodySha256 = lit (hexEncode (lib.hashlib.sha256 bytes)) := by
  rw [canonicalBodyHash] at h
  cases hjson : proofJson lib body with
  | error failure =>
    rw [hjson] at h
    cases h
  | ok bytes =>
    rw [hjson] at h
    exact ⟨bytes, (Except.ok.inj h).symm⟩

theorem isAsciiText_hexEncode (bytes : List UInt8) : isAsciiText (lit (hexEncode bytes)) = true :=
  isAsciiText_lit (isAscii_hexEncode bytes)

theorem toList_proofHeader (bytes : List UInt8) :
    (proofHeader bytes).toList = 'v' :: '1' :: '.' :: Base64.chars bytes := by
  have hencoded : (Base64.encode bytes).toList = Base64.chars bytes := String.toList_ofList
  rw [proofHeader, String.toList_append, hencoded]
  rfl

theorem length_proofHeader (bytes : List UInt8) :
    (proofHeader bytes).length = 3 + (Base64.encode bytes).length := by
  rw [proofHeader, String.length_append]
  rfl

/-- The text of an issued header, after its mark. -/
theorem drop_proofHeader (bytes : List UInt8) :
    String.ofList ((proofHeader bytes).toList.drop 3) = Base64.encode bytes := by
  rw [toList_proofHeader]
  rfl

theorem length_of_decodeProof {fields : PyJson}
    (h : decodeProof lib (proofHeader bytes) = .ok (fields, signature)) :
    (Base64.encode bytes).length ≤ 4096 := by
  simp only [decodeProof, bind_eq_ok, failIf_eq_ok, drop_proofHeader] at h
  obtain ⟨_, -, _, hlength, -⟩ := h
  exact Nat.not_lt.mp (of_decide_eq_false (Bool.or_eq_false_iff.mp hlength).2)

/-- A header that is read back gives the fields and the signature, unless it is too long. -/
theorem decodeProof_header {read : PyJson}
    (hlength : (Base64.encode bytes).length ≤ 4096) (hne : (Base64.encode bytes).isEmpty = false)
    (hdecode : lib.b64decode (padded (Base64.encode bytes)) = some bytes)
    (hparses : lib.stack.parses bytes = true) (hloads : lib.loads bytes = some read)
    (hdict : read.isDict = true) (hsignature : read.get (lit "signature") = .str signature)
    (hdigest : signature.length = 64)
    (hkeys : (read.pop (lit "signature")).hasKeys (PROOF_FIELDS.map lit) = true) :
    decodeProof lib (proofHeader bytes) = .ok (read.pop (lit "signature"), signature) := by
  have hmark : "v1.".toList.isPrefixOf (proofHeader bytes).toList = true := by
    rw [toList_proofHeader]
    rfl
  have htext : (read.get (lit "signature")).asStr.filter (·.length = 64) = some signature := by
    rw [hsignature, PyJson.asStr, Option.filter_some, if_pos (decide_eq_true hdigest)]
  simp only [decodeProof, bind_eq_ok, failIf_eq_ok, okOr_eq_ok, pure_eq_ok, drop_proofHeader]
  refine ⟨(), ?_, (), ?_, (), ?_, bytes, hdecode, (), ?_, read, hloads, (), ?_, signature, htext, (), ?_, rfl⟩
  · rw [hmark, Bool.not_true]
  · rw [hne, decide_eq_false (Nat.not_lt.mpr hlength), Bool.or_false]
  · rw [isAscii_encode, Bool.not_true]
  · rw [hparses, Bool.not_true]
  · rw [hdict, Bool.not_true]
  · rw [hkeys, Bool.not_true]

/-- An issued envelope that is read back has the fields that were signed, under the
    signature that they have. -/
theorem fields_of_readsBack {fields : PyJson} {members : List (PyStr × PyJson)} {read : PyJson}
    (hfields : fields = .dict members) (hkeys : members.map Prod.fst = signedKeys.map lit)
    {entries : List (PyStr × PyJson)} (hread : read = .dict entries)
    (hperm : entries.Perm (Assoc.set (lit "signature") (.str signature) members)) :
    read.get (lit "signature") = .str signature ∧
      (∀ key, (read.pop (lit "signature")).get key = fields.get key) ∧
      (read.pop (lit "signature")).hasKeys (PROOF_FIELDS.map lit) = true ∧
      canonicalBytes (read.pop (lit "signature")) = canonicalBytes fields := by
  subst hfields hread
  have hnodup : (members.map Prod.fst).Nodup := hkeys ▸ nodup_signedKeys
  have hnew : lit "signature" ∉ members.map Prod.fst := hkeys ▸ signature_not_mem_signedKeys
  have herased : (Assoc.erase (lit "signature") entries).Perm members := by
    have hfiltered := hperm.filter fun entry => decide (entry.1 ≠ lit "signature")
    change (Assoc.erase _ entries).Perm (Assoc.erase _ (Assoc.set _ _ members)) at hfiltered
    rwa [Assoc.erase_set, Assoc.erase_of_not_mem hnew] at hfiltered
  refine ⟨?_, fun key => get_of_perm hnodup herased, ?_, ?_⟩
  · rw [get_of_perm (Assoc.nodup_keys_set hnodup) hperm, PyJson.get_dict, Assoc.lookup_set_self,
      Option.getD_some]
  · refine hasKeys_dict.mpr fun key => ?_
    rw [(herased.map Prod.fst).mem_iff, hkeys, mem_signedKeys]
  · exact (canonicalBytes_perm hnodup herased.symm).symm

/-- What is left to check once a header has been decoded and its signature is right. -/
theorem verify_iff_bound {fields : PyJson} (hdecode : decodeProof lib header = .ok (fields, signature))
    (hvalid : validateProofFields fields = .ok expiry)
    (hsignature : proofSignature lib secret fields = .ok signature)
    (hascii : isAsciiText signature = true) :
    (∃ proof, verifyCapabilityProof lib secret header other now = .ok proof) ↔
      (now < expiry ∧ expiry ≤ now + MAX_TTL_SECONDS) ∧
        ∃ hash, canonicalBodyHash lib other.body = .ok hash ∧
          ∀ bound ∈ [("method", lib.strip (lib.upper other.method)), ("path", other.path),
              ("body_sha256", hash)] ++ other.scope,
            isAsciiText (fieldText fields bound.1) = true ∧ bound.2 = fieldText fields bound.1 := by
  have hsame : requireSame signature signature "proof signature mismatch" = .ok () :=
    requireSame_eq_ok.mpr ⟨hascii, rfl⟩
  simp only [verifyCapabilityProof, hdecode, hvalid, hsignature, hsame, bind_eq_ok, Except.ok.injEq,
    exists_eq_left', failIf_eq_ok, pure_eq_ok, Bool.or_eq_false_iff, decide_eq_false_iff_not, Int.not_le,
    Int.not_lt]
  constructor
  · rintro ⟨proof, _, -, _, hwindow, hash, hhash, _, hbound, -⟩
    exact ⟨hwindow, hash, hhash, fun bound hmem => requireSame_eq_ok.mp (forEach_eq_ok.mp hbound bound hmem)⟩
  · rintro ⟨hwindow, hash, hhash, hbound⟩
    refine ⟨_, (), trivial, (), hwindow, hash, hhash, (), ?_, rfl⟩
    exact forEach_eq_ok.mpr fun bound hmem => requireSame_eq_ok.mpr (hbound bound hmem)

/-- The texts that were signed are those of the request. -/
theorem fieldText_proofFields {fields : PyJson}
    (hfields : fields = proofFields lib request bodySha256 expiry nonce) :
    fieldText fields "method" = lib.strip (lib.upper request.method) ∧
      fieldText fields "path" = lib.strip request.path ∧ fieldText fields "body_sha256" = bodySha256 ∧
      ∀ member ∈ request.scope, fieldText fields member.1 = member.2 := by
  subst hfields
  simp [fieldText, proofFields, PyJson.get_dict, ProofRequest.scope, List.lookup_cons, lit_beq, PyJson.asStr]

theorem expiry_of_validate {expiry' : Int}
    (h : validateProofFields (proofFields lib request bodySha256 expiry nonce) = .ok expiry') :
    expiry = expiry' := by
  simp only [validateProofFields, bind_eq_ok, okOr_eq_ok, pure_eq_ok] at h
  obtain ⟨_, -, _, -, _, hexpiry, _, -, _, -, _, -, _, -, rfl⟩ := h
  simpa [proofFields, PyJson.get_dict, ProofRequest.scope, List.lookup_cons, lit_beq, PyJson.asInt] using hexpiry

theorem scope_ext {texts : String → PyStr} (h : ∀ member ∈ request.scope, texts member.1 = member.2) :
    (∀ member ∈ other.scope, member.2 = texts member.1) ↔ other.scope = request.scope := by
  simp only [ProofRequest.scope, List.forall_mem_cons, List.not_mem_nil, false_imp_iff, implies_true,
    and_true] at h ⊢
  obtain ⟨h1, h2, h3, h4, h5⟩ := h
  simp only [h1, h2, h3, h4, h5, List.cons.injEq, Prod.mk.injEq, true_and, and_true]

/-- What is compared is what the proof was issued for. -/
theorem bound_iff_covers {fields : PyJson}
    (hfields : fields = proofFields lib request bodySha256 expiry nonce)
    (hbody : canonicalBodyHash lib request.body = .ok bodySha256) :
    ((now < expiry ∧ expiry ≤ now + MAX_TTL_SECONDS) ∧
        ∃ hash, canonicalBodyHash lib other.body = .ok hash ∧
          ∀ bound ∈ [("method", lib.strip (lib.upper other.method)), ("path", other.path),
              ("body_sha256", hash)] ++ other.scope,
            isAsciiText (fieldText fields bound.1) = true ∧ bound.2 = fieldText fields bound.1) ↔
      Covers lib request expiry other now := by
  obtain ⟨hmethod, hpath, hhash, hscope⟩ := fieldText_proofFields hfields
  have hscopes := @scope_ext request other (fieldText fields) hscope
  simp only [List.cons_append, List.nil_append, List.forall_mem_cons, hmethod, hpath, hhash]
  constructor
  · rintro ⟨⟨hfresh, hwindow⟩, hash, hother, ⟨hascii, hmethod'⟩, ⟨hascii', hpath'⟩, ⟨-, rfl⟩, hrest⟩
    have hscope' := hscopes.mp fun member hmem => (hrest member hmem).2
    refine ⟨hfresh, hwindow, hmethod', hpath', hother.trans hbody.symm, hscope', ?_⟩
    refine List.forall_mem_cons.mpr ⟨hmethod' ▸ hascii, List.forall_mem_cons.mpr ⟨hpath' ▸ hascii', ?_⟩⟩
    refine List.forall_mem_map.mpr fun member hmem => ?_
    obtain ⟨hmember, heq⟩ := hrest member hmem
    rwa [← heq] at hmember
  · rintro ⟨hfresh, hwindow, hmethod', hpath', hother, hscope', hascii⟩
    obtain ⟨hm, hp, hs⟩ : _ ∧ _ ∧ _ := by
      simpa only [List.forall_mem_cons] using hascii
    have hhex : isAsciiText bodySha256 = true := by
      obtain ⟨_, rfl⟩ := hexText_of_canonicalBodyHash hbody
      exact isAsciiText_hexEncode _
    refine ⟨⟨hfresh, hwindow⟩, bodySha256, hother.trans hbody, ⟨hmethod' ▸ hm, hmethod'⟩,
      ⟨hpath' ▸ hp, hpath'⟩, ⟨hhex, rfl⟩, fun member hmem => ?_⟩
    have heq := hscopes.mpr hscope' member hmem
    refine ⟨?_, heq⟩
    rw [← heq]
    exact List.forall_mem_map.mp hs member hmem

/-- The bytes of an envelope that is a dict encode to some text. -/
theorem encode_not_isEmpty {members : List (PyStr × PyJson)}
    (h : canonicalBytes (.dict members) = some bytes) : (Base64.encode bytes).isEmpty = false := by
  rw [Bool.eq_false_iff]
  intro hempty
  have hlist := congrArg String.toList (String.isEmpty_iff.mp hempty)
  rw [Base64.encode, String.toList_ofList] at hlist
  have hlength := congrArg List.length hlist
  rw [Base64.length_chars] at hlength
  have hpos := List.length_pos_iff.mpr (canonicalBytes_ne_nil h)
  change (4 * bytes.length + 2) / 3 = 0 at hlength
  omega

theorem proofJson_eq_ok {value : PyJson} : proofJson lib value = .ok bytes ↔
    lib.stack.encodes value = true ∧ canonicalBytes value = some bytes := by
  simp [proofJson, bind_eq_ok]

theorem proofSignature_congr {fields fields' : PyJson}
    (hsignature : proofSignature lib secret fields = .ok signature)
    (hencodes : lib.stack.encodes fields' = true)
    (hbytes : canonicalBytes fields' = canonicalBytes fields) :
    proofSignature lib secret fields' = .ok signature := by
  simp only [proofSignature, bind_eq_ok, proofJson_eq_ok] at hsignature ⊢
  obtain ⟨key, hkey, message, ⟨-, hmessage⟩, heq⟩ := hsignature
  exact ⟨key, hkey, message, ⟨hencodes, hbytes.trans hmessage⟩, heq⟩

/-- What the verifier reads of an issued header that is not too long, all of it checked
    but for the clock and the request. -/
theorem decodeProof_issued (hmac : ∀ key message, (lib.hashlib.hmacSha256 key message).length = 32)
    (hsigned : signedEnvelope lib secret request expiresAt nonce issued = .ok envelope)
    (hjson : proofJson lib envelope = .ok bytes) (hread : ReadsBack lib envelope bytes)
    (hlength : (Base64.encode bytes).length ≤ 4096) :
    ∃ fields signature bodySha256, decodeProof lib (proofHeader bytes) = .ok (fields, signature) ∧
      canonicalBodyHash lib request.body = .ok bodySha256 ∧
      validateProofFields fields = .ok (expiresAt.getD (issued + 30)) ∧
      proofSignature lib secret fields = .ok signature ∧ isAsciiText signature = true ∧
      ∀ key, fieldText fields key = fieldText (proofFields lib request bodySha256
        (expiresAt.getD (issued + 30)) nonce) key := by
  obtain ⟨bodySha256, signature, hbody, ⟨expiry, hvalid⟩, hsignature, henvelope⟩ :=
    signedEnvelope_eq_ok hsigned
  obtain ⟨key, message, htext⟩ := hexText_of_proofSignature hsignature
  obtain ⟨members, hfields, hkeys⟩ := @proofFields_dict lib request nonce bodySha256
    (expiresAt.getD (issued + 30))
  obtain ⟨_, entries, henvelope', hloads, hperm, hencodes⟩ := hread.loads
  rw [hfields] at henvelope
  obtain rfl := PyJson.dict.inj (henvelope'.symm.trans henvelope)
  obtain ⟨hget, hgets, hhas, hbytes⟩ := fields_of_readsBack rfl hkeys rfl hperm
  obtain rfl := expiry_of_validate hvalid
  rw [hfields] at hvalid hsignature
  refine ⟨_, signature, bodySha256, decodeProof_header hlength ?_ hread.b64decode hread.parses hloads rfl hget
    ?_ hhas, hbody, ?_, ?_, ?_, ?_⟩
  · rw [henvelope'] at hjson
    exact encode_not_isEmpty (proofJson_eq_ok.mp hjson).2
  · rw [htext, length_hexEncode, hmac]
  · exact (validateProofFields_congr hgets).trans hvalid
  · exact proofSignature_congr hsignature hencodes hbytes
  · rw [htext]
    exact isAsciiText_hexEncode _
  · intro key
    rw [hfields, fieldText, fieldText, hgets]

/-- An issued proof holds for a request, read back and verified with the secret that it
    was signed with, exactly if its header is not too long and the request is the one
    that it was issued for. -/
theorem verifyCapabilityProof_signed_iff
    (hmac : ∀ key message, (lib.hashlib.hmacSha256 key message).length = 32)
    (hsign : signCapabilityProof lib secret request expiresAt nonce issued = .ok header)
    (hread : ∀ envelope bytes,
      signedEnvelope lib secret request expiresAt nonce issued = .ok envelope →
        proofJson lib envelope = .ok bytes → ReadsBack lib envelope bytes) :
    (∃ proof, verifyCapabilityProof lib secret header other now = .ok proof) ↔
      header.length ≤ 4099 ∧ Covers lib request (expiresAt.getD (issued + 30)) other now := by
  simp only [signCapabilityProof, bind_eq_ok, pure_eq_ok] at hsign
  obtain ⟨envelope, hsigned, bytes, hjson, rfl⟩ := hsign
  have hback := hread envelope bytes hsigned hjson
  have hlen : (proofHeader bytes).length ≤ 4099 ↔ (Base64.encode bytes).length ≤ 4096 := by
    rw [length_proofHeader]
    omega
  rw [hlen]
  constructor
  · rintro ⟨proof, hverify⟩
    have hlength : (Base64.encode bytes).length ≤ 4096 := by
      obtain ⟨⟨fields, signature⟩, hdecode, -⟩ := bind_eq_ok.mp hverify
      exact length_of_decodeProof hdecode
    obtain ⟨fields, signature, bodySha256, hdecode, hbody, hvalid, hsignature, hascii, htexts⟩ :=
      decodeProof_issued hmac hsigned hjson hback hlength
    have hbound := (verify_iff_bound hdecode hvalid hsignature hascii).mp ⟨proof, hverify⟩
    simp only [htexts] at hbound
    exact ⟨hlength, (bound_iff_covers rfl hbody).mp hbound⟩
  · rintro ⟨hlength, hcovers⟩
    obtain ⟨fields, signature, bodySha256, hdecode, hbody, hvalid, hsignature, hascii, htexts⟩ :=
      decodeProof_issued hmac hsigned hjson hback hlength
    have hbound := (@bound_iff_covers lib request other nonce bodySha256 now _ _ rfl hbody).mpr hcovers
    refine (verify_iff_bound hdecode hvalid hsignature hascii).mpr ?_
    simpa only [htexts] using hbound

end Issued

/-! ## A search -/

section Search

def searchBodyDigest : List UInt8 :=
  [68, 19, 111, 163, 85, 179, 103, 138, 17, 70, 173, 22, 247, 232, 100, 158, 148, 251, 79, 194, 31, 231, 126,
   131, 16, 192, 96, 246, 28, 170, 255, 138]

def searchDigest : List UInt8 :=
  [102, 178, 21, 215, 91, 234, 151, 153, 220, 129, 237, 80, 207, 238, 53, 23, 162, 133, 217, 95, 192, 229, 203,
   169, 181, 25, 121, 160, 213, 115, 59, 112]

def searchRequest : ProofRequest :=
  ⟨lit "POST", lit "/search", .dict [], lit "t", lit "u", lit "s", lit "e", lit "r"⟩

def searchFields : List (PyStr × PyJson) :=
  [(lit "schema_version", .str SCHEMA_VERSION), (lit "method", .str (lit "POST")), (lit "path", .str (lit "/search")),
   (lit "body_sha256", .str (lit (hexEncode searchBodyDigest))), (lit "tenant_id", .str (lit "t")),
   (lit "user_id", .str (lit "u")), (lit "session_id", .str (lit "s")), (lit "execution_id", .str (lit "e")),
   (lit "run_id", .str (lit "r")), (lit "expires_at", .int 130), (lit "nonce", .str (lit "n"))]

def searchEnvelope : List (PyStr × PyJson) :=
  searchFields ++ [(lit "signature", .str (lit (hexEncode searchDigest)))]

/-- The members in the order of their keys. -/
def searchRead : List (PyStr × PyJson) :=
  [3, 7, 9, 1, 10, 2, 8, 0, 6, 11, 4, 5].map (searchEnvelope.getD · (lit "", .none))

theorem searchRead_perm : searchRead.Perm searchEnvelope := by
  have horder : [3, 7, 9, 1, 10, 2, 8, 0, 6, 11, 4, 5].Perm (List.range 12) := by decide
  exact horder.map (searchEnvelope.getD · (lit "", .none))

/-- What the library computes for the search. -/
def searchLibrary : ProofLibrary where
  hashlib := ⟨fun _ => searchBodyDigest, fun _ _ => searchDigest⟩
  stack := ⟨fun _ => true, fun _ => true, fun _ => true, fun _ => true⟩
  upper := id
  strip := id
  b64decode := fun _ => canonicalBytes (.dict searchEnvelope)
  loads := fun _ => some (.dict searchRead)

def searchSecret : List UInt8 := List.replicate 32 107

theorem sign_search :
    (signCapabilityProof searchLibrary searchSecret searchRequest none (lit "n") 100).isOk = true := by
  decide +kernel

theorem length_search :
    (canonicalBytes (.dict searchEnvelope)).all (fun bytes => decide (bytes.length ≤ 3072)) = true := by
  decide +kernel

theorem envelope_search {envelope : PyJson}
    (h : signedEnvelope searchLibrary searchSecret searchRequest none (lit "n") 100 = .ok envelope) :
    envelope = .dict searchEnvelope := by
  obtain ⟨bodySha256, signature, hbody, -, hsignature, rfl⟩ := signedEnvelope_eq_ok h
  obtain ⟨key, message, rfl⟩ := hexText_of_proofSignature hsignature
  obtain ⟨bytes, rfl⟩ := hexText_of_canonicalBodyHash hbody
  have hkeys : searchFields.map Prod.fst = signedKeys.map lit := by
    simp [searchFields, signedKeys, SCOPE_FIELDS]
  have hnew : lit "signature" ∉ searchFields.map Prod.fst := hkeys ▸ signature_not_mem_signedKeys
  have hfields : proofFields searchLibrary searchRequest (lit (hexEncode searchBodyDigest)) 130 (lit "n") =
      .dict searchFields := rfl
  change (proofFields searchLibrary searchRequest (lit (hexEncode searchBodyDigest)) 130 (lit "n")).set
    (lit "signature") (.str (lit (hexEncode searchDigest))) = _
  rw [hfields, PyJson.set, Assoc.set_of_not_mem hnew, searchEnvelope]

theorem verifyCapabilityProof_search : ∃ header proof,
    signCapabilityProof searchLibrary searchSecret searchRequest none (lit "n") 100 = .ok header ∧
      verifyCapabilityProof searchLibrary searchSecret header searchRequest 120 = .ok proof := by
  obtain ⟨header, hsign⟩ := exists_ok_of_isOk sign_search
  have hbytes : ∀ envelope bytes,
      signedEnvelope searchLibrary searchSecret searchRequest none (lit "n") 100 = .ok envelope →
        proofJson searchLibrary envelope = .ok bytes →
          envelope = .dict searchEnvelope ∧ canonicalBytes (.dict searchEnvelope) = some bytes := by
    intro envelope bytes hsigned hjson
    obtain rfl := envelope_search hsigned
    exact ⟨rfl, (proofJson_eq_ok.mp hjson).2⟩
  have hlength : header.length ≤ 4099 := by
    obtain ⟨envelope, hsigned, hencode⟩ := bind_eq_ok.mp hsign
    obtain ⟨bytes, hjson, hheader⟩ := bind_eq_ok.mp hencode
    obtain rfl := Except.ok.inj hheader
    have hle := length_search
    rw [(hbytes envelope bytes hsigned hjson).2] at hle
    have hchars := Base64.length_chars bytes
    have hle' := of_decide_eq_true hle
    rw [length_proofHeader, ← String.length_toList, Base64.encode, String.toList_ofList]
    omega
  have hread : ∀ envelope bytes,
      signedEnvelope searchLibrary searchSecret searchRequest none (lit "n") 100 = .ok envelope →
        proofJson searchLibrary envelope = .ok bytes → ReadsBack searchLibrary envelope bytes := by
    intro envelope bytes hsigned hjson
    obtain ⟨henvelope, hcanonical⟩ := hbytes envelope bytes hsigned hjson
    refine ⟨?_, rfl, searchEnvelope, searchRead, henvelope, rfl, searchRead_perm, rfl⟩
    simp only [searchLibrary]
    exact hcanonical
  have hmac : ∀ key message, (searchLibrary.hashlib.hmacSha256 key message).length = 32 := fun _ _ => rfl
  have hcovers : Covers searchLibrary searchRequest (none.getD (100 + 30)) searchRequest 120 := by
    refine ⟨by decide, by decide, rfl, rfl, rfl, rfl, ?_⟩
    decide +kernel
  obtain ⟨proof, hverify⟩ := (verifyCapabilityProof_signed_iff hmac hsign hread).mpr ⟨hlength, hcovers⟩
  exact ⟨header, proof, hsign, hverify⟩

end Search

end AiPlatform.Gateway
