/-
  AiPlatform.Gateway.Signature

  What a signature of the second version vouches for.

  The message that is signed is a text of lines, of which the path may hold any
  number and the identity as many as there are identity headers.  Both are found
  again from the end: the last three lines are the request id, the time and the
  key id, an identity line holds a colon where the digest before it holds none,
  and what is left before the query is the path.  So one message is one request.
  The header, a text of fields with colons between them, is one list of fields only
  when the request id has no colon.
-/

import AiPlatform.Capability.PythonCanonical
import AiPlatform.Gateway.GatewaySecret

namespace AiPlatform.Gateway

open AiPlatform.Capability AiPlatform.Checks

/-! ## Texts without a separator -/

/-- The text is one line. -/
def OneLine (text : String) : Prop := '\n' ∉ text.toList

variable {text left right : String} {bytes : List UInt8} {c sep : Char}

theorem utf8_injective (h : utf8 left = utf8 right) : left = right := toUTF8_injective h

theorem hexDigit_bare {n : Nat} (hn : n < 16) :
    hexDigit n ≠ ':' ∧ hexDigit n ≠ '\n' ∧ (hexDigit n).toNat < 128 := by
  interval_cases n <;> decide

theorem hexEncode_colonFree (bytes : List UInt8) : ':' ∉ (hexEncode bytes).toList := fun h => by
  obtain ⟨n, hn, heq⟩ := mem_hexEncode h
  exact (hexDigit_bare hn).1 heq.symm

theorem hexEncode_oneLine (bytes : List UInt8) : OneLine (hexEncode bytes) := fun h => by
  obtain ⟨n, hn, heq⟩ := mem_hexEncode h
  exact (hexDigit_bare hn).2.1 heq.symm

theorem isAscii_hexEncode (bytes : List UInt8) : isAscii (hexEncode bytes) = true := by
  refine List.all_eq_true.mpr fun c hc => ?_
  obtain ⟨n, hn, rfl⟩ := mem_hexEncode hc
  exact decide_eq_true (hexDigit_bare hn).2.2

theorem mem_toString_int {n : Int} (h : c ∈ (toString n).toList) : c.isDigit = true ∨ c = '-' := by
  have hdigits : ∀ k : Nat, c ∈ (toString k).toList → c.isDigit = true := fun k hk =>
    Nat.isDigit_of_mem_toDigits (by decide) (by decide) (Nat.toList_repr ▸ hk)
  cases n with
  | ofNat k => exact .inl (hdigits k h)
  | negSucc k =>
    have hsign : toString (Int.negSucc k) = "-" ++ toString (k + 1) := rfl
    rw [hsign, String.toList_append] at h
    rcases List.mem_append.mp h with h | h
    · exact .inr (List.mem_singleton.mp h)
    · exact .inl (hdigits _ h)

theorem toString_int_bare (n : Int) : ':' ∉ (toString n).toList ∧ OneLine (toString n) := by
  constructor
  · intro h
    rcases mem_toString_int h with hdigit | heq
    · exact absurd hdigit (by decide)
    · exact absurd heq (by decide)
  · intro h
    rcases mem_toString_int h with hdigit | heq
    · exact absurd hdigit (by decide)
    · exact absurd heq (by decide)

theorem isBinding_oneLine (h : isBinding text = true) : OneLine text := fun hmem => by
  simp only [isBinding, Bool.and_eq_true, List.all_eq_true] at h
  exact absurd (h.2 '\n' hmem) (by decide)

theorem signedName_colonFree (h : text ∈ SIGNED_IDENTITY_HEADERS) : ':' ∉ text.toList := by
  revert text
  decide

theorem signedName_oneLine (h : text ∈ SIGNED_IDENTITY_HEADERS) : OneLine text := by
  revert text
  unfold OneLine
  decide

/-! ## The identity -/

variable {headers headers' : Option HeaderItems}

/-- A header of the normalized identity has a signed name and the value of a header
    that was given. -/
theorem mem_normalizedIdentity {header : String × String}
    (h : header ∈ normalizedIdentity headers) :
    header.1 ∈ SIGNED_IDENTITY_HEADERS ∧
      ∃ given ∈ headers.getD [], lower given.1 = header.1 ∧ given.2 = header.2 := by
  obtain ⟨given, hgiven, rfl⟩ := List.mem_map.mp (KeyedList.mem_of_mem_collectByKey h)
  obtain ⟨hmem, hsigned⟩ := List.mem_filter.mp hgiven
  exact ⟨List.contains_iff_mem.mp hsigned, given, hmem, rfl, rfl⟩

/-- The values of the identity headers are lines. -/
def OneLineIdentity (headers : Option HeaderItems) : Prop :=
  ∀ header ∈ headers.getD [], lower header.1 ∈ SIGNED_IDENTITY_HEADERS → OneLine header.2

def identityLine (header : String × String) : String := header.1 ++ ":" ++ header.2

/-- The line of an identity header holds a colon. -/
def Tagged (line : String) : Prop := ':' ∈ line.toList

theorem tagged_identityLine (header : String × String) : Tagged (identityLine header) := by
  simp [Tagged, identityLine]

/-- The lines the identity adds to the message. -/
theorem split_canonicalIdentityHeaders (h : OneLineIdentity headers) :
    Fields.split '\n' (canonicalIdentityHeaders headers) =
      match normalizedIdentity headers with
      | [] => [""]
      | first :: rest => (first :: rest).map identityLine := by
  have hlines : ∀ line ∈ (normalizedIdentity headers).map identityLine, '\n' ∉ line.toList := by
    intro line hline
    obtain ⟨header, hheader, rfl⟩ := List.mem_map.mp hline
    obtain ⟨hsigned, given, hgiven, hlower, hvalue⟩ := mem_normalizedIdentity hheader
    have hname : '\n' ∉ header.1.toList := signedName_oneLine hsigned
    have hone : '\n' ∉ header.2.toList := hvalue ▸ h given hgiven (hlower ▸ hsigned)
    simp [identityLine, hname, hone]
  have heq : canonicalIdentityHeaders headers =
      Fields.join '\n' ((normalizedIdentity headers).map identityLine) := rfl
  rw [heq]
  cases hnormal : normalizedIdentity headers with
  | nil => rfl
  | cons first rest =>
    rw [hnormal] at hlines
    exact Fields.split_join_bare (by simp) hlines

theorem append_colon_inj {name name' value value' : String} (hname : ':' ∉ name.toList)
    (hname' : ':' ∉ name'.toList) (h : name ++ ":" ++ value = name' ++ ":" ++ value') :
    name = name' ∧ value = value' := by
  have hchars := congrArg String.toList h
  simp only [String.toList_append] at hchars
  rw [List.append_assoc, List.append_assoc] at hchars
  have hsplit := congrArg (List.splitOn ':') hchars
  rw [show (":" : String).toList = [':'] from rfl, List.singleton_append, List.singleton_append,
    List.splitOn_append_cons_self_of_not_mem hname,
    List.splitOn_append_cons_self_of_not_mem hname'] at hsplit
  obtain ⟨hfirst, -⟩ := List.cons.inj hsplit
  obtain rfl : name = name' := String.toList_injective hfirst
  exact ⟨rfl, String.append_right_inj _ |>.mp h⟩

theorem map_identityLine_injective {first second : HeaderItems}
    (hfirst : ∀ header ∈ first, header.1 ∈ SIGNED_IDENTITY_HEADERS)
    (hsecond : ∀ header ∈ second, header.1 ∈ SIGNED_IDENTITY_HEADERS)
    (h : first.map identityLine = second.map identityLine) : first = second := by
  induction first generalizing second with
  | nil => exact (List.map_eq_nil_iff.mp h.symm).symm
  | cons x xs ih =>
    cases second with
    | nil => cases h
    | cons y ys =>
      obtain ⟨hx, hxs⟩ := List.forall_mem_cons.mp hfirst
      obtain ⟨hy, hys⟩ := List.forall_mem_cons.mp hsecond
      obtain ⟨hline, hrest⟩ := List.cons.inj h
      obtain ⟨hname, hvalue⟩ :=
        append_colon_inj (signedName_colonFree hx) (signedName_colonFree hy) hline
      rw [ih hxs hys hrest, Prod.ext hname hvalue]

/-! ## The message that is signed -/

/-- The same request as far as the signature goes. -/
structure SameRequest (first second : SecretRequest) : Prop where
  method : upper (first.method.getD "") = upper (second.method.getD "")
  path : first.path.getD "" = second.path.getD ""
  query : first.query.getD "" = second.query.getD ""
  body : Body.data first.body = Body.data second.body
  identity : normalizedIdentity first.identityHeaders = normalizedIdentity second.identityHeaders

/-- The method, the query and the values of the identity headers are lines, as they
    are when they come with an HTTP request; the path may hold decoded newlines. -/
structure OneLineRequest (request : SecretRequest) : Prop where
  method : OneLine (request.method.getD "")
  query : OneLine (request.query.getD "")
  identity : OneLineIdentity request.identityHeaders

theorem toUpper_eq_newline (h : c.toUpper = '\n') : c = '\n' := by
  unfold Char.toUpper at h
  split at h
  · rename_i hlower
    have hval := congrArg (fun d : Char => d.val.toNat) h
    simp only [UInt32.le_iff_toNat_le] at hlower hval
    exact absurd hval (by
      simp [UInt32.toNat_add] at hlower ⊢
      omega)
  · exact h

theorem upper_oneLine (h : OneLine text) : OneLine (upper text) := fun hmem => by
  rw [upper, String.toList_ofList] at hmem
  obtain ⟨c, hc, heq⟩ := List.mem_map.mp hmem
  exact h (toUpper_eq_newline heq ▸ hc)

/-- The lines of the identity, as they stand in the message. -/
def identityLines (headers : Option HeaderItems) : List String :=
  Fields.split '\n' (canonicalIdentityHeaders headers)

variable {config config' : GatewaySecret} {request request' : SecretRequest}
  {hash hash' rid rid' ts ts' kid kid' : String}

theorem split_message (h : OneLineRequest request) (hhash : OneLine hash) (hrid : OneLine rid)
    (hts : OneLine ts) (hkid : OneLine kid) :
    Fields.split '\n' (Fields.join '\n' (config.canonicalFields request hash rid ts kid)) =
      config.callerService :: config.audience :: upper (request.method.getD "") ::
        (Fields.split '\n' (request.path.getD "") ++ [request.query.getD ""] ++
          hash :: identityLines request.identityHeaders ++ [rid, ts, kid]) := by
  rw [GatewaySecret.canonicalFields, Fields.split_join (List.cons_ne_nil _ _)]
  simp only [List.flatMap_cons, List.flatMap_nil,
    Fields.split_bare (isBinding_oneLine config.caller_binding),
    Fields.split_bare (isBinding_oneLine config.audience_binding),
    Fields.split_bare (upper_oneLine h.method), Fields.split_bare h.query, Fields.split_bare hhash,
    Fields.split_bare hrid, Fields.split_bare hts, Fields.split_bare hkid, identityLines]
  simp

/-- The digest and the identity after it are found from the end. -/
theorem identityLines_inj {front front' : List String} (h : OneLineIdentity headers)
    (h' : OneLineIdentity headers') (hhash : ':' ∉ hash.toList) (hhash' : ':' ∉ hash'.toList)
    (heq : front ++ hash :: identityLines headers = front' ++ hash' :: identityLines headers') :
    front = front' ∧ hash = hash' ∧
      normalizedIdentity headers = normalizedIdentity headers' := by
  have hsigned : ∀ header ∈ normalizedIdentity headers, header.1 ∈ SIGNED_IDENTITY_HEADERS :=
    fun _ hheader => (mem_normalizedIdentity hheader).1
  have hsigned' : ∀ header ∈ normalizedIdentity headers', header.1 ∈ SIGNED_IDENTITY_HEADERS :=
    fun _ hheader => (mem_normalizedIdentity hheader).1
  have hlast := congrArg List.getLast? heq
  rw [identityLines, identityLines, split_canonicalIdentityHeaders h,
    split_canonicalIdentityHeaders h'] at heq hlast
  have htagged : ∀ members : HeaderItems, ∀ line ∈ members.map identityLine, Tagged line := by
    intro members line hline
    obtain ⟨header, -, rfl⟩ := List.mem_map.mp hline
    exact tagged_identityLine header
  have hempty : ¬ Tagged "" := by simp [Tagged]
  -- The last line is empty exactly when there is no identity.
  have hmixed : ∀ (x : String × String) (rest : HeaderItems) (line : String) (before : List String),
      (before ++ line :: (x :: rest).map identityLine).getLast? ≠ some "" := by
    intro x rest line before hcontra
    have hmem := List.mem_of_getLast? hcontra
    rw [List.getLast?_append_of_ne_nil _ (List.cons_ne_nil _ _),
      List.getLast?_cons_of_ne_nil (by simp)] at hcontra
    exact hempty (htagged _ _ (List.mem_of_getLast? hcontra))
  cases hfirst : normalizedIdentity headers with
  | nil =>
    cases hsecond : normalizedIdentity headers' with
    | nil =>
      rw [hfirst, hsecond] at heq
      obtain ⟨hfront, hrest⟩ := List.append_inj' heq rfl
      exact ⟨hfront, (List.cons.inj hrest).1, rfl⟩
    | cons y ys =>
      rw [hfirst, hsecond] at hlast
      exact absurd (hlast.symm.trans (by simp)) (hmixed y ys hash' front')
  | cons x xs =>
    cases hsecond : normalizedIdentity headers' with
    | nil =>
      rw [hfirst, hsecond] at hlast
      exact absurd (hlast.trans (by simp)) (hmixed x xs hash front)
    | cons y ys =>
      rw [hfirst, hsecond] at heq
      rw [hfirst] at hsigned
      rw [hsecond] at hsigned'
      have hbare : ¬ Tagged hash := hhash
      obtain ⟨hfront, hhash, hlines⟩ :=
        Fields.append_tagged hbare hhash' (htagged _) (htagged _) heq
      exact ⟨hfront, hhash, map_identityLine_injective hsigned hsigned' hlines⟩

/-- One message is one request, with one id, one time and one key id. -/
theorem message_injective (h : OneLineRequest request) (h' : OneLineRequest request')
    (hhash : ':' ∉ hash.toList ∧ OneLine hash) (hhash' : ':' ∉ hash'.toList ∧ OneLine hash')
    (hrid : OneLine rid) (hrid' : OneLine rid') (hts : OneLine ts) (hts' : OneLine ts')
    (hkid : OneLine kid) (hkid' : OneLine kid')
    (heq : Fields.join '\n' (config.canonicalFields request hash rid ts kid) =
      Fields.join '\n' (config'.canonicalFields request' hash' rid' ts' kid')) :
    upper (request.method.getD "") = upper (request'.method.getD "") ∧
      request.path.getD "" = request'.path.getD "" ∧
      request.query.getD "" = request'.query.getD "" ∧ hash = hash' ∧
      normalizedIdentity request.identityHeaders = normalizedIdentity request'.identityHeaders := by
  have hlines := congrArg (Fields.split '\n') heq
  rw [split_message h hhash.2 hrid hts hkid, split_message h' hhash'.2 hrid' hts' hkid'] at hlines
  obtain ⟨-, hlines⟩ := List.cons.inj hlines
  obtain ⟨-, hlines⟩ := List.cons.inj hlines
  obtain ⟨hmethod, hlines⟩ := List.cons.inj hlines
  obtain ⟨hlines, -⟩ := List.append_inj' hlines rfl
  obtain ⟨hfront, hsame, hidentity⟩ :=
    identityLines_inj h.identity h'.identity hhash.1 hhash'.1 hlines
  obtain ⟨hpath, hquery⟩ := List.append_inj' hfront rfl
  exact ⟨hmethod, Fields.split_injective hpath, (List.cons.inj hquery).1, hsame, hidentity⟩

/-! ## What sign and verify do -/

variable {lib : Hashlib} {now : Int} {header sig expected given message : String}

theorem checkDigest_eq_ok (h : isAscii expected = true) {u : Unit} :
    GatewaySecret.checkDigest expected given message = .ok u ↔ expected = given := by
  rw [GatewaySecret.checkDigest, compareDigest, h, Bool.true_and]
  constructor
  · intro hok
    obtain ⟨same, hsame, hok⟩ := bind_eq_ok.mp hok
    rw [failIf_eq_ok, Bool.not_eq_false'] at hok
    split at hsame
    · rw [hok] at hsame
      exact beq_iff_eq.mp (Except.ok.inj hsame)
    · cases hsame
  · rintro rfl
    simp [h, failIf, bind, Except.bind]

theorem hmacV2_eq_ok : config.hmacV2 lib request hash rid ts kid = .ok sig ↔
    (config.keys.lookup kid).getD "" ≠ "" ∧
      hexEncode (lib.hmacSha256 (utf8 ((config.keys.lookup kid).getD ""))
        (utf8 (Fields.join '\n' (config.canonicalFields request hash rid ts kid)))) = sig := by
  simp only [GatewaySecret.hmacV2, bind_eq_ok, failIf_eq_ok, pure_eq_ok]
  constructor
  · rintro ⟨-, hkey, hsig⟩
    exact ⟨by simpa using hkey, hsig⟩
  · rintro ⟨hkey, hsig⟩
    exact ⟨(), by simpa using hkey, hsig⟩

theorem sign_eq_ok {tokenHex : String} {requestId : Option String} (h : config.version = .v2) :
    config.sign lib now tokenHex requestId request = .ok header ↔
      config.requireAllowedPath (request.path.getD "") = .ok () ∧
        ∃ sig, config.hmacV2 lib request (bodySha256 lib request.body)
            (orElse (requestId.getD "") tokenHex) (toString now) (orElse config.keyId "local") =
              .ok sig ∧
          Fields.join ':' ["v2", orElse config.keyId "local", orElse (requestId.getD "") tokenHex,
            toString now, bodySha256 lib request.body, sig] = header := by
  simp only [GatewaySecret.sign, h, bind_eq_ok, pure_eq_ok]
  constructor
  · rintro ⟨_, hpath, hsig⟩
    exact ⟨hpath, hsig⟩
  · rintro ⟨hpath, hsig⟩
    exact ⟨(), hpath, hsig⟩

theorem checkTimestamp_eq_ok {u : Unit} : config.checkTimestamp now ts = .ok u ↔
    ∃ n, int ts = some n ∧ (now - n).natAbs ≤ config.maxSkewMs := by
  simp only [GatewaySecret.checkTimestamp, bind_eq_ok, failIf_eq_ok, okOr_eq_ok,
    decide_eq_false_iff_not, Int.not_lt]

theorem check_eq_ok (h : config.version = .v2) :
    config.check lib now (some header) request = .ok rid ↔
      config.requireAllowedPath (request.path.getD "") = .ok () ∧
        ∃ kid ts sig, Fields.split ':' header =
            ["v2", kid, rid, ts, bodySha256 lib request.body, sig] ∧
          config.checkTimestamp now ts = .ok () ∧
          config.hmacV2 lib request (bodySha256 lib request.body) rid ts kid = .ok sig := by
  have hascii : isAscii (bodySha256 lib request.body) = true := isAscii_hexEncode _
  simp only [GatewaySecret.check, bind_eq_ok, failIf_eq_ok, Option.getD_some]
  constructor
  · rintro ⟨-, -, -, -, -, hversion, hchecks⟩
    rw [h, bne_eq_false_iff_eq] at hversion
    have hversion : (Fields.split ':' header).headD "" = "v2" := hversion
    rw [if_pos hversion] at hchecks
    unfold GatewaySecret.checkV2 at hchecks
    obtain ⟨_, hpath, hchecks⟩ := bind_eq_ok.mp hchecks
    refine ⟨hpath, ?_⟩
    split at hchecks
    · rename_i first kid rid' ts hash sig hparts
      simp only [bind_eq_ok, pure_eq_ok] at hchecks
      obtain ⟨_, htime, _, hbody, expected, hmac, _, hsig, rfl⟩ := hchecks
      obtain rfl := (checkDigest_eq_ok hascii).mp hbody
      have hexpected : isAscii expected = true := by
        rw [← (hmacV2_eq_ok.mp hmac).2]
        exact isAscii_hexEncode _
      obtain rfl := (checkDigest_eq_ok hexpected).mp hsig
      rw [hparts] at hversion
      obtain rfl : first = "v2" := hversion
      exact ⟨kid, ts, expected, hparts, htime, hmac⟩
    · cases hchecks
  · rintro ⟨hpath, kid, ts, sig, hparts, htime, hmac⟩
    have hsig : isAscii sig = true := by
      rw [← (hmacV2_eq_ok.mp hmac).2]
      exact isAscii_hexEncode _
    have hheader : header ≠ "" := by
      rintro rfl
      have hempty : Fields.split ':' "" = [""] := rfl
      rw [hempty] at hparts
      exact absurd (congrArg List.length hparts) (by simp)
    refine ⟨(), by simpa using hheader, (), by rw [hparts]; rfl, (), by rw [hparts, h]; rfl, ?_⟩
    rw [hparts, List.headD_cons, if_pos rfl, GatewaySecret.checkV2]
    simp only [bind_eq_ok, pure_eq_ok]
    exact ⟨(), hpath, (), htime, (), (checkDigest_eq_ok hascii).mpr rfl, sig, hmac, (),
      (checkDigest_eq_ok hsig).mpr rfl, trivial⟩

/-! ## Both sides -/

/-- Both sides speak the second version with the same keys, binding and scopes. -/
structure Peers (signer verifier : GatewaySecret) : Prop where
  signs : signer.version = .v2
  verifies : verifier.version = .v2
  keys : ∀ kid, signer.keys.lookup kid = verifier.keys.lookup kid
  callerService : signer.callerService = verifier.callerService
  audience : signer.audience = verifier.audience
  allowedPathPrefixes : signer.allowedPathPrefixes = verifier.allowedPathPrefixes

/-- A call of `sign` that has returned. -/
structure SignCall (lib : Hashlib) (signer : GatewaySecret) where
  now : Int
  tokenHex : String
  requestId : Option String
  request : SecretRequest
  header : String
  returned : signer.sign lib now tokenHex requestId request = .ok header

/-- The request id in the header. -/
def SignCall.usedId {signer : GatewaySecret} (call : SignCall lib signer) : String :=
  orElse (call.requestId.getD "") call.tokenHex

/-- The last field of a header, its code. -/
def mac (header : String) : Option String := (Fields.split ':' header).getLast?

variable {signer verifier : GatewaySecret} {call : SignCall lib signer}

/-- Every verifier accepts the header for the same request on its first use, with its
    clock within the skew. -/
def SignCall.AcceptedBack (call : SignCall lib signer) : Prop :=
  ∀ (verifier : GatewaySecret) (now storeNow : Int) (store : InMemoryReplayStore),
    Peers signer verifier → (now - call.now).natAbs ≤ verifier.maxSkewMs →
    call.usedId ∉ store.seen.map Prod.fst →
    (verifier.verify lib now storeNow (some call.header) call.request store).1 = .ok call.usedId

/-- A header is accepted only for the request of a call that has signed, where its
    code is one that a call has made. -/
def Vouch (calls : Set (SignCall lib signer)) : Prop :=
  ∀ (verifier : GatewaySecret) (now storeNow : Int) (store : InMemoryReplayStore)
    (header rid : String) (request : SecretRequest), Peers signer verifier →
    (verifier.verify lib now storeNow (some header) request store).1 = .ok rid →
    OneLine header → OneLineRequest request →
    (∃ call ∈ calls, OneLine call.header ∧ OneLineRequest call.request ∧
      mac header = mac call.header) →
    ∃ call ∈ calls, SameRequest call.request request

theorem verify_eq_ok {storeNow : Int} {store : InMemoryReplayStore} :
    (config.verify lib now storeNow (some header) request store).1 = .ok rid ↔
      config.check lib now (some header) request = .ok rid ∧
        (store.seenOrRecord storeNow rid config.replayTtlMs).1 = false := by
  unfold GatewaySecret.verify InMemoryReplayStore.consume
  cases hcheck : config.check lib now (some header) request with
  | error failure => exact ⟨nofun, fun h => absurd h.1 nofun⟩
  | ok id =>
    dsimp only [Except.map]
    rcases hseen : store.seenOrRecord storeNow id config.replayTtlMs with ⟨_ | _, store'⟩
    · constructor
      · intro h
        obtain rfl := Except.ok.inj h
        exact ⟨rfl, by rw [hseen]⟩
      · exact fun h => h.1
    · constructor
      · nofun
      · rintro ⟨h, hnew⟩
        obtain rfl := Except.ok.inj h
        rw [hseen] at hnew
        cases hnew

theorem seenOrRecord_of_not_mem {storeNow ttl : Int} {store : InMemoryReplayStore}
    (h : rid ∉ store.seen.map Prod.fst) : (store.seenOrRecord storeNow rid ttl).1 = false := by
  have hnone : (ExpiryQueue.dropStale storeNow store.seen).lookup rid = none := by
    refine List.lookup_eq_none_iff.mpr fun entry hentry => ?_
    have hmem := (List.dropWhile_suffix _).mem hentry
    exact bne_iff_ne.mpr fun heq => h (List.mem_map.mpr ⟨entry, hmem, heq.symm⟩)
  rw [InMemoryReplayStore.seenOrRecord, hnone]
  rfl

/-! ## A header that comes back -/

theorem keyId_valid (config : GatewaySecret) :
    orElse config.keyId "local" = config.keyId ∧ ':' ∉ config.keyId.toList := by
  obtain ⟨key, hkey, heq⟩ := config.active
  obtain ⟨hne, hcolon, -⟩ := keyError_eq_none.mp (config.keys_valid key hkey)
  rw [← heq]
  exact ⟨if_neg hne, hcolon⟩

theorem Peers.hmacV2 (h : Peers signer verifier) : signer.hmacV2 lib request hash rid ts kid =
    verifier.hmacV2 lib request hash rid ts kid := by
  have hfields : signer.canonicalFields request hash rid ts kid =
      verifier.canonicalFields request hash rid ts kid := by
    rw [GatewaySecret.canonicalFields, GatewaySecret.canonicalFields, h.callerService, h.audience]
  rw [GatewaySecret.hmacV2, GatewaySecret.hmacV2, h.keys, hfields]

theorem Peers.requireAllowedPath (h : Peers signer verifier) :
    signer.requireAllowedPath text = verifier.requireAllowedPath text := by
  rw [GatewaySecret.requireAllowedPath, GatewaySecret.requireAllowedPath, h.allowedPathPrefixes]

/-- The fields of the header of a call. -/
theorem SignCall.fields (hv2 : signer.version = .v2) (call : SignCall lib signer) :
    signer.requireAllowedPath (call.request.path.getD "") = .ok () ∧
      ∃ sig, signer.hmacV2 lib call.request (bodySha256 lib call.request.body) call.usedId
          (toString call.now) signer.keyId = .ok sig ∧ ':' ∉ sig.toList ∧
        call.header = Fields.join ':' ["v2", signer.keyId, call.usedId, toString call.now,
          bodySha256 lib call.request.body, sig] := by
  obtain ⟨hpath, sig, hsig, hheader⟩ := (sign_eq_ok hv2).mp call.returned
  rw [(keyId_valid signer).1] at hsig hheader
  refine ⟨hpath, sig, hsig, ?_, hheader.symm⟩
  rw [← (hmacV2_eq_ok.mp hsig).2]
  exact hexEncode_colonFree _

theorem SameRequest.hmacV2 (h : SameRequest request request') :
    config.hmacV2 lib request hash rid ts kid = config.hmacV2 lib request' hash rid ts kid := by
  have hfields : config.canonicalFields request hash rid ts kid =
      config.canonicalFields request' hash rid ts kid := by
    rw [GatewaySecret.canonicalFields, GatewaySecret.canonicalFields, h.method, h.path, h.query,
      canonicalIdentityHeaders, canonicalIdentityHeaders, h.identity]
  rw [GatewaySecret.hmacV2, GatewaySecret.hmacV2, hfields]

/-- The header of a call passes the checks for every request that is the same. -/
theorem SignCall.passes (hv2 : signer.version = .v2) (h : ':' ∉ call.usedId.toList)
    (hpeers : Peers signer verifier) (hskew : (now - call.now).natAbs ≤ verifier.maxSkewMs)
    (hsame : SameRequest call.request request) :
    verifier.check lib now (some call.header) request = .ok call.usedId := by
  obtain ⟨hpath, sig, hsig, hcolon, hheader⟩ := call.fields hv2
  have hhash : bodySha256 lib request.body = bodySha256 lib call.request.body := by
    rw [bodySha256, bodySha256, hsame.body]
  refine (check_eq_ok hpeers.verifies).mpr
    ⟨?_, signer.keyId, toString call.now, sig, ?_, ?_, ?_⟩
  · rw [← hsame.path, ← hpeers.requireAllowedPath]
    exact hpath
  · rw [hheader, hhash]
    refine Fields.split_join_bare (List.cons_ne_nil _ _) ?_
    simp only [List.forall_mem_cons]
    exact ⟨by decide, (keyId_valid signer).2, h, (toString_int_bare _).1, hexEncode_colonFree _,
      hcolon, nofun⟩
  · exact checkTimestamp_eq_ok.mpr ⟨call.now, int_toString _, hskew⟩
  · rw [hhash, ← hsame.hmacV2, ← hpeers.hmacV2]
    exact hsig

theorem SignCall.acceptedBack (hv2 : signer.version = .v2) (h : ':' ∉ call.usedId.toList) :
    call.AcceptedBack := by
  intro verifier now storeNow store hpeers hskew hfirst
  have hcheck := SignCall.passes hv2 h hpeers hskew ⟨rfl, rfl, rfl, rfl, rfl⟩
  exact verify_eq_ok.mpr ⟨hcheck, seenOrRecord_of_not_mem hfirst⟩

/-- The header of a request id with a colon has too many fields. -/
theorem SignCall.not_acceptedBack (hv2 : signer.version = .v2) (h : ':' ∈ call.usedId.toList) :
    ¬ call.AcceptedBack := by
  intro hback
  obtain ⟨-, sig, -, -, hheader⟩ := call.fields hv2
  have hpeers : Peers signer { signer with maxSkewMs := 0 } := ⟨hv2, hv2, fun _ => rfl, rfl, rfl, rfl⟩
  have hok := hback _ call.now call.now (.new 1) hpeers (by simp) List.not_mem_nil
  obtain ⟨-, kid, ts, sig', hparts, -, -⟩ :=
    (check_eq_ok hpeers.verifies).mp (verify_eq_ok.mp hok).1
  rw [hheader, Fields.split_join (List.cons_ne_nil _ _)] at hparts
  have hlength := congrArg List.length hparts
  have htwo := Fields.two_le_length_split h
  have hone : ∀ text, 1 ≤ (Fields.split ':' text).length := fun text =>
    List.length_pos_iff.mpr (Fields.split_ne_nil text)
  simp only [List.flatMap_cons, List.flatMap_nil, List.length_append, List.length_nil,
    List.length_cons] at hlength
  have hversion := hone "v2"
  have hkid := hone signer.keyId
  have hts := hone (toString call.now)
  have hhash := hone (bodySha256 lib call.request.body)
  have hsig := hone sig
  omega

/-! ## A code vouches for one request -/

/-- A header that passes the checks with the code of a call is for its request. -/
theorem SignCall.fields_eq (hv2 : signer.version = .v2) (hmac : Function.Injective2 lib.hmacSha256)
    (hpeers : Peers signer verifier)
    (hok : verifier.check lib now (some header) request = .ok rid)
    (hheader : OneLine header) (hrequest : OneLineRequest request) (hheader' : OneLine call.header)
    (hrequest' : OneLineRequest call.request) (hsame : mac header = mac call.header) :
    upper (call.request.method.getD "") = upper (request.method.getD "") ∧
      call.request.path.getD "" = request.path.getD "" ∧
      call.request.query.getD "" = request.query.getD "" ∧
      bodySha256 lib call.request.body = bodySha256 lib request.body ∧
      normalizedIdentity call.request.identityHeaders =
        normalizedIdentity request.identityHeaders := by
  obtain ⟨-, kid, ts, sig, hparts, -, hsig⟩ := (check_eq_ok hpeers.verifies).mp hok
  obtain ⟨-, sig', hsig', hcolon, hjoin⟩ := call.fields hv2
  have hone : ∀ field ∈ Fields.split ':' header, OneLine field := fun field hfield hmem =>
    hheader (Fields.mem_of_mem_split hfield hmem)
  have hone' : ∀ field ∈ ["v2", signer.keyId, call.usedId, toString call.now,
      bodySha256 lib call.request.body, sig'], OneLine field := fun field hfield hmem =>
    hheader' (hjoin ▸ Fields.mem_join hfield hmem)
  -- Both codes are the last fields.
  have hlast : mac header = some sig := by rw [mac, hparts]; rfl
  have hlast' : mac call.header = some sig' := by
    have hfields : ["v2", signer.keyId, call.usedId, toString call.now,
        bodySha256 lib call.request.body, sig'] = ["v2", signer.keyId, call.usedId,
          toString call.now, bodySha256 lib call.request.body] ++ [sig'] := rfl
    rw [mac, hjoin, hfields, Fields.getLast?_split_join hcolon]
  obtain rfl : sig = sig' := Option.some.inj (hlast.symm.trans (hsame.trans hlast'))
  obtain ⟨-, heq⟩ := hmacV2_eq_ok.mp hsig
  obtain ⟨-, heq'⟩ := hmacV2_eq_ok.mp hsig'
  have hmessage := utf8_injective (hmac (hexEncode_injective (heq'.trans heq.symm))).2
  have hhash : ∀ body, ':' ∉ (bodySha256 lib body).toList ∧ OneLine (bodySha256 lib body) :=
    fun _ => ⟨hexEncode_colonFree _, hexEncode_oneLine _⟩
  rw [hparts] at hone
  simp only [List.forall_mem_cons] at hone hone'
  obtain ⟨-, hkid, hrid, hts, -⟩ := hone
  obtain ⟨-, hkid', hrid', hts', -⟩ := hone'
  exact message_injective hrequest' hrequest (hhash _) (hhash _) hrid' hrid hts' hts hkid' hkid
    hmessage

theorem vouch (hv2 : signer.version = .v2) (hsha : Function.Injective lib.sha256)
    (hmac : Function.Injective2 lib.hmacSha256) (calls : Set (SignCall lib signer)) :
    Vouch calls := by
  intro verifier now storeNow store header rid request hpeers hok hheader hrequest hmade
  obtain ⟨call, hcall, hheader', hrequest', hsame⟩ := hmade
  obtain ⟨hmethod, hpath, hquery, hbody, hidentity⟩ :=
    call.fields_eq hv2 hmac hpeers (verify_eq_ok.mp hok).1 hheader hrequest hheader' hrequest' hsame
  exact ⟨call, hcall, hmethod, hpath, hquery, hsha (hexEncode_injective hbody), hidentity⟩

def sampleSigner : GatewaySecret where
  secret := "0123456789abcdef"
  maxSkewMs := 60000
  replayTtlMs := 120000
  headerName := "X-Gateway-Secret"
  version := .v2
  keyId := "local"
  keys := [("local", "0123456789abcdef")]
  callerService := "gateway"
  audience := "internal"
  allowedPathPrefixes := []
  secret_length := by decide
  caller_binding := by decide
  audience_binding := by decide
  keys_valid := by decide
  active := ⟨_, List.mem_singleton_self _, rfl⟩

/-- The defaults of the dataclass give this signer. -/
example : (SecretArguments.postInit { secret := "0123456789abcdef" } fun _ => "").map
    (fun config => (config.keyId, config.keys)) = .ok ("local", [("local", "0123456789abcdef")]) := by
  decide +kernel

def modelsRequest : SecretRequest where
  method := some "GET"
  path := some "/api/v1/models"
  identityHeaders := some [("X-User-Id", "user-a")]

/-- The digest of no bytes. -/
def emptyDigest : List UInt8 :=
  [0xe3, 0xb0, 0xc4, 0x42, 0x98, 0xfc, 0x1c, 0x14, 0x9a, 0xfb, 0xf4, 0xc8, 0x99, 0x6f, 0xb9, 0x24,
   0x27, 0xae, 0x41, 0xe4, 0x64, 0x9b, 0x93, 0x4c, 0xa4, 0x95, 0x99, 0x1b, 0x78, 0x52, 0xb8, 0x55]

/-- The message that is signed for the request with the id `req-1`. -/
def modelsMessage : List UInt8 :=
  utf8 (Fields.join '\n' ["gateway", "internal", "GET", "/api/v1/models", "", hexEncode emptyDigest,
    "x-user-id:user-a", "req-1", "1700000000000", "local"])

/-- Its code. -/
def modelsMac : List UInt8 :=
  [0x3d, 0x81, 0x20, 0x64, 0x7c, 0xdf, 0x67, 0x9a, 0x92, 0x5d, 0xa3, 0xcb, 0x2b, 0x90, 0xd1, 0xfc,
   0x6c, 0xdb, 0x20, 0xe4, 0xf1, 0xd6, 0xde, 0xd0, 0x54, 0xd9, 0x17, 0x44, 0x0b, 0xeb, 0xe3, 0xf0]

/-- A key and a message as one list. -/
def framed (key message : List UInt8) : List UInt8 :=
  key.flatMap (fun byte => [1, byte]) ++ 0 :: message

theorem framed_injective : Function.Injective2 framed := by
  intro key key' message message' h
  induction key generalizing key' with
  | nil =>
    cases key' with
    | nil => exact ⟨rfl, (List.cons.inj h).2⟩
    | cons byte key' => exact absurd (List.cons.inj h).1 (by decide)
  | cons byte key ih =>
    cases key' with
    | nil => exact absurd (List.cons.inj h).1 (by decide)
    | cons byte' key' =>
      obtain ⟨hbyte, hrest⟩ := List.cons.inj (List.cons.inj h).2
      have hframed : framed key message = framed key' message' := hrest
      subst hbyte
      obtain ⟨rfl, rfl⟩ := ih hframed
      exact ⟨rfl, rfl⟩

/-- The real digest and the real code of the request; of anything else an image that
    is not mistaken for them. -/
def sampleHashlib : Hashlib where
  sha256 := fun bytes => if bytes = [] then emptyDigest else 0 :: bytes
  hmacSha256 := fun key message =>
    if key = utf8 "0123456789abcdef" ∧ message = modelsMessage then modelsMac
    else 0 :: framed key message

theorem sampleHashlib_sha256 : Function.Injective sampleHashlib.sha256 := by
  intro bytes bytes' h
  simp only [sampleHashlib] at h
  split at h
  · split at h
    · rename_i hempty hempty'
      rw [hempty, hempty']
    · exact absurd (List.cons.inj h).1 (by decide)
  · split at h
    · exact absurd (List.cons.inj h).1 (by decide)
    · exact (List.cons.inj h).2

theorem sampleHashlib_hmacSha256 : Function.Injective2 sampleHashlib.hmacSha256 := by
  intro key key' message message' h
  simp only [sampleHashlib] at h
  split at h
  · split at h
    · rename_i hmodels hmodels'
      exact ⟨hmodels.1.trans hmodels'.1.symm, hmodels.2.trans hmodels'.2.symm⟩
    · exact absurd (List.cons.inj h).1 (by decide)
  · split at h
    · exact absurd (List.cons.inj h).1 (by decide)
    · exact framed_injective (List.cons.inj h).2

/-- A request signed under an id. -/
def sampleCall (requestId : Option String) (tokenHex : String) (request : SecretRequest) :
    SignCall sampleHashlib sampleSigner where
  now := 1700000000000
  tokenHex := tokenHex
  requestId := requestId
  request := request
  header := Fields.join ':' ["v2", "local", orElse (requestId.getD "") tokenHex, "1700000000000",
    bodySha256 sampleHashlib request.body,
    hexEncode (sampleHashlib.hmacSha256 (utf8 "0123456789abcdef") (utf8 (Fields.join '\n'
      (sampleSigner.canonicalFields request (bodySha256 sampleHashlib request.body)
        (orElse (requestId.getD "") tokenHex) "1700000000000" "local"))))]
  returned := (sign_eq_ok rfl).mpr ⟨rfl, _, hmacV2_eq_ok.mpr ⟨by decide, rfl⟩, rfl⟩

end AiPlatform.Gateway
