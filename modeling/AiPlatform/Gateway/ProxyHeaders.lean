/-
  AiPlatform.Gateway.ProxyHeaders

  The headers of a proxied request (`ServiceProxy._build_headers` of
  `proxy/base.py`) and the middleware that receives it.

  A dict keeps the spellings of a name apart, so a header of the client survives
  beside the trusted one unless it is stripped.  The signature is taken over the
  last header of a name and an application reads the first.
-/

import AiPlatform.Gateway.Signature

namespace AiPlatform.Gateway

open AiPlatform.Capability AiPlatform.Checks

/-! ## The proxy -/

def DEFAULT_INJECTED_IDENTITY_HEADERS : List String :=
  ["x-user-id", "x-tenant-id", "x-user-tier", "x-user-type", "x-user-roles", "x-user-email",
   "x-user-name"]

def DEFAULT_INJECTED_AUTH_HEADERS : List String := ["x-gateway-secret"]

def DEFAULT_STRIP_REQ : List String :=
  ["host", "connection", "transfer-encoding", "content-length"] ++
    DEFAULT_INJECTED_IDENTITY_HEADERS ++ DEFAULT_INJECTED_AUTH_HEADERS

/-- What `_build_headers` and the signer read of the client's request. -/
structure InboundRequest where
  method : String
  urlPath : String
  urlQuery : String
  headers : HeaderItems
  requestId : Option String := none
  traceparent : Option String := none
  tracestate : Option String := none

/-- The trusted headers, a dict. -/
structure UserHeaders where
  items : HeaderItems
  nodup : (KeyedList.Keys items).Nodup

/-- The first header of the lower-case name. -/
def headerGet (headers : HeaderItems) (name : String) : Option String :=
  (headers.find? fun header => lower header.1 == name).map Prod.snd

def hasHeader (headers : HeaderItems) (name : String) : Bool :=
  headers.any fun header => lower header.1 == name

/-- `out.update(items)` -/
def update (out items : HeaderItems) : HeaderItems :=
  items.foldl (fun out header => KeyedList.insertLast header out) out

/-- A value of `request.state`, unless the client has sent the header. -/
def forwardState (name : String) (value : Option String) (out : HeaderItems) : HeaderItems :=
  if value.getD "" = "" ∨ hasHeader out (lower name) then out
  else KeyedList.insertLast (name, value.getD "") out

/-- `_sign_request` -/
def signRequest (lib : Hashlib) (signer : GatewaySecret) (now : Int) (tokenHex upstreamPath : String)
    (body : Option (List UInt8)) (request : InboundRequest) (identityHeaders : HeaderItems) :
    Except SecretFailure (String × String) :=
  (signer.sign lib now tokenHex none
    { method := some request.method
      path := some (orElse upstreamPath request.urlPath)
      query := some request.urlQuery
      body := body.map .bytes
      identityHeaders := some identityHeaders }).map fun value => (signer.headerName, value)

def buildHeaders (stripReq : List String) (lib : Hashlib) (signer : Option GatewaySecret) (now : Int)
    (tokenHex upstreamPath : String) (body : Option (List UInt8)) (request : InboundRequest)
    (userHeaders : UserHeaders) : Except SecretFailure HeaderItems := do
  let kept := request.headers.filter fun header => !stripReq.contains (lower header.1)
  let out := update (KeyedList.collectLast kept) userHeaders.items
  let out := forwardState "X-Request-Id" request.requestId out
  let out := forwardState "traceparent" request.traceparent out
  let out := forwardState "tracestate" request.tracestate out
  match signer with
  | none => return out
  | some signer =>
      let signature ← signRequest lib signer now tokenHex upstreamPath body request userHeaders.items
      return KeyedList.insertLast signature out

/-! ## The middleware -/

def SAFE_PATHS : List String := ["/health", "/health/live", "/health/ready", "/metrics"]

structure GatewaySecretAuthMiddleware where
  gatewaySecret : GatewaySecret
  allowAnonymous : Bool := false
  separatelyAuthenticatedPaths : List String := []
  separatelyAuthenticatedPrefixes : List String := []

/-- What the middleware reads of a request. -/
structure ReceivedRequest where
  type : String
  method : String
  path : String
  query : String
  headers : HeaderItems
  body : List UInt8

/-- What becomes of the request: the application runs without a verification, or the
    answer is 401, or the application runs on a verified request. -/
inductive MiddlewareOutcome where
  | passedThrough
  | unauthorized
  | verified
  deriving DecidableEq, Repr

/-- `__call__` -/
def GatewaySecretAuthMiddleware.call (mw : GatewaySecretAuthMiddleware) (lib : Hashlib)
    (now storeNow : Int) (request : ReceivedRequest) (store : InMemoryReplayStore) :
    MiddlewareOutcome × InMemoryReplayStore :=
  if request.type ≠ "http" then (.passedThrough, store)
  else if SAFE_PATHS.contains request.path || mw.separatelyAuthenticatedPaths.contains request.path
      || mw.separatelyAuthenticatedPrefixes.any fun pathPrefix =>
        pathPrefix.toList.isPrefixOf request.path.toList then (.passedThrough, store)
  else
    match headerGet request.headers (lower mw.gatewaySecret.headerName) with
    | none => (if mw.allowAnonymous then .passedThrough else .unauthorized, store)
    | some header =>
        let body := if "v2:".toList.isPrefixOf header.toList then some (Body.bytes request.body) else none
        match mw.gatewaySecret.verify lib now storeNow (some header)
            { method := some request.method
              path := some request.path
              query := some request.query
              body := body
              identityHeaders := some request.headers } store with
        | (.ok _, store) => (.verified, store)
        | (.error _, store) => (.unauthorized, store)

theorem GatewaySecretAuthMiddleware.call_verified {mw : GatewaySecretAuthMiddleware} {lib : Hashlib}
    {now storeNow : Int} {request : ReceivedRequest} {store : InMemoryReplayStore}
    (h : (mw.call lib now storeNow request store).1 = .verified) :
    ∃ header body rid,
      headerGet request.headers (lower mw.gatewaySecret.headerName) = some header ∧
        mw.gatewaySecret.check lib now (some header)
          { method := some request.method
            path := some request.path
            query := some request.query
            body := body
            identityHeaders := some request.headers } = .ok rid := by
  unfold call at h
  split at h
  · cases h
  · split at h
    · cases h
    · split at h
      · split at h <;> cases h
      · rename_i header hheader
        dsimp only at h
        split at h
        · rename_i rid store' hverify
          exact ⟨header, _, rid, hheader, (verify_eq_ok.mp (congrArg Prod.fst hverify)).1⟩
        · cases h

/-- A request without a body is verified when its header passes for one. -/
theorem GatewaySecretAuthMiddleware.call_of_verify {mw : GatewaySecretAuthMiddleware} {lib : Hashlib}
    {now storeNow : Int} {request : ReceivedRequest} {store : InMemoryReplayStore}
    {header rid : String} (htype : request.type = "http")
    (hsafe : (SAFE_PATHS.contains request.path ||
      mw.separatelyAuthenticatedPaths.contains request.path ||
      mw.separatelyAuthenticatedPrefixes.any fun pathPrefix =>
        pathPrefix.toList.isPrefixOf request.path.toList) = false)
    (hempty : request.body = [])
    (hheader : headerGet request.headers (lower mw.gatewaySecret.headerName) = some header)
    (hok : ∀ body, Body.data body = [] →
      (mw.gatewaySecret.verify lib now storeNow (some header)
        { method := some request.method
          path := some request.path
          query := some request.query
          body := body
          identityHeaders := some request.headers } store).1 = .ok rid) :
    (mw.call lib now storeNow request store).1 = .verified := by
  have hbody : Body.data (if "v2:".toList.isPrefixOf header.toList then
      some (Body.bytes request.body) else none) = [] := by
    split
    · exact hempty
    · rfl
  have hverify := hok _ hbody
  unfold call
  rw [if_neg (not_not.mpr htype), hsafe, if_neg Bool.false_ne_true, hheader]
  dsimp only
  split
  · rfl
  · rename_i failure store' herror
    rw [herror] at hverify
    cases hverify

/-! ## What an application reads -/

section

variable {items kept extras : HeaderItems} {userHeaders : UserHeaders} {name key value : String}

theorem lookup_eq_some_iff_mem (h : (KeyedList.Keys items).Nodup) :
    items.lookup key = some value ↔ (key, value) ∈ items := by
  induction items with
  | nil => simp
  | cons first rest ih =>
    obtain ⟨hnew, hrest⟩ := List.nodup_cons.mp h
    rw [List.lookup_cons, List.mem_cons]
    by_cases hkey : key = first.1
    · rw [hkey, beq_self_eq_true]
      constructor
      · intro hvalue
        exact .inl (Prod.ext rfl (Option.some.inj hvalue).symm)
      · rintro (heq | hmem)
        · rw [← heq]
        · exact absurd (List.mem_map.mpr ⟨_, hmem, rfl⟩) hnew
    · rw [beq_false_of_ne hkey]
      exact (ih hrest).trans ⟨.inr, fun h => h.resolve_left fun heq => hkey (congrArg Prod.fst heq)⟩

theorem lookup_reverse (h : (KeyedList.Keys items).Nodup) :
    items.reverse.lookup key = items.lookup key := by
  have hreverse : (KeyedList.Keys items.reverse).Nodup := by
    rw [KeyedList.Keys, List.map_reverse]
    exact List.nodup_reverse.mpr h
  refine Option.ext fun value => ?_
  rw [lookup_eq_some_iff_mem hreverse, lookup_eq_some_iff_mem h, List.mem_reverse]

theorem update_collectLast (first items : HeaderItems) :
    update (KeyedList.collectLast first) items = KeyedList.collectLast (first ++ items) := by
  rw [KeyedList.collectLast, KeyedList.collectLast, List.foldl_append]
  rfl

theorem insertLast_collectLast (header : String × String) (items : HeaderItems) :
    KeyedList.insertLast header (KeyedList.collectLast items) =
      KeyedList.collectLast (items ++ [header]) :=
  update_collectLast items [header]

theorem lower_of_find? {header : String × String}
    (h : items.find? (fun header => lower header.1 == name) = some header) :
    lower header.1 = name := by
  have hsome := List.find?_some h
  exact beq_iff_eq.mp hsome

/-- The spelling of the client's first header of a name. -/
def firstSpelling (headers : HeaderItems) (name : String) : Option String :=
  (headers.find? fun header => lower header.1 == name).map Prod.fst

/-- Of a name that nothing after the trusted headers has, the dict gives the value
    under the client's first spelling, or else the trusted one. -/
theorem headerGet_collectLast (hextras : ∀ header ∈ extras, lower header.1 ≠ name) :
    headerGet (KeyedList.collectLast (kept ++ userHeaders.items ++ extras)) name =
      match firstSpelling kept name with
      | some spelled => (userHeaders.items.lookup spelled).or (kept.reverse.lookup spelled)
      | none => headerGet userHeaders.items name := by
  have hnone : extras.find? (fun header => lower header.1 == name) = none :=
    List.find?_eq_none.mpr fun header hheader => by simpa using hextras header hheader
  have hlookup : ∀ spelled, lower spelled = name →
      (kept ++ userHeaders.items ++ extras).reverse.lookup spelled =
        (userHeaders.items.lookup spelled).or (kept.reverse.lookup spelled) := by
    intro spelled hspelled
    have habsent : extras.reverse.lookup spelled = none := by
      refine List.lookup_eq_none_iff.mpr fun header hheader => bne_iff_ne.mpr fun heq => ?_
      exact hextras header (List.mem_reverse.mp hheader) (heq ▸ hspelled)
    rw [List.reverse_append, List.reverse_append, List.lookup_append, List.lookup_append, habsent,
      Option.none_or, lookup_reverse userHeaders.nodup]
  have hfind := KeyedList.find?_collectLast (fun key => lower key == name)
    (kept ++ userHeaders.items ++ extras)
  rw [headerGet, hfind, List.find?_append, List.find?_append, hnone, Option.or_none]
  rw [firstSpelling, headerGet]
  cases hkept : kept.find? fun header => lower header.1 == name with
  | some header =>
    rw [Option.some_or, Option.bind_some, Option.map_some, hlookup _ (lower_of_find? hkept)]
    simp [Option.map_map, Function.comp_def]
  | none =>
    cases huser : userHeaders.items.find? fun header => lower header.1 == name with
    | none => rfl
    | some header =>
      have hvalue : userHeaders.items.lookup header.1 = some header.2 :=
        (lookup_eq_some_iff_mem userHeaders.nodup).mpr (List.mem_of_find?_eq_some huser)
      rw [Option.none_or, Option.bind_some, hlookup _ (lower_of_find? huser), hvalue]
      rfl

/-- Of two runs of filter and search the search alone is left, where it looks for what
    the filter keeps. -/
theorem find?_kept {stripReq : List String} (hname : name ∉ stripReq) :
    (items.filter fun header => !stripReq.contains (lower header.1)).find?
        (fun header => lower header.1 == name) =
      items.find? fun header => lower header.1 == name := by
  induction items with
  | nil => rfl
  | cons first rest ih =>
    cases hlower : lower first.1 == name with
    | true =>
      have hkeep : (!stripReq.contains (lower first.1)) = true := by
        rw [beq_iff_eq.mp hlower, List.contains_eq_mem, decide_eq_false hname]
        rfl
      rw [List.filter_cons, if_pos hkeep, List.find?_cons, List.find?_cons, hlower]
    | false =>
      rw [List.filter_cons, List.find?_cons, hlower]
      split
      · rw [List.find?_cons, hlower]
        exact ih
      · exact ih

theorem lookup_kept {stripReq : List String} (hname : lower key ∉ stripReq) :
    (items.filter fun header => !stripReq.contains (lower header.1)).reverse.lookup key =
      items.reverse.lookup key := by
  rw [← List.filter_reverse]
  induction items.reverse with
  | nil => rfl
  | cons first rest ih =>
    by_cases hkey : key = first.1
    · have hkeep : (!stripReq.contains (lower first.1)) = true := by
        rw [← hkey, List.contains_eq_mem, decide_eq_false hname]
        rfl
      rw [List.filter_cons, if_pos hkeep, List.lookup_cons, List.lookup_cons, hkey,
        beq_self_eq_true]
    · rw [List.filter_cons, List.lookup_cons, beq_false_of_ne hkey]
      split
      · rw [List.lookup_cons, beq_false_of_ne hkey]
        exact ih
      · exact ih

theorem firstSpelling_stripped {stripReq : List String} (hname : name ∈ stripReq) :
    firstSpelling (items.filter fun header => !stripReq.contains (lower header.1)) name = none := by
  rw [firstSpelling, Option.map_eq_none_iff, List.find?_eq_none]
  intro header hheader hlower
  have hkeep := (List.mem_filter.mp hheader).2
  rw [beq_iff_eq.mp hlower, List.contains_eq_mem, decide_eq_true hname] at hkeep
  cases hkeep

end

/-! ## The dict that is sent -/

section

variable {lib : Hashlib} {items out : HeaderItems} {name : String} {value : Option String}

theorem forwardState_eq (name : String) (value : Option String) (items : HeaderItems) :
    ∃ extras, forwardState name value (KeyedList.collectLast items) =
      KeyedList.collectLast (items ++ extras) ∧ ∀ header ∈ extras, header.1 = name := by
  unfold forwardState
  split
  · exact ⟨[], by rw [List.append_nil], nofun⟩
  · refine ⟨[(name, value.getD "")], insertLast_collectLast _ _, fun header hheader => ?_⟩
    rw [List.mem_singleton.mp hheader]

/-- The names the proxy adds of itself. -/
def forwardedNames : List String := ["X-Request-Id", "traceparent", "tracestate"]

/-- The dict before the signature is put in. -/
theorem forwarded_eq (request : InboundRequest) (items : HeaderItems) :
    ∃ extras, forwardState "tracestate" request.tracestate
        (forwardState "traceparent" request.traceparent
          (forwardState "X-Request-Id" request.requestId (KeyedList.collectLast items))) =
      KeyedList.collectLast (items ++ extras) ∧ ∀ header ∈ extras, header.1 ∈ forwardedNames := by
  obtain ⟨first, heq, hfirst⟩ := forwardState_eq "X-Request-Id" request.requestId items
  obtain ⟨second, heq', hsecond⟩ :=
    forwardState_eq "traceparent" request.traceparent (items ++ first)
  obtain ⟨third, heq'', hthird⟩ :=
    forwardState_eq "tracestate" request.tracestate (items ++ first ++ second)
  refine ⟨first ++ (second ++ third), ?_, ?_⟩
  · rw [heq, heq', heq'', List.append_assoc, List.append_assoc]
  · intro header hheader
    rcases List.mem_append.mp hheader with h | h
    · rw [hfirst header h]
      decide
    · rcases List.mem_append.mp h with h | h
      · rw [hsecond header h]
        decide
      · rw [hthird header h]
        decide

end

/-! ## A request that goes through -/

/-- A client's request, sent on by the proxy and received by the middleware.  Both
    have the header name of the default, and what HTTP carries is lines. -/
structure Forwarded (lib : Hashlib) where
  signer : Option GatewaySecret
  middleware : GatewaySecretAuthMiddleware
  peers : ∀ s, signer = some s →
    Peers s middleware.gatewaySecret ∧ s.headerName = "X-Gateway-Secret"
  headerName : middleware.gatewaySecret.headerName = "X-Gateway-Secret"
  inbound : InboundRequest
  userHeaders : UserHeaders
  upstreamPath : String
  body : Option (List UInt8)
  signedAt : Int
  tokenHex : String
  out : HeaderItems
  built : buildHeaders DEFAULT_STRIP_REQ lib signer signedAt tokenHex upstreamPath body inbound
    userHeaders = .ok out
  received : ReceivedRequest
  sent : received.headers = out
  now : Int
  storeNow : Int
  store : InMemoryReplayStore
  headerLines : ∀ header ∈ out, OneLine header.2
  inboundLines : OneLine inbound.method ∧ OneLine inbound.urlQuery
  receivedLines : OneLine received.method ∧ OneLine received.query

namespace Forwarded

variable {lib : Hashlib} (x : Forwarded lib)

def Verified : Prop := (x.middleware.call lib x.now x.storeNow x.received x.store).1 = .verified

/-- An application reads the trusted identity. -/
def Faithful : Prop :=
  ∀ name ∈ SIGNED_IDENTITY_HEADERS, headerGet x.out name = headerGet x.userHeaders.items name

/-- Where the trusted headers have the name (or bring a signature of their own), the
    client's first header of the name is spelled as a trusted one, which then
    overwrites it, or carries the trusted value. -/
def Undisturbed (name : String) : Prop :=
  headerGet x.userHeaders.items name ≠ none ∨
      headerGet x.userHeaders.items "x-gateway-secret" ≠ none →
    ∀ spelled, firstSpelling x.inbound.headers name = some spelled →
      (x.userHeaders.items.lookup spelled).or (x.inbound.headers.reverse.lookup spelled) =
        headerGet x.userHeaders.items name

def kept : HeaderItems :=
  x.inbound.headers.filter fun header => !DEFAULT_STRIP_REQ.contains (lower header.1)

/-- The dict, and the signature as its last item. -/
theorem out_eq : ∃ extras signature : HeaderItems,
    x.out = KeyedList.collectLast (x.kept ++ x.userHeaders.items ++ (extras ++ signature)) ∧
      (∀ header ∈ extras, header.1 ∈ forwardedNames) ∧
      match x.signer with
      | none => signature = []
      | some s => ∃ call : SignCall lib s, signature = [("X-Gateway-Secret", call.header)] ∧
          call.request =
            { method := some x.inbound.method
              path := some (orElse x.upstreamPath x.inbound.urlPath)
              query := some x.inbound.urlQuery
              body := x.body.map .bytes
              identityHeaders := some x.userHeaders.items } := by
  have hbuilt := x.built
  unfold buildHeaders at hbuilt
  dsimp only at hbuilt
  rw [update_collectLast] at hbuilt
  obtain ⟨extras, heq, hextras⟩ := forwarded_eq x.inbound (x.kept ++ x.userHeaders.items)
  rw [show x.inbound.headers.filter (fun header => !DEFAULT_STRIP_REQ.contains (lower header.1)) =
    x.kept from rfl, heq] at hbuilt
  cases hsigner : x.signer with
  | none =>
    rw [hsigner] at hbuilt
    exact ⟨extras, [], by rw [List.append_nil]; exact (Except.ok.inj hbuilt).symm, hextras, rfl⟩
  | some s =>
    rw [hsigner] at hbuilt
    obtain ⟨signature, hsign, hout⟩ := bind_eq_ok.mp hbuilt
    unfold signRequest at hsign
    cases hvalue : s.sign lib x.signedAt x.tokenHex none
        { method := some x.inbound.method
          path := some (orElse x.upstreamPath x.inbound.urlPath)
          query := some x.inbound.urlQuery
          body := x.body.map .bytes
          identityHeaders := some x.userHeaders.items } with
    | error failure =>
      rw [hvalue] at hsign
      cases hsign
    | ok value =>
      rw [hvalue, (x.peers s hsigner).2] at hsign
      obtain rfl := Except.ok.inj hsign
      refine ⟨extras, [("X-Gateway-Secret", value)], ?_, hextras,
        ⟨x.signedAt, x.tokenHex, none, _, value, hvalue⟩, rfl, rfl⟩
      rw [← List.append_assoc, ← insertLast_collectLast]
      exact (Except.ok.inj hout).symm

theorem extras_unsigned {header : String × String} (h : header.1 ∈ forwardedNames) :
    lower header.1 ∉ SIGNED_IDENTITY_HEADERS ∧ lower header.1 ≠ "x-gateway-secret" := by
  have hall : ∀ name ∈ forwardedNames,
      lower name ∉ SIGNED_IDENTITY_HEADERS ∧ lower name ≠ "x-gateway-secret" := by decide
  exact hall header.1 h

theorem secretName_unsigned : lower "X-Gateway-Secret" ∉ SIGNED_IDENTITY_HEADERS := by decide

theorem signature_unsigned {signer : Option GatewaySecret} {signature : HeaderItems}
    (h : match signer with
      | none => signature = []
      | some s => ∃ call : SignCall lib s, signature = [("X-Gateway-Secret", call.header)] ∧
          call.request =
            { method := some x.inbound.method
              path := some (orElse x.upstreamPath x.inbound.urlPath)
              query := some x.inbound.urlQuery
              body := x.body.map .bytes
              identityHeaders := some x.userHeaders.items })
    {header : String × String} (hheader : header ∈ signature) :
    header.1 = "X-Gateway-Secret" := by
  cases signer with
  | none =>
    rw [show signature = [] from h] at hheader
    cases hheader
  | some s =>
    obtain ⟨call, rfl, -⟩ := h
    rw [List.mem_singleton.mp hheader]

/-- What an application reads of a signed name. -/
theorem headerGet_out {name : String} (hname : name ∈ SIGNED_IDENTITY_HEADERS) :
    headerGet x.out name =
      match firstSpelling x.kept name with
      | some spelled => (x.userHeaders.items.lookup spelled).or (x.kept.reverse.lookup spelled)
      | none => headerGet x.userHeaders.items name := by
  obtain ⟨extras, signature, hout, hextras, hsignature⟩ := x.out_eq
  rw [hout]
  refine headerGet_collectLast fun header hheader heq => ?_
  rcases List.mem_append.mp hheader with h | h
  · exact (extras_unsigned (hextras header h)).1 (heq ▸ hname)
  · rw [x.signature_unsigned hsignature h] at heq
    exact absurd (heq ▸ hname) (by decide)

/-- A signed name that is not stripped: the trusted value is read exactly where the
    dict gives it under the client's first spelling. -/
theorem headerGet_out_iff {name : String} (hname : name ∈ SIGNED_IDENTITY_HEADERS)
    (hstrip : name ∉ DEFAULT_STRIP_REQ) :
    headerGet x.out name = headerGet x.userHeaders.items name ↔
      ∀ spelled, firstSpelling x.inbound.headers name = some spelled →
        (x.userHeaders.items.lookup spelled).or (x.inbound.headers.reverse.lookup spelled) =
          headerGet x.userHeaders.items name := by
  have hspelling : firstSpelling x.kept name = firstSpelling x.inbound.headers name := by
    rw [firstSpelling, firstSpelling, kept, find?_kept hstrip]
  rw [x.headerGet_out hname, hspelling]
  cases hfirst : firstSpelling x.inbound.headers name with
  | none => simp
  | some spelled =>
    obtain ⟨header, hheader, rfl⟩ := Option.map_eq_some_iff.mp hfirst
    have hlower := lower_of_find? hheader
    have hlookup : x.kept.reverse.lookup header.1 = x.inbound.headers.reverse.lookup header.1 :=
      lookup_kept (hlower ▸ hstrip)
    simp [hlookup]

/-- The trusted identity and the signature are lines, as everything that is sent. -/
theorem signed_lines {s : GatewaySecret} {call : SignCall lib s} {extras : HeaderItems}
    (hout : x.out = KeyedList.collectLast (x.kept ++ x.userHeaders.items ++
      (extras ++ [("X-Gateway-Secret", call.header)])))
    (hextras : ∀ header ∈ extras, header.1 ∈ forwardedNames) :
    OneLine call.header ∧ OneLineIdentity (some x.userHeaders.items) := by
  constructor
  · refine x.headerLines ("X-Gateway-Secret", call.header) (hout ▸ KeyedList.mem_collectLast_of_lookup ?_)
    simp
  · intro header hheader hsigned
    refine x.headerLines header (hout ▸ KeyedList.mem_collectLast_of_lookup ?_)
    have hnone : (extras ++ [("X-Gateway-Secret", call.header)]).reverse.lookup header.1 = none := by
      refine List.lookup_eq_none_iff.mpr fun other hother => bne_iff_ne.mpr fun heq => ?_
      rcases List.mem_append.mp (List.mem_reverse.mp hother) with h | h
      · exact (extras_unsigned (hextras other h)).1 (heq ▸ hsigned)
      · rw [heq, List.mem_singleton.mp h] at hsigned
        exact secretName_unsigned hsigned
    generalize extras ++ [("X-Gateway-Secret", call.header)] = added at hnone
    rw [List.reverse_append, List.reverse_append, List.lookup_append, List.lookup_append, hnone,
      Option.none_or, lookup_reverse x.userHeaders.nodup,
      (lookup_eq_some_iff_mem x.userHeaders.nodup).mpr hheader]
    rfl

/-- The signature is the header the middleware reads, unless the trusted headers
    bring one. -/
theorem headerGet_signature {extras signature : HeaderItems}
    (hout : x.out = KeyedList.collectLast (x.kept ++ x.userHeaders.items ++ (extras ++ signature)))
    (hextras : ∀ header ∈ extras, header.1 ∈ forwardedNames)
    (hsignature : ∀ header ∈ signature, header.1 = "X-Gateway-Secret")
    (hnone : headerGet x.userHeaders.items "x-gateway-secret" = none) :
    headerGet x.out "x-gateway-secret" =
      (signature.head?).bind fun _ => signature.reverse.lookup "X-Gateway-Secret" := by
  have hkept : x.kept.find? (fun header => lower header.1 == "x-gateway-secret") = none :=
    Option.map_eq_none_iff.mp (firstSpelling_stripped (by decide))
  have huser := Option.map_eq_none_iff.mp hnone
  have hmiddle : extras.find? (fun header => lower header.1 == "x-gateway-secret") = none :=
    List.find?_eq_none.mpr fun header hheader => by
      simpa using (extras_unsigned (hextras header hheader)).2
  have hfind := KeyedList.find?_collectLast (fun key => lower key == "x-gateway-secret")
    (x.kept ++ x.userHeaders.items ++ (extras ++ signature))
  rw [List.find?_append, List.find?_append, List.find?_append, hkept, huser, hmiddle] at hfind
  rw [headerGet, hout, hfind]
  cases signature with
  | nil => rfl
  | cons first rest =>
    have hfirst : first.1 = "X-Gateway-Secret" := hsignature first List.mem_cons_self
    have hlower : (lower first.1 == "x-gateway-secret") = true := by
      rw [hfirst]
      decide
    rw [List.find?_cons, hlower, Option.none_or, Option.none_or, Option.none_or, Option.bind_some,
      List.reverse_append, List.reverse_append, List.lookup_append, List.lookup_append, hfirst]
    obtain ⟨value, hvalue⟩ : ∃ value, (first :: rest).reverse.lookup "X-Gateway-Secret" = some value :=
      Option.isSome_iff_exists.mp (List.lookup_isSome_iff.mpr
        ⟨first, List.mem_reverse.mpr List.mem_cons_self, by simp [hfirst]⟩)
    rw [hvalue]
    rfl

/-- An identity that the trusted headers do not have is not read, where the middleware
    has verified the signature of the proxy. -/
theorem headerGet_out_none (hmac : Function.Injective2 lib.hmacSha256) (hverified : x.Verified)
    (hown : headerGet x.userHeaders.items "x-gateway-secret" = none) {name : String}
    (hname : name ∈ SIGNED_IDENTITY_HEADERS)
    (hnone : headerGet x.userHeaders.items name = none) : headerGet x.out name = none := by
  obtain ⟨header, body, rid, hheader, hcheck⟩ := GatewaySecretAuthMiddleware.call_verified hverified
  obtain ⟨extras, signature, hout, hextras, hsignature⟩ := x.out_eq
  rw [x.sent, x.headerName, show lower "X-Gateway-Secret" = "x-gateway-secret" by decide,
    x.headerGet_signature hout hextras (fun _ => x.signature_unsigned hsignature) hown] at hheader
  cases hsigner : x.signer with
  | none =>
    rw [hsigner] at hsignature
    rw [show signature = [] from hsignature] at hheader
    cases hheader
  | some s =>
    rw [hsigner] at hsignature
    obtain ⟨call, rfl, hrequest⟩ := hsignature
    obtain rfl : call.header = header := by simpa using hheader
    have hpeers := (x.peers s hsigner).1
    obtain ⟨hline, hidentity⟩ := x.signed_lines hout hextras
    have hsame := (call.fields_eq hpeers.signs hmac hpeers hcheck hline
      ⟨x.receivedLines.1, x.receivedLines.2, fun other hother _ => x.headerLines other (x.sent ▸ hother)⟩
      hline (by rw [hrequest]; exact ⟨x.inboundLines.1, x.inboundLines.2, hidentity⟩) rfl).2.2.2.2
    rw [hrequest, x.sent] at hsame
    -- A header of that name would be part of the identity that was verified.
    cases hget : headerGet x.out name with
    | none => rfl
    | some value =>
      obtain ⟨found, hfound, -⟩ := Option.map_eq_some_iff.mp hget
      have hlower := lower_of_find? hfound
      have hkey : name ∈ KeyedList.Keys (normalizedIdentity (some x.out)) := by
        refine KeyedList.mem_keys_collectByKey (List.mem_map.mpr ⟨(lower found.1, found.2), ?_, hlower⟩)
        refine List.mem_map.mpr ⟨found, List.mem_filter.mpr ⟨List.mem_of_find?_eq_some hfound, ?_⟩, rfl⟩
        rw [hlower]
        exact List.contains_iff_mem.mpr hname
      rw [← hsame] at hkey
      obtain ⟨member, hmember, hfst⟩ := List.mem_map.mp hkey
      obtain ⟨-, given, hgiven, hlower', -⟩ := mem_normalizedIdentity hmember
      have hall := List.find?_eq_none.mp (Option.map_eq_none_iff.mp hnone) given hgiven
      exact absurd (beq_iff_eq.mpr (hlower'.trans hfst)) hall

/-- A verified request shows the application the trusted identity exactly when the
    signed names that are not stripped are undisturbed. -/
theorem faithful_iff (hmac : Function.Injective2 lib.hmacSha256) (hverified : x.Verified) :
    x.Faithful ↔
      ∀ name ∈ SIGNED_IDENTITY_HEADERS, name ∉ DEFAULT_STRIP_REQ → x.Undisturbed name := by
  constructor
  · intro h name hname hstrip _
    exact (x.headerGet_out_iff hname hstrip).mp (h name hname)
  · intro h name hname
    by_cases hstrip : name ∈ DEFAULT_STRIP_REQ
    · rw [x.headerGet_out hname, kept, firstSpelling_stripped hstrip]
    · by_cases hbrings : headerGet x.userHeaders.items name ≠ none ∨
          headerGet x.userHeaders.items "x-gateway-secret" ≠ none
      · exact (x.headerGet_out_iff hname hstrip).mpr (h name hname hstrip hbrings)
      · obtain ⟨hnone, hown⟩ := not_or.mp hbrings
        rw [not_not.mp hnone]
        exact x.headerGet_out_none hmac hverified (not_not.mp hown) hname (not_not.mp hnone)

end Forwarded

/-! ## A request for the models -/

def modelsInbound (headers : HeaderItems) : InboundRequest where
  method := "GET"
  urlPath := "/api/v1/models"
  urlQuery := ""
  headers := headers

def trustedHeaders : UserHeaders := ⟨[("X-User-Id", "user-a"), ("X-App-User-Id", "app-user-a")], by decide⟩

/-- The signature the proxy puts in. -/
def modelsCall : SignCall sampleHashlib sampleSigner :=
  sampleCall none "7f6c8d1e0b3a4c5d9e8f7a6b5c4d3e2f"
    { method := some "GET"
      path := some "/api/v1/models"
      query := some ""
      identityHeaders := some trustedHeaders.items }

theorem buildHeaders_models {headers out : HeaderItems}
    (h : update (KeyedList.collectLast (headers.filter fun header =>
      !DEFAULT_STRIP_REQ.contains (lower header.1))) trustedHeaders.items = out) :
    buildHeaders DEFAULT_STRIP_REQ sampleHashlib (some sampleSigner) 1700000000000
        "7f6c8d1e0b3a4c5d9e8f7a6b5c4d3e2f" "" none (modelsInbound headers) trustedHeaders =
      .ok (KeyedList.insertLast ("X-Gateway-Secret", modelsCall.header) out) := by
  have hsign : signRequest sampleHashlib sampleSigner 1700000000000
      "7f6c8d1e0b3a4c5d9e8f7a6b5c4d3e2f" "" none (modelsInbound headers) trustedHeaders.items =
        .ok ("X-Gateway-Secret", modelsCall.header) :=
    congrArg (Except.map fun value => ("X-Gateway-Secret", value)) modelsCall.returned
  unfold buildHeaders
  dsimp only
  rw [show (modelsInbound headers).headers = headers from rfl, h, hsign]
  rfl

/-- The request as it is received, an instant later. -/
def modelsReceived (out : HeaderItems) : ReceivedRequest where
  type := "http"
  method := "GET"
  path := "/api/v1/models"
  query := ""
  headers := out
  body := []

def modelsMiddleware : GatewaySecretAuthMiddleware := { gatewaySecret := sampleSigner }

theorem modelsPeers : Peers sampleSigner modelsMiddleware.gatewaySecret :=
  ⟨rfl, rfl, fun _ => rfl, rfl, rfl, rfl⟩

theorem call_models {out : HeaderItems}
    (hheader : headerGet out "x-gateway-secret" = some modelsCall.header)
    (hidentity : normalizedIdentity (some trustedHeaders.items) = normalizedIdentity (some out)) :
    (modelsMiddleware.call sampleHashlib 1700000000000 1700000000000 (modelsReceived out)
      (.new 10000)).1 = .verified := by
  have hsafe : (SAFE_PATHS.contains (modelsReceived out).path ||
      modelsMiddleware.separatelyAuthenticatedPaths.contains (modelsReceived out).path ||
      modelsMiddleware.separatelyAuthenticatedPrefixes.any fun pathPrefix =>
        pathPrefix.toList.isPrefixOf (modelsReceived out).path.toList) = false := by
    simp [SAFE_PATHS, modelsReceived, modelsMiddleware]
  have hok : ∀ body, Body.data body = [] →
      (modelsMiddleware.gatewaySecret.verify sampleHashlib 1700000000000 1700000000000
        (some modelsCall.header)
        { method := some (modelsReceived out).method
          path := some (modelsReceived out).path
          query := some (modelsReceived out).query
          body := body
          identityHeaders := some (modelsReceived out).headers } (.new 10000)).1 =
        .ok modelsCall.usedId := by
    intro body hbody
    refine verify_eq_ok.mpr ⟨?_, seenOrRecord_of_not_mem List.not_mem_nil⟩
    exact SignCall.passes rfl (by decide) modelsPeers (by decide)
      ⟨rfl, rfl, rfl, hbody.symm, hidentity⟩
  exact GatewaySecretAuthMiddleware.call_of_verify rfl hsafe rfl hheader hok

/-- The client has sent an identity of its own, which the proxy strips. -/
def strippedHeaders : HeaderItems := [("accept", "*/*"), ("x-user-id", "someone-else")]

/-- The client has sent a header that is signed and not stripped. -/
def disturbingHeaders : HeaderItems := [("accept", "*/*"), ("x-app-user-id", "someone-else")]

instance (text : String) : Decidable (OneLine text) :=
  inferInstanceAs (Decidable ('\n' ∉ text.toList))

theorem modelsCall_oneLine : OneLine modelsCall.header := by
  intro hmem
  rcases Fields.mem_of_mem_join hmem with heq | ⟨field, hfield, hc⟩
  · exact absurd heq (by decide)
  · have hall : ∀ field ∈ ["v2", "local", modelsCall.usedId, "1700000000000",
        bodySha256 sampleHashlib modelsCall.request.body,
        hexEncode (sampleHashlib.hmacSha256 (utf8 "0123456789abcdef") (utf8 (Fields.join '\n'
          (sampleSigner.canonicalFields modelsCall.request
            (bodySha256 sampleHashlib modelsCall.request.body) modelsCall.usedId "1700000000000"
              "local"))))], OneLine field := by
      simp only [List.forall_mem_cons]
      exact ⟨by decide, by decide, by decide, by decide, hexEncode_oneLine _, hexEncode_oneLine _,
        nofun⟩
    exact hall field hfield hc

theorem secretName_not_mem {out : HeaderItems} (h : hasHeader out "x-gateway-secret" = false) :
    "X-Gateway-Secret" ∉ KeyedList.Keys out := by
  intro hmem
  obtain ⟨header, hheader, heq⟩ := List.mem_map.mp hmem
  have hnot := List.any_eq_false.mp h header hheader
  rw [heq] at hnot
  exact hnot (by decide)

theorem linesOfModels : OneLine "GET" ∧ OneLine "" := by decide

/-- What becomes of the client's headers. -/
def forwardedModels (headers out : HeaderItems)
    (hout : update (KeyedList.collectLast (headers.filter fun header =>
      !DEFAULT_STRIP_REQ.contains (lower header.1))) trustedHeaders.items = out)
    (hlines : ∀ header ∈ out, OneLine header.2)
    (hfresh : hasHeader out "x-gateway-secret" = false) : Forwarded sampleHashlib where
  signer := some sampleSigner
  middleware := modelsMiddleware
  peers := fun _ h => Option.some.inj h ▸ ⟨modelsPeers, rfl⟩
  headerName := rfl
  inbound := modelsInbound headers
  userHeaders := trustedHeaders
  upstreamPath := ""
  body := none
  signedAt := 1700000000000
  tokenHex := "7f6c8d1e0b3a4c5d9e8f7a6b5c4d3e2f"
  out := out ++ [("X-Gateway-Secret", modelsCall.header)]
  built := by
    rw [buildHeaders_models hout, KeyedList.insertLast_eq (secretName_not_mem hfresh)]
  received := modelsReceived (out ++ [("X-Gateway-Secret", modelsCall.header)])
  sent := rfl
  now := 1700000000000
  storeNow := 1700000000000
  store := .new 10000
  headerLines := fun header hheader => by
    rcases List.mem_append.mp hheader with h | h
    · exact hlines header h
    · rw [List.mem_singleton.mp h]
      exact modelsCall_oneLine
  inboundLines := linesOfModels
  receivedLines := linesOfModels

theorem verified_models (headers out : HeaderItems)
    (hout : update (KeyedList.collectLast (headers.filter fun header =>
      !DEFAULT_STRIP_REQ.contains (lower header.1))) trustedHeaders.items = out)
    (hlines : ∀ header ∈ out, OneLine header.2)
    (hfresh : hasHeader out "x-gateway-secret" = false)
    (hidentity : normalizedIdentity (some trustedHeaders.items) =
      normalizedIdentity (some (out ++ [("X-Gateway-Secret", modelsCall.header)]))) :
    (forwardedModels headers out hout hlines hfresh).Verified := by
  refine call_models ?_ hidentity
  have hnone : out.find? (fun header => lower header.1 == "x-gateway-secret") = none :=
    List.find?_eq_none.mpr (List.any_eq_false.mp hfresh)
  have hlower : (lower "X-Gateway-Secret" == "x-gateway-secret") = true := by decide
  rw [headerGet, List.find?_append, hnone, Option.none_or, List.find?_cons, hlower]
  rfl

/-- The client's header of a stripped name is gone. -/
theorem faithful_iff_stripped :
    ∃ x : Forwarded sampleHashlib, x.Verified ∧ ("x-user-id", "someone-else") ∈ x.inbound.headers ∧
      x.Faithful := by
  have hverified := verified_models strippedHeaders (("accept", "*/*") :: trustedHeaders.items)
    (by decide) (by decide) (by decide) (by decide +kernel)
  refine ⟨_, hverified, by decide, ?_⟩
  refine (Forwarded.faithful_iff _ sampleHashlib_hmacSha256 hverified).mpr ?_
  intro name hname hstrip _ spelled hspelled
  have hnone : ∀ name ∈ SIGNED_IDENTITY_HEADERS, name ∉ DEFAULT_STRIP_REQ →
      firstSpelling strippedHeaders name = none := by decide
  have hspelled : firstSpelling strippedHeaders name = some spelled := hspelled
  rw [hnone name hname hstrip] at hspelled
  cases hspelled

theorem identity_is_spoofed :
    ¬ ∀ x : Forwarded sampleHashlib, x.Verified → x.Faithful := by
  intro h
  have hverified := verified_models disturbingHeaders
    (("accept", "*/*") :: ("x-app-user-id", "someone-else") :: trustedHeaders.items)
    (by decide) (by decide) (by decide) (by decide +kernel)
  have hread : some "someone-else" = some "app-user-a" := h _ hverified "x-app-user-id" (by decide)
  exact absurd hread (by decide)

end AiPlatform.Gateway
