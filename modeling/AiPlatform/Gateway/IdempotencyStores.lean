/-
  AiPlatform.Gateway.IdempotencyStores

  The two stores behind the idempotency middleware (`comm/idempotency.py`): a
  dictionary under one lock, and a Redis server that keeps the lock of a key and
  its response under two keys of their own.

  `Lawful` is what the middleware may count on under either: a key has a slot,
  held or not and with a response or without one, and each step of a store says
  what it does to the slots.  What the law leaves open is whether a key that has
  a response is still held; the dictionary keeps it held, Redis does not.
-/

import AiPlatform.Capability.LeaseIssuer
import AiPlatform.Lib.RedisStrings

namespace AiPlatform.Gateway

open Std AiPlatform.Capability

structure CachedResponse where
  statusCode : Int
  headers : List (List UInt8 × List UInt8)
  body : List UInt8
  requestBodyDigest : Option String
  deriving DecidableEq, Repr

/-- A store that runs on a clock of milliseconds.  `storeResponse` lists the steps
    in which it stores a response, each atomic; the other calls are one step. -/
structure IdempotencyStore where
  State : Type
  init : State
  getCached : Nat → String → State → Except String (Option CachedResponse) × State
  tryBegin : Nat → String → Nat → State → Bool × State
  storeResponse : String → CachedResponse → Nat → List (Nat → State → State)
  abort : String → State → State

/-- The instant at which a record made now expires. -/
def expiresAt (now ttlSeconds : Nat) : Nat := now + 1000 * max ttlSeconds 1

theorem lt_expiresAt (now ttlSeconds : Nat) : now < expiresAt now ttlSeconds := by
  have : 1 ≤ max ttlSeconds 1 := le_max_right _ _
  rw [expiresAt]
  omega

/-! ## The dictionary -/

/-- `_records`: the response under a key, or none while its request runs. -/
abbrev Records := ExtTreeMap String (Option CachedResponse × Nat) compare

def evictExpired (now : Nat) (records : Records) : Records :=
  records.filter fun _ record => now < record.2

namespace InMemoryIdempotencyStore

def getCached (now : Nat) (key : String) (records : Records) : Option CachedResponse × Records :=
  let records := evictExpired now records
  ((records[key]?).bind Prod.fst, records)

def tryBegin (now : Nat) (key : String) (ttlSeconds : Nat) (records : Records) :
    Bool × Records :=
  let records := evictExpired now records
  if (records[key]?).isSome then (false, records)
  else (true, records.insert key (none, expiresAt now ttlSeconds))

def storeResponse (key : String) (response : CachedResponse) (ttlSeconds now : Nat)
    (records : Records) : Records :=
  records.insert key (some response, expiresAt now ttlSeconds)

def abort (key : String) (records : Records) : Records := records.erase key

end InMemoryIdempotencyStore

def inMemoryIdempotencyStore : IdempotencyStore where
  State := Records
  init := ∅
  getCached now key records :=
    let found := InMemoryIdempotencyStore.getCached now key records
    (.ok found.1, found.2)
  tryBegin := InMemoryIdempotencyStore.tryBegin
  storeResponse key response ttlSeconds :=
    [InMemoryIdempotencyStore.storeResponse key response ttlSeconds]
  abort := InMemoryIdempotencyStore.abort

/-! ## Redis -/

/-- `bytes.decode("latin-1")` -/
def latin1Decode (bytes : List UInt8) : String :=
  String.ofList (bytes.map fun b => Char.ofNat b.toNat)

/-- `str.encode("latin-1")` -/
def latin1Encode (text : String) : Option (List UInt8) :=
  text.toList.mapM fun c => if c.toNat < 256 then some (UInt8.ofNat c.toNat) else none

def dumpHeader (header : List UInt8 × List UInt8) : PyValue :=
  .list [.str (latin1Decode header.1), .str (latin1Decode header.2)]

def loadHeader : PyValue → Option (List UInt8 × List UInt8)
  | .list [.str name, .str value] => do
      let name ← latin1Encode name
      let value ← latin1Encode value
      return (name, value)
  | _ => none

/-- What `store_response` dumps. -/
def dumpResponse (response : CachedResponse) : PyValue :=
  .dict
    [("status_code", .int response.statusCode),
     ("headers", .list (response.headers.map dumpHeader)),
     ("body_hex", .str (hexEncode response.body)),
     ("request_body_digest",
       match response.requestBodyDigest with
       | some digest => .str digest
       | none => .none)]

/-- What `get_cached` reads, or none where it raises. -/
def loadResponse : PyValue → Option CachedResponse
  | .dict data => do
      let statusCode ←
        match data.lookup "status_code" with
        | some (.int code) => some code
        | _ => none
      let headers ←
        match (data.lookup "headers").getD (.list []) with
        | .list headers => headers.mapM loadHeader
        | _ => none
      let body ←
        match (data.lookup "body_hex").getD (.str "") with
        | .str text => hexDecode text.toList
        | _ => none
      return {
        statusCode, headers, body
        requestBodyDigest :=
          match data.lookup "request_body_digest" with
          | some (.str digest) => some digest
          | _ => none }
  | _ => none

def lockKey (keyPrefix key : String) : String := keyPrefix ++ ":lock:" ++ key

def responseKey (keyPrefix key : String) : String := keyPrefix ++ ":response:" ++ key

/-- The strings of the server; one is kept as the JSON value that it is the text
    of. -/
abbrev RedisState := Redis.Strings PyValue

namespace RedisIdempotencyStore

variable (keyPrefix : String)

def getCached (now : Nat) (key : String) (strings : RedisState) :
    Except String (Option CachedResponse) :=
  match strings.get now (responseKey keyPrefix key) with
  | none => .ok none
  | some raw =>
      match loadResponse raw with
      | none => .error "malformed response"
      | some response => .ok (some response)

def tryBegin (now : Nat) (key : String) (ttlSeconds : Nat) (strings : RedisState) :
    Bool × RedisState :=
  strings.setNx now (lockKey keyPrefix key) (.int 1) (expiresAt now ttlSeconds)

/-- The first command of `store_response`. -/
def setResponse (key : String) (response : CachedResponse) (ttlSeconds now : Nat)
    (strings : RedisState) : RedisState :=
  strings.set (responseKey keyPrefix key) (dumpResponse response) (expiresAt now ttlSeconds)

/-- The second command of `store_response`, and `abort`. -/
def deleteLock (key : String) (strings : RedisState) : RedisState :=
  strings.del (lockKey keyPrefix key)

end RedisIdempotencyStore

def redisIdempotencyStore (keyPrefix : String) : IdempotencyStore where
  State := RedisState
  init := .empty
  getCached now key strings := (RedisIdempotencyStore.getCached keyPrefix now key strings, strings)
  tryBegin := RedisIdempotencyStore.tryBegin keyPrefix
  storeResponse key response ttlSeconds :=
    [RedisIdempotencyStore.setResponse keyPrefix key response ttlSeconds,
     fun _ => RedisIdempotencyStore.deleteLock keyPrefix key]
  abort := RedisIdempotencyStore.deleteLock keyPrefix

/-! ## A response that is read back -/

theorem latin1Encode_latin1Decode (bytes : List UInt8) :
    latin1Encode (latin1Decode bytes) = some bytes := by
  rw [latin1Encode, latin1Decode, String.toList_ofList]
  induction bytes with
  | nil => rfl
  | cons b rest ih =>
    have hb : b.toNat < 256 := b.toNat_lt
    have hvalid : b.toNat.isValidChar := .inl (by omega)
    have hchar : (Char.ofNat b.toNat).toNat = b.toNat := by
      rw [Char.ofNat, dif_pos hvalid]
      rfl
    rw [List.map_cons, List.mapM_cons, ih, hchar, if_pos hb, UInt8.ofNat_toNat]
    rfl

theorem loadHeader_dumpHeader (header : List UInt8 × List UInt8) :
    loadHeader (dumpHeader header) = some header := by
  rw [dumpHeader, loadHeader, latin1Encode_latin1Decode, latin1Encode_latin1Decode]
  rfl

theorem loadHeaders_dumpHeaders (headers : List (List UInt8 × List UInt8)) :
    (headers.map dumpHeader).mapM loadHeader = some headers := by
  induction headers with
  | nil => rfl
  | cons header rest ih =>
    rw [List.map_cons, List.mapM_cons, loadHeader_dumpHeader, ih]
    rfl

/-- Redis gives back the response it was given. -/
theorem loadResponse_dumpResponse (response : CachedResponse) :
    loadResponse (dumpResponse response) = some response := by
  obtain ⟨statusCode, headers, body, digest⟩ := response
  have hheaders := loadHeaders_dumpHeaders headers
  have hbody := hexDecode_hexEncode body
  cases digest with
  | none => simp [dumpResponse, loadResponse, List.lookup_cons, hheaders, hbody]
  | some digest => simp [dumpResponse, loadResponse, List.lookup_cons, hheaders, hbody]

theorem lockKey_ne_responseKey (keyPrefix key key' : String) :
    lockKey keyPrefix key ≠ responseKey keyPrefix key' := by
  intro h
  have hlist := congrArg String.toList h
  simp only [lockKey, responseKey, String.toList_append, List.append_assoc] at hlist
  have hrest := List.append_cancel_left hlist
  simp at hrest

theorem lockKey_inj {keyPrefix key key' : String} :
    lockKey keyPrefix key = lockKey keyPrefix key' ↔ key = key' := by
  constructor
  · exact fun h => String.append_right_inj _ |>.mp h
  · rintro rfl
    rfl

theorem responseKey_inj {keyPrefix key key' : String} :
    responseKey keyPrefix key = responseKey keyPrefix key' ↔ key = key' := by
  constructor
  · exact fun h => String.append_right_inj _ |>.mp h
  · rintro rfl
    rfl

/-! ## The law of a store -/

/-- What a request finds under a key. -/
structure Slot where
  held : Bool
  response : Option CachedResponse
  deriving DecidableEq, Repr

/-- What the steps of a store do to the slots of its keys. -/
structure Lawful (S : IdempotencyStore) where
  slot : Nat → String → S.State → Slot
  /-- The instants at which what is kept under a key expires. -/
  expiry : String → S.State → List Nat
  slot_time : ∀ {now now' key s}, now ≤ now' → (∀ t ∈ expiry key s, now < t → now' < t) →
    slot now' key s = slot now key s
  Readable : S.State → Prop
  readable_init : Readable S.init
  slot_init : ∀ now key, slot now key S.init = ⟨false, none⟩
  getCached_eq : ∀ {now key s}, Readable s →
    (S.getCached now key s).1 = .ok (slot now key s).response
  readable_getCached : ∀ {now key s}, Readable s → Readable (S.getCached now key s).2
  slot_getCached : ∀ {now key s} k, slot now k (S.getCached now key s).2 = slot now k s
  tryBegin_eq : ∀ {now key ttl s}, (S.tryBegin now key ttl s).1 = !(slot now key s).held
  readable_tryBegin : ∀ {now key ttl s}, Readable s → Readable (S.tryBegin now key ttl s).2
  slot_tryBegin : ∀ {now key ttl s} k, slot now k (S.tryBegin now key ttl s).2 =
    if key = k ∧ (slot now k s).held = false then ⟨true, (slot now k s).response⟩
    else slot now k s
  readable_abort : ∀ {key s}, Readable s → Readable (S.abort key s)
  slot_abort_ne : ∀ {now key s} k, key ≠ k → slot now k (S.abort key s) = slot now k s
  slot_abort : ∀ {now key s}, (slot now key s).response = none →
    (slot now key (S.abort key s)).response = none
  readable_store : ∀ {now ttl n : Nat} {key : String} {response : CachedResponse}
    {f : Nat → S.State → S.State} {s : S.State},
    (S.storeResponse key response ttl)[n]? = some f → Readable s → Readable (f now s)
  slot_store_ne : ∀ {now ttl n : Nat} {key : String} {response : CachedResponse}
    {f : Nat → S.State → S.State} {s : S.State} (k : String),
    (S.storeResponse key response ttl)[n]? = some f → key ≠ k →
    slot now k (f now s) = slot now k s
  /-- The first step stores the response, the later ones leave it. -/
  slot_store : ∀ {now ttl n : Nat} {key : String} {response : CachedResponse}
    {f : Nat → S.State → S.State} {s : S.State},
    (S.storeResponse key response ttl)[n]? = some f →
    n = 0 ∨ (slot now key s).response = some response →
    (slot now key (f now s)).response = some response
  /-- No step but the last lets go of the key. -/
  held_store : ∀ {now ttl n : Nat} {key : String} {response : CachedResponse}
    {f : Nat → S.State → S.State} {s : S.State},
    (S.storeResponse key response ttl)[n]? = some f →
    n + 1 < (S.storeResponse key response ttl).length →
    (slot now key (f now s)).held = (slot now key s).held

namespace InMemoryIdempotencyStore

/-- The slot of a record that was not evicted. -/
def slotOf : Option (Option CachedResponse × Nat) → Slot
  | none => ⟨false, none⟩
  | some record => ⟨true, record.1⟩

def slot (now : Nat) (key : String) (records : Records) : Slot :=
  slotOf (evictExpired now records)[key]?

variable {now ttl : Nat} {key k : String} {records : Records}

theorem getElem?_evictExpired : (evictExpired now records)[key]? =
    (records[key]?).filter fun record => decide (now < record.2) :=
  ExtTreeMap.getElem?_filter'

theorem slotOf_held (record : Option (Option CachedResponse × Nat)) :
    (slotOf record).held = record.isSome := by
  cases record <;> rfl

theorem slotOf_response (record : Option (Option CachedResponse × Nat)) :
    (slotOf record).response = record.bind Prod.fst := by
  cases record <;> rfl

theorem slot_empty : slot now key ∅ = ⟨false, none⟩ := by
  rw [slot, getElem?_evictExpired, ExtTreeMap.getElem?_empty]
  rfl

def expiry (key : String) (records : Records) : List Nat :=
  ((records[key]?).map Prod.snd).toList

theorem slot_time {now' : Nat} (hle : now ≤ now')
    (hlasts : ∀ t ∈ expiry key records, now < t → now' < t) :
    slot now' key records = slot now key records := by
  rw [slot, slot, getElem?_evictExpired, getElem?_evictExpired]
  cases hat : records[key]? with
  | none => rfl
  | some record =>
    have hsame : now' < record.2 ↔ now < record.2 :=
      ⟨hle.trans_lt, hlasts record.2 (by simp [expiry, hat])⟩
    simp only [Option.filter, hsame]

theorem slot_evictExpired : slot now key (evictExpired now records) = slot now key records := by
  rw [slot, slot, getElem?_evictExpired, getElem?_evictExpired, Option.filter_filter]
  simp only [Bool.and_self]

theorem slot_insert {response : Option CachedResponse} :
    slot now k (records.insert key (response, expiresAt now ttl)) =
      if key = k then ⟨true, response⟩ else slot now k records := by
  rw [slot, slot, getElem?_evictExpired, getElem?_evictExpired, OrdMap.getElem?_insert]
  by_cases h : key = k
  · rw [if_pos h, if_pos h]
    simp [Option.filter, lt_expiresAt, slotOf]
  · rw [if_neg h, if_neg h]

/-- The dictionary keeps a key held once it has a response. -/
theorem held_of_response {response : CachedResponse}
    (h : (slot now key records).response = some response) :
    (slot now key records).held = true := by
  rw [slot, slotOf_response] at h
  rw [slot, slotOf_held]
  obtain ⟨record, hrecord, -⟩ := Option.bind_eq_some_iff.mp h
  rw [hrecord]
  rfl

theorem tryBegin_fst : (tryBegin now key ttl records).1 = !(slot now key records).held := by
  rw [slot, slotOf_held, tryBegin]
  cases ((evictExpired now records)[key]?).isSome <;> rfl

theorem slot_tryBegin : slot now k (tryBegin now key ttl records).2 =
    if key = k ∧ (slot now k records).held = false then ⟨true, (slot now k records).response⟩
    else slot now k records := by
  rw [tryBegin]
  cases hat : (evictExpired now records)[key]? with
  | some record =>
    simp only [Option.isSome_some, if_true]
    rw [slot_evictExpired, if_neg]
    rintro ⟨rfl, hfree⟩
    rw [slot, hat] at hfree
    cases hfree
  | none =>
    simp only [Option.isSome_none, Bool.false_eq_true, if_false]
    rw [slot_insert, slot_evictExpired]
    by_cases hkey : key = k
    · subst hkey
      have hslot : slot now key records = ⟨false, none⟩ := by
        rw [slot, hat]
        rfl
      rw [if_pos rfl, hslot, if_pos ⟨rfl, rfl⟩]
    · rw [if_neg hkey, if_neg (fun h => hkey h.1)]

theorem slot_abort : slot now k (abort key records) =
    if key = k then ⟨false, none⟩ else slot now k records := by
  rw [slot, slot, abort, getElem?_evictExpired, getElem?_evictExpired]
  by_cases h : key = k
  · subst h
    rw [if_pos rfl, ExtTreeMap.getElem?_erase_self]
    rfl
  · rw [if_neg h, OrdMap.getElem?_erase_ne h]

theorem step_eq {response : CachedResponse} {n : Nat} {f : Nat → Records → Records}
    (hf : (inMemoryIdempotencyStore.storeResponse key response ttl)[n]? = some f) :
    f = storeResponse key response ttl := by
  cases n with
  | zero => exact (Option.some.inj hf).symm
  | succ n => cases hf

end InMemoryIdempotencyStore

open InMemoryIdempotencyStore in
def inMemoryLawful : Lawful inMemoryIdempotencyStore where
  slot := slot
  expiry := expiry
  slot_time := slot_time
  Readable _ := True
  readable_init := trivial
  slot_init _ _ := slot_empty
  getCached_eq _ := congrArg Except.ok (slotOf_response _).symm
  readable_getCached _ := trivial
  slot_getCached _ := slot_evictExpired
  tryBegin_eq := tryBegin_fst
  readable_tryBegin _ := trivial
  slot_tryBegin _ := slot_tryBegin
  readable_abort _ := trivial
  slot_abort_ne _ hne := slot_abort.trans (if_neg hne)
  slot_abort _ := congrArg Slot.response (slot_abort.trans (if_pos rfl))
  readable_store _ _ := trivial
  slot_store_ne _ hf hne := by
    obtain rfl := step_eq hf
    exact slot_insert.trans (if_neg hne)
  slot_store hf _ := by
    obtain rfl := step_eq hf
    exact congrArg Slot.response (slot_insert.trans (if_pos rfl))
  held_store _ hn := absurd hn (by simp [inMemoryIdempotencyStore])

namespace RedisIdempotencyStore

variable {keyPrefix : String} {now ttl : Nat} {key k : String} {strings : RedisState}
  {response : CachedResponse}

def slot (keyPrefix : String) (now : Nat) (key : String) (strings : RedisState) : Slot :=
  { held := (strings.get now (lockKey keyPrefix key)).isSome
    response := (strings.get now (responseKey keyPrefix key)).bind loadResponse }

/-- The lock of a key and its response each expire on their own. -/
def expiry (keyPrefix key : String) (strings : RedisState) : List Nat :=
  (strings.expiry (lockKey keyPrefix key)).toList ++
    (strings.expiry (responseKey keyPrefix key)).toList

theorem slot_time {now' : Nat} (hle : now ≤ now')
    (hlasts : ∀ t ∈ expiry keyPrefix key strings, now < t → now' < t) :
    slot keyPrefix now' key strings = slot keyPrefix now key strings := by
  have hlock := Redis.Strings.get_time (k := lockKey keyPrefix key) hle
    fun t ht => hlasts t (List.mem_append_left _ (Option.mem_toList.mpr ht))
  have hresponse := Redis.Strings.get_time (k := responseKey keyPrefix key) hle
    fun t ht => hlasts t (List.mem_append_right _ (Option.mem_toList.mpr ht))
  rw [slot, slot, hlock, hresponse]

/-- Every response of the server can be read. -/
def Readable (keyPrefix : String) (strings : RedisState) : Prop :=
  ∀ key raw expires, strings.entries[responseKey keyPrefix key]? = some (raw, expires) →
    (loadResponse raw).isSome

theorem getCached_eq (h : Readable keyPrefix strings) :
    getCached keyPrefix now key strings = .ok (slot keyPrefix now key strings).response := by
  rw [getCached, slot]
  cases hget : strings.get now (responseKey keyPrefix key) with
  | none => rfl
  | some raw =>
    obtain ⟨expires, hentry, -⟩ := Redis.Strings.get_eq_some.mp hget
    obtain ⟨found, hfound⟩ := Option.isSome_iff_exists.mp (h _ _ _ hentry)
    simp [hfound]

theorem entries_tryBegin : (tryBegin keyPrefix now key ttl strings).2.entries[responseKey
    keyPrefix k]? = strings.entries[responseKey keyPrefix k]? := by
  rw [tryBegin, Redis.Strings.setNx]
  split
  · rfl
  · rw [Redis.Strings.entries_set, if_neg (lockKey_ne_responseKey _ _ _)]

theorem slot_tryBegin : slot keyPrefix now k (tryBegin keyPrefix now key ttl strings).2 =
    if key = k ∧ (slot keyPrefix now k strings).held = false
    then ⟨true, (slot keyPrefix now k strings).response⟩
    else slot keyPrefix now k strings := by
  have hresponse : (tryBegin keyPrefix now key ttl strings).2.get now (responseKey keyPrefix k) =
      strings.get now (responseKey keyPrefix k) := by
    rw [Redis.Strings.get, Redis.Strings.get, entries_tryBegin]
  rw [slot, hresponse, tryBegin, Redis.Strings.get_setNx (lt_expiresAt now ttl), slot]
  simp only [lockKey_inj]
  by_cases h : key = k
  · subst h
    cases hlock : strings.get now (lockKey keyPrefix key) <;> simp
  · simp [h]

theorem slot_setResponse :
    slot keyPrefix now k (setResponse keyPrefix key response ttl now strings) =
      if key = k then ⟨(slot keyPrefix now k strings).held, some response⟩
      else slot keyPrefix now k strings := by
  rw [slot, slot, setResponse, Redis.Strings.get_set (lt_expiresAt now ttl),
    Redis.Strings.get_set (lt_expiresAt now ttl), if_neg (lockKey_ne_responseKey _ _ _).symm]
  simp only [responseKey_inj]
  by_cases h : key = k
  · rw [if_pos h, if_pos h, Option.bind_some, loadResponse_dumpResponse]
  · rw [if_neg h, if_neg h]

theorem slot_deleteLock : slot keyPrefix now k (deleteLock keyPrefix key strings) =
    if key = k then ⟨false, (slot keyPrefix now k strings).response⟩
    else slot keyPrefix now k strings := by
  rw [slot, slot, deleteLock, Redis.Strings.get_del, Redis.Strings.get_del,
    if_neg (lockKey_ne_responseKey _ _ _)]
  simp only [lockKey_inj]
  by_cases h : key = k
  · rw [if_pos h, if_pos h]
    rfl
  · rw [if_neg h, if_neg h]

theorem readable_setResponse (h : Readable keyPrefix strings) :
    Readable keyPrefix (setResponse keyPrefix key response ttl now strings) := by
  intro k raw expires hentry
  rw [setResponse, Redis.Strings.entries_set] at hentry
  split at hentry
  · obtain ⟨rfl, -⟩ := Prod.mk.inj (Option.some.inj hentry)
    rw [loadResponse_dumpResponse]
    rfl
  · exact h _ _ _ hentry

theorem readable_deleteLock (h : Readable keyPrefix strings) :
    Readable keyPrefix (deleteLock keyPrefix key strings) := by
  intro k raw expires hentry
  rw [deleteLock, Redis.Strings.entries_del, if_neg (lockKey_ne_responseKey _ _ _)] at hentry
  exact h _ _ _ hentry

theorem step_eq {n : Nat} {f : Nat → RedisState → RedisState}
    (hf : ((redisIdempotencyStore keyPrefix).storeResponse key response ttl)[n]? = some f) :
    n = 0 ∧ f = setResponse keyPrefix key response ttl ∨
      n = 1 ∧ f = fun _ => deleteLock keyPrefix key := by
  rcases n with _ | _ | n
  · exact .inl ⟨rfl, (Option.some.inj hf).symm⟩
  · exact .inr ⟨rfl, (Option.some.inj hf).symm⟩
  · cases hf

end RedisIdempotencyStore

open RedisIdempotencyStore in
def redisLawful (keyPrefix : String) : Lawful (redisIdempotencyStore keyPrefix) where
  slot := slot keyPrefix
  expiry := expiry keyPrefix
  slot_time := slot_time
  Readable := Readable keyPrefix
  readable_init _ _ _ h := by simp [redisIdempotencyStore, Redis.Strings.empty] at h
  slot_init _ _ := by simp [slot, redisIdempotencyStore]
  getCached_eq := getCached_eq
  readable_getCached h := h
  slot_getCached _ := rfl
  tryBegin_eq := Redis.Strings.setNx_fst.trans (by simp [slot])
  readable_tryBegin h key raw expires hentry := h key raw expires (entries_tryBegin ▸ hentry)
  slot_tryBegin _ := slot_tryBegin
  readable_abort h := readable_deleteLock h
  slot_abort_ne _ hne := slot_deleteLock.trans (if_neg hne)
  slot_abort h := (congrArg Slot.response (slot_deleteLock.trans (if_pos rfl))).trans h
  readable_store hf h := by
    rcases step_eq hf with ⟨-, rfl⟩ | ⟨-, rfl⟩
    · exact readable_setResponse h
    · exact readable_deleteLock h
  slot_store_ne _ hf hne := by
    rcases step_eq hf with ⟨-, rfl⟩ | ⟨-, rfl⟩
    · exact slot_setResponse.trans (if_neg hne)
    · exact slot_deleteLock.trans (if_neg hne)
  slot_store hf h := by
    rcases step_eq hf with ⟨-, rfl⟩ | ⟨rfl, rfl⟩
    · exact congrArg Slot.response (slot_setResponse.trans (if_pos rfl))
    · exact (congrArg Slot.response (slot_deleteLock.trans (if_pos rfl))).trans
        (h.resolve_left (by decide))
  held_store hf hn := by
    rcases step_eq hf with ⟨-, rfl⟩ | ⟨rfl, -⟩
    · exact (congrArg Slot.held slot_setResponse).trans (by rw [if_pos rfl])
    · exact absurd hn (by simp [redisIdempotencyStore])

end AiPlatform.Gateway
