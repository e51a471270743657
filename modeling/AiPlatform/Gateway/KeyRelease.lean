/-
  AiPlatform.Gateway.KeyRelease

  When the idempotency middleware lets go of a key it has won.

  A key is released when it is locked only as long as a response is bound to it,
  whatever time passes.  Until a key is released, a request that has won it is
  still at it, in the application or in the call of the store that releases it.
  The one way out that does neither is a cancellation in that call: `abort` and
  `store_response` stand outside every handler.
-/

import AiPlatform.Gateway.ExecutesOnce

namespace AiPlatform.Gateway

open Std Transition

/-! ## Released keys -/

section

variable {S : IdempotencyStore} (L : Lawful S)

/-- From now on the key is locked only while a response is bound to it. -/
def Released (key : String) (now : Nat) (store : S.State) : Prop :=
  ∀ t, now ≤ t → (L.slot t key store).held = true → (L.slot t key store).response ≠ none

variable {L} {key : String} {now now' : Nat} {store store' : S.State}

theorem Released.later (h : Released L key now store) (hle : now ≤ now') :
    Released L key now' store :=
  fun t ht => h t (hle.trans ht)

theorem Released.of_slots (h : Released L key now store)
    (hslots : ∀ t, now ≤ t → L.slot t key store' = L.slot t key store) :
    Released L key now store' := by
  intro t ht
  rw [hslots t ht]
  exact h t ht

theorem Released.of_free (h : ∀ t, (L.slot t key store).held = false) :
    Released L key now store := by
  intro t _ hheld
  rw [h t] at hheld
  cases hheld

variable (L)

/-- What the calls of a store do to the keys that are released. -/
structure Releases : Prop where
  getCached : ∀ {now : Nat} {key : String} {store : S.State} (k : String), Released L k now store →
    Released L k now (S.getCached now key store).2
  /-- Only a request that wins a key takes it. -/
  tryBegin : ∀ {now ttl : Nat} {key : String} {store : S.State} (k : String),
    key ≠ k ∨ (S.tryBegin now key ttl store).1 = false → Released L k now store →
    Released L k now (S.tryBegin now key ttl store).2
  abort_ne : ∀ {now : Nat} {key : String} {store : S.State} (k : String), key ≠ k →
    Released L k now store → Released L k now (S.abort key store)
  abort : ∀ {now : Nat} {key : String} {store : S.State}, Released L key now (S.abort key store)
  store_ne : ∀ {now ttl n : Nat} {key : String} {response : CachedResponse}
    {f : Nat → S.State → S.State} {store : S.State} (k : String),
    (S.storeResponse key response ttl)[n]? = some f → key ≠ k → Released L k now store →
    Released L k now (f now store)
  /-- The last step of `store_response` releases the key. -/
  store : ∀ {now ttl n : Nat} {key : String} {response : CachedResponse}
    {f : Nat → S.State → S.State} {store : S.State},
    (S.storeResponse key response ttl)[n]? = some f →
    ¬ n + 1 < (S.storeResponse key response ttl).length → Released L key now (f now store)

end

namespace InMemoryIdempotencyStore

variable {now t : Nat} {key k : String} {records : Records}

theorem slot_evictExpired_later (hle : now ≤ t) :
    slot t key (evictExpired now records) = slot t key records := by
  rw [slot, slot, getElem?_evictExpired, getElem?_evictExpired, getElem?_evictExpired,
    Option.filter_filter]
  congr 2
  funext record
  simp only [← Bool.decide_and, decide_eq_decide]
  omega

theorem slot_insert_ne {record : Option CachedResponse × Nat} (hne : key ≠ k) :
    slot t k (records.insert key record) = slot t k records := by
  rw [slot, slot, getElem?_evictExpired, getElem?_evictExpired, OrdMap.getElem?_insert,
    if_neg hne]

/-- A request that does not win the key leaves it as it was. -/
theorem slot_tryBegin_later {ttl : Nat} (hle : now ≤ t)
    (hlost : key ≠ k ∨ (tryBegin now key ttl records).1 = false) :
    slot t k (tryBegin now key ttl records).2 = slot t k records := by
  by_cases hheld : ((evictExpired now records)[key]?).isSome = true
  · have hlooks : tryBegin now key ttl records = (false, evictExpired now records) := if_pos hheld
    rw [hlooks]
    exact slot_evictExpired_later hle
  · have hwins : tryBegin now key ttl records =
        (true, (evictExpired now records).insert key (none, expiresAt now ttl)) := if_neg hheld
    rw [hwins] at hlost ⊢
    rcases hlost with hne | hlost
    · exact (slot_insert_ne hne).trans (slot_evictExpired_later hle)
    · cases hlost

/-- A record with a response is held no longer than it has it. -/
theorem released_insert {response : CachedResponse} {expires : Nat} :
    Released inMemoryLawful key now (records.insert key (some response, expires)) := by
  intro t _ hheld
  have hslot : slot t key (records.insert key (some response, expires)) =
      slotOf ((some (some response, expires)).filter fun record => decide (t < record.2)) := by
    rw [slot, getElem?_evictExpired, OrdMap.getElem?_insert, if_pos rfl]
  have hslot' : inMemoryLawful.slot t key (records.insert key (some response, expires)) = _ :=
    hslot
  rw [hslot'] at hheld ⊢
  by_cases ht : t < expires
  · simp [Option.filter, ht, slotOf]
  · simp [Option.filter, ht, slotOf] at hheld

theorem releases : Releases inMemoryLawful where
  getCached _ h := h.of_slots fun _ ht => slot_evictExpired_later ht
  tryBegin _ hlost h := h.of_slots fun _ ht => slot_tryBegin_later ht hlost
  abort_ne _ hne h := h.of_slots fun _ _ => slot_abort.trans (if_neg hne)
  abort := .of_free fun _ => congrArg Slot.held (slot_abort.trans (if_pos rfl))
  store_ne k hf hne h := by
    obtain rfl := step_eq hf
    exact h.of_slots fun _ _ => slot_insert_ne hne
  store hf _ := by
    obtain rfl := step_eq hf
    exact released_insert

end InMemoryIdempotencyStore

namespace RedisIdempotencyStore

variable {keyPrefix : String} {t expires : Nat} {key k : String} {value : Capability.PyValue}
  {strings : RedisState}

theorem slot_set_ne {other : String} (hlock : other ≠ lockKey keyPrefix k)
    (hresponse : other ≠ responseKey keyPrefix k) :
    slot keyPrefix t k (strings.set other value expires) = slot keyPrefix t k strings := by
  rw [slot, slot, Redis.Strings.get_set_ne hlock, Redis.Strings.get_set_ne hresponse]

theorem slot_tryBegin_lost {now ttl : Nat}
    (hlost : key ≠ k ∨ (tryBegin keyPrefix now key ttl strings).1 = false) :
    slot keyPrefix t k (tryBegin keyPrefix now key ttl strings).2 = slot keyPrefix t k strings := by
  by_cases hheld : (strings.get now (lockKey keyPrefix key)).isSome = true
  · have hlooks : tryBegin keyPrefix now key ttl strings = (false, strings) := if_pos hheld
    rw [hlooks]
  · have hwins : tryBegin keyPrefix now key ttl strings =
        (true, strings.set (lockKey keyPrefix key) (.int 1) (expiresAt now ttl)) := if_neg hheld
    rw [hwins] at hlost ⊢
    rcases hlost with hne | hlost
    · exact slot_set_ne (lockKey_inj.not.mpr hne) (lockKey_ne_responseKey _ _ _)
    · cases hlost

theorem releases : Releases (redisLawful keyPrefix) where
  getCached _ h := h
  tryBegin _ hlost h := h.of_slots fun _ _ => slot_tryBegin_lost hlost
  abort_ne _ hne h := h.of_slots fun _ _ => slot_deleteLock.trans (if_neg hne)
  abort := .of_free fun _ => congrArg Slot.held (slot_deleteLock.trans (if_pos rfl))
  store_ne := by
    intro now ttl n key response f store k hf hne h
    refine h.of_slots fun t _ => ?_
    match n, hf with
    | 0, hf =>
      obtain rfl := Option.some.inj hf
      exact slot_set_ne (lockKey_ne_responseKey _ _ _).symm (responseKey_inj.not.mpr hne)
    | 1, hf =>
      obtain rfl := Option.some.inj hf
      exact slot_deleteLock.trans (if_neg hne)
  store := by
    intro now ttl n key response f store hf hlast
    match n, hf with
    | 0, _ => exact absurd (by simp [redisIdempotencyStore]) hlast
    | 1, hf =>
      obtain rfl := Option.some.inj hf
      exact .of_free fun _ => congrArg Slot.held (slot_deleteLock.trans (if_pos rfl))

end RedisIdempotencyStore

/-! ## Requests that own a key -/

/-- Has the request won its key, and is its call not over? -/
def Phase.owns : Phase → Bool
  | .running _ | .storing _ _ | .aborting => true
  | _ => false

/-- Is the request in the call that releases its key? -/
def Phase.releasing : Phase → Bool
  | .storing _ _ | .aborting => true
  | _ => false

section

variable {S : IdempotencyStore} (L : Lawful S)

/-- A request owns the key. -/
def Owned (key : String) (pool : Pool (Shared S) Thread) : Prop :=
  ∃ i thread, At pool key i thread ∧ thread.2.owns = true

/-- No key is left locked without a response and without an owner, now or later. -/
def NoneLeft (pool : Pool (Shared S) Thread) : Prop :=
  ∀ key, Released L key pool.shared.now pool.shared.store ∨ Owned key pool

/-- A request is cancelled in the call that releases its key, the key is not released
    and no other request owns it. -/
def Strands (x : PoolMove (Shared S) Thread Drive Nat) : Prop :=
  ∃ i thread, x.input = .step i .cancel ∧ x.pre.threads[i]? = some thread ∧
    thread.2.releasing = true ∧
    ¬ Released L thread.1.key x.pre.shared.now x.pre.shared.store ∧
    ∀ j other, At x.pre thread.1.key j other → other.2.owns = true → j = i

variable {L} {mw : IdempotencyMiddleware} {hexdigest : List UInt8 → String} {key : String}

/-- A call of the store keeps other keys released, and its own when it does not win
    it; and a request that is done with its key has released it. -/
theorem proceed_releases (R : Releases L) {now : Nat} {request : Request}
    {store store' : S.State} {phase phase' : Phase}
    (h : proceed S mw hexdigest now request store phase = some (phase', store')) :
    (∀ k, Released L k now store → Released L k now store' ∨
        k = request.key ∧ phase'.owns = true) ∧
      (phase.owns = true → phase'.owns = true ∨ Released L request.key now store') := by
  cases phase with
  | lookingUp =>
    obtain ⟨-, rfl⟩ := Prod.mk.inj (Option.some.inj h)
    exact ⟨fun k hk => .inl (R.getCached k hk), nofun⟩
  | looking deadline =>
    obtain ⟨-, rfl⟩ := Prod.mk.inj (Option.some.inj h)
    exact ⟨fun k hk => .inl (R.getCached k hk), nofun⟩
  | lastLook =>
    obtain ⟨-, rfl⟩ := Prod.mk.inj (Option.some.inj h)
    exact ⟨fun k hk => .inl (R.getCached k hk), nofun⟩
  | beginning =>
    obtain ⟨rfl, rfl⟩ := Prod.mk.inj (Option.some.inj h)
    refine ⟨fun k hk => ?_, nofun⟩
    cases hbegun : (S.tryBegin now request.key mw.ttlSeconds store).1 with
    | false => exact .inl (R.tryBegin k (.inr hbegun) hk)
    | true =>
      by_cases hkey : request.key = k
      · exact .inr ⟨hkey.symm, rfl⟩
      · exact .inl (R.tryBegin k (.inl hkey) hk)
  | waiting =>
    obtain ⟨-, rfl⟩ := Prod.mk.inj (Option.some.inj h)
    exact ⟨fun k hk => .inl hk, nofun⟩
  | polling deadline =>
    obtain ⟨-, rfl⟩ := Prod.mk.inj (Option.some.inj h)
    exact ⟨fun k hk => .inl hk, nofun⟩
  | storing response done =>
    obtain ⟨step, hstep, heq⟩ := Option.map_eq_some_iff.mp h
    obtain ⟨rfl, rfl⟩ := Prod.mk.inj heq
    by_cases hmore : done + 1 < (S.storeResponse request.key response mw.ttlSeconds).length
    · simp only [if_pos hmore]
      refine ⟨fun k hk => ?_, fun _ => .inl rfl⟩
      by_cases hkey : request.key = k
      · exact .inr ⟨hkey.symm, rfl⟩
      · exact .inl (R.store_ne k hstep hkey hk)
    · have hreleased : Released L request.key now (step now store) := R.store hstep hmore
      refine ⟨fun k hk => ?_, fun _ => .inr hreleased⟩
      by_cases hkey : request.key = k
      · exact .inl (hkey ▸ hreleased)
      · exact .inl (R.store_ne k hstep hkey hk)
  | aborting =>
    obtain ⟨-, rfl⟩ := Prod.mk.inj (Option.some.inj h)
    refine ⟨fun k hk => ?_, fun _ => .inr R.abort⟩
    by_cases hkey : request.key = k
    · exact .inl (hkey ▸ R.abort)
    · exact .inl (R.abort_ne k hkey hk)
  | running sent => cases h
  | answered answer => cases h
  | ran response => cases h
  | dropped => cases h

/-- A request leaves its key to nobody only when it is cancelled in the call that
    releases it. -/
theorem drive_owns {request : Request} {event : Drive} {phase phase' : Phase}
    (h : drive hexdigest request event phase = some phase') (howns : phase.owns = true) :
    phase'.owns = true ∨ event = .cancel ∧ phase.releasing = true := by
  unfold drive at h
  split at h
  · obtain rfl := Option.some.inj h
    exact .inl rfl
  · split at h
    · obtain rfl := Option.some.inj h
      exact .inl rfl
    · obtain rfl := Option.some.inj h
      exact .inl rfl
  · obtain rfl := Option.some.inj h
    exact .inl rfl
  · obtain rfl := Option.some.inj h
    exact .inl rfl
  · exact .inr ⟨rfl, rfl⟩
  · exact .inr ⟨rfl, rfl⟩
  · cases h
  · cases h
  · cases h
  · rename_i hrunning hstoring haborting _ _ _
    cases phase with
    | running sent => exact absurd rfl (hrunning sent)
    | storing response done => exact absurd rfl (hstoring response done)
    | aborting => exact absurd rfl haborting
    | _ => cases howns
  · cases h

/-- What a step of a thread does to the keys. -/
theorem act_releases (R : Releases L) {shared shared' : Shared S} {thread next : Thread}
    {choice : Drive}
    (h : (middleware S mw hexdigest).act shared thread choice = some (shared', next)) :
    next.1 = thread.1 ∧ shared'.now = shared.now ∧
      (∀ k, Released L k shared.now shared.store → Released L k shared.now shared'.store ∨
        k = thread.1.key ∧ next.2.owns = true) ∧
      (thread.2.owns = true → next.2.owns = true ∨
        Released L thread.1.key shared.now shared'.store ∨
        choice = .cancel ∧ thread.2.releasing = true ∧ shared' = shared) := by
  simp only [middleware, actOf] at h
  split at h
  · obtain ⟨⟨phase, store⟩, hproceed, heq⟩ := Option.map_eq_some_iff.mp h
    obtain ⟨rfl, rfl⟩ := Prod.mk.inj heq
    obtain ⟨hkeeps, howns⟩ := proceed_releases R hproceed
    exact ⟨rfl, rfl, hkeeps, fun ho => (howns ho).imp_right .inl⟩
  · obtain ⟨phase, hdrive, heq⟩ := Option.map_eq_some_iff.mp h
    obtain ⟨rfl, rfl⟩ := Prod.mk.inj heq
    refine ⟨rfl, rfl, fun _ => .inl, fun howns => ?_⟩
    rcases drive_owns hdrive howns with hstill | ⟨hcancel, hreleasing⟩
    · exact .inl hstill
    · exact .inr (.inr ⟨hcancel, hreleasing, rfl⟩)

/-- A cancelled request owns nothing. -/
theorem drive_cancel {request : Request} {phase phase' : Phase}
    (h : drive hexdigest request .cancel phase = some phase') (hreleasing : phase.releasing = true) :
    phase'.owns = false := by
  cases phase with
  | storing response done =>
    obtain rfl := Option.some.inj h
    rfl
  | aborting =>
    obtain rfl := Option.some.inj h
    rfl
  | _ => cases hreleasing

variable {x : PoolMove (Shared S) Thread Drive Nat}

/-- A key that is stranded is left. -/
theorem left_of_strands (hx : (middleware S mw hexdigest).machine.Makes x) (h : Strands L x) :
    ¬ NoneLeft L x.post := by
  obtain ⟨i, thread, hinput, hthread, hreleasing, hlocked, hothers⟩ := h
  intro hnone
  rcases Pool.makes_cases hx with ⟨new, hspawn, -⟩ | ⟨j, choice, mover, next, hacts⟩ |
    ⟨ms, htick, -⟩
  · rw [hinput] at hspawn
    cases hspawn
  · obtain ⟨rfl, rfl⟩ := PoolInput.step.inj (hinput.symm.trans hacts.input)
    obtain rfl := Option.some.inj (hthread.symm.trans hacts.found)
    obtain ⟨phase, hdrive, heq⟩ := Option.map_eq_some_iff.mp hacts.act
    obtain ⟨hshared, hnext⟩ := Prod.mk.inj heq
    have hfree : next.2.owns = false := by
      rw [← hnext]
      exact drive_cancel hdrive hreleasing
    rcases hnone thread.1.key with hreleased | ⟨k, other, ⟨hk, hkey⟩, howns⟩
    · rw [← hshared] at hreleased
      exact hlocked hreleased
    · rw [hacts.threads] at hk
      rcases (Pool.getElem?_set_iff hacts.found).mp hk with ⟨-, rfl⟩ | ⟨hne, hother⟩
      · rw [hfree] at howns
        cases howns
      · exact hne (hothers k other ⟨hother, hkey⟩ howns).symm
  · rw [hinput] at htick
    cases htick

/-- A move leaves a key exactly when it strands it. -/
theorem noneLeft_step (R : Releases L) (hx : (middleware S mw hexdigest).machine.Makes x)
    (hpre : NoneLeft L x.pre) : NoneLeft L x.post ↔ ¬ Strands L x := by
  refine ⟨fun hpost h => left_of_strands hx h hpost, fun hstrands key => ?_⟩
  rcases Pool.makes_cases hx with ⟨new, -, -, hpost⟩ | ⟨i, choice, thread, next, hacts⟩ |
    ⟨ms, -, htick, hthreads⟩
  · rw [hpost]
    refine (hpre key).imp id ?_
    rintro ⟨i, thread, ⟨hi, hkey⟩, howns⟩
    exact ⟨i, thread, ⟨Pool.getElem?_push_iff.mpr (.inl hi), hkey⟩, howns⟩
  · obtain ⟨hrequest, hnow, hkeeps, howner⟩ := act_releases R hacts.act
    have hat : ∀ {j other}, x.post.threads[j]? = some other ↔
        i = j ∧ next = other ∨ i ≠ j ∧ x.pre.threads[j]? = some other := by
      intro j other
      rw [hacts.threads]
      exact Pool.getElem?_set_iff hacts.found
    have hself : next.2.owns = true → Owned thread.1.key x.post := fun howns =>
      ⟨i, next, ⟨hat.mpr (.inl ⟨rfl, rfl⟩), congrArg Request.key hrequest⟩, howns⟩
    have hothers : ∀ {j other}, At x.pre key j other → other.2.owns = true → i ≠ j →
        Owned key x.post := fun hj howns hne =>
      ⟨_, _, ⟨hat.mpr (.inr ⟨hne, hj.1⟩), hj.2⟩, howns⟩
    rw [hnow]
    rcases hpre key with hreleased | ⟨j, owner, hj, howns⟩
    · rcases hkeeps key hreleased with hstill | ⟨rfl, hnext⟩
      · exact .inl hstill
      · exact .inr (hself hnext)
    · by_cases hij : i = j
      · subst hij
        obtain rfl := Option.some.inj (hacts.found.symm.trans hj.1)
        obtain rfl := hj.2
        rcases howner howns with hstill | hreleased | ⟨rfl, hreleasing, hshared⟩
        · exact .inr (hself hstill)
        · exact .inl hreleased
        · -- The request is cancelled: either its key is released or another owns it.
          by_contra hneither
          obtain ⟨hlocked, hnobody⟩ := not_or.mp hneither
          rw [hshared] at hlocked
          refine hstrands ⟨i, thread, hacts.input, hacts.found, hreleasing, hlocked,
            fun j other hother ho => ?_⟩
          by_contra hne
          exact hnobody (hothers hother ho (Ne.symm hne))
      · exact .inr (hothers hj howns hij)
  · have hshared := Option.some.inj htick
    rcases hpre key with hreleased | ⟨i, thread, ⟨hi, hkey⟩, howns⟩
    · rw [← hshared]
      exact .inl (hreleased.later (Nat.le_add_right _ _))
    · exact .inr ⟨i, thread, ⟨hthreads ▸ hi, hkey⟩, howns⟩

theorem noneLeft_idle : NoneLeft L (idle S) := by
  refine fun key => .inl (.of_free fun t => ?_)
  exact congrArg Slot.held (L.slot_init t key)

theorem Releases.noneLeft_iff (R : Releases L) {tr : List (PoolMove (Shared S) Thread Drive Nat)}
    {pool : Pool (Shared S) Thread} (h : Run (middleware S mw hexdigest).machine (idle S) tr pool) :
    (∀ x ∈ tr, NoneLeft L x.post) ↔ ∀ x ∈ tr, ¬ Strands L x :=
  h.forall_iff (P := fun _ => True) (fun _ _ _ _ => trivial)
    (fun _ hx _ hpre => noneLeft_step R hx hpre) trivial noneLeft_idle

end

/-! ## Both stores -/

/-- In every run over either store no key is left locked by a request whose call has
    ended, exactly when no move strands one. -/
theorem no_key_left_iff (mw : IdempotencyMiddleware) (hexdigest : List UInt8 → String) :
    (∀ tr pool, Run (middleware inMemoryIdempotencyStore mw hexdigest).machine
        (idle inMemoryIdempotencyStore) tr pool →
      ((∀ x ∈ tr, NoneLeft inMemoryLawful x.post) ↔ ∀ x ∈ tr, ¬ Strands inMemoryLawful x)) ∧
    ∀ keyPrefix tr pool, Run (middleware (redisIdempotencyStore keyPrefix) mw hexdigest).machine
        (idle (redisIdempotencyStore keyPrefix)) tr pool →
      ((∀ x ∈ tr, NoneLeft (redisLawful keyPrefix) x.post) ↔
        ∀ x ∈ tr, ¬ Strands (redisLawful keyPrefix) x) :=
  ⟨fun _ _ h => InMemoryIdempotencyStore.releases.noneLeft_iff h,
    fun _ _ _ h => RedisIdempotencyStore.releases.noneLeft_iff h⟩

/-- A request whose application raises. -/
def abortedRun : List (PoolInput Thread Drive Nat) :=
  [.spawn (sampleRequest, .lookingUp), .step 0 .proceed, .step 0 .proceed, .step 0 .raises,
   .step 0 .proceed]

/-- There is one thread, and its application has raised. -/
def ranAlone : List Thread → Bool
  | [(request, .ran none)] => request == sampleRequest
  | _ => false

/-- It leaves no key. -/
theorem no_key_left_iff_runs :
    ∃ tr pool, Run (middleware (redisIdempotencyStore "idem") sampleMiddleware sampleDigest).machine
        (idle (redisIdempotencyStore "idem")) tr pool ∧
      pool.threads = [(sampleRequest, .ran none)] ∧
      ∀ x ∈ tr, NoneLeft (redisLawful "idem") x.post := by
  obtain ⟨tr, pool, h, hinputs, hended⟩ := Machine.exists_run
    (middleware (redisIdempotencyStore "idem") sampleMiddleware sampleDigest).machine
    (idle (redisIdempotencyStore "idem")) abortedRun
    (fun _ pool => ranAlone pool.threads)
    (by decide +kernel)
  refine ⟨tr, pool, h, ?_, ?_⟩
  · unfold ranAlone at hended
    split at hended
    · rename_i request hthreads
      rw [hthreads, eq_of_beq hended]
    · cases hended
  · refine ((no_key_left_iff sampleMiddleware sampleDigest).2 "idem" tr pool h).mpr fun x hx => ?_
    rintro ⟨i, thread, hinput, -⟩
    have hmem : x.input ∈ abortedRun := hinputs ▸ List.mem_map_of_mem hx
    rw [hinput] at hmem
    simp [abortedRun] at hmem

/-- A request whose application raises, cancelled while `abort` waits for Redis. -/
def cancelledAbort : List (PoolInput Thread Drive Nat) :=
  [.spawn (sampleRequest, .lookingUp), .step 0 .proceed, .step 0 .proceed, .step 0 .raises,
   .step 0 .cancel]

/-- It leaves its key locked, without a response, to nobody. -/
theorem cancelled_abort_leaves_key :
    ∃ tr pool, Run (middleware (redisIdempotencyStore "idem") sampleMiddleware sampleDigest).machine
        (idle (redisIdempotencyStore "idem")) tr pool ∧
      ¬ ∀ x ∈ tr, NoneLeft (redisLawful "idem") x.post := by
  obtain ⟨tr, pool, h, -, hcheck⟩ := Machine.exists_run
    (middleware (redisIdempotencyStore "idem") sampleMiddleware sampleDigest).machine
    (idle (redisIdempotencyStore "idem")) cancelledAbort
    (fun tr _ => tr.any fun x =>
      ((redisLawful "idem").slot x.post.shared.now sampleKey x.post.shared.store ==
        ⟨true, none⟩) && x.post.threads.all fun thread => !thread.2.owns)
    (by decide +kernel)
  obtain ⟨x, hx, hleft⟩ := List.any_eq_true.mp hcheck
  obtain ⟨hslot, hnobody⟩ := Bool.and_eq_true_iff.mp hleft
  refine ⟨tr, pool, h, fun hnone => ?_⟩
  have hslot := eq_of_beq hslot
  rcases hnone x hx sampleKey with hreleased | ⟨i, thread, ⟨hi, -⟩, howns⟩
  · exact hreleased x.post.shared.now (Nat.le_refl _) (congrArg Slot.held hslot)
      (congrArg Slot.response hslot)
  · have hfree := List.all_eq_true.mp hnobody thread (List.mem_of_getElem? hi)
    rw [howns] at hfree
    cases hfree

end AiPlatform.Gateway
