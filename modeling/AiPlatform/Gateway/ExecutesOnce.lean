/-
  AiPlatform.Gateway.ExecutesOnce

  The law of the idempotency middleware: of the requests of one key at most one
  runs the application to a response that is kept, and every answer given without
  a run of the application is that response, to the same body, or a 409.

  The invariant is over the slot of the key and the requests of the key: two
  active requests are the same one, and the slot is what the one that is active
  has made of it.  It is proved for every lawful store, for the runs in which no
  request begins over a stored response.
-/

import AiPlatform.Gateway.IdempotencyMiddleware

namespace AiPlatform.Gateway

open Transition

/-! ## What a step of a request does to its key -/

/-- Does the request run the application, or has it done so for good? -/
def Phase.active : Phase → Bool
  | .running _ | .storing _ _ | .aborting | .ran (some _) => true
  | _ => false

/-- The response of the request's own run of the application, if it is kept. -/
def Phase.kept : Phase → Option CachedResponse
  | .storing response _ => some response
  | .ran response => response
  | _ => none

/-- An answer that may be given while the slot of the key is this. -/
def Fair (digest : String) (response : Option CachedResponse) (answer : Answer) : Prop :=
  answer = stillInProgress ∨ answer = differentBody ∨
    ∃ kept, response = some kept ∧ kept.requestBodyDigest = some digest ∧
      answer = sendCached kept

/-- What a step makes of the phase of a request and of the slot of its key. -/
inductive Advance (digest : String) (slot slot' : Slot) : Phase → Phase → Prop
  | looks {phase phase' : Phase} (hphase : phase.active = false)
      (hphase' : phase'.active = false) (hslot : slot' = slot)
      (hanswer : ∀ answer, phase' = .answered answer → Fair digest slot.response answer) :
      Advance digest slot slot' phase phase'
  | begins (hfree : slot.held = false) (hslot : slot' = ⟨true, slot.response⟩) :
      Advance digest slot slot' .beginning (.running [])
  | sends {sent sent' : List SendMessage} (hslot : slot' = slot) :
      Advance digest slot slot' (.running sent) (.running sent')
  | keeps {sent : List SendMessage} {response : CachedResponse}
      (hdigest : response.requestBodyDigest = some digest) (hslot : slot' = slot) :
      Advance digest slot slot' (.running sent) (.storing response 0)
  | fails {sent : List SendMessage} (hslot : slot' = slot) :
      Advance digest slot slot' (.running sent) .aborting
  | stores {response : CachedResponse} {done : Nat}
      (hstored : done = 0 ∨ slot.response = some response → slot'.response = some response)
      (hheld : slot'.held = slot.held) :
      Advance digest slot slot' (.storing response done) (.storing response (done + 1))
  | stored {response : CachedResponse} {done : Nat}
      (hstored : done = 0 ∨ slot.response = some response → slot'.response = some response) :
      Advance digest slot slot' (.storing response done) (.ran (some response))
  | abandons {response : CachedResponse} {done : Nat} (hslot : slot' = slot) :
      Advance digest slot slot' (.storing response done) (.ran (some response))
  | frees (hnone : slot.response = none → slot'.response = none) :
      Advance digest slot slot' .aborting (.ran none)

section

variable {S : IdempotencyStore} (L : Lawful S) {mw : IdempotencyMiddleware}
  {hexdigest : List UInt8 → String}

theorem keptResponse_digest {digest : String} {sent : List SendMessage}
    {response : CachedResponse} (h : keptResponse digest sent = some response) :
    response.requestBodyDigest = some digest := by
  simp only [keptResponse] at h
  split at h
  · cases h
  split at h
  · cases h
  · obtain rfl := Option.some.inj h
    rfl

/-- What a look makes of a request that is not active. -/
theorem advance_found {request : Request} {slot : Slot} {phase otherwise : Phase}
    (hphase : phase.active = false) (hotherwise : otherwise.active = false)
    (hanswer : ∀ answer, otherwise = .answered answer → answer = stillInProgress) :
    Advance (hexdigest request.body) slot slot phase
      (found hexdigest request otherwise (.ok slot.response)) := by
  cases hresponse : slot.response with
  | none =>
    refine .looks hphase hotherwise rfl fun answer h => ?_
    exact .inl (hanswer answer h)
  | some response =>
    refine .looks hphase rfl rfl fun answer h => ?_
    obtain rfl := Phase.answered.inj h
    rw [sendCachedOrConflict]
    split
    · exact .inr (.inl rfl)
    · rename_i hdigest
      exact .inr (.inr ⟨response, hresponse, Decidable.not_not.mp hdigest, rfl⟩)

/-- A step at a call of the store. -/
theorem proceed_advance {now : Nat} {request : Request} {store store' : S.State}
    {phase phase' : Phase} (hreadable : L.Readable store)
    (h : proceed S mw hexdigest now request store phase = some (phase', store')) :
    L.Readable store' ∧
      (∀ key, request.key ≠ key → L.slot now key store' = L.slot now key store) ∧
      Advance (hexdigest request.body) (L.slot now request.key store)
        (L.slot now request.key store') phase phase' := by
  cases phase with
  | lookingUp =>
    obtain ⟨rfl, rfl⟩ := Prod.mk.inj (Option.some.inj h)
    refine ⟨L.readable_getCached hreadable, fun key _ => L.slot_getCached key, ?_⟩
    rw [L.slot_getCached, L.getCached_eq hreadable]
    exact advance_found rfl rfl nofun
  | looking deadline =>
    obtain ⟨rfl, rfl⟩ := Prod.mk.inj (Option.some.inj h)
    refine ⟨L.readable_getCached hreadable, fun key _ => L.slot_getCached key, ?_⟩
    rw [L.slot_getCached, L.getCached_eq hreadable]
    exact advance_found rfl rfl nofun
  | lastLook =>
    obtain ⟨rfl, rfl⟩ := Prod.mk.inj (Option.some.inj h)
    refine ⟨L.readable_getCached hreadable, fun key _ => L.slot_getCached key, ?_⟩
    rw [L.slot_getCached, L.getCached_eq hreadable]
    exact advance_found rfl rfl fun answer h => (Phase.answered.inj h).symm
  | beginning =>
    obtain ⟨rfl, rfl⟩ := Prod.mk.inj (Option.some.inj h)
    refine ⟨L.readable_tryBegin hreadable, fun key hne => ?_, ?_⟩
    · rw [L.slot_tryBegin, if_neg (fun h => hne h.1)]
    · rw [L.slot_tryBegin, L.tryBegin_eq]
      cases hheld : (L.slot now request.key store).held with
      | true => exact .looks rfl rfl (if_neg (by simp)) nofun
      | false => exact .begins hheld (if_pos ⟨rfl, rfl⟩)
  | waiting =>
    obtain ⟨rfl, rfl⟩ := Prod.mk.inj (Option.some.inj h)
    exact ⟨hreadable, fun _ _ => rfl, .looks rfl rfl rfl nofun⟩
  | polling deadline =>
    obtain ⟨rfl, rfl⟩ := Prod.mk.inj (Option.some.inj h)
    refine ⟨hreadable, fun _ _ => rfl, ?_⟩
    split
    · exact .looks rfl rfl rfl nofun
    · exact .looks rfl rfl rfl nofun
  | storing response done =>
    obtain ⟨step, hstep, heq⟩ := Option.map_eq_some_iff.mp h
    obtain ⟨rfl, rfl⟩ := Prod.mk.inj heq
    refine ⟨L.readable_store hstep hreadable, fun key hne => L.slot_store_ne key hstep hne, ?_⟩
    split
    · rename_i hmore
      exact .stores (L.slot_store hstep) (L.held_store hstep hmore)
    · exact .stored (L.slot_store hstep)
  | aborting =>
    obtain ⟨rfl, rfl⟩ := Prod.mk.inj (Option.some.inj h)
    exact ⟨L.readable_abort hreadable, fun key hne => L.slot_abort_ne key hne,
      .frees L.slot_abort⟩
  | running sent => cases h
  | answered answer => cases h
  | ran response => cases h
  | dropped => cases h

/-- A step of the application, or a cancellation. -/
theorem drive_advance {request : Request} {event : Drive} {slot : Slot} {phase phase' : Phase}
    (h : drive hexdigest request event phase = some phase') :
    Advance (hexdigest request.body) slot slot phase phase' := by
  unfold drive at h
  split at h
  · obtain rfl := Option.some.inj h
    exact .sends rfl
  · split at h
    · rename_i hkept
      obtain rfl := Option.some.inj h
      exact .keeps (keptResponse_digest hkept) rfl
    · obtain rfl := Option.some.inj h
      exact .fails rfl
  · obtain rfl := Option.some.inj h
    exact .fails rfl
  · obtain rfl := Option.some.inj h
    exact .fails rfl
  · obtain rfl := Option.some.inj h
    exact .abandons rfl
  · obtain rfl := Option.some.inj h
    exact .frees id
  · cases h
  · cases h
  · cases h
  · rename_i hrunning hstoring haborting _ hran _
    obtain rfl := Option.some.inj h
    refine .looks ?_ rfl rfl nofun
    cases phase with
    | running sent => exact absurd rfl (hrunning sent)
    | storing response done => exact absurd rfl (hstoring response done)
    | aborting => exact absurd rfl haborting
    | ran response => exact absurd rfl (hran response)
    | _ => rfl
  · cases h

/-- What a step of a thread does. -/
theorem act_advance {shared shared' : Shared S} {thread next : Thread} {choice : Drive}
    (hreadable : L.Readable shared.store)
    (h : (middleware S mw hexdigest).act shared thread choice = some (shared', next)) :
    next.1 = thread.1 ∧ shared'.now = shared.now ∧ L.Readable shared'.store ∧
      (∀ key, thread.1.key ≠ key →
        L.slot shared.now key shared'.store = L.slot shared.now key shared.store) ∧
      Advance (hexdigest thread.1.body) (L.slot shared.now thread.1.key shared.store)
        (L.slot shared.now thread.1.key shared'.store) thread.2 next.2 := by
  simp only [middleware, actOf] at h
  split at h
  · obtain ⟨⟨phase, store⟩, hproceed, heq⟩ := Option.map_eq_some_iff.mp h
    obtain ⟨rfl, rfl⟩ := Prod.mk.inj heq
    obtain ⟨hread, hothers, hadvance⟩ := proceed_advance L hreadable hproceed
    exact ⟨rfl, rfl, hread, hothers, hadvance⟩
  · obtain ⟨phase, hdrive, heq⟩ := Option.map_eq_some_iff.mp h
    obtain ⟨rfl, rfl⟩ := Prod.mk.inj heq
    exact ⟨rfl, rfl, hreadable, fun _ _ => rfl, drive_advance hdrive⟩

/-- Only the reply of the store lets a request begin. -/
theorem proceed_of_begins {shared shared' : Shared S} {thread next : Thread} {choice : Drive}
    (h : (middleware S mw hexdigest).act shared thread choice = some (shared', next))
    (hphase : thread.2 = .beginning) (hruns : next.2 = .running []) : choice = .proceed := by
  obtain ⟨request, phase⟩ := thread
  obtain rfl : phase = .beginning := hphase
  cases choice with
  | proceed => rfl
  | cancel =>
    obtain rfl := (Prod.mk.inj (Option.some.inj h)).2
    cases hruns
  | _ => cases h

end

/-! ## What an active request has made of its slot -/

/-- The slot of a key while one of its requests is in this phase. -/
def PhaseOk (digest : String) (slot : Slot) : Phase → Prop
  | .running _ | .aborting => slot.held = true ∧ slot.response = none
  | .storing response done =>
      response.requestBodyDigest = some digest ∧ slot.held = true ∧
        (done = 0 ∧ slot.response = none ∨ slot.response = some response)
  | .ran (some response) =>
      response.requestBodyDigest = some digest ∧
        (slot.held = true ∧ slot.response = none ∨ slot.response = some response)
  | _ => True

namespace PhaseOk

variable {digest : String} {slot : Slot} {phase : Phase}

theorem of_inactive (h : phase.active = false) : PhaseOk digest slot phase := by
  rcases phase with _ | _ | _ | _ | _ | _ | _ | _ | _ | _ | ⟨_ | _⟩ | _
  all_goals trivial

/-- The slot of an active request is held, or it has a response. -/
theorem taken (h : PhaseOk digest slot phase) (hactive : phase.active = true) :
    slot.held = true ∨ slot.response ≠ none := by
  cases phase with
  | running sent => exact .inl h.1
  | storing response done => exact .inl h.2.1
  | aborting => exact .inl h.1
  | ran response =>
    cases response with
    | none => cases hactive
    | some response =>
      rcases h.2 with ⟨hheld, -⟩ | hresponse
      · exact .inl hheld
      · exact .inr (by simp [hresponse])
  | _ => cases hactive

theorem digest_of_kept (h : PhaseOk digest slot phase) {response : CachedResponse}
    (hkept : phase.kept = some response) : response.requestBodyDigest = some digest := by
  cases phase with
  | storing kept done =>
    obtain rfl := Option.some.inj hkept
    exact h.1
  | ran kept =>
    obtain rfl : kept = some response := hkept
    exact h.1
  | _ => cases hkept

end PhaseOk

theorem Phase.active_of_kept {phase : Phase} (h : phase.kept ≠ none) : phase.active = true := by
  rcases phase with _ | _ | _ | _ | _ | _ | _ | _ | _ | _ | ⟨_ | _⟩ | _
  all_goals first
    | rfl
    | exact absurd rfl h

namespace Advance

variable {digest : String} {slot slot' : Slot} {phase phase' : Phase}

/-- A step that does not begin over a response keeps what its phase says. -/
theorem phaseOk (h : Advance digest slot slot' phase phase') (hok : PhaseOk digest slot phase)
    (hover : slot.held = false → phase = .beginning → phase' = .running [] →
      slot.response = none) :
    PhaseOk digest slot' phase' := by
  cases h with
  | looks _ hphase' => exact .of_inactive hphase'
  | begins hfree hslot =>
    subst hslot
    exact ⟨rfl, hover hfree rfl rfl⟩
  | sends hslot =>
    subst hslot
    exact hok
  | keeps hdigest hslot =>
    subst hslot
    exact ⟨hdigest, hok.1, .inl ⟨rfl, hok.2⟩⟩
  | fails hslot =>
    subst hslot
    exact hok
  | stores hstored hheld =>
    exact ⟨hok.1, hheld.trans hok.2.1, .inr (hstored (hok.2.2.imp_left And.left))⟩
  | stored hstored => exact ⟨hok.1, .inr (hstored (hok.2.2.imp_left And.left))⟩
  | abandons hslot =>
    subst hslot
    exact ⟨hok.1, hok.2.2.imp_left fun h => ⟨hok.2.1, h.2⟩⟩
  | frees => trivial

/-- A response that is kept stays kept. -/
theorem kept (h : Advance digest slot slot' phase phase') {response : CachedResponse}
    (hkept : phase.kept = some response) : phase'.kept = some response := by
  cases h with
  | looks hphase =>
    have hactive : phase.active = true := Phase.active_of_kept (by rw [hkept]; nofun)
    rw [hphase] at hactive
    cases hactive
  | stores => exact hkept
  | stored => exact hkept
  | abandons => exact hkept
  | _ => cases hkept

/-- The response of the slot was there or is the one the request has kept. -/
theorem response (h : Advance digest slot slot' phase phase') (hok : PhaseOk digest slot phase)
    {response : CachedResponse} (hresponse : slot'.response = some response) :
    slot.response = some response ∨ phase'.kept = some response := by
  cases h with
  | looks _ _ hslot => exact .inl (hslot ▸ hresponse)
  | begins _ hslot =>
    subst hslot
    exact .inl hresponse
  | sends hslot => exact .inl (hslot ▸ hresponse)
  | keeps _ hslot => exact .inl (hslot ▸ hresponse)
  | fails hslot => exact .inl (hslot ▸ hresponse)
  | stores hstored =>
    rw [hstored (hok.2.2.imp_left And.left)] at hresponse
    exact .inr hresponse
  | stored hstored =>
    rw [hstored (hok.2.2.imp_left And.left)] at hresponse
    exact .inr hresponse
  | abandons hslot => exact .inl (hslot ▸ hresponse)
  | frees hnone =>
    rw [hnone hok.2] at hresponse
    cases hresponse

/-- A request that is not active leaves the slot alone and stays so, unless it
    takes the key. -/
theorem inactive (h : Advance digest slot slot' phase phase') (hphase : phase.active = false) :
    (slot' = slot ∧ phase'.active = false) ∨
      (phase = .beginning ∧ phase' = .running [] ∧ slot.held = false) := by
  cases h with
  | looks _ hphase' hslot => exact .inl ⟨hslot, hphase'⟩
  | begins hfree => exact .inr ⟨rfl, rfl, hfree⟩
  | _ => cases hphase

theorem fair (h : Advance digest slot slot' phase phase') {answer : Answer}
    (hanswer : phase' = .answered answer) : Fair digest slot.response answer := by
  cases h with
  | looks _ _ _ hfair => exact hfair answer hanswer
  | _ => cases hanswer

end Advance

/-! ## The requests of a key -/

section

variable {S : IdempotencyStore}

/-- The thread at a place, when it is of the key. -/
def At (pool : Pool (Shared S) Thread) (key : String) (i : Nat) (thread : Thread) : Prop :=
  pool.threads[i]? = some thread ∧ thread.1.key = key

/-- The law of a key. -/
structure ExecutesOnce (key : String) (pool : Pool (Shared S) Thread) : Prop where
  /-- At most one run of the application ends with a response that is kept. -/
  once : ∀ i j thread thread', At pool key i thread → At pool key j thread' →
    thread.2.kept ≠ none → thread'.2.kept ≠ none → i = j
  /-- An answer without a run of one's own is that response, to the same body, or a
      409. -/
  answers : ∀ i request answer, At pool key i (request, .answered answer) →
    answer = stillInProgress ∨ answer = differentBody ∨
      ∃ j owner response, At pool key j owner ∧ owner.2.kept = some response ∧
        owner.1.body = request.body ∧ answer = sendCached response

variable (L : Lawful S)

def slotOf (key : String) (pool : Pool (Shared S) Thread) : Slot :=
  L.slot pool.shared.now key pool.shared.store

structure Inv (hexdigest : List UInt8 → String) (key : String) (pool : Pool (Shared S) Thread) :
    Prop where
  readable : L.Readable pool.shared.store
  unique : ∀ i j thread thread', At pool key i thread → At pool key j thread' →
    thread.2.active = true → thread'.2.active = true → i = j
  each : ∀ i thread, At pool key i thread →
    PhaseOk (hexdigest thread.1.body) (slotOf L key pool) thread.2
  stored : ∀ response, (slotOf L key pool).response = some response →
    ∃ i thread, At pool key i thread ∧ thread.2.kept = some response
  answers : ∀ i request answer, At pool key i (request, .answered answer) →
    ∃ response, Fair (hexdigest request.body) response answer ∧
      ∀ kept, response = some kept → ∃ j owner, At pool key j owner ∧ owner.2.kept = some kept

/-- The request takes the key while a response is stored under it. -/
def BeginsOverResponse (key : String) (x : PoolMove (Shared S) Thread Drive Nat) : Prop :=
  ∃ i request, x.input = .step i .proceed ∧ At x.pre key i (request, .beginning) ∧
    (slotOf L key x.pre).held = false ∧ (slotOf L key x.pre).response ≠ none

/-- Nothing that is kept under the key expires. -/
def WithinTtl (key : String) (x : PoolMove (Shared S) Thread Drive Nat) : Prop :=
  ∀ t ∈ L.expiry key x.pre.shared.store, x.pre.shared.now < t → x.post.shared.now < t

variable {L} {mw : IdempotencyMiddleware} {hexdigest : List UInt8 → String} {key : String}
  {pool pool' : Pool (Shared S) Thread}

/-- What holds of a key depends on its slot and on its requests. -/
theorem Inv.congr (h : Inv L hexdigest key pool) (hreadable : L.Readable pool'.shared.store)
    (hslot : slotOf L key pool' = slotOf L key pool)
    (hat : ∀ i thread, At pool' key i thread ↔ At pool key i thread) :
    Inv L hexdigest key pool' where
  readable := hreadable
  unique i j thread thread' hi hj :=
    h.unique i j thread thread' ((hat _ _).mp hi) ((hat _ _).mp hj)
  each i thread hi := hslot ▸ h.each i thread ((hat _ _).mp hi)
  stored response hresponse := by
    obtain ⟨i, thread, hi, hkept⟩ := h.stored response (hslot ▸ hresponse)
    exact ⟨i, thread, (hat _ _).mpr hi, hkept⟩
  answers i request answer hi := by
    obtain ⟨response, hfair, howner⟩ := h.answers i request answer ((hat _ _).mp hi)
    refine ⟨response, hfair, fun kept hresponse => ?_⟩
    obtain ⟨j, owner, hj, hkept⟩ := howner kept hresponse
    exact ⟨j, owner, (hat _ _).mpr hj, hkept⟩

/-- A request that comes in looks up first. -/
theorem Inv.spawn (h : Inv L hexdigest key pool) {new : Thread}
    (hnew : new.2 = .lookingUp) :
    Inv L hexdigest key ⟨pool.shared, pool.threads ++ [new]⟩ := by
  have hmono : ∀ {i thread}, At pool key i thread →
      At (⟨pool.shared, pool.threads ++ [new]⟩ : Pool (Shared S) Thread) key i thread :=
    fun hi => ⟨Pool.getElem?_push_iff.mpr (.inl hi.1), hi.2⟩
  have hback : ∀ {i thread},
      At (⟨pool.shared, pool.threads ++ [new]⟩ : Pool (Shared S) Thread) key i thread →
      At pool key i thread ∨ thread.2 = .lookingUp := by
    rintro i thread ⟨hi, hkey⟩
    rcases Pool.getElem?_push_iff.mp hi with hold | ⟨-, rfl⟩
    · exact .inl ⟨hold, hkey⟩
    · exact .inr hnew
  constructor
  · exact h.readable
  · intro i j thread thread' hi hj hactive hactive'
    rcases hback hi with hi | hphase
    · rcases hback hj with hj | hphase'
      · exact h.unique i j thread thread' hi hj hactive hactive'
      · rw [hphase'] at hactive'
        cases hactive'
    · rw [hphase] at hactive
      cases hactive
  · intro i thread hi
    rcases hback hi with hi | hphase
    · exact h.each i thread hi
    · rw [hphase]
      trivial
  · intro response hresponse
    obtain ⟨i, thread, hi, hkept⟩ := h.stored response hresponse
    exact ⟨i, thread, hmono hi, hkept⟩
  · intro i request answer hi
    rcases hback hi with hi | hphase
    · obtain ⟨response, hfair, howner⟩ := h.answers i request answer hi
      refine ⟨response, hfair, fun kept hresponse => ?_⟩
      obtain ⟨j, owner, hj, hkept⟩ := howner kept hresponse
      exact ⟨j, owner, hmono hj, hkept⟩
    · cases hphase

/-- A request of the key makes a step and does not begin over a response. -/
theorem Inv.step (h : Inv L hexdigest key pool) {i : Nat} {thread : Thread} {phase : Phase}
    {shared : Shared S} (hi : At pool key i thread) (hreadable : L.Readable shared.store)
    (hadvance : Advance (hexdigest thread.1.body) (slotOf L key pool)
      (L.slot shared.now key shared.store) thread.2 phase)
    (hover : (slotOf L key pool).held = false → thread.2 = .beginning → phase = .running [] →
      (slotOf L key pool).response = none) :
    Inv L hexdigest key ⟨shared, pool.threads.set i (thread.1, phase)⟩ := by
  have hiff : ∀ {j other},
      At (⟨shared, pool.threads.set i (thread.1, phase)⟩ : Pool (Shared S) Thread) key j other ↔
        (i = j ∧ (thread.1, phase) = other) ∨ i ≠ j ∧ At pool key j other := by
    intro j other
    rw [At, At, Pool.getElem?_set_iff hi.1]
    constructor
    · rintro ⟨hself | ⟨hne, hother⟩, hkey⟩
      · exact .inl hself
      · exact .inr ⟨hne, hother, hkey⟩
    · rintro (⟨rfl, rfl⟩ | ⟨hne, hother, hkey⟩)
      · exact ⟨.inl ⟨rfl, rfl⟩, hi.2⟩
      · exact ⟨.inr ⟨hne, hother⟩, hkey⟩
  -- Beside another active request, this one neither is active nor takes the key.
  have hquiet : ∀ {j other}, i ≠ j → At pool key j other → other.2.active = true →
      L.slot shared.now key shared.store = slotOf L key pool ∧ phase.active = false := by
    intro j other hne hj hactive
    have hphase : thread.2.active = false := by
      by_contra hself
      exact hne (h.unique i j thread other hi hj (by simpa using hself) hactive)
    rcases hadvance.inactive hphase with hsame | ⟨hbegins, hruns, hfree⟩
    · exact hsame
    · rcases (h.each j other hj).taken hactive with hheld | hresponse
      · rw [hheld] at hfree
        cases hfree
      · exact absurd (hover hfree hbegins hruns) hresponse
  have hkeeps : ∀ {j owner kept}, At pool key j owner → owner.2.kept = some kept →
      ∃ j owner, At (⟨shared, pool.threads.set i (thread.1, phase)⟩ : Pool (Shared S) Thread)
        key j owner ∧ owner.2.kept = some kept := by
    intro j owner kept hj hkept
    by_cases hij : i = j
    · subst hij
      obtain rfl := Option.some.inj (hi.1.symm.trans hj.1)
      exact ⟨i, _, hiff.mpr (.inl ⟨rfl, rfl⟩), hadvance.kept hkept⟩
    · exact ⟨j, owner, hiff.mpr (.inr ⟨hij, hj⟩), hkept⟩
  constructor
  · exact hreadable
  · intro j k other other' hj hk hactive hactive'
    rcases hiff.mp hj with ⟨rfl, rfl⟩ | ⟨hne, hj⟩
    · rcases hiff.mp hk with ⟨rfl, -⟩ | ⟨hne', hk⟩
      · rfl
      · rw [(hquiet hne' hk hactive').2] at hactive
        cases hactive
    · rcases hiff.mp hk with ⟨rfl, rfl⟩ | ⟨hne', hk⟩
      · rw [(hquiet hne hj hactive).2] at hactive'
        cases hactive'
      · exact h.unique j k other other' hj hk hactive hactive'
  · intro j other hj
    rcases hiff.mp hj with ⟨rfl, rfl⟩ | ⟨hne, hj⟩
    · exact hadvance.phaseOk (h.each i thread hi) hover
    · cases hactive : other.2.active with
      | false => exact .of_inactive hactive
      | true =>
        rw [slotOf, (hquiet hne hj hactive).1]
        exact h.each j other hj
  · intro response hresponse
    rcases hadvance.response (h.each i thread hi) hresponse with hold | hkept
    · obtain ⟨j, owner, hj, hkept⟩ := h.stored response hold
      exact hkeeps hj hkept
    · exact ⟨i, _, hiff.mpr (.inl ⟨rfl, rfl⟩), hkept⟩
  · intro j request answer hj
    rcases hiff.mp hj with ⟨rfl, heq⟩ | ⟨hne, hj⟩
    · obtain ⟨rfl, hphase⟩ := Prod.mk.inj heq
      refine ⟨_, hadvance.fair hphase, fun kept hresponse => ?_⟩
      obtain ⟨k, owner, hk, hkept⟩ := h.stored kept hresponse
      exact hkeeps hk hkept
    · obtain ⟨response, hfair, howner⟩ := h.answers j request answer hj
      refine ⟨response, hfair, fun kept hresponse => ?_⟩
      obtain ⟨k, owner, hk, hkept⟩ := howner kept hresponse
      exact hkeeps hk hkept

/-- A move keeps what holds of the key, within the time to live and unless it
    begins over a response. -/
theorem Inv.move {x : PoolMove (Shared S) Thread Drive Nat}
    (hx : (middleware S mw hexdigest).machine.Makes x) (httl : WithinTtl L key x)
    (hover : ¬ BeginsOverResponse L key x) (h : Inv L hexdigest key x.pre) :
    Inv L hexdigest key x.post := by
  rcases Pool.makes_cases hx with ⟨new, -, hadmits, hpost⟩ |
    ⟨i, choice, thread, next, hinput, hfound, hact, hthreads⟩ | ⟨ms, -, htick, hthreads⟩
  · rw [hpost]
    refine h.spawn ?_
    obtain ⟨request, phase⟩ := new
    cases phase with
    | lookingUp => rfl
    | _ => cases hadmits
  · obtain ⟨hrequest, hnow, hreadable, hothers, hadvance⟩ := act_advance L h.readable hact
    by_cases hkey : thread.1.key = key
    · subst hkey
      have hpost : x.post = ⟨x.post.shared, x.pre.threads.set i (thread.1, next.2)⟩ := by
        rw [← hrequest, ← hthreads]
      rw [hpost]
      refine h.step ⟨hfound, rfl⟩ hreadable ?_ fun hfree hphase hruns => ?_
      · rw [hnow]
        exact hadvance
      · by_contra hresponse
        obtain rfl := proceed_of_begins hact hphase hruns
        exact hover ⟨i, thread.1, hinput, ⟨by rw [hfound, ← hphase], rfl⟩, hfree, hresponse⟩
    · refine h.congr hreadable ?_ fun j other => ?_
      · rw [slotOf, slotOf, hnow, hothers key hkey]
      · rw [At, At, hthreads, Pool.getElem?_set_iff hfound]
        constructor
        · rintro ⟨⟨-, rfl⟩ | ⟨-, hother⟩, hother'⟩
          · exact absurd (hrequest ▸ hother') hkey
          · exact ⟨hother, hother'⟩
        · rintro ⟨hother, hother'⟩
          refine ⟨.inr ⟨?_, hother⟩, hother'⟩
          rintro rfl
          obtain rfl := Option.some.inj (hfound.symm.trans hother)
          exact hkey hother'
  · obtain hshared := Option.some.inj htick
    refine h.congr ?_ ?_ fun j other => by rw [At, At, hthreads]
    · rw [← hshared]
      exact h.readable
    · rw [slotOf, slotOf]
      have hle : x.pre.shared.now ≤ x.post.shared.now := by
        rw [← hshared]
        exact Nat.le_add_right _ _
      have hstore : x.post.shared.store = x.pre.shared.store := by rw [← hshared]
      rw [hstore]
      exact L.slot_time hle httl

/-- The bodies of the requests of a key are told apart by their digests. -/
def DigestsApart (hexdigest : List UInt8 → String) (key : String)
    (pool : Pool (Shared S) Thread) : Prop :=
  ∀ i j thread thread', At pool key i thread → At pool key j thread' →
    hexdigest thread.1.body = hexdigest thread'.1.body → thread.1.body = thread'.1.body

theorem Inv.executesOnce (h : Inv L hexdigest key pool)
    (hdigest : DigestsApart hexdigest key pool) : ExecutesOnce key pool where
  once i j thread thread' hi hj hkept hkept' :=
    h.unique i j thread thread' hi hj (Phase.active_of_kept hkept) (Phase.active_of_kept hkept')
  answers i request answer hi := by
    obtain ⟨response, hfair, howner⟩ := h.answers i request answer hi
    rcases hfair with hwait | hother | ⟨kept, hresponse, hsame, hanswer⟩
    · exact .inl hwait
    · exact .inr (.inl hother)
    · obtain ⟨j, owner, hj, hkept⟩ := howner kept hresponse
      have howns := (h.each j owner hj).digest_of_kept hkept
      refine .inr (.inr ⟨j, owner, kept, hj, hkept, ?_, hanswer⟩)
      exact hdigest j i owner _ hj hi (Option.some.inj (howns.symm.trans hsame))

theorem inv_idle : Inv L hexdigest key (idle S) where
  readable := L.readable_init
  unique i j thread thread' hi := by simp [At, idle] at hi
  each i thread hi := by simp [At, idle] at hi
  stored response hresponse := by
    rw [slotOf, idle, L.slot_init] at hresponse
    cases hresponse
  answers i request answer hi := by simp [At, idle] at hi

/-- Over any lawful store, the law holds as long as no request begins over a
    response. -/
theorem Lawful.executesOnce {tr : List (PoolMove (Shared S) Thread Drive Nat)}
    (h : Run (middleware S mw hexdigest).machine (idle S) tr pool)
    (httl : ∀ x ∈ tr, WithinTtl L key x) (hover : ∀ x ∈ tr, ¬ BeginsOverResponse L key x)
    (hdigest : DigestsApart hexdigest key pool) : ExecutesOnce key pool := by
  have hinv := (Run.invariant_when (C := fun x => WithinTtl L key x ∧ ¬ BeginsOverResponse L key x)
    (fun x hx hcond => Inv.move hx hcond.1 hcond.2) h
    (fun x hx => ⟨httl x hx, hover x hx⟩) inv_idle).2
  exact hinv.executesOnce hdigest

/-- Under the dictionary no request can begin over a response. -/
theorem not_beginsOverResponse {x : PoolMove (Shared inMemoryIdempotencyStore) Thread Drive Nat} :
    ¬ BeginsOverResponse inMemoryLawful key x := by
  rintro ⟨i, request, -, -, hfree, hresponse⟩
  obtain ⟨response, hsome⟩ := Option.ne_none_iff_exists'.mp hresponse
  have hheld : (slotOf inMemoryLawful key x.pre).held = true :=
    InMemoryIdempotencyStore.held_of_response hsome
  rw [hheld] at hfree
  cases hfree

end

/-! ## Both stores -/

/-- The law holds of every key in every run over the dictionary, and over Redis in
    every run in which no request begins over a stored response. -/
theorem executes_once (mw : IdempotencyMiddleware) (hexdigest : List UInt8 → String)
    (key : String) :
    (∀ tr pool, Run (middleware inMemoryIdempotencyStore mw hexdigest).machine
        (idle inMemoryIdempotencyStore) tr pool →
      (∀ x ∈ tr, WithinTtl inMemoryLawful key x) → DigestsApart hexdigest key pool →
      ExecutesOnce key pool) ∧
    ∀ keyPrefix tr pool, Run (middleware (redisIdempotencyStore keyPrefix) mw hexdigest).machine
        (idle (redisIdempotencyStore keyPrefix)) tr pool →
      (∀ x ∈ tr, WithinTtl (redisLawful keyPrefix) key x) → DigestsApart hexdigest key pool →
      (∀ x ∈ tr, ¬ BeginsOverResponse (redisLawful keyPrefix) key x) →
      ExecutesOnce key pool := by
  constructor
  · intro tr pool h httl hdigest
    exact inMemoryLawful.executesOnce h httl (fun _ _ => not_beginsOverResponse) hdigest
  · intro keyPrefix tr pool h httl hdigest hover
    exact (redisLawful keyPrefix).executesOnce h httl hover hdigest

def sampleMiddleware : IdempotencyMiddleware := .new 86400 5000 52428800 "idempotency-key"

def sampleScope : Scope :=
  { type := "http"
    method := some "POST"
    path := some "/api/v1/runs"
    headers := [(asciiBytes "idempotency-key", asciiBytes "key-1")] }

def sampleKey : String := "695ef57b5ce4c028b12eeb4c7a9ac1d06190ac9df895e8cd6f2845acddea87f8"

def sampleBody : List UInt8 := asciiBytes "\x7b\x7d"

/-- The digests of the two texts that are hashed below. -/
def sampleDigest (bytes : List UInt8) : String :=
  if bytes = sampleBody then "44136fa355b3678a1146ad16f7e8649e94fb4fc21fe77e8310c060f61caaff8a"
  else sampleKey

def sampleRequest : Request := ⟨sampleKey, sampleBody⟩

example : sampleMiddleware.admit sampleDigest sampleScope [.request sampleBody false] =
    .admitted sampleRequest := by
  rfl

/-- A request that looks up, begins and runs the application to its end. -/
def runsApplication (i : Nat) : List (PoolInput Thread Drive Nat) :=
  [.step i .proceed, .step i (.send (.start 200 [])), .step i (.send (.body [111, 107])),
   .step i .returns]

def Phase.begins : Phase → Bool
  | .beginning => true
  | _ => false

def Phase.answer : Phase → Option Answer
  | .answered answer => some answer
  | _ => none

theorem Phase.answer_eq_some {phase : Phase} {answer : Answer} :
    phase.answer = some answer ↔ phase = .answered answer := by
  cases phase <;> simp [Phase.answer]

section

variable {S : IdempotencyStore} {L : Lawful S} {tr : List (PoolMove (Shared S) Thread Drive Nat)}
  {pool : Pool (Shared S) Thread}

/-- Nothing expires while the clock stands. -/
theorem withinTtl_of_clock
    (h : tr.all (fun x => decide (x.post.shared.now ≤ x.pre.shared.now)) = true) :
    ∀ x ∈ tr, WithinTtl L sampleKey x := by
  intro x hx t _ hlt
  have hle := of_decide_eq_true (List.all_eq_true.mp h x hx)
  exact hle.trans_lt hlt

theorem digestsApart_of_same
    (h : pool.threads.all (fun thread => thread.1 == sampleRequest) = true) :
    DigestsApart sampleDigest sampleKey pool := by
  intro i j thread thread' hi hj _
  have hsame : ∀ {k other}, At pool sampleKey k other → other.1 = sampleRequest :=
    fun hk => eq_of_beq (List.all_eq_true.mp h _ (List.mem_of_getElem? hk.1))
  rw [hsame hi, hsame hj]

end

/-- Two requests look up before either has a response; the second begins after the
    first has stored its own. -/
def lateBegin : List (PoolInput Thread Drive Nat) :=
  [.spawn (sampleRequest, .lookingUp), .spawn (sampleRequest, .lookingUp),
   .step 0 .proceed, .step 1 .proceed] ++ runsApplication 0 ++
  [.step 0 .proceed, .step 0 .proceed] ++ runsApplication 1

/-- Both run the application to a response that is kept. -/
theorem runs_twice :
    ∃ tr pool, Run (middleware (redisIdempotencyStore "idem") sampleMiddleware sampleDigest).machine
        (idle (redisIdempotencyStore "idem")) tr pool ∧
      (∀ x ∈ tr, WithinTtl (redisLawful "idem") sampleKey x) ∧
      DigestsApart sampleDigest sampleKey pool ∧ ¬ ExecutesOnce sampleKey pool := by
  obtain ⟨tr, pool, h, -, hcheck⟩ := Machine.exists_run
    (middleware (redisIdempotencyStore "idem") sampleMiddleware sampleDigest).machine
    (idle (redisIdempotencyStore "idem")) lateBegin
    (fun tr pool => tr.all (fun x => decide (x.post.shared.now ≤ x.pre.shared.now)) &&
      pool.threads.all (fun thread => thread.1 == sampleRequest) &&
      (pool.threads[0]?).any (fun thread => thread.1.key == sampleKey && thread.2.kept.isSome) &&
      (pool.threads[1]?).any (fun thread => thread.1.key == sampleKey && thread.2.kept.isSome))
    (by decide +kernel)
  simp only [Bool.and_eq_true, Option.any_eq_true, beq_iff_eq, Option.isSome_iff_ne_none]
    at hcheck
  obtain ⟨⟨⟨hclock, hsame⟩, first, hfirst, hkey, hkept⟩, second, hsecond, hkey', hkept'⟩ := hcheck
  refine ⟨tr, pool, h, withinTtl_of_clock hclock, digestsApart_of_same hsame, fun hlaw => ?_⟩
  have hsameplace := hlaw.once 0 1 first second ⟨hfirst, hkey⟩ ⟨hsecond, hkey'⟩ hkept hkept'
  cases hsameplace

/-- The second request begins while the first runs, waits, and is answered. -/
def waitsForResponse : List (PoolInput Thread Drive Nat) :=
  [.spawn (sampleRequest, .lookingUp), .spawn (sampleRequest, .lookingUp),
   .step 0 .proceed, .step 1 .proceed] ++ runsApplication 0 ++
  [.step 1 .proceed, .step 1 .proceed, .step 1 .proceed, .step 0 .proceed, .step 0 .proceed,
   .step 1 .proceed]

/-- It is answered with the response of the first. -/
theorem executes_once_waits :
    ∃ tr pool answer,
      Run (middleware (redisIdempotencyStore "idem") sampleMiddleware sampleDigest).machine
        (idle (redisIdempotencyStore "idem")) tr pool ∧
      At pool sampleKey 1 (sampleRequest, .answered answer) ∧ answer.status = 200 ∧
      ExecutesOnce sampleKey pool := by
  obtain ⟨tr, pool, h, -, hcheck⟩ := Machine.exists_run
    (middleware (redisIdempotencyStore "idem") sampleMiddleware sampleDigest).machine
    (idle (redisIdempotencyStore "idem")) waitsForResponse
    (fun tr pool => tr.all (fun x => decide (x.post.shared.now ≤ x.pre.shared.now)) &&
      tr.all (fun x => x.pre.threads.all fun thread => !thread.2.begins ||
        (slotOf (redisLawful "idem") sampleKey x.pre).response.isNone) &&
      pool.threads.all (fun thread => thread.1 == sampleRequest) &&
      (pool.threads[1]?).any (fun thread => thread.2.answer.any fun answer =>
        answer.status == 200))
    (by decide +kernel)
  simp only [Bool.and_eq_true, Option.any_eq_true, beq_iff_eq] at hcheck
  obtain ⟨⟨⟨hclock, hover⟩, hsame⟩, ⟨request, phase⟩, hsecond, answer, hanswer, hstatus⟩ := hcheck
  obtain rfl : request = sampleRequest :=
    eq_of_beq (List.all_eq_true.mp hsame _ (List.mem_of_getElem? hsecond))
  obtain rfl : phase = .answered answer := Phase.answer_eq_some.mp hanswer
  refine ⟨tr, pool, answer, h, ⟨hsecond, rfl⟩, hstatus, ?_⟩
  refine (executes_once sampleMiddleware sampleDigest sampleKey).2 "idem" tr pool h
    (withinTtl_of_clock hclock) (digestsApart_of_same hsame) fun x hx => ?_
  rintro ⟨i, request, -, hat, -, hresponse⟩
  have hbegins := List.all_eq_true.mp (List.all_eq_true.mp hover x hx) _
    (List.mem_of_getElem? hat.1)
  exact hresponse (Option.isNone_iff_eq_none.mp hbegins)

end AiPlatform.Gateway
